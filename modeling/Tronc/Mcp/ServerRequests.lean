import Tronc.Mcp.Waiting

namespace Tronc.Mcp

open CancelTree Transition

variable {α : Type} {decode : Needs → Json → Option α}

/-- What a server's requests to its clients never get wrong. -/
structure Orderly (decode : Needs → Json → Option α) (w : Clients α) : Prop where
  sentOnce : ∀ id, w.requestsOf id ≤ 1
  /-- No request takes two answers. -/
  acceptedOnce : ∀ (k l : Nat) (d d' : Delivery), w.deliveries[k]? = some d →
    w.deliveries[l]? = some d' → d.waiter = d'.waiter → d.accepted = some true →
    d'.accepted = some true → k = l
  /-- An answer accepted names its request, and comes from the caller it was sent to. -/
  rightParty : ∀ (k : Nat) (d : Delivery), w.deliveries[k]? = some d → d.accepted = some true →
    ∃ (i : Nat) (v : Waiter α), d.waiter = some i ∧ w.waiters[i]? = some v ∧
      d.caller = v.connection.caller ∧ d.response.id = some (.string v.id)
  /-- A request returns what was accepted as its answer, that it was cancelled, timed out or
  disconnected, or nothing when its future was dropped. -/
  results : ∀ (i : Nat) (v : Waiter α), w.waiters[i]? = some v → ∀ outcome result,
    v.wait.settled = some (outcome, result) → Clients.Result decode w i v outcome result
  gone : ∀ (i : Nat) (v : Waiter α), w.waiters[i]? = some v → ∀ outcome result,
    v.wait = .ended outcome result → ∀ table, w.pending = some table → table.lookup v.key = none
  /-- No request waits on a closed table, but for an answer or its sender to be let go. -/
  closed : w.pending = none → ∀ (i : Nat) (v : Waiter α), w.waiters[i]? = some v →
    v.wait.isOpen = true → (∃ response, v.answer = some response) ∨ v.sender = .closing ∨
      v.sender = .dropped ∨ ∃ (k : Nat) (d : Delivery), w.deliveries[k]? = some d ∧
        d.waiter = some i ∧ d.accepted = none
  /-- A wait that ended otherwise than answered is of a request that was sent. -/
  sent : ∀ (i : Nat) (v : Waiter α), w.waiters[i]? = some v → ∀ outcome result,
    v.wait.settled = some (outcome, result) → outcome ≠ .answered → w.requestsOf v.id = 1
  noticedOnce : ∀ id, w.noticesOf id ≤ 1
  /-- A notice is about a request that was sent, and whose wait ended otherwise than answered. -/
  noticed : ∀ (i : Nat) (v : Waiter α), w.waiters[i]? = some v → w.noticesOf v.id = 1 →
    ∃ outcome result, v.wait = .ended outcome result ∧ outcome ≠ .answered ∧
      w.requestsOf v.id = 1

/-- Whether the queue of a connection takes messages. -/
def Clients.TakesMessages (w : Clients α) (connection : ClientConnection) : Prop :=
  ∃ outbound, connection.outbound = some outbound ∧ outbound ∉ w.hungUp

/-- What a step does once the table is closed, and when it ends a wait. -/
structure Fair (x : Taken (Clients α) Clients.Event) : Prop where
  stays : x.source.pending = none → x.target.pending = none
  unregistered : x.source.pending = none →
    x.target.waiters.length = x.source.waiters.length
  /-- A poll that finds the sender gone fails the request, late or not. -/
  disconnects : ∀ (i : Nat) (elapsed : Bool) (v : Waiter α), x.label = .read i elapsed →
    x.source.waiters[i]? = some v → v.answer = none → v.sender = .dropped →
    ∃ v', x.target.waiters[i]? = some v' ∧
      v'.wait = .ending .answered (some (.error .disconnected))
  /-- The notice goes out as the wait ends, unless it ended settled or nobody takes it. -/
  notifies : ∀ (i : Nat) (v : Waiter α) (outcome : Abandoned)
    (result : Option (Except ClientRequestError α)), x.label = .notice i →
    x.source.waiters[i]? = some v → v.wait = .noticing outcome result →
    (x.target.noticesOf v.id = x.source.noticesOf v.id + 1 ↔
      outcome ≠ .answered ∧ x.source.TakesMessages v.connection)
  /-- No other step sends one. -/
  silent : (∀ i, x.label ≠ .notice i) → ∀ id, x.target.noticesOf id = x.source.noticesOf id

namespace Clients

variable {w w' : Clients α} {e : Event}

theorem Kept.orderly (k : Kept decode w) : Orderly decode w where
  sentOnce id := by
    by_cases h : ∃ (i : Nat) (v : Waiter α), w.waiters[i]? = some v ∧ v.id = id
    · obtain ⟨i, v, hv, rfl⟩ := h
      rw [k.requests i v hv]
      split <;> omega
    · have hnone := k.unknown id fun i v hv hid => h ⟨i, v, hv, hid⟩
      omega
  acceptedOnce l m d d' hd hd' heq ha ha' := by
    cases hw : d.waiter with
    | none =>
      have hbad := (k.routed l d hd).1 hw
      rw [ha] at hbad
      cases hbad
    | some i =>
      obtain ⟨v, hv, _, _, _, hsent⟩ := ((k.routed l d hd).2 i hw).waiter
      obtain ⟨v', hv', _, _, _, hsent'⟩ := ((k.routed m d' hd').2 i (heq.symm.trans hw)).waiter
      rw [hv] at hv'
      obtain rfl := Option.some.inj hv'
      exact Sender.sent.inj ((hsent true ha).symm.trans (hsent' true ha'))
  rightParty l d hd ha := by
    cases hw : d.waiter with
    | none =>
      have hbad := (k.routed l d hd).1 hw
      rw [ha] at hbad
      cases hbad
    | some i =>
      obtain ⟨v, hv, hcaller, hresponse, _⟩ := ((k.routed l d hd).2 i hw).waiter
      exact ⟨i, v, rfl, hv, hcaller, hresponse⟩
  results i v hv outcome result hs := ((k.sound i v hv).settled outcome result hs).1
  gone i v hv outcome result hwait table ht := by
    cases hl : table.lookup v.key with
    | none => rfl
    | some j =>
      obtain ⟨u, hu, hkey, htabled⟩ := (k.table table ht v.key j).mp hl
      have hji := k.distinct j i u v hu hv (congrArg PendingKey.id hkey)
      subst hji
      rw [hv] at hu
      obtain rfl := Option.some.inj hu
      have hbad := (k.sound j v hv).tabled htabled
      rw [hwait] at hbad
      cases hbad
  closed hp i v hv hopen := by
    have hs := k.sound i v hv
    cases hsender : v.sender with
    | tabled => exact absurd hsender (k.closed hp i v hv)
    | carried l =>
      obtain ⟨d, hd, hwaiter, hnone⟩ := hs.carried l hsender
      exact .inr (.inr (.inr ⟨l, d, hd, hwaiter, hnone⟩))
    | closing => exact .inr (.inl rfl)
    | sent l => exact .inl (Option.ne_none_iff_exists'.mp (hs.unread hopen l hsender))
    | dropped => exact .inr (.inr (.inl rfl))
  sent i v hv outcome result hs hne := by
    rw [k.requests i v hv, ((k.sound i v hv).settled outcome result hs).2 hne]
    rfl
  noticedOnce id := by
    by_cases h : ∃ (i : Nat) (v : Waiter α), w.waiters[i]? = some v ∧ v.id = id
    · obtain ⟨i, v, hv, rfl⟩ := h
      rw [k.notices i v hv]
      split <;> omega
    · have hnone := k.unknown id fun i v hv hid => h ⟨i, v, hv, hid⟩
      omega
  noticed i v hv hn := by
    rw [k.notices i v hv] at hn
    split at hn
    · rename_i hnotified
      have hs := k.sound i v hv
      obtain ⟨outcome, result, hwait, hne⟩ := hs.notified hnotified
      have hsent := (hs.settled outcome result (by rw [hwait]; rfl)).2 hne
      exact ⟨outcome, result, hwait, hne, by rw [k.requests i v hv, hsent]; rfl⟩
    · cases hn

theorem enqueue_isTaken (connection : ClientConnection) (message : JsonRpcRequest) :
    (w.enqueue connection message).2 = true ↔ w.TakesMessages connection := by
  unfold enqueue TakesMessages
  split
  · rename_i hnone
    refine iff_of_false nofun ?_
    rintro ⟨o, ho, _⟩
    rw [hnone] at ho
    cases ho
  · rename_i outbound hsome
    split
    · rename_i hmem
      refine iff_of_false nofun ?_
      rintro ⟨o, ho, hnot⟩
      rw [hsome] at ho
      rw [← Option.some.inj ho] at hnot
      exact hnot hmem
    · rename_i hmem
      exact iff_of_true rfl ⟨outbound, hsome, hmem⟩

theorem step_notices (h : w.step decode e = some w') (hn : ∀ i, e ≠ .notice i) (id : String) :
    w'.noticesOf id = w.noticesOf id := by
  cases step_moves h with
  | notices i => exact absurd rfl (hn i)
  | sends i v queued sent hv hwait hq =>
    show queued.countP _ = w.queued.countP _
    rw [enqueue_countP (fun m => m.method == NOTIFICATIONS_CANCELLED &&
      m.params.bind (Json.get · "requestId") == some (.string id)) hq, (request_counted v id).2]
    simp
  | outside | refuses | registers | turns | forgets | misses | takes | answers | closes => rfl

theorem notice_notifies {i : Nat} {v : Waiter α} {outcome : Abandoned}
    {result : Option (Except ClientRequestError α)} (hv : w.waiters[i]? = some v)
    (hwait : v.wait = .noticing outcome result) (h : w.step decode (.notice i) = some w') :
    w'.noticesOf v.id = w.noticesOf v.id + 1 ↔
      outcome ≠ .answered ∧ w.TakesMessages v.connection := by
  have hnotice : w.notice i v = some w' := by
    obtain ⟨u, hu, hw⟩ := Option.bind_eq_some_iff.mp h
    rw [hv] at hu
    rw [Option.some.inj hu]
    exact hw
  unfold notice at hnotice
  rw [hwait] at hnotice
  obtain rfl := Option.some.inj hnotice
  cases hreason : outcome.reason with
  | none =>
    have hanswered : outcome = .answered := by
      cases outcome with
      | answered => rfl
      | dropped | cancelled | timedOut => cases hreason
    refine iff_of_false (fun hc => ?_) (fun hc => hc.1 hanswered)
    have hsame : w.queued.countP _ = w.queued.countP _ + 1 := hc
    omega
  | some reason =>
    have hne : outcome ≠ .answered := by
      rintro rfl
      cases hreason
    have hcount := enqueue_countP (fun m => m.method == NOTIFICATIONS_CANCELLED &&
      m.params.bind (Json.get · "requestId") == some (.string v.id))
      (Prod.eta (w.enqueue v.connection (v.notice reason))).symm
    rw [(notice_counted v reason v.id).2, beq_self_eq_true, Bool.and_true] at hcount
    rw [and_iff_right hne, ← enqueue_isTaken v.connection (v.notice reason)]
    show (w.enqueue v.connection (v.notice reason)).1.countP _ = w.queued.countP _ + 1 ↔ _
    rw [hcount]
    cases (w.enqueue v.connection (v.notice reason)).2
    · simp
    · simp

theorem step_fair (h : w.step decode e = some w') : Fair ⟨w, e, w'⟩ where
  stays hp := by
    have hp' : w.pending = none := hp
    show w'.pending = none
    cases step_moves h with
    | outside | refuses | sends | turns | notices | misses | answers => exact hp'
    | closes => rfl
    | forgets i v outcome result hv hwait =>
      show w.pending.map _ = none
      rw [hp']
      rfl
    | registers _ _ _ _ v table ht =>
      rw [hp'] at ht
      cases ht
    | takes caller response id i table ht =>
      rw [hp'] at ht
      cases ht
  unregistered hp := by
    have hp' : w.pending = none := hp
    show w'.waiters.length = w.waiters.length
    cases step_moves h with
    | outside | refuses | misses => rfl
    | sends | turns | notices | answers | forgets => exact List.length_set
    | closes => exact List.length_map _
    | registers _ _ _ _ v table ht =>
      rw [hp'] at ht
      cases ht
    | takes caller response id i table ht =>
      rw [hp'] at ht
      cases ht
  disconnects i elapsed v hl hv hanswer hsender := by
    have hl' : e = .read i elapsed := hl
    subst hl'
    have hv' : w.waiters[i]? = some v := hv
    obtain ⟨u, hu, hw⟩ := Option.bind_eq_some_iff.mp h
    rw [hv'] at hu
    obtain rfl := Option.some.inj hu
    unfold read at hw
    split at hw
    · rw [hanswer, hsender] at hw
      obtain rfl := Option.some.inj hw
      refine ⟨{ v with
        wait := .ending .answered (some (.error .disconnected)), answer := none
        listening := false }, ?_, rfl⟩
      show (w.waiters.set i _)[i]? = _
      rw [List.getElem?_set_self (List.getElem?_eq_some_iff.mp hv').1, hsender]
    · cases hw
  notifies i v outcome result hl hv hwait := by
    have hl' : e = .notice i := hl
    subst hl'
    exact notice_notifies hv hwait h
  silent hn id := step_notices h hn id

theorem empty_kept : Kept decode (empty : Clients α) := by
  have none (i : Nat) (v : Waiter α) : (empty : Clients α).waiters[i]? ≠ some v := by
    show ([] : List (Waiter α))[i]? ≠ some v
    simp
  refine ⟨fun i _ u _ hu => absurd hu (none i u), ?_, nofun, fun i v hv => absurd hv (none i v), ?_,
    fun i v hv => absurd hv (none i v), fun i v hv => absurd hv (none i v), fun _ _ => ⟨rfl, rfl⟩⟩
  · intro table ht key i
    obtain rfl := Option.some.inj ht
    rw [AList.lookup_empty]
    refine iff_of_false nofun ?_
    rintro ⟨v, hv, _⟩
    exact none i v hv
  · intro k d hd
    have hd' : ([] : List Delivery)[k]? = some d := hd
    simp at hd'

end Clients

/-- Over any interleaving of a server's requests to its clients with the answers, the cancellations,
the deadlines, the futures dropped and the table closed. -/
theorem server_requests_orderly {w₀ w : Clients α} {tr : List (Taken (Clients α) Clients.Event)}
    (hi : (clients decode).init w₀) (hr : (clients decode).Run w₀ tr w) :
    Orderly decode w ∧ ∀ x ∈ tr, Fair x := by
  have hkept : Clients.Kept decode w := by
    refine hr.invariant (fun _ _ _ => Clients.Kept.step) ?_
    have hempty : w₀ = .empty := hi
    rw [hempty]
    exact Clients.empty_kept
  exact ⟨hkept.orderly, fun x hx => Clients.step_fair (hr.taken hx).1⟩

section Runs

/-- A call's channel on a connection of its own, whose client offers sampling. -/
def samplingChannel : ClientChannel :=
  ⟨some ⟨some 0, some ⟨true, false⟩, ⟨none, none, .connection 0⟩, 60⟩, .legacy, ⟨[0]⟩⟩

def textResult : Needs → Json → Option String := fun _ => Json.asStr

def sampled : JsonRpcResponse := .success (some (.string "id1")) (.string "hi")

/-- A request is answered by its client, and by another caller before it. -/
def answeredRequest : List Clients.Event :=
  [.token none, .request samplingChannel .sampling (.ok (.object [])) (.ok "id1"), .send 0,
    .look 0, .read 0 false, .deliver ⟨none, none, .connection 1⟩ sampled,
    .deliver ⟨none, none, .connection 0⟩ sampled, .answer 1, .look 0, .read 0 true, .forget 0,
    .notice 0]

/-- How the wait of request `i` ended, and the text it returned. -/
def returned (w : Clients String) (i : Nat) : Option (Abandoned × Option String) :=
  (w.waiters[i]?.bind fun v => v.wait.settled).map fun s =>
    (s.1, s.2.bind fun result => result.toOption)

theorem server_requests_orderly_answered : ∃ w tr,
    (clients textResult).Run .empty tr w ∧ returned w 0 = some (.answered, some "hi") ∧
    w.deliveries.map Delivery.accepted = [some false, some true] ∧
    Orderly textResult w ∧ ∀ x ∈ tr, Fair x := by
  have hrun : (exec (Clients.step textResult) .empty answeredRequest).map (fun w =>
      (returned w 0, w.deliveries.map Delivery.accepted)) =
      some (some (.answered, some "hi"), [some false, some true]) := by decide +kernel
  obtain ⟨w, hw, hfacts⟩ := Option.map_eq_some_iff.mp hrun
  obtain ⟨hreturned, haccepted⟩ := Prod.mk.inj hfacts
  obtain ⟨tr, hr⟩ := Lts.Run.exec (M := clients textResult) (I := fun _ => True)
    (fun _ _ _ _ hs => ⟨hs, trivial⟩) answeredRequest trivial hw (.start _)
  exact ⟨w, _, hr, hreturned, haccepted, server_requests_orderly rfl hr⟩

/-- The client's queue is gone when the request's future is dropped. -/
def unheardDrop : List Clients.Event :=
  [.token none, .request samplingChannel .sampling (.ok (.object [])) (.ok "id1"), .send 0,
    .hangUp 0, .abandon 0, .forget 0, .notice 0]

/-- No notice goes out to a client that is gone, though its request was sent and is dropped. -/
theorem notice_unsent : ∃ w tr, (clients textResult).init .empty ∧
    (clients textResult).Run .empty tr w ∧ returned w 0 = some (.dropped, none) ∧
    w.requestsOf "id1" = 1 ∧ w.noticesOf "id1" = 0 := by
  have hrun : (exec (Clients.step textResult) .empty unheardDrop).map (fun w =>
      (returned w 0, w.requestsOf "id1", w.noticesOf "id1")) =
      some (some (.dropped, none), 1, 0) := by decide +kernel
  obtain ⟨w, hw, hfacts⟩ := Option.map_eq_some_iff.mp hrun
  obtain ⟨hreturned, hfacts⟩ := Prod.mk.inj hfacts
  obtain ⟨hrequests, hnotices⟩ := Prod.mk.inj hfacts
  obtain ⟨tr, hr⟩ := Lts.Run.exec (M := clients textResult) (I := fun _ => True)
    (fun _ _ _ _ hs => ⟨hs, trivial⟩) unheardDrop trivial hw (.start _)
  exact ⟨w, _, rfl, hr, hreturned, hrequests, hnotices⟩

end Runs

end Tronc.Mcp
