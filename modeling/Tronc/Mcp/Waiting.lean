import Tronc.Mcp.ClientChannel

namespace Tronc.Mcp

open CancelTree Transition

namespace Wait

variable {α : Type}

/-- Whether the answer may still be read. -/
def isOpen : Wait α → Bool
  | .registered | .waiting | .looked => true
  | .ending _ _ | .noticing _ _ | .ended _ _ => false

/-- Whether the entry was removed. -/
def isForgotten : Wait α → Bool
  | .noticing _ _ | .ended _ _ => true
  | .registered | .waiting | .looked | .ending _ _ => false

/-- How the wait ended, and what `request` returns, unless its future was dropped. -/
def settled : Wait α → Option (Abandoned × Option (Except ClientRequestError α))
  | .ending outcome result | .noticing outcome result | .ended outcome result =>
    some (outcome, result)
  | .registered | .waiting | .looked => none

end Wait

namespace Clients

variable {α β : Type} {decode : Needs → Json → Option α} {w w' : Clients α} {e : Event}

/-- The response was accepted as the answer to request `i`. -/
def Accepted (w : Clients α) (i : Nat) (response : JsonRpcResponse) : Prop :=
  ∃ (k : Nat) (d : Delivery), w.deliveries[k]? = some d ∧ d.waiter = some i ∧
    d.accepted = some true ∧ d.response = response

/-- What a request may come to, and how. -/
inductive Result (decode : Needs → Json → Option α) (w : Clients α) (i : Nat) (v : Waiter α) :
    Abandoned → Option (Except ClientRequestError α) → Prop where
  | answered (response : JsonRpcResponse) : w.Accepted i response →
      Result decode w i v .answered (some (settle decode v.needs response))
  | disconnected : Result decode w i v .answered (some (.error .disconnected))
  | cancelled : Result decode w i v .cancelled (some (.error .cancelled))
  | timedOut : Result decode w i v .timedOut (some (.error (.timedOut v.connection.requestTimeout)))
  | dropped : Result decode w i v .dropped none

/-- What holds of request `i` all along. -/
structure Sound (decode : Needs → Json → Option α) (w : Clients α) (i : Nat) (v : Waiter α) :
    Prop where
  answer : ∀ response, v.answer = some response → w.Accepted i response
  unread : v.wait.isOpen = true → ∀ k, v.sender = .sent k → v.answer ≠ none
  listening : v.wait.isOpen = true → v.listening = true
  tabled : v.sender = .tabled → v.wait.isForgotten = false
  shut : v.sender = .closing ∨ (v.sender = .dropped ∧ v.wait.isForgotten = false) →
    w.pending = none
  carried : ∀ k, v.sender = .carried k → ∃ d, w.deliveries[k]? = some d ∧ d.waiter = some i ∧
    d.accepted = none
  unsent : v.wait = .registered → v.sent = false
  sent : v.wait = .waiting ∨ v.wait = .looked → v.sent = true
  settled : ∀ outcome result, v.wait.settled = some (outcome, result) →
    Result decode w i v outcome result ∧ (outcome ≠ .answered → v.sent = true)
  notified : v.notified = true →
    ∃ outcome result, v.wait = .ended outcome result ∧ outcome ≠ .answered

/-- What holds of delivery `k`: it has the sender it took, or has used it. -/
structure Routed (w : Clients α) (k : Nat) (d : Delivery) (i : Nat) : Prop where
  waiter : ∃ v, w.waiters[i]? = some v ∧ d.caller = v.connection.caller ∧
    d.response.id = some (.string v.id) ∧ (d.accepted = none → v.sender = .carried k) ∧
    ∀ b, d.accepted = some b → v.sender = .sent k

structure Kept (decode : Needs → Json → Option α) (w : Clients α) : Prop where
  distinct : ∀ (i j : Nat) (u v : Waiter α), w.waiters[i]? = some u → w.waiters[j]? = some v →
    u.id = v.id → i = j
  table : ∀ table, w.pending = some table → ∀ key i, table.lookup key = some i ↔
    ∃ v, w.waiters[i]? = some v ∧ v.key = key ∧ v.sender = .tabled
  closed : w.pending = none → ∀ (i : Nat) (v : Waiter α), w.waiters[i]? = some v →
    v.sender ≠ .tabled
  sound : ∀ (i : Nat) (v : Waiter α), w.waiters[i]? = some v → Sound decode w i v
  routed : ∀ (k : Nat) (d : Delivery), w.deliveries[k]? = some d →
    (d.waiter = none → d.accepted = some false) ∧ ∀ i, d.waiter = some i → Routed w k d i
  requests : ∀ (i : Nat) (v : Waiter α), w.waiters[i]? = some v →
    w.requestsOf v.id = if v.sent then 1 else 0
  notices : ∀ (i : Nat) (v : Waiter α), w.waiters[i]? = some v →
    w.noticesOf v.id = if v.notified then 1 else 0
  unknown : ∀ id, (∀ (i : Nat) (v : Waiter α), w.waiters[i]? = some v → v.id ≠ id) →
    w.requestsOf id = 0 ∧ w.noticesOf id = 0

/-- How the wait of one request goes on by itself. -/
inductive Turned (decode : Needs → Json → Option α) (w : Clients α) (v : Waiter α) :
    Waiter α → Prop where
  | looks : v.wait = .waiting → Turned decode w v { v with wait := .looked }
  | again : v.wait = .looked → Turned decode w v { v with wait := .waiting }
  | leaves (outcome : Abandoned) (result : Option (Except ClientRequestError α)) :
      v.wait = .waiting ∨ v.wait = .looked →
      (∀ i, Sound decode w i v → Result decode w i v outcome result) →
      Turned decode w v
        { v with wait := .ending outcome result, answer := none, listening := false }
  | releases : v.sender = .closing → Turned decode w v { v with sender := .dropped }

/-- What a step is. -/
inductive Moves (decode : Needs → Json → Option α) (w : Clients α) : Event → Clients α → Prop where
  | outside (e : Event) (tokens : Tokens) (hungUp : List Nat) :
      (∀ i, e ≠ .notice i) → Moves decode w e { w with tokens := tokens, hungUp := hungUp }
  | refuses (channel : ClientChannel) (needs : Needs) (params : Except String Json)
      (id : Except String String) (error : ClientRequestError) :
      Moves decode w (.request channel needs params id) (w.refuse error)
  | registers (channel : ClientChannel) (needs : Needs) (params : Except String Json)
      (id : Except String String) (v : Waiter α) (table : AList fun _ : PendingKey => Nat) :
      w.pending = some table → (∀ u ∈ w.waiters, u.id ≠ v.id) → v.wait = .registered →
      v.sender = .tabled → v.answer = none → v.listening = true → v.sent = false →
      v.notified = false → Moves decode w (.request channel needs params id)
        { w with pending := some (table.insert v.key w.waiters.length), waiters := w.waiters ++ [v] }
  | sends (i : Nat) (v : Waiter α) (queued : List (Nat × JsonRpcRequest)) (sent : Bool) :
      w.waiters[i]? = some v → v.wait = .registered → w.enqueue v.connection v.request = (queued, sent) →
      Moves decode w (.send i)
        { w.setWaiter i { v with
            wait := if sent then .waiting else .ending .answered (some (.error .disconnected))
            sent := sent } with queued := queued }
  | turns (e : Event) (i : Nat) (v v' : Waiter α) : w.waiters[i]? = some v →
      Turned decode w v v' → (∀ i, e ≠ .notice i) → Moves decode w e (w.setWaiter i v')
  | forgets (i : Nat) (v : Waiter α) (outcome : Abandoned)
      (result : Option (Except ClientRequestError α)) : w.waiters[i]? = some v →
      v.wait = .ending outcome result → Moves decode w (.forget i)
        { w.setWaiter i { v with
            wait := .noticing outcome result
            sender := if v.sender = .tabled then .dropped else v.sender } with
          pending := w.pending.map (AList.erase v.key) }
  | notices (i : Nat) (v : Waiter α) (outcome : Abandoned)
      (result : Option (Except ClientRequestError α)) (queued : List (Nat × JsonRpcRequest))
      (notified : Bool) : w.waiters[i]? = some v → v.wait = .noticing outcome result →
      outcome.reason.elim (w.queued, false) (fun reason => w.enqueue v.connection (v.notice reason)) =
        (queued, notified) → Moves decode w (.notice i)
        { w.setWaiter i { v with
            wait := .ended outcome result, listening := false, notified := notified } with
          queued := queued }
  | misses (caller : CallerKey) (response : JsonRpcResponse) :
      Moves decode w (.deliver caller response)
        { w with deliveries := w.deliveries ++ [⟨caller, response, none, some false⟩] }
  | takes (caller : CallerKey) (response : JsonRpcResponse) (id : String) (i : Nat)
      (table : AList fun _ : PendingKey => Nat) : w.pending = some table →
      response.id = some (.string id) → table.lookup ⟨caller, id⟩ = some i →
      Moves decode w (.deliver caller response)
        { w with
          pending := some (table.erase ⟨caller, id⟩)
          waiters := w.waiters.modify i fun v => { v with sender := .carried w.deliveries.length }
          deliveries := w.deliveries ++ [⟨caller, response, some i, none⟩] }
  | answers (k : Nat) (d : Delivery) (i : Nat) (v : Waiter α) : w.deliveries[k]? = some d →
      d.waiter = some i → d.accepted = none → w.waiters[i]? = some v →
      Moves decode w (.answer k)
        { w.setWaiter i { v with
            sender := .sent k
            answer := if v.listening then some d.response else v.answer } with
          deliveries := w.deliveries.set k { d with accepted := some v.listening } }
  | closes : Moves decode w .close w.close

theorem request_moves {channel : ClientChannel} {needs : Needs} {params : Except String Json}
    {id : Except String String} (h : w.request channel needs params id = some w') :
    Moves decode w (.request channel needs params id) w' := by
  unfold request at h
  split at h
  · obtain rfl := Option.some.inj h
    exact .refuses _ _ _ _ _
  · split at h
    · obtain rfl := Option.some.inj h
      exact .refuses _ _ _ _ _
    · split at h
      · obtain rfl := Option.some.inj h
        exact .refuses _ _ _ _ _
      · split at h
        · cases h
        · rename_i hfresh
          split at h
          · obtain rfl := Option.some.inj h
            exact .refuses _ _ _ _ _
          · rename_i table htable
            obtain rfl := Option.some.inj h
            refine .registers _ _ _ _ _ table htable ?_ rfl rfl rfl rfl rfl rfl
            intro u hu hid
            refine hfresh (List.any_eq_true.mpr ⟨u, hu, ?_⟩)
            exact beq_iff_eq.mpr hid

theorem send_moves {i : Nat} {v : Waiter α} (hv : w.waiters[i]? = some v)
    (h : w.send i v = some w') : Moves decode w (.send i) w' := by
  unfold send at h
  split at h
  · rename_i hwait
    obtain rfl := Option.some.inj h
    exact .sends i v _ _ hv hwait rfl
  · cases h

theorem look_moves {i : Nat} {v : Waiter α} (hv : w.waiters[i]? = some v)
    (h : w.look i v = some w') : Moves decode w (.look i) w' := by
  unfold look at h
  split at h
  · rename_i hwait
    obtain rfl := Option.some.inj h
    split
    · exact .turns _ i v _ hv (.leaves _ _ (.inl hwait) fun _ _ => .cancelled) nofun
    · exact .turns _ i v _ hv (.looks hwait) nofun
  · cases h

theorem read_moves {i : Nat} {v : Waiter α} {elapsed : Bool} (hv : w.waiters[i]? = some v)
    (h : w.read decode i v elapsed = some w') : Moves decode w (.read i elapsed) w' := by
  unfold read at h
  split at h
  · rename_i hwait
    obtain rfl := Option.some.inj h
    split
    · rename_i response hanswer
      exact .turns _ i v _ hv
        (.leaves _ _ (.inr hwait) fun _ hs => .answered response (hs.answer response hanswer)) nofun
    · split
      · exact .turns _ i v _ hv (.leaves _ _ (.inr hwait) fun _ _ => .disconnected) nofun
      · split
        · exact .turns _ i v _ hv (.leaves _ _ (.inr hwait) fun _ _ => .timedOut) nofun
        · exact .turns _ i v _ hv (.again hwait) nofun
  · cases h

theorem abandon_moves {i : Nat} {v : Waiter α} (hv : w.waiters[i]? = some v)
    (h : w.abandon i v = some w') : Moves decode w (.abandon i) w' := by
  unfold abandon at h
  split at h
  · rename_i hwait
    obtain rfl := Option.some.inj h
    exact .turns _ i v _ hv (.leaves _ _ (.inl hwait) fun _ _ => .dropped) nofun
  · cases h

theorem forget_moves {i : Nat} {v : Waiter α} (hv : w.waiters[i]? = some v)
    (h : w.forget i v = some w') : Moves decode w (.forget i) w' := by
  unfold forget at h
  split at h
  · rename_i outcome result hwait
    obtain rfl := Option.some.inj h
    exact .forgets i v outcome result hv hwait
  · cases h

theorem notice_moves {i : Nat} {v : Waiter α} (hv : w.waiters[i]? = some v)
    (h : w.notice i v = some w') : Moves decode w (.notice i) w' := by
  unfold notice at h
  split at h
  · rename_i outcome result hwait
    obtain rfl := Option.some.inj h
    exact .notices i v outcome result _ _ hv hwait rfl
  · cases h

theorem deliver_moves (caller : CallerKey) (response : JsonRpcResponse) :
    Moves decode w (.deliver caller response) (w.deliver caller response) := by
  unfold deliver
  dsimp only
  split
  · rename_i id table hid htable
    split
    · exact .misses _ _
    · rename_i i hlookup
      exact .takes caller response id i table htable hid hlookup
  · exact .misses _ _

theorem answer_moves {k : Nat} {d : Delivery} (hd : w.deliveries[k]? = some d)
    (h : w.answer k d = some w') : Moves decode w (.answer k) w' := by
  unfold answer at h
  split at h
  · rename_i i hwaiter haccepted
    obtain ⟨v, hv, rfl⟩ := Option.map_eq_some_iff.mp h
    exact .answers k d i v hd hwaiter haccepted hv
  · cases h

theorem step_moves (h : w.step decode e = some w') : Moves decode w e w' := by
  cases e with
  | token parent =>
    simp only [step] at h
    split at h
    · obtain rfl := Option.some.inj h
      exact .outside _ _ w.hungUp nofun
    · cases h
  | fire t =>
    obtain rfl := Option.some.inj h
    exact .outside _ _ w.hungUp nofun
  | hangUp outbound =>
    obtain rfl := Option.some.inj h
    exact .outside _ w.tokens _ nofun
  | request channel needs params id => exact request_moves h
  | send i =>
    obtain ⟨v, hv, hw⟩ := Option.bind_eq_some_iff.mp h
    exact send_moves hv hw
  | look i =>
    obtain ⟨v, hv, hw⟩ := Option.bind_eq_some_iff.mp h
    exact look_moves hv hw
  | read i elapsed =>
    obtain ⟨v, hv, hw⟩ := Option.bind_eq_some_iff.mp h
    exact read_moves hv hw
  | abandon i =>
    obtain ⟨v, hv, hw⟩ := Option.bind_eq_some_iff.mp h
    exact abandon_moves hv hw
  | forget i =>
    obtain ⟨v, hv, hw⟩ := Option.bind_eq_some_iff.mp h
    exact forget_moves hv hw
  | notice i =>
    obtain ⟨v, hv, hw⟩ := Option.bind_eq_some_iff.mp h
    exact notice_moves hv hw
  | deliver caller response =>
    obtain rfl := Option.some.inj h
    exact deliver_moves caller response
  | answer k =>
    obtain ⟨d, hd, hw⟩ := Option.bind_eq_some_iff.mp h
    exact answer_moves hd hw
  | close =>
    obtain rfl := Option.some.inj h
    exact .closes
  | release i =>
    obtain ⟨v, hv, hw⟩ := Option.bind_eq_some_iff.mp h
    simp only [release] at hw
    split at hw
    · rename_i hclosing
      obtain rfl := Option.some.inj hw
      exact .turns _ i v _ hv (.releases hclosing) nofun
    · cases hw

section Edit

variable {i : Nat} {v v' : Waiter α}

theorem getElem?_edit (hv : w.waiters[i]? = some v) (hw : w'.waiters = w.waiters.set i v')
    (j : Nat) : w'.waiters[j]? = if j = i then some v' else w.waiters[j]? := by
  have hlt : i < w.waiters.length := (List.getElem?_eq_some_iff.mp hv).1
  rw [hw]
  split
  · rename_i hji
    rw [hji, List.getElem?_set_self hlt]
  · rename_i hji
    rw [List.getElem?_set_ne fun h => hji h.symm]

/-- A request of the edited list is the one edited, or one there was. -/
theorem of_edit (hv : w.waiters[i]? = some v) (hw : w'.waiters = w.waiters.set i v') {j : Nat}
    {u : Waiter α} (hu : w'.waiters[j]? = some u) :
    (j = i ∧ u = v') ∨ (j ≠ i ∧ w.waiters[j]? = some u) := by
  rw [getElem?_edit hv hw] at hu
  split at hu
  · rename_i hji
    exact .inl ⟨hji, (Option.some.inj hu).symm⟩
  · rename_i hji
    exact .inr ⟨hji, hu⟩

/-- It has the id of one there was. -/
theorem id_edit (hv : w.waiters[i]? = some v) (hw : w'.waiters = w.waiters.set i v')
    (hid : v'.id = v.id) {j : Nat} {u : Waiter α} (hu : w'.waiters[j]? = some u) :
    ∃ u', w.waiters[j]? = some u' ∧ u'.id = u.id := by
  obtain ⟨rfl, rfl⟩ | ⟨_, hu⟩ := of_edit hv hw hu
  · exact ⟨v, hv, hid.symm⟩
  · exact ⟨u, hu, rfl⟩

theorem distinct_edit (k : Kept decode w) (hv : w.waiters[i]? = some v)
    (hw : w'.waiters = w.waiters.set i v') (hid : v'.id = v.id) (j l : Nat) (u x : Waiter α)
    (hu : w'.waiters[j]? = some u) (hx : w'.waiters[l]? = some x) (heq : u.id = x.id) : j = l := by
  obtain ⟨u', hu', huid⟩ := id_edit hv hw hid hu
  obtain ⟨x', hx', hxid⟩ := id_edit hv hw hid hx
  exact k.distinct j l u' x' hu' hx' (huid.trans (heq.trans hxid.symm))

theorem closed_edit (k : Kept decode w) (hv : w.waiters[i]? = some v)
    (hw : w'.waiters = w.waiters.set i v') (hpending : w'.pending = none → w.pending = none)
    (hsender : v'.sender = .tabled → v.sender = .tabled) (hp : w'.pending = none) (j : Nat)
    (u : Waiter α) (hu : w'.waiters[j]? = some u) : u.sender ≠ .tabled := by
  obtain ⟨rfl, rfl⟩ | ⟨_, hu⟩ := of_edit hv hw hu
  · exact fun h => k.closed (hpending hp) j v hv (hsender h)
  · exact k.closed (hpending hp) j u hu

/-- The table as before, and the request edited in it as before. -/
theorem table_edit (k : Kept decode w) (hv : w.waiters[i]? = some v)
    (hw : w'.waiters = w.waiters.set i v') (hpending : w'.pending = w.pending)
    (hkey : v'.key = v.key) (hsender : v'.sender = .tabled ↔ v.sender = .tabled)
    (table : AList fun _ : PendingKey => Nat) (ht : w'.pending = some table) (key : PendingKey)
    (j : Nat) : table.lookup key = some j ↔
      ∃ u, w'.waiters[j]? = some u ∧ u.key = key ∧ u.sender = .tabled := by
  rw [hpending] at ht
  rw [k.table table ht, getElem?_edit hv hw]
  split
  · rename_i hji
    subst hji
    rw [hv]
    simp [hkey, hsender]
  · exact Iff.rfl

/-- The table without the request edited. -/
theorem table_erase (k : Kept decode w) (hv : w.waiters[i]? = some v)
    (hw : w'.waiters = w.waiters.set i v') (hpending : w'.pending = w.pending.map (AList.erase v.key))
    (hsender : v'.sender ≠ .tabled) (table : AList fun _ : PendingKey => Nat)
    (ht : w'.pending = some table) (key : PendingKey) (j : Nat) : table.lookup key = some j ↔
      ∃ u, w'.waiters[j]? = some u ∧ u.key = key ∧ u.sender = .tabled := by
  rw [hpending] at ht
  obtain ⟨old, hold, rfl⟩ := Option.map_eq_some_iff.mp ht
  rw [getElem?_edit hv hw]
  by_cases hkey : key = v.key
  · subst hkey
    rw [AList.lookup_erase]
    refine iff_of_false nofun ?_
    rintro ⟨u, hu, hukey, htabled⟩
    split at hu
    · rw [← Option.some.inj hu] at htabled
      exact hsender htabled
    · rename_i hji
      have hid : u.id = v.id := congrArg PendingKey.id hukey
      exact hji (k.distinct j i u v hu hv hid)
  · rw [AList.lookup_erase_ne hkey, k.table old hold]
    split
    · rename_i hji
      subst hji
      refine iff_of_false ?_ ?_
      · rintro ⟨u, hu, hukey, _⟩
        rw [hv] at hu
        obtain rfl := Option.some.inj hu
        exact hkey hukey.symm
      · rintro ⟨u, hu, _, htabled⟩
        rw [← Option.some.inj hu] at htabled
        exact hsender htabled
    · exact Iff.rfl

theorem Accepted.frame {j : Nat} {response : JsonRpcResponse} (h : w.Accepted j response)
    (hd : ∀ (k : Nat) (d : Delivery), w.deliveries[k]? = some d → d.waiter = some j →
      d.accepted = some true → w'.deliveries[k]? = some d) : w'.Accepted j response := by
  obtain ⟨k, d, hk, hwaiter, haccepted, hresponse⟩ := h
  exact ⟨k, d, hd k d hk hwaiter haccepted, hwaiter, haccepted, hresponse⟩

theorem Result.frame {j : Nat} {u : Waiter α} {outcome : Abandoned}
    {result : Option (Except ClientRequestError α)} (h : Result decode w j u outcome result)
    (hd : ∀ (k : Nat) (d : Delivery), w.deliveries[k]? = some d → d.waiter = some j →
      d.accepted = some true → w'.deliveries[k]? = some d) : Result decode w' j u outcome result := by
  cases h with
  | answered response ha => exact .answered response (ha.frame hd)
  | disconnected => exact .disconnected
  | cancelled => exact .cancelled
  | timedOut => exact .timedOut
  | dropped => exact .dropped

theorem Result.carry {j : Nat} {u u' : Waiter α} {outcome : Abandoned}
    {result : Option (Except ClientRequestError α)} (h : Result decode w j u outcome result)
    (hdeliveries : w'.deliveries = w.deliveries) (hneeds : u'.needs = u.needs)
    (hconnection : u'.connection = u.connection) : Result decode w' j u' outcome result := by
  cases h with
  | answered response ha =>
    rw [← hneeds]
    refine .answered response (ha.frame fun k d hd _ _ => ?_)
    rw [hdeliveries]
    exact hd
  | disconnected => exact .disconnected
  | cancelled => exact .cancelled
  | timedOut =>
    rw [← hconnection]
    exact .timedOut
  | dropped => exact .dropped

/-- What holds of a request goes on holding when neither it nor its delivery changes. -/
theorem Sound.frame {j : Nat} {u : Waiter α} (h : Sound decode w j u)
    (hd : ∀ (k : Nat) (d : Delivery), w.deliveries[k]? = some d → d.waiter = some j →
      w'.deliveries[k]? = some d) (hp : w.pending = none → w'.pending = none) :
    Sound decode w' j u := by
  refine ⟨fun r hr => (h.answer r hr).frame fun k d hk hj _ => hd k d hk hj, h.unread, h.listening,
    h.tabled, fun hs => hp (h.shut hs), fun k hk => ?_, h.unsent, h.sent, fun o r hr => ?_, h.notified⟩
  · obtain ⟨d, hkd, hj, hn⟩ := h.carried k hk
    exact ⟨d, hd k d hkd hj, hj, hn⟩
  · obtain ⟨hres, hsent⟩ := h.settled o r hr
    exact ⟨hres.frame fun k d hk hj _ => hd k d hk hj, hsent⟩

theorem sound_edit (k : Kept decode w) (hv : w.waiters[i]? = some v)
    (hw : w'.waiters = w.waiters.set i v')
    (hd : ∀ j, j ≠ i → ∀ (k : Nat) (d : Delivery), w.deliveries[k]? = some d →
      d.waiter = some j → w'.deliveries[k]? = some d)
    (hp : w.pending = none → w'.pending = none) (hself : Sound decode w' i v') (j : Nat)
    (u : Waiter α) (hu : w'.waiters[j]? = some u) : Sound decode w' j u := by
  obtain ⟨rfl, rfl⟩ | ⟨hji, hu⟩ := of_edit hv hw hu
  · exact hself
  · exact (k.sound j u hu).frame (hd j hji) hp

theorem Routed.edit {k : Nat} {d : Delivery} {j : Nat} (h : Routed w k d j)
    (hv : w.waiters[i]? = some v) (hw : w'.waiters = w.waiters.set i v')
    (hid : v'.id = v.id) (hconnection : v'.connection = v.connection)
    (hcarried : v.sender = .carried k → v'.sender = .carried k)
    (hsent : v.sender = .sent k → v'.sender = .sent k) : Routed w' k d j := by
  obtain ⟨u, hu, hcaller, hresponse, hnone, hsome⟩ := h.waiter
  by_cases hji : j = i
  · subst hji
    rw [hv] at hu
    obtain rfl := Option.some.inj hu
    refine ⟨v', ?_, ?_, ?_, fun ha => hcarried (hnone ha), fun b hb => hsent (hsome b hb)⟩
    · rw [getElem?_edit hv hw, if_pos rfl]
    · rw [hconnection]
      exact hcaller
    · rw [hid]
      exact hresponse
  · exact ⟨u, by rw [getElem?_edit hv hw, if_neg hji]; exact hu, hcaller, hresponse, hnone, hsome⟩

end Edit

section Queue

variable {i : Nat} {v v' : Waiter α}

theorem enqueue_countP (p : JsonRpcRequest → Bool) {connection : ClientConnection}
    {message : JsonRpcRequest} {queued : List (Nat × JsonRpcRequest)} {b : Bool}
    (h : w.enqueue connection message = (queued, b)) :
    queued.countP (fun m => p m.2) =
      w.queued.countP (fun m => p m.2) + if b && p message then 1 else 0 := by
  unfold enqueue at h
  split at h
  · obtain ⟨rfl, rfl⟩ := Prod.mk.inj h
    simp
  · split at h
    · obtain ⟨rfl, rfl⟩ := Prod.mk.inj h
      simp
    · obtain ⟨rfl, rfl⟩ := Prod.mk.inj h
      rw [List.countP_append, List.countP_singleton, Bool.true_and]

/-- A request goes under its own id, and is no notice. -/
theorem request_counted (v : Waiter α) (id : String) :
    (v.request.id == some (.string id)) = (v.id == id) ∧
    (v.request.method == NOTIFICATIONS_CANCELLED &&
      v.request.params.bind (Json.get · "requestId") == some (.string id)) = false := by
  refine ⟨?_, ?_⟩
  · show (some (Json.string v.id) == some (Json.string id)) = _
    rw [Bool.eq_iff_iff, beq_iff_eq, beq_iff_eq, Option.some_inj, Json.string.injEq]
  · have hmethod : (v.needs.method == NOTIFICATIONS_CANCELLED) = false := by
      cases v.needs
      · decide
      · decide
    show (v.needs.method == NOTIFICATIONS_CANCELLED && _) = false
    rw [hmethod, Bool.false_and]

/-- A notice names its request, and is none. -/
theorem notice_counted (v : Waiter α) (reason id : String) :
    ((v.notice reason).id == some (.string id)) = false ∧
    ((v.notice reason).method == NOTIFICATIONS_CANCELLED &&
      (v.notice reason).params.bind (Json.get · "requestId") == some (.string id)) =
      (v.id == id) := by
  refine ⟨rfl, ?_⟩
  show (NOTIFICATIONS_CANCELLED == NOTIFICATIONS_CANCELLED &&
    some (Json.string v.id) == some (Json.string id)) = _
  rw [beq_self_eq_true, Bool.true_and, Bool.eq_iff_iff, beq_iff_eq, beq_iff_eq, Option.some_inj,
    Json.string.injEq]

/-- The counts follow the edit when the queue has grown by what the edit says it has. -/
theorem counts_edit (k : Kept decode w) (hv : w.waiters[i]? = some v)
    (hw : w'.waiters = w.waiters.set i v') (hid : v'.id = v.id)
    (hr : ∀ id, w'.requestsOf id =
      w.requestsOf id + if v.id = id ∧ v'.sent = true ∧ v.sent = false then 1 else 0)
    (hn : ∀ id, w'.noticesOf id =
      w.noticesOf id + if v.id = id ∧ v'.notified = true ∧ v.notified = false then 1 else 0)
    (hsent : v.sent = true → v'.sent = true) (hnotified : v.notified = true → v'.notified = true) :
    (∀ (j : Nat) (u : Waiter α), w'.waiters[j]? = some u →
      w'.requestsOf u.id = if u.sent then 1 else 0) ∧
    (∀ (j : Nat) (u : Waiter α), w'.waiters[j]? = some u →
      w'.noticesOf u.id = if u.notified then 1 else 0) ∧
    ∀ id, (∀ (j : Nat) (u : Waiter α), w'.waiters[j]? = some u → u.id ≠ id) →
      w'.requestsOf id = 0 ∧ w'.noticesOf id = 0 := by
  refine ⟨fun j u hu => ?_, fun j u hu => ?_, fun id hnone => ?_⟩
  · rw [hr]
    obtain ⟨rfl, rfl⟩ | ⟨hji, hu⟩ := of_edit hv hw hu
    · rw [hid, k.requests j v hv]
      cases hs : v.sent with
      | false => simp
      | true => simp [hsent hs]
    · have hne : v.id ≠ u.id := fun h => hji (k.distinct j i u v hu hv h.symm)
      rw [k.requests j u hu]
      simp [hne]
  · rw [hn]
    obtain ⟨rfl, rfl⟩ | ⟨hji, hu⟩ := of_edit hv hw hu
    · rw [hid, k.notices j v hv]
      cases hs : v.notified with
      | false => simp
      | true => simp [hnotified hs]
    · have hne : v.id ≠ u.id := fun h => hji (k.distinct j i u v hu hv h.symm)
      rw [k.notices j u hu]
      simp [hne]
  · have hold : ∀ (j : Nat) (u : Waiter α), w.waiters[j]? = some u → u.id ≠ id := by
      intro j u hu
      by_cases hji : j = i
      · subst hji
        rw [hv] at hu
        rw [← Option.some.inj hu, ← hid]
        exact hnone j v' (by rw [getElem?_edit hv hw, if_pos rfl])
      · exact hnone j u (by rw [getElem?_edit hv hw, if_neg hji]; exact hu)
    rw [hr, hn, (k.unknown id hold).1, (k.unknown id hold).2]
    simp [hold i v hv]

/-- The queue as before. -/
theorem counts_same (k : Kept decode w) (hv : w.waiters[i]? = some v)
    (hw : w'.waiters = w.waiters.set i v') (hid : v'.id = v.id) (hqueued : w'.queued = w.queued)
    (hsent : v'.sent = v.sent) (hnotified : v'.notified = v.notified) :
    (∀ (j : Nat) (u : Waiter α), w'.waiters[j]? = some u →
      w'.requestsOf u.id = if u.sent then 1 else 0) ∧
    (∀ (j : Nat) (u : Waiter α), w'.waiters[j]? = some u →
      w'.noticesOf u.id = if u.notified then 1 else 0) ∧
    ∀ id, (∀ (j : Nat) (u : Waiter α), w'.waiters[j]? = some u → u.id ≠ id) →
      w'.requestsOf id = 0 ∧ w'.noticesOf id = 0 := by
  refine counts_edit k hv hw hid (fun id => ?_) (fun id => ?_) (fun h => hsent.trans h)
    (fun h => hnotified.trans h)
  · unfold requestsOf
    rw [hqueued, hsent]
    simp
  · unfold noticesOf
    rw [hqueued, hnotified]
    simp

end Queue

section Steps

variable {i : Nat} {v v' : Waiter α}

/-- What is left to see when a request is edited and nothing else but the table and the queue. -/
theorem Kept.edit (k : Kept decode w) (hv : w.waiters[i]? = some v)
    (hw : w'.waiters = w.waiters.set i v') (hdeliveries : w'.deliveries = w.deliveries)
    (hid : v'.id = v.id) (hconnection : v'.connection = v.connection)
    (hcarried : ∀ k, v.sender = .carried k → v'.sender = .carried k)
    (hsent : ∀ k, v.sender = .sent k → v'.sender = .sent k)
    (hclosed : w.pending = none → w'.pending = none)
    (hopen : w'.pending = none → ∀ (j : Nat) (u : Waiter α), w'.waiters[j]? = some u →
      u.sender ≠ .tabled)
    (htable : ∀ table, w'.pending = some table → ∀ key j, table.lookup key = some j ↔
      ∃ u, w'.waiters[j]? = some u ∧ u.key = key ∧ u.sender = .tabled)
    (hself : Sound decode w' i v')
    (hcounts : (∀ (j : Nat) (u : Waiter α), w'.waiters[j]? = some u →
        w'.requestsOf u.id = if u.sent then 1 else 0) ∧
      (∀ (j : Nat) (u : Waiter α), w'.waiters[j]? = some u →
        w'.noticesOf u.id = if u.notified then 1 else 0) ∧
      ∀ id, (∀ (j : Nat) (u : Waiter α), w'.waiters[j]? = some u → u.id ≠ id) →
        w'.requestsOf id = 0 ∧ w'.noticesOf id = 0) : Kept decode w' := by
  refine ⟨distinct_edit k hv hw hid, htable, hopen, ?_, ?_, hcounts.1, hcounts.2.1, hcounts.2.2⟩
  · refine sound_edit k hv hw (fun _ _ k' d hd _ => ?_) hclosed hself
    rw [hdeliveries]
    exact hd
  · intro l d hd
    rw [hdeliveries] at hd
    obtain ⟨hnone, hsome⟩ := k.routed l d hd
    exact ⟨hnone, fun j hj => (hsome j hj).edit hv hw hid hconnection (hcarried l) (hsent l)⟩

theorem Kept.turn (k : Kept decode w) (hv : w.waiters[i]? = some v) (ht : Turned decode w v v') :
    Kept decode (w.setWaiter i v') := by
  have hs := k.sound i v hv
  -- the sender is where it was, or is dropped with the closed table
  have hframe : v'.id = v.id ∧ v'.connection = v.connection ∧ v'.sent = v.sent ∧
      v'.notified = v.notified ∧ v'.key = v.key ∧
      (v'.sender = v.sender ∨ v.sender = .closing ∧ v'.sender = .dropped) := by
    cases ht with
    | looks | again | leaves => exact ⟨rfl, rfl, rfl, rfl, rfl, .inl rfl⟩
    | releases hc => exact ⟨rfl, rfl, rfl, rfl, rfl, .inr ⟨hc, rfl⟩⟩
  obtain ⟨hid, hconnection, hsent, hnotified, hkey, hsender⟩ := hframe
  have hkeeps {s : Sender} (hc : s ≠ .closing) (h : v.sender = s) : v'.sender = s := by
    rcases hsender with heq | ⟨hclosing, _⟩
    · rw [heq, h]
    · exact absurd (h.symm.trans hclosing) hc
  have htabled : v'.sender = .tabled ↔ v.sender = .tabled := by
    refine ⟨fun h => ?_, hkeeps (by simp)⟩
    rcases hsender with heq | ⟨_, hdropped⟩
    · exact heq.symm.trans h
    · rw [hdropped] at h
      cases h
  refine k.edit hv rfl rfl hid hconnection (fun _ => hkeeps (by simp)) (fun _ => hkeeps (by simp))
    (fun h => h) (closed_edit k hv rfl (fun h => h) htabled.mp)
    (table_edit k hv rfl rfl hkey htabled) ?_ (counts_same k hv rfl hid rfl hsent hnotified)
  have same : Sound decode (w.setWaiter i v') i v := hs.frame (fun _ _ hd _ => hd) (fun h => h)
  cases ht with
  | looks hwait =>
    exact ⟨same.answer, fun _ => same.unread (by rw [hwait]; rfl),
      fun _ => same.listening (by rw [hwait]; rfl), fun _ => rfl,
      fun h => same.shut (by rw [hwait]; exact h), same.carried, nofun,
      fun _ => same.sent (.inl hwait), nofun,
      fun hn => by obtain ⟨o, r, hended, _⟩ := same.notified hn; rw [hwait] at hended; cases hended⟩
  | again hwait =>
    exact ⟨same.answer, fun _ => same.unread (by rw [hwait]; rfl),
      fun _ => same.listening (by rw [hwait]; rfl), fun _ => rfl,
      fun h => same.shut (by rw [hwait]; exact h), same.carried, nofun,
      fun _ => same.sent (.inr hwait), nofun,
      fun hn => by obtain ⟨o, r, hended, _⟩ := same.notified hn; rw [hwait] at hended; cases hended⟩
  | leaves outcome result hwait hresult =>
    have hopen : v.wait.isForgotten = false ∧ ∀ o r, v.wait ≠ .ended o r := by
      rcases hwait with h | h
      · rw [h]
        exact ⟨rfl, nofun⟩
      · rw [h]
        exact ⟨rfl, nofun⟩
    refine ⟨nofun, nofun, nofun, fun _ => rfl, fun h => ?_, same.carried, nofun, fun h => ?_, ?_, ?_⟩
    · rcases h with h | ⟨h, _⟩
      · exact same.shut (.inl h)
      · exact same.shut (.inr ⟨h, hopen.1⟩)
    · rcases h with h | h
      · cases h
      · cases h
    · intro o r h
      obtain ⟨rfl, rfl⟩ := Prod.mk.inj (Option.some.inj h)
      exact ⟨(hresult i hs).carry rfl rfl rfl, fun _ => same.sent hwait⟩
    · intro hn
      obtain ⟨o, r, hended, _⟩ := same.notified hn
      exact absurd hended (hopen.2 o r)
  | releases hc =>
    refine ⟨same.answer, nofun, same.listening, nofun, fun _ => same.shut (.inl hc), nofun,
      same.unsent, same.sent, fun o r h => ?_, same.notified⟩
    obtain ⟨hres, hsent'⟩ := same.settled o r h
    exact ⟨hres.carry rfl rfl rfl, hsent'⟩

theorem Kept.send (k : Kept decode w) (hv : w.waiters[i]? = some v) (hwait : v.wait = .registered)
    {queued : List (Nat × JsonRpcRequest)} {sent : Bool}
    (hq : w.enqueue v.connection v.request = (queued, sent)) :
    Kept decode { w.setWaiter i { v with
      wait := if sent then .waiting else .ending .answered (some (.error .disconnected))
      sent := sent } with queued := queued } := by
  have hs := k.sound i v hv
  have hunsent := hs.unsent hwait
  refine k.edit hv rfl rfl rfl rfl (fun _ h => h) (fun _ h => h) (fun h => h)
    (closed_edit k hv rfl (fun h => h) (fun h => h)) (table_edit k hv rfl rfl rfl Iff.rfl) ?_ ?_
  · have same : Sound decode { w.setWaiter i { v with
        wait := if sent then .waiting else .ending .answered (some (.error .disconnected))
        sent := sent } with queued := queued } i v := hs.frame (fun _ _ hd _ => hd) (fun h => h)
    have hunnotified {P : Prop} (hn : v.notified = true) : P := by
      obtain ⟨o, r, hended, _⟩ := same.notified hn
      rw [hwait] at hended
      cases hended
    cases sent with
    | true =>
      exact ⟨same.answer, fun _ => same.unread (by rw [hwait]; rfl),
        fun _ => same.listening (by rw [hwait]; rfl), fun _ => rfl,
        fun h => same.shut (by rw [hwait]; exact h), same.carried, nofun, fun _ => rfl, nofun,
        hunnotified⟩
    | false =>
      refine ⟨same.answer, nofun, nofun, fun _ => rfl, fun h => same.shut (by rw [hwait]; exact h),
        same.carried, nofun, fun h => ?_, fun o r h => ?_, hunnotified⟩
      · rcases h with h | h
        · cases h
        · cases h
      · obtain ⟨rfl, rfl⟩ := Prod.mk.inj (Option.some.inj h)
        exact ⟨.disconnected, fun hne => absurd rfl hne⟩
  · refine counts_edit k hv rfl rfl (fun id => ?_) (fun id => ?_) (fun h => ?_) (fun h => h)
    · show queued.countP _ = w.queued.countP _ + _
      rw [enqueue_countP (fun m => m.id == some (.string id)) hq, (request_counted v id).1]
      cases sent
      · simp
      · simp [hunsent]
    · show queued.countP _ = w.queued.countP _ + _
      rw [enqueue_countP (fun m => m.method == NOTIFICATIONS_CANCELLED &&
        m.params.bind (Json.get · "requestId") == some (.string id)) hq, (request_counted v id).2]
      simp
    · rw [hunsent] at h
      cases h

theorem Kept.forget (k : Kept decode w) (hv : w.waiters[i]? = some v) {outcome : Abandoned}
    {result : Option (Except ClientRequestError α)} (hwait : v.wait = .ending outcome result) :
    Kept decode { w.setWaiter i { v with
        wait := .noticing outcome result
        sender := if v.sender = .tabled then .dropped else v.sender } with
      pending := w.pending.map (AList.erase v.key) } := by
  have hs := k.sound i v hv
  have hkeeps {s : Sender} (hne : s ≠ .tabled) (h : v.sender = s) :
      (if v.sender = .tabled then .dropped else v.sender) = s := by
    rw [if_neg (by rw [h]; exact hne), h]
  have hntabled : (if v.sender = .tabled then .dropped else v.sender) ≠ .tabled := by
    split
    · simp
    · assumption
  have hnone {p : Option (AList fun _ : PendingKey => Nat)} (h : p.map (AList.erase v.key) = none) :
      p = none := Option.map_eq_none_iff.mp h
  refine k.edit hv rfl rfl rfl rfl (fun _ => hkeeps (by simp)) (fun _ => hkeeps (by simp))
    (fun h => by show w.pending.map _ = none; rw [h]; rfl)
    (closed_edit k hv rfl hnone fun h => absurd h hntabled)
    (table_erase k hv rfl rfl hntabled) ?_ (counts_same k hv rfl rfl rfl rfl rfl)
  have hunnotified {P : Prop} (hn : v.notified = true) : P := by
    obtain ⟨o, r, hended, _⟩ := hs.notified hn
    rw [hwait] at hended
    cases hended
  refine ⟨hs.answer, nofun, nofun, fun h => absurd h hntabled, fun h => ?_, fun l h => ?_, nofun,
    fun h => ?_, fun o r h => ?_, hunnotified⟩
  · rcases h with h | ⟨_, h⟩
    · have hclosing : v.sender = .closing := by
        have h' : (if v.sender = .tabled then Sender.dropped else v.sender) = .closing := h
        split at h'
        · cases h'
        · exact h'
      show w.pending.map _ = none
      rw [hs.shut (.inl hclosing)]
      rfl
    · cases h
  · have hcarried : v.sender = .carried l := by
      have h' : (if v.sender = .tabled then Sender.dropped else v.sender) = .carried l := h
      split at h'
      · cases h'
      · exact h'
    exact hs.carried l hcarried
  · rcases h with h | h
    · cases h
    · cases h
  · obtain ⟨hres, hsent⟩ := hs.settled o r (by rw [hwait]; exact h)
    exact ⟨hres.carry rfl rfl rfl, hsent⟩

theorem Kept.notice (k : Kept decode w) (hv : w.waiters[i]? = some v) {outcome : Abandoned}
    {result : Option (Except ClientRequestError α)} (hwait : v.wait = .noticing outcome result)
    {queued : List (Nat × JsonRpcRequest)} {notified : Bool}
    (hq : outcome.reason.elim (w.queued, false)
      (fun reason => w.enqueue v.connection (v.notice reason)) = (queued, notified)) :
    Kept decode { w.setWaiter i { v with
        wait := .ended outcome result, listening := false, notified := notified } with
      queued := queued } := by
  have hs := k.sound i v hv
  have hunnotified : v.notified = false := by
    cases hn : v.notified with
    | false => rfl
    | true =>
      obtain ⟨o, r, hended, _⟩ := hs.notified hn
      rw [hwait] at hended
      cases hended
  refine k.edit hv rfl rfl rfl rfl (fun _ h => h) (fun _ h => h) (fun h => h)
    (closed_edit k hv rfl (fun h => h) (fun h => h)) (table_edit k hv rfl rfl rfl Iff.rfl) ?_ ?_
  · refine ⟨hs.answer, nofun, nofun, fun h => ?_, fun h => ?_, hs.carried, nofun, fun h => ?_,
      fun o r h => ?_, fun hn => ⟨outcome, result, rfl, ?_⟩⟩
    · have hbad := hs.tabled h
      rw [hwait] at hbad
      cases hbad
    · rcases h with h | ⟨_, h⟩
      · exact hs.shut (.inl h)
      · cases h
    · rcases h with h | h
      · cases h
      · cases h
    · obtain ⟨hres, hsent⟩ := hs.settled o r (by rw [hwait]; exact h)
      exact ⟨hres.carry rfl rfl rfl, hsent⟩
    · rintro rfl
      obtain ⟨_, hfalse⟩ := Prod.mk.inj hq
      have hn' : notified = true := hn
      rw [← hfalse] at hn'
      cases hn'
  · have hcount (p : JsonRpcRequest → Bool) (b : Bool) (hp : ∀ reason, p (v.notice reason) = b) :
        queued.countP (fun m => p m.2) =
          w.queued.countP (fun m => p m.2) + if notified && b then 1 else 0 := by
      cases hr : outcome.reason with
      | none =>
        rw [hr] at hq
        obtain ⟨rfl, rfl⟩ := Prod.mk.inj hq
        simp
      | some reason =>
        rw [hr] at hq
        rw [enqueue_countP p hq, hp reason]
    refine counts_edit k hv rfl rfl (fun id => ?_) (fun id => ?_) (fun h => h) (fun h => ?_)
    · show queued.countP _ = w.queued.countP _ + _
      rw [hcount (fun m => m.id == some (.string id)) false fun reason =>
        (notice_counted v reason id).1]
      simp
    · show queued.countP _ = w.queued.countP _ + _
      rw [hcount (fun m => m.method == NOTIFICATIONS_CANCELLED &&
        m.params.bind (Json.get · "requestId") == some (.string id)) (v.id == id) fun reason =>
        (notice_counted v reason id).2]
      cases notified
      · simp
      · simp [hunnotified]
    · rw [hunnotified] at h
      cases h

theorem of_append {l : List β} {a b : β} {j : Nat} (h : (l ++ [a])[j]? = some b) :
    l[j]? = some b ∨ (j = l.length ∧ b = a) := by
  rw [List.getElem?_append] at h
  split at h
  · exact .inl h
  · rename_i hlt
    obtain ⟨hj, _⟩ := List.getElem?_eq_some_iff.mp h
    have hj' : j - l.length < 1 := hj
    have hzero : j - l.length = 0 := by omega
    rw [hzero] at h
    exact .inr ⟨by omega, (Option.some.inj h).symm⟩

theorem getElem?_append_old {l : List β} {a b : β} {j : Nat} (h : l[j]? = some b) :
    (l ++ [a])[j]? = some b := by
  rw [List.getElem?_append_left (List.getElem?_eq_some_iff.mp h).1]
  exact h

theorem Kept.register (k : Kept decode w) {table : AList fun _ : PendingKey => Nat}
    (ht : w.pending = some table) (hfresh : ∀ u ∈ w.waiters, u.id ≠ v.id)
    (hwait : v.wait = .registered) (hsender : v.sender = .tabled) (hanswer : v.answer = none)
    (hlistening : v.listening = true) (hsent : v.sent = false) (hnotified : v.notified = false) :
    Kept decode { w with
      pending := some (table.insert v.key w.waiters.length), waiters := w.waiters ++ [v] } := by
  have hnew (j : Nat) (u : Waiter α) (hu : w.waiters[j]? = some u) : u.id ≠ v.id :=
    hfresh u (List.mem_of_getElem? hu)
  have hlast : (w.waiters ++ [v])[w.waiters.length]? = some v := by simp
  have hunknown := k.unknown v.id hnew
  refine ⟨?_, ?_, nofun, ?_, ?_, ?_, ?_, ?_⟩
  · intro j l u x hu hx heq
    rcases of_append hu with hold | ⟨hj, hlastu⟩
    · rcases of_append hx with hold' | ⟨_, hlastx⟩
      · exact k.distinct j l u x hold hold' heq
      · rw [hlastx] at heq
        exact absurd heq (hnew j u hold)
    · rcases of_append hx with hold' | ⟨hl, _⟩
      · rw [hlastu] at heq
        exact absurd heq.symm (hnew l x hold')
      · rw [hj, hl]
  · intro table' ht' key j
    obtain rfl := Option.some.inj ht'
    by_cases hkey : key = v.key
    · rw [hkey, AList.lookup_insert, Option.some_inj]
      constructor
      · rintro rfl
        exact ⟨v, hlast, rfl, hsender⟩
      · rintro ⟨u, hu, hukey, _⟩
        rcases of_append hu with hu | ⟨rfl, _⟩
        · exact absurd (congrArg PendingKey.id hukey) (hnew j u hu)
        · rfl
    · rw [AList.lookup_insert_ne hkey, k.table table ht]
      constructor
      · rintro ⟨u, hu, hrest⟩
        exact ⟨u, getElem?_append_old hu, hrest⟩
      · rintro ⟨u, hu, hukey, htabled⟩
        rcases of_append hu with hu | ⟨_, rfl⟩
        · exact ⟨u, hu, hukey, htabled⟩
        · exact absurd hukey.symm hkey
  · intro j u hu
    have hopen : w.pending ≠ none := by
      rw [ht]
      nofun
    rcases of_append hu with hu | ⟨rfl, rfl⟩
    · exact (k.sound j u hu).frame (fun _ _ hd _ => hd) fun h => absurd h hopen
    · refine ⟨fun r hr => ?_, fun _ l hl => ?_, fun _ => hlistening, fun _ => ?_, fun h => ?_,
        fun l hl => ?_, fun _ => hsent, fun h => ?_, fun o r h => ?_, fun hn => ?_⟩
      · rw [hanswer] at hr
        cases hr
      · rw [hsender] at hl
        cases hl
      · rw [hwait]
        rfl
      · rw [hsender] at h
        rcases h with h | ⟨h, _⟩
        · cases h
        · cases h
      · rw [hsender] at hl
        cases hl
      · rw [hwait] at h
        rcases h with h | h
        · cases h
        · cases h
      · rw [hwait] at h
        cases h
      · rw [hnotified] at hn
        cases hn
  · intro l d hd
    obtain ⟨hnone, hsome⟩ := k.routed l d hd
    refine ⟨hnone, fun j hj => ⟨?_⟩⟩
    obtain ⟨u, hu, hrest⟩ := (hsome j hj).waiter
    exact ⟨u, getElem?_append_old hu, hrest⟩
  · intro j u hu
    rcases of_append hu with hu | ⟨rfl, rfl⟩
    · exact k.requests j u hu
    · rw [hsent]
      exact hunknown.1
  · intro j u hu
    rcases of_append hu with hu | ⟨rfl, rfl⟩
    · exact k.notices j u hu
    · rw [hnotified]
      exact hunknown.2
  · intro id hnone
    exact k.unknown id fun j u hu => hnone j u (getElem?_append_old hu)

theorem Kept.miss (k : Kept decode w) (caller : CallerKey) (response : JsonRpcResponse) :
    Kept decode
      { w with deliveries := w.deliveries ++ [⟨caller, response, none, some false⟩] } := by
  refine ⟨k.distinct, k.table, k.closed, fun j u hu => ?_, fun l d hd => ?_, k.requests, k.notices,
    k.unknown⟩
  · exact (k.sound j u hu).frame (fun _ _ hd _ => getElem?_append_old hd) fun h => h
  · rcases of_append hd with hd | ⟨_, rfl⟩
    · obtain ⟨hnone, hsome⟩ := k.routed l d hd
      exact ⟨hnone, fun j hj => ⟨(hsome j hj).waiter⟩⟩
    · exact ⟨fun _ => rfl, nofun⟩

theorem Kept.take (k : Kept decode w) {caller : CallerKey} {response : JsonRpcResponse}
    {id : String} {table : AList fun _ : PendingKey => Nat} (ht : w.pending = some table)
    (hid : response.id = some (.string id)) (hlookup : table.lookup ⟨caller, id⟩ = some i) :
    Kept decode { w with
      pending := some (table.erase ⟨caller, id⟩)
      waiters := w.waiters.modify i fun v => { v with sender := .carried w.deliveries.length }
      deliveries := w.deliveries ++ [⟨caller, response, some i, none⟩] } := by
  obtain ⟨v, hv, hkey, htabled⟩ := (k.table table ht _ _).mp hlookup
  have hs := k.sound i v hv
  have hset : w.waiters.modify i (fun v => { v with sender := .carried w.deliveries.length }) =
      w.waiters.set i { v with sender := .carried w.deliveries.length } := by
    rw [List.modify_eq_set_getElem?, hv]
    rfl
  rw [hset]
  have hlast : (w.deliveries ++ [(⟨caller, response, some i, none⟩ : Delivery)])[w.deliveries.length]? =
      some ⟨caller, response, some i, none⟩ := by simp
  have hcaller : caller = v.connection.caller := congrArg PendingKey.caller hkey.symm
  have hvid : id = v.id := congrArg PendingKey.id hkey.symm
  let carried : Clients α := { w with
    pending := some (table.erase ⟨caller, id⟩)
    waiters := w.waiters.set i { v with sender := .carried w.deliveries.length }
    deliveries := w.deliveries ++ [⟨caller, response, some i, none⟩] }
  obtain ⟨hrequests, hnotices, hunknown⟩ :=
    counts_same k hv (show carried.waiters = _ from rfl) rfl rfl rfl rfl
  refine ⟨distinct_edit k hv rfl rfl, table_erase k hv rfl ?_ nofun, nofun,
    sound_edit k hv rfl (fun _ _ _ _ hd _ => getElem?_append_old hd) ?_ ?_, fun l d hd => ?_,
    hrequests, hnotices, hunknown⟩
  · show some (table.erase ⟨caller, id⟩) = w.pending.map (AList.erase v.key)
    rw [ht, hkey]
    rfl
  · intro h
    rw [ht] at h
    cases h
  · refine ⟨fun r hr => ?_, fun _ _ => nofun, hs.listening, nofun, ?_, fun l hl => ?_, hs.unsent,
      hs.sent, fun o r h => ?_, hs.notified⟩
    · exact (hs.answer r hr).frame fun _ _ hd _ _ => getElem?_append_old hd
    · rintro (h | ⟨h, _⟩)
      · cases h
      · cases h
    · obtain rfl := Sender.carried.inj hl
      exact ⟨_, hlast, rfl, rfl⟩
    · obtain ⟨hres, hsent⟩ := hs.settled o r h
      cases hres with
      | answered response' ha =>
        exact ⟨.answered response' (ha.frame fun _ _ hd _ _ => getElem?_append_old hd), hsent⟩
      | disconnected => exact ⟨.disconnected, hsent⟩
      | cancelled => exact ⟨.cancelled, hsent⟩
      | timedOut => exact ⟨.timedOut, hsent⟩
      | dropped => exact ⟨.dropped, hsent⟩
  · rcases of_append hd with hd | ⟨rfl, rfl⟩
    · obtain ⟨hnone, hsome⟩ := k.routed l d hd
      refine ⟨hnone, fun j hj => (hsome j hj).edit hv rfl rfl rfl (fun h => ?_) fun h => ?_⟩
      · rw [htabled] at h
        cases h
      · rw [htabled] at h
        cases h
    · refine ⟨nofun, fun j hj => ⟨?_⟩⟩
      obtain rfl := Option.some.inj hj
      refine ⟨{ v with sender := .carried w.deliveries.length }, ?_, hcaller, ?_, fun _ => rfl, nofun⟩
      · rw [getElem?_edit hv rfl, if_pos rfl]
      · show response.id = some (.string v.id)
        rw [hid, hvid]

theorem Kept.answer (k : Kept decode w) {l : Nat} {d : Delivery} (hd : w.deliveries[l]? = some d)
    (hwaiter : d.waiter = some i) (hflying : d.accepted = none) (hv : w.waiters[i]? = some v) :
    Kept decode { w.setWaiter i { v with
        sender := .sent l
        answer := if v.listening then some d.response else v.answer } with
      deliveries := w.deliveries.set l { d with accepted := some v.listening } } := by
  have hs := k.sound i v hv
  obtain ⟨v', hv', hcaller, hresponse, hcarried, _⟩ := ((k.routed l d hd).2 i hwaiter).waiter
  rw [hv] at hv'
  obtain rfl := Option.some.inj hv'
  have hsender := hcarried hflying
  have hlt : l < w.deliveries.length := (List.getElem?_eq_some_iff.mp hd).1
  have hat : (w.deliveries.set l { d with accepted := some v.listening })[l]? =
      some { d with accepted := some v.listening } := List.getElem?_set_self hlt
  have helse {l' : Nat} {d' : Delivery} (hd' : w.deliveries[l']? = some d') (hne : l' ≠ l) :
      (w.deliveries.set l { d with accepted := some v.listening })[l']? = some d' := by
    rw [List.getElem?_set_ne fun h => hne h.symm]
    exact hd'
  -- an answer accepted before is another delivery's
  have hkeeps (j : Nat) (l' : Nat) (d' : Delivery) (hd' : w.deliveries[l']? = some d')
      (_ : d'.waiter = some j) (ha : d'.accepted = some true) :
      (w.deliveries.set l { d with accepted := some v.listening })[l']? = some d' := by
    refine helse hd' ?_
    rintro rfl
    rw [hd] at hd'
    rw [← Option.some.inj hd', hflying] at ha
    cases ha
  let answered : Waiter α := { v with
    sender := .sent l
    answer := if v.listening then some d.response else v.answer }
  let sent : Clients α := { w.setWaiter i answered with
    deliveries := w.deliveries.set l { d with accepted := some v.listening } }
  obtain ⟨hrequests, hnotices, hunknown⟩ :=
    counts_same k hv (show sent.waiters = w.waiters.set i answered from rfl) rfl rfl rfl rfl
  refine ⟨distinct_edit k hv rfl rfl, table_edit k hv rfl rfl rfl ?_,
    closed_edit k hv rfl (fun h => h) nofun, sound_edit k hv rfl ?_ (fun h => h) ?_,
    fun l' d' hd' => ?_, hrequests, hnotices, hunknown⟩
  · rw [hsender]
    exact iff_of_false nofun nofun
  · intro j hji l' d' hd' hj
    refine helse hd' ?_
    rintro rfl
    rw [hd] at hd'
    rw [← Option.some.inj hd', hwaiter] at hj
    exact hji (Option.some.inj hj).symm
  · refine ⟨fun r hr => ?_, fun ho l' hl' => ?_, hs.listening, nofun, ?_, nofun, hs.unsent, hs.sent,
      fun o r h => ?_, hs.notified⟩
    · have hr' : (if v.listening then some d.response else v.answer) = some r := hr
      split at hr'
      · rename_i hl
        refine ⟨l, _, hat, hwaiter, ?_, Option.some.inj hr'⟩
        show some v.listening = some true
        rw [hl]
      · exact (hs.answer r hr').frame (hkeeps i)
    · show (if v.listening then some d.response else v.answer) ≠ none
      rw [hs.listening ho]
      nofun
    · rintro (h | ⟨h, _⟩)
      · cases h
      · cases h
    · obtain ⟨hres, hsent⟩ := hs.settled o r h
      cases hres with
      | answered response' ha => exact ⟨.answered response' (ha.frame (hkeeps i)), hsent⟩
      | disconnected => exact ⟨.disconnected, hsent⟩
      | cancelled => exact ⟨.cancelled, hsent⟩
      | timedOut => exact ⟨.timedOut, hsent⟩
      | dropped => exact ⟨.dropped, hsent⟩
  · by_cases hl : l' = l
    · subst hl
      have hd'' : (w.deliveries.set l' { d with accepted := some v.listening })[l']? = some d' := hd'
      rw [hat] at hd''
      obtain rfl := Option.some.inj hd''
      refine ⟨fun hn => absurd (hwaiter.symm.trans hn) nofun, fun j hj => ⟨?_⟩⟩
      obtain rfl := Option.some.inj (hwaiter.symm.trans hj)
      refine ⟨{ v with
        sender := .sent l', answer := if v.listening then some d.response else v.answer }, ?_,
        hcaller, hresponse, nofun, fun _ _ => rfl⟩
      rw [getElem?_edit hv rfl, if_pos rfl]
    · have hold : w.deliveries[l']? = some d' := by
        have hd'' : (w.deliveries.set l { d with accepted := some v.listening })[l']? = some d' := hd'
        rw [List.getElem?_set_ne fun h => hl h.symm] at hd''
        exact hd''
      obtain ⟨hnone, hsome⟩ := k.routed l' d' hold
      refine ⟨hnone, fun j hj => (hsome j hj).edit hv rfl rfl rfl (fun h => ?_) fun h => ?_⟩
      · rw [hsender] at h
        exact absurd (Sender.carried.inj h).symm hl
      · rw [hsender] at h
        cases h

/-- A request of the closed table: its sender goes with the table. -/
def shut (v : Waiter α) : Waiter α :=
  if v.sender = .tabled then { v with sender := .closing } else v

theorem shut_frame (v : Waiter α) : (shut v).id = v.id ∧ (shut v).connection = v.connection ∧
    (shut v).needs = v.needs ∧ (shut v).wait = v.wait ∧ (shut v).answer = v.answer ∧
    (shut v).listening = v.listening ∧ (shut v).sent = v.sent ∧ (shut v).notified = v.notified ∧
    (shut v).sender ≠ .tabled ∧ (∀ s, s ≠ .closing → ((shut v).sender = s → v.sender = s)) ∧
    ∀ s, s ≠ .tabled → v.sender = s → (shut v).sender = s := by
  unfold shut
  split
  · rename_i h
    refine ⟨rfl, rfl, rfl, rfl, rfl, rfl, rfl, rfl, nofun, fun s hs heq => ?_, fun s hs heq => ?_⟩
    · exact absurd heq.symm hs
    · exact absurd (heq.symm.trans h) hs
  · rename_i h
    exact ⟨rfl, rfl, rfl, rfl, rfl, rfl, rfl, rfl, h, fun _ _ heq => heq, fun _ _ heq => heq⟩

theorem Kept.close (k : Kept decode w) : Kept decode w.close := by
  have hmap {j : Nat} {u : Waiter α} (hu : w.close.waiters[j]? = some u) :
      ∃ v, w.waiters[j]? = some v ∧ u = shut v := by
    have hu' : (w.waiters.map shut)[j]? = some u := hu
    rw [List.getElem?_map] at hu'
    obtain ⟨v, hv, rfl⟩ := Option.map_eq_some_iff.mp hu'
    exact ⟨v, hv, rfl⟩
  have hback {j : Nat} {v : Waiter α} (hv : w.waiters[j]? = some v) :
      w.close.waiters[j]? = some (shut v) := by
    show (w.waiters.map shut)[j]? = _
    rw [List.getElem?_map, hv]
    rfl
  refine ⟨?_, nofun, fun _ j u hu => ?_, fun j u hu => ?_, fun l d hd => ?_, fun j u hu => ?_,
    fun j u hu => ?_, fun id hnone => ?_⟩
  · intro j l u x hu hx heq
    obtain ⟨u', hu', rfl⟩ := hmap hu
    obtain ⟨x', hx', rfl⟩ := hmap hx
    rw [(shut_frame u').1, (shut_frame x').1] at heq
    exact k.distinct j l u' x' hu' hx' heq
  · obtain ⟨v, _, rfl⟩ := hmap hu
    obtain ⟨_, _, _, _, _, _, _, _, htabled, _⟩ := shut_frame v
    exact htabled
  · obtain ⟨v, hv, rfl⟩ := hmap hu
    have hs := k.sound j v hv
    obtain ⟨_, hconnection, hneeds, hwait, hanswer, hlistening, hsent, hnotified, htabled, hfrom, _⟩ :=
      shut_frame v
    refine ⟨?_, ?_, ?_, fun h => absurd h htabled, fun _ => rfl, fun l hl => ?_, ?_, ?_,
      fun o r h => ?_, ?_⟩
    · rw [hanswer]
      exact fun r hr => (hs.answer r hr).frame fun _ _ hd _ _ => hd
    · rw [hwait, hanswer]
      exact fun ho l hl => hs.unread ho l (hfrom _ nofun hl)
    · rw [hwait, hlistening]
      exact hs.listening
    · exact hs.carried l (hfrom _ nofun hl)
    · rw [hwait, hsent]
      exact hs.unsent
    · rw [hwait, hsent]
      exact hs.sent
    · rw [hwait] at h
      rw [hsent]
      obtain ⟨hres, hout⟩ := hs.settled o r h
      exact ⟨hres.carry rfl hneeds hconnection, hout⟩
    · rw [hnotified, hwait]
      exact hs.notified
  · obtain ⟨hnone, hsome⟩ := k.routed l d hd
    refine ⟨hnone, fun j hj => ⟨?_⟩⟩
    obtain ⟨v, hv, hcaller, hresponse, hcarried, hsent⟩ := (hsome j hj).waiter
    obtain ⟨hid, hconnection, _, _, _, _, _, _, _, _, hto⟩ := shut_frame v
    refine ⟨shut v, hback hv, ?_, ?_, fun ha => hto _ nofun (hcarried ha),
      fun b hb => hto _ nofun (hsent b hb)⟩
    · rw [hconnection]
      exact hcaller
    · rw [hid]
      exact hresponse
  · obtain ⟨v, hv, rfl⟩ := hmap hu
    obtain ⟨hid, _, _, _, _, _, hsent, _⟩ := shut_frame v
    rw [hid, hsent]
    exact k.requests j v hv
  · obtain ⟨v, hv, rfl⟩ := hmap hu
    obtain ⟨hid, _, _, _, _, _, _, hnotified, _⟩ := shut_frame v
    rw [hid, hnotified]
    exact k.notices j v hv
  · refine k.unknown id fun j v hv => ?_
    rw [← (shut_frame v).1]
    exact hnone j (shut v) (hback hv)

theorem Kept.step (k : Kept decode w) (hs : w.step decode e = some w') : Kept decode w' := by
  cases step_moves hs with
  | outside e tokens hungUp _ =>
    exact ⟨k.distinct, k.table, k.closed,
      fun j u hu => (k.sound j u hu).frame (fun _ _ hd _ => hd) (fun h => h),
      fun l d hd => ⟨(k.routed l d hd).1, fun j hj => ⟨((k.routed l d hd).2 j hj).waiter⟩⟩,
      k.requests, k.notices, k.unknown⟩
  | refuses channel needs params id error =>
    exact ⟨k.distinct, k.table, k.closed,
      fun j u hu => (k.sound j u hu).frame (fun _ _ hd _ => hd) (fun h => h),
      fun l d hd => ⟨(k.routed l d hd).1, fun j hj => ⟨((k.routed l d hd).2 j hj).waiter⟩⟩,
      k.requests, k.notices, k.unknown⟩
  | registers _ _ _ _ v table ht hfresh hwait hsender hanswer hlistening hsent hnotified =>
    exact k.register ht hfresh hwait hsender hanswer hlistening hsent hnotified
  | sends i v queued sent hv hwait hq => exact k.send hv hwait hq
  | turns e i v v' hv ht _ => exact k.turn hv ht
  | forgets i v outcome result hv hwait => exact k.forget hv hwait
  | notices i v outcome result queued notified hv hwait hq => exact k.notice hv hwait hq
  | misses caller response => exact k.miss caller response
  | takes caller response id i table ht hid hlookup => exact k.take ht hid hlookup
  | answers l d i v hd hwaiter hflying hv => exact k.answer hd hwaiter hflying hv
  | closes => exact k.close

end Steps

end Clients

end Tronc.Mcp
