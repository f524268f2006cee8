import Tronc.Sessions.Store

namespace Tronc.Sessions

namespace SessionStore

/-- `session` is live in one store and not in the other: it was ended and forgotten. -/
def Ends (before after : SessionStore) (session : Session) : Prop :=
  ∃ key, before.sessions.lookup key = some session ∧ after.sessions.lookup key = none

/-- The sessions of the caller of `session`. -/
def theirs (store : SessionStore) (session : Session) : Nat :=
  store.sessions.entries.countP fun e => e.2.sharesCallerWith session

/-- `after` has lost only sessions that `p` admits, each of them ended. -/
structure Loses (p : Session → Prop) (before after : SessionStore) : Prop where
  ttl : after.ttl = before.ttl
  limits : after.limits = before.limits
  active : after.cells.active = before.cells.active
  lastSeen : after.cells.lastSeen = before.cells.lastSeen
  sublist : after.sessions.entries.Sublist before.sessions.entries
  lost : ∀ key s, before.sessions.lookup key = some s → after.sessions.lookup key = none → p s
  fired : ∀ s, after.cells.cancelled s = true ↔
    before.cells.cancelled s = true ∨ before.Ends after s

variable {store store' store'' : SessionStore} {now : Nat} {p q : Session → Prop}

theorem Loses.refl (p : Session → Prop) (store : SessionStore) : Loses p store store where
  ttl := rfl
  limits := rfl
  active := rfl
  lastSeen := rfl
  sublist := .refl _
  lost key s h hn := by
    rw [h] at hn
    simp at hn
  fired s := by
    constructor
    · exact .inl
    · rintro (h | ⟨key, h, hn⟩)
      · exact h
      · rw [h] at hn
        simp at hn

theorem Loses.kept (h : Loses p store store') {key : String} {s : Session}
    (hs : store'.sessions.lookup key = some s) : store.sessions.lookup key = some s := by
  rw [← AList.mem_entries_iff] at hs ⊢
  exact h.sublist.subset hs

theorem Loses.trans (h : Loses p store store') (k : Loses q store' store'') :
    Loses (fun s => p s ∨ q s) store store'' where
  ttl := k.ttl.trans h.ttl
  limits := k.limits.trans h.limits
  active := k.active.trans h.active
  lastSeen := k.lastSeen.trans h.lastSeen
  sublist := k.sublist.trans h.sublist
  lost key s hs hn := by
    cases hm : store'.sessions.lookup key with
    | none => exact .inl (h.lost key s hs hm)
    | some s' =>
      have same := h.kept hm
      rw [hs] at same
      obtain rfl := Option.some.inj same
      exact .inr (k.lost key s hm hn)
  fired s := by
    rw [k.fired, h.fired]
    constructor
    · rintro ((hc | ⟨key, hs, hn⟩) | ⟨key, hs, hn⟩)
      · exact .inl hc
      · refine .inr ⟨key, hs, ?_⟩
        cases hm : store''.sessions.lookup key with
        | none => rfl
        | some s' =>
          have back := k.kept hm
          rw [hn] at back
          simp at back
      · exact .inr ⟨key, h.kept hs, hn⟩
    · rintro (hc | ⟨key, hs, hn⟩)
      · exact .inl (.inl hc)
      · cases hm : store'.sessions.lookup key with
        | none => exact .inl (.inr ⟨key, hs, hm⟩)
        | some s' =>
          have same := h.kept hm
          rw [hs] at same
          obtain rfl := Option.some.inj same
          exact .inr ⟨key, hm, hn⟩

theorem Loses.mono (h : Loses p store store') (hpq : ∀ s, p s → q s) : Loses q store store' :=
  { h with lost := fun key s hs hn => hpq s (h.lost key s hs hn) }

theorem Loses.theirs_le (h : Loses p store store') (session : Session) :
    store'.theirs session ≤ store.theirs session := h.sublist.countP_le

theorem Loses.length_le (h : Loses p store store') :
    store'.sessions.entries.length ≤ store.sessions.entries.length := h.sublist.length_le

theorem Loses.isIdle (h : Loses p store store') (s : Session) :
    store'.cells.isIdle s = store.cells.isIdle s := by
  rw [Cells.isIdle, Cells.isIdle, h.active]

theorem Loses.isExpired (h : Loses p store store') (s : Session) :
    store'.cells.isExpired s store'.ttl now = store.cells.isExpired s store.ttl now := by
  rw [Cells.isExpired, Cells.isExpired, h.isIdle, h.lastSeen, h.ttl]

private theorem fold_endSession (l : List (Sigma fun _ : String => Session)) (cells : Cells) :
    (l.foldl (fun cells e => cells.endSession e.2) cells).active = cells.active ∧
    (l.foldl (fun cells e => cells.endSession e.2) cells).lastSeen = cells.lastSeen ∧
    ∀ s, (l.foldl (fun cells e => cells.endSession e.2) cells).cancelled s = true ↔
      cells.cancelled s = true ∨ ∃ e ∈ l, e.2 = s := by
  induction l generalizing cells with
  | nil => simp
  | cons e l ih =>
    obtain ⟨ha, hs, hc⟩ := ih (cells.endSession e.2)
    refine ⟨ha, hs, fun s => ?_⟩
    rw [List.foldl_cons, hc]
    by_cases he : e.2 = s
    · simp [Cells.endSession, he]
    · have hne : s ≠ e.2 := fun h => he h.symm
      simp [Cells.endSession, Function.update_of_ne hne, he]

theorem dropExpired_loses (store : SessionStore) (now : Nat) :
    Loses (fun s => store.cells.isExpired s store.ttl now = true) store
      (store.dropExpired now) := by
  obtain ⟨ha, hs, hc⟩ := fold_endSession
    (store.sessions.entries.filter fun e => store.cells.isExpired e.2 store.ttl now) store.cells
  have lookup (key : String) : (store.dropExpired now).sessions.lookup key =
      (store.sessions.lookup key).filter fun s => !store.cells.isExpired s store.ttl now :=
    AList.lookup_retain _ _ _
  refine ⟨rfl, rfl, ha, hs, AList.retain_entries_sublist _ _, ?_, ?_⟩
  · intro key s hl hn
    rw [lookup, hl] at hn
    simpa [Option.filter_some] using hn
  · intro s
    rw [show (store.dropExpired now).cells.cancelled s = true ↔ _ from hc s]
    constructor
    · rintro (hc | ⟨⟨key, s'⟩, he, rfl⟩)
      · exact .inl hc
      · obtain ⟨he, hx⟩ := List.mem_filter.mp he
        have hl := AList.mem_entries_iff.mp he
        refine .inr ⟨key, hl, ?_⟩
        rw [lookup, hl]
        simpa [Option.filter_some] using hx
    · rintro (hc | ⟨key, hl, hn⟩)
      · exact .inl hc
      · refine .inr ⟨⟨key, s⟩, List.mem_filter.mpr ⟨AList.mem_entries_iff.mpr hl, ?_⟩, rfl⟩
        rw [lookup, hl] at hn
        simpa [Option.filter_some] using hn

theorem sweepIfDue_loses (store : SessionStore) (now : Nat) :
    Loses (fun s => store.cells.isExpired s store.ttl now = true) store
      (store.sweepIfDue now) := by
  unfold sweepIfDue
  split
  · exact .refl _ _
  · obtain ⟨a, b, c, d, e, f, g⟩ := dropExpired_loses { store with lastSweep := now } now
    exact ⟨a, b, c, d, e, f, g⟩

theorem forget_loses (store : SessionStore) (key : String) :
    Loses (fun s => store.sessions.lookup key = some s) store (store.forget key) := by
  unfold forget
  split
  · rename_i session hk
    refine ⟨rfl, rfl, rfl, rfl, AList.erase_entries_sublist _ _, ?_, ?_⟩
    · intro key' s hs hn
      by_cases he : key' = key
      · rw [← he]
        exact hs
      · rw [AList.lookup_erase_ne he, hs] at hn
        simp at hn
    · intro s
      by_cases he : s = session
      · subst he
        exact iff_of_true (Function.update_self ..) (.inr ⟨key, hk, AList.lookup_erase _ _⟩)
      · simp only [Cells.endSession, Function.update_of_ne he]
        constructor
        · exact .inl
        · rintro (hc | ⟨key', hs, hn⟩)
          · exact hc
          · have hkey : key' = key := by
              by_contra hne
              rw [AList.lookup_erase_ne hne, hs] at hn
              simp at hn
            rw [hkey, hk] at hs
            exact absurd (Option.some.inj hs).symm he
  · exact .refl _ _

/-- What the scan has found once it has looked at `seen`. -/
structure Scanned (cells : Cells) (session : Session) (seen : List (Sigma fun _ : String => Session))
    (acc : Nat × Option (Nat × String)) : Prop where
  count : acc.1 = seen.countP fun e => e.2.sharesCallerWith session
  busy : acc.2 = none → ∀ e ∈ seen, e.2.sharesCallerWith session = true →
    cells.isIdle e.2 = false
  idle : ∀ oldest key, acc.2 = some (oldest, key) →
    (∃ s, ⟨key, s⟩ ∈ seen ∧ s.sharesCallerWith session = true ∧ cells.isIdle s = true ∧
      cells.lastSeen s = oldest) ∧
    ∀ e ∈ seen, e.2.sharesCallerWith session = true → cells.isIdle e.2 = true →
      oldest ≤ cells.lastSeen e.2

private theorem Scanned.next {cells : Cells} {session : Session}
    {seen : List (Sigma fun _ : String => Session)} {acc : Nat × Option (Nat × String)}
    (h : Scanned cells session seen acc) (e : Sigma fun _ : String => Session) :
    Scanned cells session (seen ++ [e]) (scan cells session acc e) := by
  have last {P : (Sigma fun _ : String => Session) → Prop} (hs : ∀ e ∈ seen, P e) (he : P e) :
      ∀ e' ∈ seen ++ [e], P e' := by
    intro e' he'
    rcases List.mem_append.mp he' with he' | he'
    · exact hs e' he'
    · rw [List.mem_singleton.mp he']
      exact he
  unfold scan
  split
  · rename_i hshares
    have hcount : acc.1 + 1 = (seen ++ [e]).countP fun e => e.2.sharesCallerWith session := by
      simp only [List.countP_append, List.countP_singleton, hshares, if_true, h.count]
    split
    · rename_i hold
      simp only [Bool.and_eq_true, Option.all_eq_true_iff_get, decide_eq_true_eq] at hold
      refine ⟨hcount, by simp, fun oldest key hk => ?_⟩
      obtain ⟨rfl, rfl⟩ := Prod.mk.inj (Option.some.inj hk)
      refine ⟨⟨e.2, by simp, hshares, hold.1, rfl⟩, last (fun e' he' hs' hi' => ?_)
        (fun _ _ => Nat.le_refl _)⟩
      cases hacc : acc.2 with
      | none =>
        rw [h.busy hacc e' he' hs'] at hi'
        simp at hi'
      | some l =>
        have hle := (h.idle l.1 l.2 hacc).2 e' he' hs' hi'
        have hlt := hold.2 (by rw [hacc]; rfl)
        simp only [hacc, Option.get_some] at hlt
        omega
    · rename_i hold
      simp only [Bool.and_eq_true, not_and] at hold
      refine ⟨hcount, fun hn => last (h.busy hn) fun _ => ?_, fun oldest key hk => ?_⟩
      · cases hi : cells.isIdle e.2 with
        | false => rfl
        | true => exact absurd (by rw [hn]; rfl) (hold hi)
      · obtain ⟨⟨s, hs, hrest⟩, hmin⟩ := h.idle oldest key hk
        refine ⟨⟨s, List.mem_append_left _ hs, hrest⟩, last hmin fun _ hi => ?_⟩
        have hacc : acc.2 = some (oldest, key) := hk
        have hnot := hold hi
        simp only [hacc, Option.all_some, decide_eq_true_eq] at hnot
        omega
  · rename_i hshares
    refine ⟨?_, fun hn => last (h.busy hn) fun hs => absurd hs hshares, fun oldest key hk => ?_⟩
    · simp only [List.countP_append, List.countP_singleton, hshares, h.count]
      rfl
    · obtain ⟨⟨s, hs, hrest⟩, hmin⟩ := h.idle oldest key hk
      exact ⟨⟨s, List.mem_append_left _ hs, hrest⟩, last hmin fun hs => absurd hs hshares⟩

theorem scanned (cells : Cells) (session : Session) (l : List (Sigma fun _ : String => Session)) :
    Scanned cells session l (l.foldl (scan cells session) (0, none)) := by
  suffices ∀ seen acc, Scanned cells session seen acc →
      Scanned cells session (seen ++ l) (l.foldl (scan cells session) acc) from
    this [] _ ⟨rfl, by simp, by simp⟩
  induction l with
  | nil =>
    intro seen acc h
    rw [List.append_nil]
    exact h
  | cons e l ih =>
    intro seen acc h
    have next := ih _ _ (h.next e)
    rw [List.append_assoc] at next
    exact next

/-- The store within its limits, its sessions under their own ids. -/
structure Within (store : SessionStore) : Prop where
  total : store.sessions.entries.length ≤ store.limits.total
  perCaller : ∀ session, store.theirs session ≤ store.limits.perCaller
  keyed : ∀ key s, store.sessions.lookup key = some s → s.id = some key

theorem Loses.within (h : Loses p store store') (hw : store.Within) : store'.Within where
  total := by
    rw [h.limits]
    exact Nat.le_trans h.length_le hw.total
  perCaller session := by
    rw [h.limits]
    exact Nat.le_trans (h.theirs_le session) (hw.perCaller session)
  keyed key s hs := hw.keyed key s (h.kept hs)

/-- What `insert` may end, and when it refuses, of a session under a fresh id. -/
structure InsertSpec (store : SessionStore) (now : Nat) (session : Session) (id : String)
    (after : SessionStore) (result : Except SessionRefusal Unit) : Prop where
  fired : ∀ s, after.cells.cancelled s = true ↔
    store.cells.cancelled s = true ∨ store.Ends after s
  accepted : result = .ok () → after.sessions.lookup id = some session ∧
    (∀ key s, key ≠ id → after.sessions.lookup key = some s →
      store.sessions.lookup key = some s) ∧
    ∃ evicted : Option Session,
      (∀ s, store.Ends after s →
        store.cells.isExpired s store.ttl now = true ∨ evicted = some s) ∧
      ∀ s, evicted = some s → s.sharesCallerWith session = true ∧ store.cells.isIdle s = true ∧
        store.limits.perCaller ≤ (store.sweepIfDue now).theirs session ∧
        ∀ key other, (store.sweepIfDue now).sessions.lookup key = some other →
          other.sharesCallerWith session = true → store.cells.isIdle other = true →
            store.cells.lastSeen s ≤ store.cells.lastSeen other
  refused : ∀ e, result = .error e →
    (∀ s, store.Ends after s → store.cells.isExpired s store.ttl now = true) ∧
    ∀ key s, after.sessions.lookup key = some s → store.sessions.lookup key = some s
  callerFull : result = .error .callerFull ↔ store.limits.perCaller ≤ store.theirs session ∧
    ∀ key s, store.sessions.lookup key = some s → s.sharesCallerWith session = true →
      store.cells.isIdle s = false
  serverFull : result = .error .serverFull → store.limits.total ≤
    (store.sessions.entries.filter fun e => !store.cells.isExpired e.2 store.ttl now).length
  foreign : ∀ s, store.Ends after s → s.sharesCallerWith session = false →
    store.cells.isExpired s store.ttl now = true

private theorem filter_expired (h : Loses p store store') :
    (store'.sessions.entries.filter fun e => !store'.cells.isExpired e.2 store'.ttl now).Sublist
      (store.sessions.entries.filter fun e => !store.cells.isExpired e.2 store.ttl now) := by
  simp only [h.isExpired]
  exact h.sublist.filter _

/-- `takeIn` puts the session into what it keeps, or finds no room among the unexpired. -/
theorem takeIn_cases (store : SessionStore) (now : Nat) (id : String) (session : Session) :
    (∃ kept, Loses (fun s => store.cells.isExpired s store.ttl now = true) store kept ∧
      kept.sessions.entries.length < store.limits.total ∧
      store.takeIn now id session =
        ({ kept with sessions := kept.sessions.insert id session }, .ok ())) ∨
    store.limits.total ≤ store.sessions.entries.length ∧
      store.limits.total ≤ (store.dropExpired now).sessions.entries.length ∧
      store.takeIn now id session = (store.dropExpired now, .error .serverFull) := by
  unfold takeIn
  split
  · rename_i hfull
    dsimp only
    split
    · rename_i hroom
      exact .inr ⟨hfull, hroom, rfl⟩
    · rename_i hroom
      exact .inl ⟨store.dropExpired now, dropExpired_loses store now, Nat.lt_of_not_le hroom, rfl⟩
  · rename_i hroom
    exact .inl ⟨store, .refl _ _, Nat.lt_of_not_le hroom, rfl⟩

private theorem ends_insert {kept : SessionStore} {id : String} {session : Session}
    (hfresh : store.sessions.lookup id = none) (s : Session) :
    store.Ends { kept with sessions := kept.sessions.insert id session } s ↔
      store.Ends kept s := by
  constructor
  · rintro ⟨key, hs, hn⟩
    have hkey : key ≠ id := by
      rintro rfl
      rw [hs] at hfresh
      simp at hfresh
    exact ⟨key, hs, by rwa [AList.lookup_insert_ne hkey] at hn⟩
  · rintro ⟨key, hs, hn⟩
    have hkey : key ≠ id := by
      rintro rfl
      rw [hs] at hfresh
      simp at hfresh
    exact ⟨key, hs, by rwa [AList.lookup_insert_ne hkey]⟩

private theorem nodup_entries (s : AList fun _ : String => Session) : s.entries.Nodup :=
  (List.Nodup.of_map Sigma.fst s.nodupKeys)

/-- A caller with every session busy loses none of them to expiry. -/
private theorem Loses.theirs_eq {session : Session}
    (h : Loses (fun s => store.cells.isExpired s store.ttl now = true) store store')
    (hbusy : ∀ key s, store.sessions.lookup key = some s → s.sharesCallerWith session = true →
      store.cells.isIdle s = false) : store'.theirs session = store.theirs session := by
  refine Nat.le_antisymm (h.theirs_le session) ?_
  unfold theirs
  rw [List.countP_eq_length_filter, List.countP_eq_length_filter]
  refine (List.subperm_of_subset ((nodup_entries _).filter _) ?_).length_le
  rintro ⟨key, s⟩ he
  obtain ⟨he, hs⟩ := List.mem_filter.mp he
  refine List.mem_filter.mpr ⟨?_, hs⟩
  have hl := AList.mem_entries_iff.mp he
  rw [AList.mem_entries_iff]
  cases hm : store'.sessions.lookup key with
  | some s' =>
    have same := h.kept hm
    rw [hl] at same
    exact same.symm
  | none =>
    have hx := h.lost key s hl hm
    rw [Cells.isExpired, hbusy key s hl hs] at hx
    simp at hx

/-- A caller that has lost none of its sessions still has every one of them. -/
private theorem Loses.keeps {session : Session} (h : Loses p store store')
    (hcount : store.theirs session ≤ store'.theirs session) {key : String} {s : Session}
    (hl : store.sessions.lookup key = some s) (hs : s.sharesCallerWith session = true) :
    store'.sessions.lookup key = some s := by
  unfold theirs at hcount
  rw [List.countP_eq_length_filter, List.countP_eq_length_filter] at hcount
  have hsub := h.sublist.filter fun e => e.2.sharesCallerWith session
  have heq := hsub.eq_of_length (Nat.le_antisymm hsub.length_le hcount)
  have hmem : ⟨key, s⟩ ∈ store.sessions.entries.filter fun e => e.2.sharesCallerWith session :=
    List.mem_filter.mpr ⟨AList.mem_entries_iff.mpr hl, hs⟩
  rw [← heq] at hmem
  exact AList.mem_entries_iff.mp (List.mem_filter.mp hmem).1

private theorem insertSpec_room {kept : SessionStore} {id : String} {session : Session}
    (hid : store.sessions.lookup id = none)
    (hloses : Loses (fun s => store.cells.isExpired s store.ttl now = true) store kept)
    (hroom : (store.sweepIfDue now).theirs session < store.limits.perCaller) :
    InsertSpec store now session id
      { kept with sessions := kept.sessions.insert id session } (.ok ()) where
  fired s := by
    rw [ends_insert hid]
    exact hloses.fired s
  accepted _ := by
    refine ⟨AList.lookup_insert _, fun key s hne hl => ?_, none, fun s hs => ?_, by simp⟩
    · rw [AList.lookup_insert_ne hne] at hl
      exact hloses.kept hl
    · obtain ⟨key, hl, hn⟩ := (ends_insert hid s).mp hs
      exact .inl (hloses.lost key s hl hn)
  refused e he := by simp at he
  callerFull := by
    refine iff_of_false (by simp) fun ⟨hcount, hbusy⟩ => ?_
    have heq := (sweepIfDue_loses store now).theirs_eq hbusy
    omega
  serverFull he := by simp at he
  foreign s hs _ := by
    obtain ⟨key, hl, hn⟩ := (ends_insert hid s).mp hs
    exact hloses.lost key s hl hn

private theorem insertSpec_serverFull {id : String} {session : Session}
    (hroom : (store.sweepIfDue now).theirs session < store.limits.perCaller)
    (hfull : store.limits.total ≤
      ((store.sweepIfDue now).dropExpired now).sessions.entries.length) :
    InsertSpec store now session id ((store.sweepIfDue now).dropExpired now)
      (.error .serverFull) := by
  have hsweep := sweepIfDue_loses store now
  have hloses : Loses (fun s => store.cells.isExpired s store.ttl now = true) store
      ((store.sweepIfDue now).dropExpired now) := by
    refine (hsweep.trans (dropExpired_loses _ now)).mono fun s hs => ?_
    rcases hs with hs | hs
    · exact hs
    · rw [hsweep.isExpired] at hs
      exact hs
  refine ⟨hloses.fired, by simp, fun _ _ => ⟨fun s ⟨key, hl, hn⟩ => hloses.lost key s hl hn,
    fun key s hl => hloses.kept hl⟩, ?_, fun _ => ?_, fun s ⟨key, hl, hn⟩ _ =>
    hloses.lost key s hl hn⟩
  · refine iff_of_false (by simp) fun ⟨hcount, hbusy⟩ => ?_
    have heq := hsweep.theirs_eq hbusy
    omega
  · exact Nat.le_trans hfull (filter_expired hsweep).length_le

private theorem insertSpec_callerFull {id : String} {session : Session}
    (hw : store.Within)
    (hcount : store.limits.perCaller ≤ (store.sweepIfDue now).theirs session)
    (hbusy : ∀ e ∈ (store.sweepIfDue now).sessions.entries,
      e.2.sharesCallerWith session = true → (store.sweepIfDue now).cells.isIdle e.2 = false) :
    InsertSpec store now session id (store.sweepIfDue now) (.error .callerFull) := by
  have hsweep := sweepIfDue_loses store now
  have hle := hsweep.theirs_le session
  have hper := hw.perCaller session
  refine ⟨hsweep.fired, by simp, fun _ _ => ⟨fun s ⟨key, hl, hn⟩ => hsweep.lost key s hl hn,
    fun key s hl => hsweep.kept hl⟩, iff_of_true rfl ⟨by omega, fun key s hl hs => ?_⟩, by simp,
    fun s ⟨key, hl, hn⟩ _ => hsweep.lost key s hl hn⟩
  have hkept := hsweep.keeps (by omega) hl hs
  rw [← hsweep.isIdle]
  exact hbusy ⟨key, s⟩ (AList.mem_entries_iff.mpr hkept) hs

private theorem insertSpec_evicts {id key : String} {session evicted : Session}
    {oldest : Nat} {kept : SessionStore} (hid : store.sessions.lookup id = none)
    (hcount : store.limits.perCaller ≤ (store.sweepIfDue now).theirs session)
    (hkey : (store.sweepIfDue now).sessions.lookup key = some evicted)
    (hshares : evicted.sharesCallerWith session = true)
    (hidle : (store.sweepIfDue now).cells.isIdle evicted = true)
    (hseen : (store.sweepIfDue now).cells.lastSeen evicted = oldest)
    (hmin : ∀ e ∈ (store.sweepIfDue now).sessions.entries,
      e.2.sharesCallerWith session = true → (store.sweepIfDue now).cells.isIdle e.2 = true →
        oldest ≤ (store.sweepIfDue now).cells.lastSeen e.2)
    (hkept : Loses (fun s => ((store.sweepIfDue now).forget key).cells.isExpired s
      ((store.sweepIfDue now).forget key).ttl now = true)
        ((store.sweepIfDue now).forget key) kept) :
    InsertSpec store now session id
      { kept with sessions := kept.sessions.insert id session } (.ok ()) := by
  have hsweep := sweepIfDue_loses store now
  have hforget := forget_loses (store.sweepIfDue now) key
  have hloses : Loses (fun s => store.cells.isExpired s store.ttl now = true ∨ s = evicted) store
      kept := by
    refine ((hsweep.trans hforget).trans hkept).mono fun s hs => ?_
    rcases hs with (hs | hs) | hs
    · exact .inl hs
    · rw [hkey] at hs
      exact .inr (Option.some.inj hs).symm
    · rw [hforget.isExpired, hsweep.isExpired] at hs
      exact .inl hs
  have ended {s : Session}
      (hs : store.Ends { kept with sessions := kept.sessions.insert id session } s) :
      store.cells.isExpired s store.ttl now = true ∨ s = evicted := by
    obtain ⟨key', hl, hn⟩ := (ends_insert hid s).mp hs
    exact hloses.lost key' s hl hn
  rw [hsweep.isIdle] at hidle
  refine ⟨fun s => ?_, fun _ => ⟨AList.lookup_insert _, fun key' s hne hl => ?_, some evicted,
    fun s hs => ?_, fun s hs => ?_⟩, by simp, ?_, by simp, fun s hs hnot => ?_⟩
  · rw [ends_insert hid]
    exact hloses.fired s
  · rw [AList.lookup_insert_ne hne] at hl
    exact hloses.kept hl
  · rcases ended hs with hx | rfl
    · exact .inl hx
    · exact .inr rfl
  · obtain rfl := Option.some.inj hs
    refine ⟨hshares, hidle, hcount, fun key' other hl hs' hi => ?_⟩
    rw [← hsweep.isIdle] at hi
    rw [← hsweep.lastSeen, hseen]
    exact hmin ⟨key', other⟩ (AList.mem_entries_iff.mpr hl) hs' hi
  · refine iff_of_false (by simp) fun ⟨_, hbusy⟩ => ?_
    rw [hbusy key evicted (hsweep.kept hkey) hshares] at hidle
    simp at hidle
  · rcases ended hs with hx | rfl
    · exact hx
    · rw [hshares] at hnot
      simp at hnot

private theorem shares_congr {session other : Session}
    (h : session.sharesCallerWith other = true) (s : Session) :
    s.sharesCallerWith other = s.sharesCallerWith session := by
  simp only [Session.sharesCallerWith, Bool.and_eq_true, beq_iff_eq] at h ⊢
  rw [h.1, h.2]

private theorem Within.insert {kept : SessionStore} {id : String} {session : Session}
    (hw : kept.Within) (hid : session.id = some id) (hfresh : kept.sessions.lookup id = none)
    (htotal : kept.sessions.entries.length < kept.limits.total)
    (hcaller : kept.theirs session < kept.limits.perCaller) :
    ({ kept with sessions := kept.sessions.insert id session } : SessionStore).Within where
  total := by
    change (kept.sessions.insert id session).entries.length ≤ kept.limits.total
    rw [AList.entries_insert_of_lookup session hfresh, List.length_cons]
    omega
  perCaller other := by
    change (kept.sessions.insert id session).entries.countP _ ≤ kept.limits.perCaller
    rw [AList.entries_insert_of_lookup session hfresh, List.countP_cons]
    cases hs : session.sharesCallerWith other with
    | false =>
      rw [if_neg (by simp)]
      exact hw.perCaller other
    | true =>
      have heq : (kept.sessions.entries.countP fun e => e.2.sharesCallerWith other) =
          kept.theirs session := by
        unfold theirs
        simp only [shares_congr hs]
      rw [heq, if_pos rfl]
      omega
  keyed key s hl := by
    by_cases hk : key = id
    · subst hk
      rw [AList.lookup_insert] at hl
      obtain rfl := Option.some.inj hl
      exact hid
    · rw [AList.lookup_insert_ne hk] at hl
      exact hw.keyed key s hl

private theorem Loses.fresh (h : Loses p store store') {id : String}
    (hfresh : store.sessions.lookup id = none) : store'.sessions.lookup id = none := by
  cases hl : store'.sessions.lookup id with
  | none => rfl
  | some s =>
    have hold := h.kept hl
    rw [hfresh] at hold
    simp at hold

/-- `insert` of a session under an id the store does not hold. -/
theorem insert_spec {session : Session} {id : String} {after : SessionStore}
    {result : Except SessionRefusal Unit} (hw : store.Within) (hid : session.id = some id)
    (hfresh : store.sessions.lookup id = none) (h : store.insert now session = (after, result)) :
    InsertSpec store now session id after result ∧ after.Within := by
  have hsweep := sweepIfDue_loses store now
  have hwithin := hsweep.within hw
  have hlimits := hsweep.limits
  have hscan := scanned (store.sweepIfDue now).cells session
    (store.sweepIfDue now).sessions.entries
  unfold insert at h
  simp only [hid] at h
  generalize hacc : (store.sweepIfDue now).sessions.entries.foldl
    (scan (store.sweepIfDue now).cells session) (0, none) = acc at h hscan
  obtain ⟨count, leastRecent⟩ := acc
  have hcount : count = (store.sweepIfDue now).theirs session := hscan.count
  simp only at h
  by_cases hlimit : (store.sweepIfDue now).limits.perCaller ≤ count
  · rw [if_pos hlimit] at h
    have hatlimit : store.limits.perCaller ≤ (store.sweepIfDue now).theirs session := by
      rw [← hlimits, ← hcount]
      exact hlimit
    cases leastRecent with
    | none =>
      obtain ⟨rfl, rfl⟩ := Prod.mk.inj h
      exact ⟨insertSpec_callerFull hw hatlimit (hscan.busy rfl), hwithin⟩
    | some least =>
      obtain ⟨oldest, key⟩ := least
      obtain ⟨⟨evicted, hmem, hshares, hidle, hseen⟩, hmin⟩ := hscan.idle oldest key rfl
      have hkey := AList.mem_entries_iff.mp hmem
      have hforget := forget_loses (store.sweepIfDue now) key
      -- the evicted session leaves room, for its caller and in the whole store
      have herase : ((store.sweepIfDue now).forget key).sessions =
          (store.sweepIfDue now).sessions.erase key := by
        unfold forget
        rw [hkey]
      have hlength := AList.length_erase hkey
      have htheirs := AList.countP_erase hkey (p := fun e => e.2.sharesCallerWith session) hshares
      rw [← herase] at hlength htheirs
      have htotal := hwithin.total
      have hcaller := hwithin.perCaller session
      simp only at h
      obtain ⟨kept, hkept, hroom, htaken⟩ | ⟨hfull, _, htaken⟩ :=
        takeIn_cases ((store.sweepIfDue now).forget key) now id session
      · rw [htaken] at h
        obtain ⟨rfl, rfl⟩ := Prod.mk.inj h
        refine ⟨insertSpec_evicts hfresh hatlimit hkey hshares hidle hseen hmin hkept, ?_⟩
        refine Within.insert (hkept.within (hforget.within hwithin)) hid
          (hkept.fresh (hforget.fresh (hsweep.fresh hfresh))) (by rw [hkept.limits]; exact hroom) ?_
        have hle := hkept.theirs_le session
        unfold theirs at hle hcaller ⊢
        rw [hkept.limits, hforget.limits]
        omega
      · rw [hforget.limits] at hfull
        omega
  · rw [if_neg hlimit] at h
    have hroom : (store.sweepIfDue now).theirs session < store.limits.perCaller := by
      rw [← hlimits, ← hcount]
      omega
    obtain ⟨kept, hkept, htotal, htaken⟩ | ⟨_, hfull, htaken⟩ :=
      takeIn_cases (store.sweepIfDue now) now id session
    · rw [htaken] at h
      obtain ⟨rfl, rfl⟩ := Prod.mk.inj h
      have hloses : Loses (fun s => store.cells.isExpired s store.ttl now = true) store kept := by
        refine (hsweep.trans hkept).mono fun s hs => ?_
        rcases hs with hs | hs
        · exact hs
        · rw [hsweep.isExpired] at hs
          exact hs
      refine ⟨insertSpec_room hfresh hloses hroom, ?_⟩
      refine Within.insert (hkept.within hwithin) hid (hloses.fresh hfresh)
        (by rw [hkept.limits]; exact htotal) ?_
      have hle := hkept.theirs_le session
      rw [hkept.limits, hlimits]
      omega
    · rw [htaken] at h
      obtain ⟨rfl, rfl⟩ := Prod.mk.inj h
      rw [hlimits] at hfull
      exact ⟨insertSpec_serverFull hroom hfull, (dropExpired_loses _ now).within hwithin⟩

end SessionStore

end Tronc.Sessions
