import Tronc.Library.Transition
import Tronc.Sessions.Insert

namespace Tronc.Sessions

/-- A store under sequences of its operations, with the guards still held and every session
minted and inserted so far. -/
structure Server where
  store : SessionStore
  uses : List Session
  minted : List Session
  inserted : List Session
  clock : Nat

inductive Action where
  /-- `Session::mint`, with the id the CSPRNG gives. -/
  | mint (now : Nat) (id : String) (ctx : ToolContext)
  /-- `Session::enter`, by a holder of the session. -/
  | use (session : Session)
  | insert (now : Nat) (session : Session)
  | enter (now : Nat) (id : String) (ctx : ToolContext)
  | find (now : Nat) (id : String)
  | endSession (id : String)
  | sweep (now : Nat)
  | dropUse (now : Nat) (session : Session)
  /-- The hash map visits its sessions in another order from now on. -/
  | rehash (sessions : AList fun _ : String => Session)

/-- When an operation reads the clock. -/
def Action.now : Action → Option Nat
  | .mint now _ _ | .insert now _ | .enter now _ _ | .find now _ | .sweep now
  | .dropUse now _ => some now
  | .use _ | .endSession _ | .rehash _ => none

namespace Server

/-- What an operation does, if it may be called. -/
def effect (w : Server) : Action → Option Server
  | .mint now id ctx =>
    if w.minted.any fun s => s.id == some id then none
    else
      let session : Session := ⟨w.minted.length, some id, ctx.userId, ctx.tenantId⟩
      some { w with
        minted := session :: w.minted
        store := { w.store with cells := w.store.cells.seen session now } }
  | .use session =>
    if session ∈ w.minted then
      some { w with
        uses := session :: w.uses
        store := { w.store with cells := w.store.cells.enter session } }
    else none
  | .insert now session =>
    if session ∈ w.minted ∧ session ∉ w.inserted then
      some { w with
        inserted := session :: w.inserted
        store := (w.store.insert now session).1 }
    else none
  | .enter now id ctx =>
    match w.store.enter now id ctx with
    | (store, none) => some { w with store := store }
    | (store, some session) => some { w with store := store, uses := session :: w.uses }
  | .find now id => some { w with store := (w.store.find now id).1 }
  | .endSession id => some { w with store := (w.store.endSession id).1 }
  | .sweep now => some { w with store := w.store.sweepIfDue now }
  | .dropUse now session =>
    if session ∈ w.uses then
      some { w with
        uses := w.uses.erase session
        store := { w.store with cells := (w.store.cells.seen session now).leave session } }
    else none
  | .rehash sessions =>
    if sessions.entries.Perm w.store.sessions.entries then
      some { w with store := { w.store with sessions := sessions } }
    else none

/-- The operations run one after the other, under a clock that does not go back. -/
def step (w : Server) (a : Action) : Option Server :=
  match a.now with
  | none => w.effect a
  | some now => if w.clock ≤ now then { w with clock := now }.effect a else none

/-- The operations one after the other, if each may be called. -/
def exec (w : Server) (actions : List Action) : Option Server :=
  Transition.exec Server.step w actions

/-- A store of nothing. -/
def empty (ttl : Nat) (limits : SessionLimits) : Server where
  store := ⟨ttl, limits, ∅, 0, ⟨fun _ => 0, fun _ => 0, fun _ => false⟩⟩
  uses := []
  minted := []
  inserted := []
  clock := 0

end Server

/-- Any store, from when it is made. -/
def machine : Transition.Lts Server Action where
  init w := w.store.sessions = ∅ ∧ w.uses = [] ∧ w.minted = [] ∧ w.inserted = [] ∧
    w.store.cells.active = (fun _ => 0) ∧ w.store.cells.cancelled = fun _ => false
  step w a w' := w.step a = some w'

/-- The store is within its limits and holds only sessions inserted into it, each minted under an
id of its own. -/
structure Server.Kept (w : Server) : Prop where
  within : w.store.Within
  holds : ∀ key s, w.store.sessions.lookup key = some s → s ∈ w.inserted
  minted : ∀ s ∈ w.inserted, s ∈ w.minted
  single : ∀ s ∈ w.minted, ∀ s' ∈ w.minted, s.id = s'.id → s = s'
  named : ∀ s ∈ w.minted, ∃ id, s.id = some id

namespace SessionStore

variable {store store' : SessionStore} {now : Nat}

theorem live_loses (store : SessionStore) (now : Nat) (id : String) :
    ∃ p, Loses p store (store.live now id).1 := by
  unfold live
  split
  · exact ⟨_, .refl (fun _ => True) store⟩
  · split
    · exact ⟨_, forget_loses store id⟩
    · exact ⟨_, .refl (fun _ => True) store⟩

theorem find_loses (store : SessionStore) (now : Nat) (id : String) :
    ∃ p, Loses p store (store.find now id).1 := by
  obtain ⟨p, h⟩ := live_loses (store.sweepIfDue now) now id
  exact ⟨_, (sweepIfDue_loses store now).trans h⟩

/-- `enter` forgets no more than `find` does, and changes no session but one that it counts. -/
theorem enter_eq (store : SessionStore) (now : Nat) (id : String) (ctx : ToolContext) :
    (store.enter now id ctx = ((store.find now id).1, none)) ∨
    ∃ session, (store.find now id).2 = some session ∧ session.isOwnedBy ctx = true ∧
      store.enter now id ctx = ({ (store.find now id).1 with
        cells := (store.find now id).1.cells.enter session }, some session) := by
  unfold enter find
  split
  · rename_i st hl
    rw [hl]
    exact .inl rfl
  · rename_i st session hl
    rw [hl]
    split
    · rename_i hown
      exact .inr ⟨session, rfl, hown, rfl⟩
    · exact .inl rfl

end SessionStore

namespace Server

variable {w w' : Server} {a : Action}

private theorem within_of_sessions {store store' : SessionStore} (h : store.Within)
    (hl : store'.limits = store.limits) (hs : store'.sessions = store.sessions) :
    store'.Within where
  total := by
    rw [hs, hl]
    exact h.total
  perCaller session := by
    unfold SessionStore.theirs
    rw [hs, hl]
    exact h.perCaller session
  keyed key s := by
    rw [hs]
    exact h.keyed key s

/-- An operation that only loses sessions, and moves cells, keeps the invariant. -/
private theorem Kept.shrink (h : w.Kept) {p : Session → Prop} {store : SessionStore}
    (hloses : SessionStore.Loses p w.store store) (hl : w'.store.limits = store.limits)
    (hs : w'.store.sessions = store.sessions) (hi : w'.inserted = w.inserted)
    (hm : w'.minted = w.minted) : w'.Kept where
  within := within_of_sessions (hloses.within h.within) hl hs
  holds key s := by
    rw [hs, hi]
    exact fun hk => h.holds key s (hloses.kept hk)
  minted := by
    rw [hi, hm]
    exact h.minted
  single := by
    rw [hm]
    exact h.single
  named := by
    rw [hm]
    exact h.named

/-- A session that was never inserted has an id the store does not hold. -/
private theorem Kept.fresh (h : w.Kept) {session : Session} {id : String}
    (hm : session ∈ w.minted) (hi : session ∉ w.inserted) (hid : session.id = some id) :
    w.store.sessions.lookup id = none := by
  cases hl : w.store.sessions.lookup id with
  | none => rfl
  | some s =>
    have hs := h.holds id s hl
    have same := h.single s (h.minted s hs) session hm
      ((h.within.keyed id s hl).trans hid.symm)
    exact absurd (same ▸ hs) hi

private theorem Kept.effect (h : w.Kept) (he : w.effect a = some w') : w'.Kept := by
  cases a with
  | mint now id ctx =>
    simp only [Server.effect] at he
    split at he
    · simp at he
    · rename_i hfresh
      obtain rfl := Option.some.inj he
      have unused : ∀ s ∈ w.minted, s.id ≠ some id := by
        intro s hs hid
        exact hfresh (List.any_eq_true.mpr ⟨s, hs, by rw [hid]; exact beq_self_eq_true _⟩)
      refine ⟨within_of_sessions h.within rfl rfl, h.holds,
        fun s hs => List.mem_cons_of_mem _ (h.minted s hs), ?_, ?_⟩
      · intro s hs s' hs' hid
        rcases List.mem_cons.mp hs with rfl | hs <;> rcases List.mem_cons.mp hs' with rfl | hs'
        · rfl
        · exact absurd hid.symm (unused s' hs')
        · exact absurd hid (unused s hs)
        · exact h.single s hs s' hs' hid
      · intro s hs
        rcases List.mem_cons.mp hs with rfl | hs
        · exact ⟨id, rfl⟩
        · exact h.named s hs
  | use session =>
    simp only [Server.effect] at he
    split at he
    · obtain rfl := Option.some.inj he
      exact h.shrink (.refl (fun _ => True) w.store) rfl rfl rfl rfl
    · simp at he
  | insert now session =>
    simp only [Server.effect] at he
    split at he
    · rename_i hs
      obtain rfl := Option.some.inj he
      obtain ⟨id, hid⟩ := h.named session hs.1
      obtain ⟨hspec, hwithin⟩ := SessionStore.insert_spec h.within hid (h.fresh hs.1 hs.2 hid)
        (Prod.eta (w.store.insert now session)).symm
      refine ⟨hwithin, fun key s hl => ?_, fun s hs' => ?_, h.single, h.named⟩
      · cases hr : (w.store.insert now session).2 with
        | ok u =>
          obtain ⟨hnew, hold, _⟩ := hspec.accepted hr
          by_cases hk : key = id
          · subst hk
            rw [show (w.store.insert now session).1.sessions.lookup key = _ from hnew] at hl
            exact Option.some.inj hl ▸ List.mem_cons_self
          · exact List.mem_cons_of_mem _ (h.holds key s (hold key s hk hl))
        | error e =>
          exact List.mem_cons_of_mem _ (h.holds key s ((hspec.refused e hr).2 key s hl))
      · rcases List.mem_cons.mp hs' with rfl | hs'
        · exact hs.1
        · exact h.minted s hs'
    · simp at he
  | enter now id ctx =>
    obtain ⟨p, hloses⟩ := SessionStore.find_loses w.store now id
    simp only [Server.effect] at he
    obtain heq | ⟨session, _, _, heq⟩ := SessionStore.enter_eq w.store now id ctx
    · rw [heq] at he
      obtain rfl := Option.some.inj he
      exact h.shrink hloses rfl rfl rfl rfl
    · rw [heq] at he
      obtain rfl := Option.some.inj he
      exact h.shrink hloses rfl rfl rfl rfl
  | find now id =>
    obtain ⟨p, hloses⟩ := SessionStore.find_loses w.store now id
    obtain rfl := Option.some.inj he
    exact h.shrink hloses rfl rfl rfl rfl
  | endSession id =>
    obtain rfl := Option.some.inj he
    exact h.shrink (SessionStore.forget_loses w.store id) rfl rfl rfl rfl
  | sweep now =>
    obtain rfl := Option.some.inj he
    exact h.shrink (SessionStore.sweepIfDue_loses w.store now) rfl rfl rfl rfl
  | dropUse now session =>
    simp only [Server.effect] at he
    split at he
    · obtain rfl := Option.some.inj he
      exact h.shrink (.refl (fun _ => True) w.store) rfl rfl rfl rfl
    · simp at he
  | rehash sessions =>
    simp only [Server.effect] at he
    split at he
    · rename_i hperm
      obtain rfl := Option.some.inj he
      refine ⟨⟨?_, fun session => ?_, fun key s hl => ?_⟩, fun key s hl => ?_, h.minted, h.single,
        h.named⟩
      · rw [show sessions.entries.length = _ from hperm.length_eq]
        exact h.within.total
      · change (sessions.entries.countP fun e => e.2.sharesCallerWith session) ≤ _
        rw [hperm.countP_eq]
        exact h.within.perCaller session
      · rw [show sessions.lookup key = _ from AList.perm_lookup hperm] at hl
        exact h.within.keyed key s hl
      · rw [show sessions.lookup key = _ from AList.perm_lookup hperm] at hl
        exact h.holds key s hl
    · simp at he

theorem empty_reachable (ttl : Nat) (limits : SessionLimits) :
    machine.Reachable (empty ttl limits) := .start ⟨rfl, rfl, rfl, rfl, rfl, rfl⟩

theorem exec_reachable (actions : List Action) (h : w.exec actions = some w')
    (hr : machine.Reachable w) : machine.Reachable w' := hr.exec (fun _ _ _ _ hs => hs) actions h

theorem step_effect (h : w.step a = some w') :
    ∃ clock, ({ w with clock := clock } : Server).effect a = some w' := by
  unfold step at h
  split at h
  · exact ⟨w.clock, h⟩
  · rename_i now _
    split at h
    · exact ⟨now, h⟩
    · simp at h

private theorem Kept.clock (h : w.Kept) (clock : Nat) : ({ w with clock := clock } : Server).Kept :=
  ⟨h.within, h.holds, h.minted, h.single, h.named⟩

theorem reachable_kept (h : machine.Reachable w) : w.Kept := by
  refine h.invariant (P := Server.Kept) ?_ ?_
  · rintro s ⟨hs, hu, hm, hi, ha, hc⟩
    refine ⟨⟨?_, fun session => ?_, ?_⟩, ?_, ?_, ?_, ?_⟩
    · rw [hs]
      exact Nat.zero_le _
    · unfold SessionStore.theirs
      rw [hs]
      exact Nat.zero_le _
    · intro key s' hl
      rw [hs] at hl
      simp at hl
    · intro key s' hl
      rw [hs] at hl
      simp at hl
    · simp [hi]
    · simp [hm]
    · simp [hm]
  · intro s a t _ hs step
    obtain ⟨clock, he⟩ := step_effect step
    exact (hs.clock clock).effect he

end Server

/-- After every sequence of operations the store is within its limits, and whatever session is
inserted next, `insert` ends and refuses no more than it says. -/
theorem session_store_bounds {w : Server} (h : machine.Reachable w) :
    w.store.sessions.entries.length ≤ w.store.limits.total ∧
    (∀ ctx : ToolContext, (w.store.sessions.entries.countP fun e => e.2.isOwnedBy ctx) ≤
      w.store.limits.perCaller) ∧
    ∀ now session w', w.step (.insert now session) = some w' →
      ∃ id result, session.id = some id ∧ w.store.insert now session = (w'.store, result) ∧
        SessionStore.InsertSpec w.store now session id w'.store result := by
  have hkept := Server.reachable_kept h
  refine ⟨hkept.within.total, fun ctx => ?_, fun now session w' hstep => ?_⟩
  · exact hkept.within.perCaller ⟨0, none, ctx.userId, ctx.tenantId⟩
  · obtain ⟨clock, he⟩ := Server.step_effect hstep
    simp only [Server.effect] at he
    split at he
    · rename_i hs
      obtain rfl := Option.some.inj he
      obtain ⟨id, hid⟩ := hkept.named session hs.1
      refine ⟨id, (w.store.insert now session).2, hid, rfl, ?_⟩
      exact (SessionStore.insert_spec hkept.within hid (hkept.fresh hs.1 hs.2 hid) rfl).1
    · simp at he

private def ada (serial : Nat) (id : String) : Session := ⟨serial, some id, some "ada", none⟩

/-- A caller allowed one session is given a second: the first, idle, makes room for it. -/
theorem session_store_bounds_evicts : ∃ (w w' : Server) (id : String) (result : _),
    w.step (.insert 3 (ada 1 "b")) = some w' ∧ (ada 1 "b").id = some id ∧
    w'.store.sessions.entries.map (fun e => e.1) = ["b"] ∧
    w'.store.cells.cancelled (ada 0 "a") = true ∧
    SessionStore.InsertSpec w.store 3 (ada 1 "b") id w'.store result := by
  have hrun : (((Server.empty 10 ⟨2, 1, by decide, by decide⟩).exec [.mint 1 "a" ⟨some "ada", none⟩,
      .mint 2 "b" ⟨some "ada", none⟩, .insert 2 (ada 0 "a")]).bind fun w =>
        (w.step (.insert 3 (ada 1 "b"))).map fun w' =>
          (w'.store.sessions.entries.map (fun e => e.1), w'.store.cells.cancelled (ada 0 "a"))) =
      some (["b"], true) := by decide
  obtain ⟨w, hw, hlast⟩ := Option.bind_eq_some_iff.mp hrun
  obtain ⟨w', hstep, hend⟩ := Option.map_eq_some_iff.mp hlast
  have hr := Server.exec_reachable _ hw (Server.empty_reachable _ _)
  obtain ⟨id, result, hid, _, hspec⟩ := (session_store_bounds hr).2.2 3 (ada 1 "b") w' hstep
  exact ⟨w, w', id, result, hstep, hid, (Prod.mk.inj hend).1, (Prod.mk.inj hend).2, hspec⟩

end Tronc.Sessions
