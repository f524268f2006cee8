import Tronc.Sessions.Threads

namespace Tronc.Sessions

/-- The id a call is given. -/
def Call.names : Call → Option String
  | .enter id _ | .find id | .endSession id => some id
  | .insert _ | .sweep => none

def Stage.isOver : Stage → Bool
  | .returned _ => true
  | _ => false

namespace Threads

def Live (w : Threads) (session : Session) : Prop :=
  ∃ key, w.sessions.lookup key = some session

/-- No guard that `SessionStore::enter` handed out is on the session. -/
def Free (w : Threads) (session : Session) : Prop :=
  ∀ guard ∈ w.guards, guard.session = session → guard.viaStore = false

/-- What an operation knows of the store from what it has read. -/
def Fits (w : Threads) (call : Call) : Stage → Prop
  | .visitIdle _ key session _ _ | .visitExpired _ key session _ _ =>
    w.sessions.lookup key = some session ∧ w.Free session
  | .found _ id session | .unexpired _ id session =>
    call.names = some id ∧ w.sessions.lookup id = some session
  | .foundIdle _ id session | .foundExpired _ id session =>
    call.names = some id ∧ w.sessions.lookup id = some session ∧ w.Free session
  | .scan _ _ _ leastRecent =>
    ∀ seen key session, leastRecent = some (seen, key) → w.sessions.lookup key = some session →
      w.Free session
  | .scanIdle _ key live _ _ leastRecent =>
    w.sessions.lookup key = some live ∧ w.Free live ∧
    ∀ seen key session, leastRecent = some (seen, key) → w.sessions.lookup key = some session →
      w.Free session
  | .evicting _ key => ∀ session, w.sessions.lookup key = some session → w.Free session
  | .removed session => session ∈ w.ended ∧ ∃ id, call = .endSession id ∧ session.id = some id
  | _ => True

/-- A session no one has had in the store. -/
structure Out (w : Threads) (session : Session) : Prop where
  absent : ¬ w.Live session
  unfired : w.cells.cancelled session = false
  unended : session ∉ w.ended

/-- What is kept of one operation under way. -/
structure Suits (w : Threads) (i : OpId) (op : Op) : Prop where
  locks : op.stage.locks = true ↔ w.lock = some i
  given : ∀ session, op.call = .insert session → session ∈ w.inserted
  waits : ∀ session, op.call = .insert session → op.stage.isOver = false → w.Out session
  fits : w.Fits op.call op.stage

/-- What is kept of the operations: two do not insert one session. -/
structure Served (w : Threads) : Prop where
  held : ∀ i, w.lock = some i → w.ops i ≠ none
  once : ∀ i j op op' s, w.ops i = some op → w.ops j = some op' → op.call = .insert s →
    op'.call = .insert s → i = j
  suits : ∀ i op, w.ops i = some op → w.Suits i op

/-- What is kept of the store and of its sessions. -/
structure Stored (w : Threads) : Prop where
  counted : ∀ s, w.cells.active s = (w.guards.countP fun guard => guard.session = s : Nat)
  keyed : ∀ key s, w.sessions.lookup key = some s → s.id = some key
  unfired : ∀ s, w.Live s → s ∈ w.inserted ∧ w.cells.cancelled s = false ∧ s ∉ w.ended
  guarded : ∀ guard ∈ w.guards, guard.viaStore = true →
    w.Live guard.session ∨ guard.session ∈ w.ended
  fired : ∀ s, w.cells.cancelled s = true → s ∈ w.inserted
  ended : ∀ s ∈ w.ended, s ∈ w.inserted
  minted : ∀ s ∈ w.inserted, s ∈ w.minted
  single : ∀ s ∈ w.minted, ∀ s' ∈ w.minted, s.id = s'.id → s = s'

structure Sound (w : Threads) : Prop where
  stored : w.Stored
  served : w.Served

/-- The lock goes from free to the operation or back, if it moves at all. -/
def LockMoves (w : Threads) (i : OpId) (stage : Stage) (lock : Option OpId) : Prop :=
  (stage.locks = true ↔ lock = some i) ∧ ∀ j, j ≠ i → (lock = some j ↔ w.lock = some j)

/-- What one step of an operation does. -/
inductive Effect (w : Threads) (i : OpId) (op : Op) : Threads → Prop where
  | moves (stage : Stage) (lock : Option OpId) (lastSweep : Nat) :
      w.LockMoves i stage lock → w.Fits op.call stage →
      Effect w i op { w.goto i op stage with lock := lock, lastSweep := lastSweep }
  | expels (key : String) (session : Session) (stage : Stage) (lock : Option OpId) :
      w.lock = some i → w.sessions.lookup key = some session → w.Free session →
      w.LockMoves i stage lock → (∀ v : Threads, v.Fits op.call stage) →
      Effect w i op { (w.expel key session).goto i op stage with lock := lock }
  | inserts (session : Session) (id : String) :
      w.lock = some i → op.call = .insert session → op.stage.isOver = false →
      session.id = some id →
      Effect w i op
        { w.release i op (.returned .inserted) with sessions := w.sessions.insert id session }
  | enters (id : String) (ctx : ToolContext) (now : Nat) (session : Session) :
      w.lock = some i → op = ⟨.enter id ctx, .unexpired now id session⟩ →
      w.sessions.lookup id = some session → session.isOwnedBy ctx = true →
      Effect w i op { w.release i op (.returned (.session (some session))) with
        guards := ⟨session, true, .held⟩ :: w.guards
        cells := w.cells.enter session }
  | removes (id : String) (session : Session) :
      w.lock = none → op = ⟨.endSession id, .called⟩ → w.sessions.lookup id = some session →
      Effect w i op { w.goto i op (.removed session) with
        sessions := w.sessions.erase id
        ended := session :: w.ended }
  | fires (id : String) (session : Session) :
      op = ⟨.endSession id, .removed session⟩ → session ∈ w.ended → session.id = some id →
      Effect w i op
        { w.goto i op (.returned (.ended true)) with cells := w.cells.endSession session }

variable {w w' : Threads} {i j : OpId} {op op' : Op}

theorem LockMoves.stays {stage : Stage} (h : w.Suits i op)
    (hs : stage.locks = op.stage.locks) : w.LockMoves i stage w.lock :=
  ⟨by rw [hs]; exact h.locks, fun _ _ => .rfl⟩

theorem LockMoves.frees {stage : Stage} (h : w.lock = some i)
    (hs : stage.locks = false) : w.LockMoves i stage none := by
  refine ⟨by simp [hs], fun j hj => ?_⟩
  rw [h]
  simp [hj.symm]

private theorem Effect.stays (h : w.Suits i op) {stage : Stage}
    (hs : stage.locks = op.stage.locks) (hf : w.Fits op.call stage) :
    Effect w i op (w.goto i op stage) := .moves stage w.lock w.lastSweep (.stays h hs) hf

private theorem Effect.frees (h : w.lock = some i) {stage : Stage}
    (hs : stage.locks = false) (hf : w.Fits op.call stage) :
    Effect w i op (w.release i op stage) := .moves stage none w.lastSweep (.frees h hs) hf

private theorem Effect.takes {stage : Stage} (h : w.take i op stage = some w')
    (hs : stage.locks = true) (hf : w.Fits op.call stage) : Effect w i op w' := by
  unfold take at h
  split at h
  · rename_i hfree
    obtain rfl := Option.some.inj h
    refine .moves stage (some i) w.lastSweep ⟨by simp [hs], fun j hj => ?_⟩ hf
    rw [hfree]
    simp [hj.symm]
  · simp at h

/-- A session no one serves a request in has no guard at all. -/
theorem Stored.free (h : w.Stored) {session : Session} (hi : w.cells.isIdle session = true) :
    w.Free session := by
  intro guard hg hs
  have hzero : w.cells.active session = 0 := by simpa [Cells.isIdle] using hi
  rw [h.counted] at hzero
  have hnone := List.countP_eq_zero.mp (Int.ofNat_eq_zero.mp hzero) guard hg
  simp [hs] at hnone

private theorem Effect.putsIn (h : w.Suits i op) (hl : op.stage.locks = true)
    (ha : w.putIn i op = some w') : Effect w i op w' := by
  have hover : op.stage.isOver = false := by
    cases hs : op.stage with
    | returned answer => simp [hs, Stage.locks] at hl
    | _ => rfl
  unfold putIn at ha
  split at ha
  · rename_i session hcall
    split at ha
    · rename_i id hid
      obtain rfl := Option.some.inj ha
      exact .inserts session id (h.locks.mp hl) hcall hover hid
    · simp at ha
  · simp at ha

/-- `find` and `enter` look their id up. -/
private theorem Effect.looks {now : Nat} {id : String} (h : w.Suits i op)
    (hs : op.stage.locks = false) (hn : op.call.names = some id)
    (ha : (match w.sessions.lookup id with
      | none => if w.lock = none then some (w.goto i op (.returned (.session none))) else none
      | some session => w.take i op (.found now id session)) = some w') : Effect w i op w' := by
  split at ha
  · split at ha
    · obtain rfl := Option.some.inj ha
      exact .stays h hs.symm trivial
    · simp at ha
  · rename_i session hl
    exact .takes ha rfl ⟨hn, hl⟩

private theorem Effect.begins (h : w.Suits i op) (hs : op.stage.locks = false) {now : Nat}
    (ha : w.begin i op now = some w') : Effect w i op w' := by
  obtain ⟨call, stage⟩ := op
  cases call with
  | insert session =>
    simp only [begin] at ha
    split at ha
    · obtain rfl := Option.some.inj ha
      exact .stays h hs.symm trivial
    · exact .takes ha rfl (by intro seen key session hl; simp at hl)
  | enter id ctx => exact .looks h hs rfl ha
  | find id => exact .looks h hs rfl ha
  | endSession id => simp [begin] at ha
  | sweep =>
    obtain rfl := Option.some.inj ha
    exact .stays h hs.symm trivial

theorem advance_effect (hw : w.Sound) (ho : w.ops i = some op) (ha : w.advance i op = some w') :
    Effect w i op w' := by
  have h := hw.served.suits i op ho
  obtain ⟨call, stage⟩ := op
  have hfits := h.fits
  have hlocks := h.locks
  cases stage with
  | called =>
    simp only [advance] at ha
    split at ha
    · rename_i id
      split at ha
      · rename_i hfree
        split at ha
        · obtain rfl := Option.some.inj ha
          exact .stays h rfl trivial
        · rename_i session hl
          obtain rfl := Option.some.inj ha
          exact .removes id session hfree rfl hl
      · simp at ha
    · obtain rfl := Option.some.inj ha
      exact .stays h rfl trivial
  | timed now =>
    simp only [advance] at ha
    split at ha
    · obtain rfl := Option.some.inj ha
      exact .stays h rfl trivial
    · obtain rfl := Option.some.inj ha
      exact .moves (.due now) w.lock now (.stays h rfl) trivial
  | due now => exact .takes ha rfl trivial
  | ready now => exact .begins h rfl ha
  | visit now todo full =>
    cases todo with
    | nil =>
      obtain rfl := Option.some.inj ha
      cases full with
      | true => exact .stays h rfl trivial
      | false => exact .frees (hlocks.mp rfl) rfl trivial
    | cons key todo =>
      simp only [advance] at ha
      split at ha
      · obtain rfl := Option.some.inj ha
        exact .stays h rfl trivial
      · rename_i session hl
        obtain rfl := Option.some.inj ha
        cases hi : w.cells.isIdle session with
        | true => exact .stays h rfl ⟨hl, hw.stored.free hi⟩
        | false => exact .stays h rfl trivial
  | visitIdle now key session todo full =>
    obtain rfl := Option.some.inj ha
    by_cases hx : w.ttl ≤ now - w.cells.lastSeen session
    · rw [if_pos hx]
      exact .stays h rfl hfits
    · rw [if_neg hx]
      exact .stays h rfl trivial
  | visitExpired now key session todo full =>
    obtain rfl := Option.some.inj ha
    exact .expels key session _ w.lock (hlocks.mp rfl) hfits.1 hfits.2 (.stays h rfl)
      fun _ => trivial
  | found now id session =>
    obtain rfl := Option.some.inj ha
    cases hi : w.cells.isIdle session with
    | true => exact .stays h rfl ⟨hfits.1, hfits.2, hw.stored.free hi⟩
    | false => exact .stays h rfl hfits
  | foundIdle now id session =>
    obtain rfl := Option.some.inj ha
    by_cases hx : w.ttl ≤ now - w.cells.lastSeen session
    · rw [if_pos hx]
      exact .stays h rfl hfits
    · rw [if_neg hx]
      exact .stays h rfl ⟨hfits.1, hfits.2.1⟩
  | foundExpired now id session =>
    obtain rfl := Option.some.inj ha
    exact .expels id session _ none (hlocks.mp rfl) hfits.2.1 hfits.2.2
      (.frees (hlocks.mp rfl) rfl) fun _ => trivial
  | unexpired now id session =>
    simp only [advance] at ha
    split at ha
    · rename_i id' ctx
      obtain rfl : id' = id := Option.some.inj hfits.1
      split at ha
      · rename_i hown
        obtain rfl := Option.some.inj ha
        exact .enters id' ctx now session (hlocks.mp rfl) rfl hfits.2 hown
      · obtain rfl := Option.some.inj ha
        exact .frees (hlocks.mp rfl) rfl trivial
    · obtain rfl := Option.some.inj ha
      exact .frees (hlocks.mp rfl) rfl trivial
  | scan now todo theirs leastRecent =>
    cases todo with
    | nil =>
      simp only [advance] at ha
      split at ha
      · split at ha
        · obtain rfl := Option.some.inj ha
          exact .frees (hlocks.mp rfl) rfl trivial
        · rename_i seen key
          obtain rfl := Option.some.inj ha
          exact .stays h rfl fun session hl => hfits seen key session rfl hl
      · obtain rfl := Option.some.inj ha
        exact .stays h rfl trivial
    | cons key todo =>
      simp only [advance] at ha
      split at ha
      · rename_i live session hl
        obtain rfl := Option.some.inj ha
        cases hs : live.sharesCallerWith session with
        | false => exact .stays h rfl hfits
        | true =>
          cases hi : w.cells.isIdle live with
          | false => exact .stays h rfl hfits
          | true => exact .stays h rfl ⟨hl, hw.stored.free hi, hfits⟩
      · obtain rfl := Option.some.inj ha
        exact .stays h rfl hfits
  | scanIdle now key live todo theirs leastRecent =>
    obtain rfl := Option.some.inj ha
    refine .stays h rfl fun seen key' session hl hk => ?_
    split at hl
    · obtain ⟨rfl, rfl⟩ := Prod.mk.inj (Option.some.inj hl)
      rw [hfits.1] at hk
      exact Option.some.inj hk ▸ hfits.2.1
    · exact hfits.2.2 seen key' session hl hk
  | evicting now key =>
    simp only [advance] at ha
    split at ha
    · obtain rfl := Option.some.inj ha
      exact .stays h rfl trivial
    · rename_i session hl
      obtain rfl := Option.some.inj ha
      exact .expels key session _ w.lock (hlocks.mp rfl) hl (hfits session hl) (.stays h rfl)
        fun _ => trivial
  | checkTotal now =>
    simp only [advance] at ha
    split at ha
    · obtain rfl := Option.some.inj ha
      exact .stays h rfl trivial
    · exact .putsIn h rfl ha
  | recheckTotal now =>
    simp only [advance] at ha
    split at ha
    · obtain rfl := Option.some.inj ha
      exact .frees (hlocks.mp rfl) rfl trivial
    · exact .putsIn h rfl ha
  | removed session =>
    obtain ⟨hended, id, rfl, hid⟩ := hfits
    obtain rfl := Option.some.inj ha
    exact .fires id session rfl hended hid
  | returned answer => simp [advance] at ha

end Threads

end Tronc.Sessions
