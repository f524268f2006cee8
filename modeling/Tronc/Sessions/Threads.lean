import Tronc.Library.Transition
import Tronc.Sessions.Store

namespace Tronc.Sessions

abbrev OpId := Nat

/-- How far a `SessionUse` has been dropped. -/
inductive GuardStage where
  | held
  | timed (now : Nat)
  /-- Its drop has written `last_seen`, and has still to count itself out. -/
  | seen
  deriving DecidableEq

/-- A `SessionUse`, and whether `SessionStore::enter` handed it out. -/
structure Guard where
  session : Session
  viaStore : Bool
  stage : GuardStage
  deriving DecidableEq

inductive Call where
  | insert (session : Session)
  | enter (id : String) (ctx : ToolContext)
  | find (id : String)
  | endSession (id : String)
  | sweep

inductive Answer where
  | inserted
  | refused (refusal : SessionRefusal)
  | session (found : Option Session)
  | ended (removed : Bool)
  | swept

/-- Where an operation is, with what it has read so far. `now` is when it was called. -/
inductive Stage where
  | called
  | timed (now : Nat)
  | due (now : Nat)
  | ready (now : Nat)
  /-- `drop_expired`, with the keys still to visit; `full` when `insert` runs it. -/
  | visit (now : Nat) (todo : List String) (full : Bool)
  | visitIdle (now : Nat) (key : String) (session : Session) (todo : List String) (full : Bool)
  | visitExpired (now : Nat) (key : String) (session : Session) (todo : List String) (full : Bool)
  | found (now : Nat) (id : String) (session : Session)
  | foundIdle (now : Nat) (id : String) (session : Session)
  | foundExpired (now : Nat) (id : String) (session : Session)
  | unexpired (now : Nat) (id : String) (session : Session)
  | scan (now : Nat) (todo : List String) (theirs : Nat) (leastRecent : Option (Nat × String))
  | scanIdle (now : Nat) (key : String) (live : Session) (todo : List String) (theirs : Nat)
    (leastRecent : Option (Nat × String))
  | evicting (now : Nat) (key : String)
  | checkTotal (now : Nat)
  /-- The expired are dropped, and the total is checked again. -/
  | recheckTotal (now : Nat)
  | removed (session : Session)
  | returned (answer : Answer)

def Stage.locks : Stage → Bool
  | .called | .timed _ | .due _ | .ready _ | .removed _ | .returned _ => false
  | .visit .. | .visitIdle .. | .visitExpired .. | .found .. | .foundIdle .. | .foundExpired ..
  | .unexpired .. | .scan .. | .scanIdle .. | .evicting .. | .checkTotal _ | .recheckTotal _ => true

structure Op where
  call : Call
  stage : Stage

/-- A session store used by many threads at once. Besides what the code keeps: the sessions minted,
those given to `insert`, and those `end` removed. -/
structure Threads where
  ttl : Nat
  limits : SessionLimits
  sessions : AList fun _ : String => Session
  lock : Option OpId
  lastSweep : Nat
  cells : Cells
  guards : List Guard
  ops : OpId → Option Op
  clock : Nat
  minted : List Session
  inserted : List Session
  ended : List Session

namespace Threads

variable (w : Threads) (i : OpId) (op : Op)

def goto (stage : Stage) : Threads :=
  { w with ops := Function.update w.ops i (some { op with stage := stage }) }

def take (stage : Stage) : Option Threads :=
  if w.lock = none then some { w.goto i op stage with lock := some i } else none

def release (stage : Stage) : Threads :=
  { w.goto i op stage with lock := none }

def expel (key : String) (session : Session) : Threads :=
  { w with sessions := w.sessions.erase key, cells := w.cells.endSession session }

def putIn : Option Threads :=
  match op.call with
  | .insert session =>
    match session.id with
    | some id =>
      some { w.release i op (.returned .inserted) with sessions := w.sessions.insert id session }
    | none => none
  | _ => none

/-- What an operation does once it has the clock, the sweep behind it. -/
def begin (now : Nat) : Option Threads :=
  match op.call with
  | .insert session =>
    match session.id with
    | none => some (w.goto i op (.returned .inserted))
    | some _ => w.take i op (.scan now w.sessions.keys 0 none)
  | .enter id _ | .find id =>
    match w.sessions.lookup id with
    | none => if w.lock = none then some (w.goto i op (.returned (.session none))) else none
    | some session => w.take i op (.found now id session)
  | .sweep => some (w.goto i op (.returned .swept))
  | .endSession _ => none

/-- One step of an operation: it reads or writes one thing that others may write. -/
def advance : Option Threads :=
  match op.stage with
  | .called =>
    match op.call with
    | .endSession id =>
      -- the lock is let go as soon as the session is removed
      if w.lock = none then
        match w.sessions.lookup id with
        | none => some (w.goto i op (.returned (.ended false)))
        | some session =>
          some { w.goto i op (.removed session) with
            sessions := w.sessions.erase id
            ended := session :: w.ended }
      else none
    | _ => some (w.goto i op (.timed w.clock))
  | .timed now =>
    if now - w.lastSweep < w.ttl / 2 then some (w.goto i op (.ready now))
    else some { w.goto i op (.due now) with lastSweep := now }
  | .due now => w.take i op (.visit now w.sessions.keys false)
  | .ready now => w.begin i op now
  | .visit now [] full =>
    some (if full then w.goto i op (.recheckTotal now) else w.release i op (.ready now))
  | .visit now (key :: todo) full =>
    match w.sessions.lookup key with
    | none => some (w.goto i op (.visit now todo full))
    | some session =>
      some (w.goto i op (if w.cells.isIdle session then .visitIdle now key session todo full
        else .visit now todo full))
  | .visitIdle now key session todo full =>
    some (w.goto i op (if w.ttl ≤ now - w.cells.lastSeen session then
      .visitExpired now key session todo full else .visit now todo full))
  | .visitExpired now key session todo full =>
    some ((w.expel key session).goto i op (.visit now todo full))
  | .found now id session =>
    some (w.goto i op (if w.cells.isIdle session then .foundIdle now id session
      else .unexpired now id session))
  | .foundIdle now id session =>
    some (w.goto i op (if w.ttl ≤ now - w.cells.lastSeen session then
      .foundExpired now id session else .unexpired now id session))
  | .foundExpired _ id session =>
    some ((w.expel id session).release i op (.returned (.session none)))
  | .unexpired _ _ session =>
    match op.call with
    | .enter _ ctx =>
      if session.isOwnedBy ctx then
        some { w.release i op (.returned (.session (some session))) with
          guards := ⟨session, true, .held⟩ :: w.guards
          cells := w.cells.enter session }
      else some (w.release i op (.returned (.session none)))
    | _ => some (w.release i op (.returned (.session (some session))))
  | .scan now [] theirs leastRecent =>
    if w.limits.perCaller ≤ theirs then
      match leastRecent with
      | none => some (w.release i op (.returned (.refused .callerFull)))
      | some (_, key) => some (w.goto i op (.evicting now key))
    else some (w.goto i op (.checkTotal now))
  | .scan now (key :: todo) theirs leastRecent =>
    match w.sessions.lookup key, op.call with
    | some live, .insert session =>
      some (w.goto i op (if live.sharesCallerWith session then
        (if w.cells.isIdle live then .scanIdle now key live todo theirs leastRecent
          else .scan now todo (theirs + 1) leastRecent)
        else .scan now todo theirs leastRecent))
    | _, _ => some (w.goto i op (.scan now todo theirs leastRecent))
  | .scanIdle now key live todo theirs leastRecent =>
    let seen := w.cells.lastSeen live
    some (w.goto i op (.scan now todo (theirs + 1)
      (if leastRecent.all fun oldest => seen < oldest.1 then some (seen, key) else leastRecent)))
  | .evicting now key =>
    match w.sessions.lookup key with
    | none => some (w.goto i op (.checkTotal now))
    | some session => some ((w.expel key session).goto i op (.checkTotal now))
  | .checkTotal now =>
    if w.limits.total ≤ w.sessions.entries.length then
      some (w.goto i op (.visit now w.sessions.keys true))
    else w.putIn i op
  | .recheckTotal _ =>
    if w.limits.total ≤ w.sessions.entries.length then
      some (w.release i op (.returned (.refused .serverFull)))
    else w.putIn i op
  | .removed session =>
    some { w.goto i op (.returned (.ended true)) with cells := w.cells.endSession session }
  | .returned _ => none

def dropGuard (guard : Guard) : Threads :=
  match guard.stage with
  | .held =>
    { w with guards := { guard with stage := .timed w.clock } :: w.guards.erase guard }
  | .timed now =>
    { w with
      guards := { guard with stage := .seen } :: w.guards.erase guard
      cells := w.cells.seen guard.session now }
  | .seen =>
    { w with
      guards := w.guards.erase guard
      cells := w.cells.leave guard.session }

inductive Event where
  | tick (now : Nat)
  | mint (id : String) (ctx : ToolContext)
  | use (session : Session)
  | call (op : OpId) (call : Call)
  | advance (op : OpId)
  | drop (guard : Guard)
  /-- The hash map visits its sessions in another order from now on. -/
  | rehash (sessions : AList fun _ : String => Session)

/-- A session is given to `insert` once, by the `initialize` that minted it. -/
def mayCall : Call → Bool
  | .insert session => session ∈ w.minted ∧ session ∉ w.inserted
  | _ => true

def insertedBy : Call → List Session
  | .insert session => session :: w.inserted
  | _ => w.inserted

def step : Event → Option Threads
  | .tick now => if w.clock ≤ now then some { w with clock := now } else none
  | .mint id ctx =>
    if w.minted.any fun s => s.id == some id then none
    else
      let session : Session := ⟨w.minted.length, some id, ctx.userId, ctx.tenantId⟩
      some { w with minted := session :: w.minted, cells := w.cells.seen session w.clock }
  | .use session =>
    if session ∈ w.minted then
      some { w with
        guards := ⟨session, false, .held⟩ :: w.guards
        cells := w.cells.enter session }
    else none
  | .call i call =>
    if (w.ops i).isNone ∧ w.mayCall call then
      some { w with
        ops := Function.update w.ops i (some ⟨call, .called⟩)
        inserted := w.insertedBy call }
    else none
  | .advance i => (w.ops i).bind fun op => w.advance i op
  | .drop guard => if guard ∈ w.guards then some (w.dropGuard guard) else none
  | .rehash sessions =>
    if w.lock = none ∧ sessions.entries.Perm w.sessions.entries then
      some { w with sessions := sessions }
    else none

end Threads

def threads : Transition.Lts Threads Threads.Event where
  init w := w.sessions = ∅ ∧ w.lock = none ∧ w.guards = [] ∧ w.ops = (fun _ => none) ∧
    w.cells.active = (fun _ => 0) ∧ w.cells.cancelled = (fun _ => false) ∧
    w.minted = [] ∧ w.inserted = [] ∧ w.ended = []
  step w e w' := w.step e = some w'

end Tronc.Sessions
