import Mathlib.Logic.Function.Basic
import Tronc.Library.Retain

namespace Tronc.Sessions

/-- What is read of a request's context: the caller it is made by. -/
structure ToolContext where
  userId : Option String
  tenantId : Option String
  deriving DecidableEq

/-- An `Arc<Session>`: which allocation it is, and the fields nothing writes. -/
structure Session where
  serial : Nat
  id : Option String
  user : Option String
  tenant : Option String
  deriving DecidableEq

namespace Session

def isOwnedBy (session : Session) (ctx : ToolContext) : Bool :=
  session.user == ctx.userId && session.tenant == ctx.tenantId

def sharesCallerWith (session other : Session) : Bool :=
  session.user == other.user && session.tenant == other.tenant

end Session

/-- The fields of every session that are written while others hold it. A count that went below
zero would show as a negative one. -/
structure Cells where
  lastSeen : Session → Nat
  active : Session → Int
  cancelled : Session → Bool

namespace Cells

variable (cells : Cells) (session : Session)

def isIdle : Bool := cells.active session == 0

def isExpired (ttl now : Nat) : Bool :=
  cells.isIdle session && decide (ttl ≤ now - cells.lastSeen session)

/-- `Session::enter`: one more request is served in it. -/
def enter : Cells :=
  { cells with active := Function.update cells.active session (cells.active session + 1) }

/-- `SessionUse::drop`, in its two writes. -/
def seen (now : Nat) : Cells :=
  { cells with lastSeen := Function.update cells.lastSeen session now }

def leave : Cells :=
  { cells with active := Function.update cells.active session (cells.active session - 1) }

/-- `Session::end`: its token fires. -/
def endSession : Cells :=
  { cells with cancelled := Function.update cells.cancelled session true }

end Cells

structure SessionLimits where
  total : Nat
  perCaller : Nat
  total_pos : 0 < total
  perCaller_pos : 0 < perCaller

inductive SessionRefusal where
  | serverFull
  | callerFull
  deriving DecidableEq

/-- The store, with the cells of every session there is. -/
structure SessionStore where
  ttl : Nat
  limits : SessionLimits
  sessions : AList fun _ : String => Session
  lastSweep : Nat
  cells : Cells

namespace SessionStore

variable (store : SessionStore)

/-- End and forget every session idle for `ttl` by `now`. -/
def dropExpired (now : Nat) : SessionStore :=
  let expired := store.sessions.entries.filter fun e => store.cells.isExpired e.2 store.ttl now
  { store with
    sessions := store.sessions.retain fun _ s => !store.cells.isExpired s store.ttl now
    cells := expired.foldl (fun cells e => cells.endSession e.2) store.cells }

def sweepIfDue (now : Nat) : SessionStore :=
  if now - store.lastSweep < store.ttl / 2 then store
  else { store with lastSweep := now }.dropExpired now

/-- One more session of the scan: how many of them are the caller's, and the key of the least
recently seen idle one of these. -/
def scan (cells : Cells) (session : Session) (acc : Nat × Option (Nat × String))
    (e : Sigma fun _ : String => Session) : Nat × Option (Nat × String) :=
  if e.2.sharesCallerWith session then
    if cells.isIdle e.2 && acc.2.all (fun oldest => cells.lastSeen e.2 < oldest.1) then
      (acc.1 + 1, some (cells.lastSeen e.2, e.1))
    else (acc.1 + 1, acc.2)
  else acc

/-- Remove the session `key` names, and end it. -/
def forget (key : String) : SessionStore :=
  match store.sessions.lookup key with
  | some session =>
    { store with sessions := store.sessions.erase key, cells := store.cells.endSession session }
  | none => store

/-- Make `session` live if the store has room, once the expired are dropped. -/
def takeIn (now : Nat) (id : String) (session : Session) :
    SessionStore × Except SessionRefusal Unit :=
  if store.limits.total ≤ store.sessions.entries.length then
    let store := store.dropExpired now
    if store.limits.total ≤ store.sessions.entries.length then (store, .error .serverFull)
    else ({ store with sessions := store.sessions.insert id session }, .ok ())
  else ({ store with sessions := store.sessions.insert id session }, .ok ())

def insert (now : Nat) (session : Session) : SessionStore × Except SessionRefusal Unit :=
  let store := store.sweepIfDue now
  match session.id with
  | none => (store, .ok ())
  | some id =>
    let (theirs, leastRecent) := store.sessions.entries.foldl (scan store.cells session) (0, none)
    if store.limits.perCaller ≤ theirs then
      match leastRecent with
      | none => (store, .error .callerFull)
      | some (_, key) => (store.forget key).takeIn now id session
    else store.takeIn now id session

/-- The live session `id` names; one that expired is ended and forgotten on the way. -/
def live (now : Nat) (id : String) : SessionStore × Option Session :=
  match store.sessions.lookup id with
  | none => (store, none)
  | some session =>
    if store.cells.isExpired session store.ttl now then (store.forget id, none)
    else (store, some session)

def find (now : Nat) (id : String) : SessionStore × Option Session :=
  (store.sweepIfDue now).live now id

/-- The session the returned `SessionUse` is of. -/
def enter (now : Nat) (id : String) (ctx : ToolContext) : SessionStore × Option Session :=
  match (store.sweepIfDue now).live now id with
  | (store, none) => (store, none)
  | (store, some session) =>
    if session.isOwnedBy ctx then ({ store with cells := store.cells.enter session }, some session)
    else (store, none)

def endSession (id : String) : SessionStore × Bool :=
  (store.forget id, (store.sessions.lookup id).isSome)

end SessionStore

end Tronc.Sessions
