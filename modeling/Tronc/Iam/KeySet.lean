import Mathlib.Data.List.DropRight
import Mathlib.Logic.Function.Basic
import Tronc.Library.Transition

namespace Tronc.Iam

open Transition

/-- Nanoseconds, as every time and duration here. -/
def KEY_SET_TTL : Nat := 3600 * 1000000000

def MIN_REFETCH_INTERVAL : Nat := 30 * 1000000000

/-- One RSA public key from a Google key set. -/
structure GoogleSigningKey where
  kid : String
  n : String
  e : String
  deriving DecidableEq

/-- What `GoogleKeySet::key` may answer instead of a key. -/
inductive IamError where
  | jwksUnavailable (why : String)
  | rejected (why : String)
  deriving DecidableEq

/-- What is asked of `GoogleKeySet::key` is answered with. -/
abbrev Answer := Except IamError GoogleSigningKey

/-- A fetched key set and when the fetch that brought it finished. -/
structure FetchedKeys where
  keys : List GoogleSigningKey
  fetchedAt : Nat
  deriving DecidableEq

/-- What the cache remembers between lookups. -/
structure CacheState where
  fetched : Option FetchedKeys
  lastAttempt : Option Nat
  deriving DecidableEq

/-- The configuration of a key set; the interval never outlasts a set. -/
structure GoogleKeySet where
  minRefetchInterval : Nat
  interval_le : minRefetchInterval ≤ KEY_SET_TTL

/-- A whole number with a fraction of `width` digits, trailing zeros left out. -/
def decimal (whole fraction width : Nat) : String :=
  let digits := ((toString fraction).toList.leftpad width '0').rdropWhile (· == '0')
  if digits.isEmpty then toString whole
  else toString whole ++ "." ++ String.ofList digits

/-- A `Duration` as `{:?}` writes it. -/
def durationDebug (nanos : Nat) : String :=
  if 1000000000 ≤ nanos then decimal (nanos / 1000000000) (nanos % 1000000000) 9 ++ "s"
  else if 1000000 ≤ nanos then decimal (nanos / 1000000) (nanos % 1000000) 6 ++ "ms"
  else if 1000 ≤ nanos then decimal (nanos / 1000) (nanos % 1000) 3 ++ "µs"
  else toString nanos ++ "ns"

/-- The refusal for a `kid` the current set does not carry. -/
def unknownKid (kid : String) : IamError := .rejected ("no Google signing key for kid " ++ kid)

def findKey (keys : List GoogleSigningKey) (kid : String) : Option GoogleSigningKey :=
  keys.find? fun key => key.kid == kid

/-- The set is younger than its time to live. -/
def FetchedKeys.isCurrent (set : FetchedKeys) (now : Nat) : Bool :=
  now - set.fetchedAt < KEY_SET_TTL

namespace GoogleKeySet

/-- `GoogleKeySet::new`. -/
def new : GoogleKeySet := ⟨MIN_REFETCH_INTERVAL, by decide⟩

def withMinRefetchInterval (interval : Nat) : GoogleKeySet :=
  ⟨min interval KEY_SET_TTL, Nat.min_le_right _ _⟩

variable (set : GoogleKeySet) (state : CacheState) (now : Nat) (kid : String)

def coolingDown : Bool :=
  state.lastAttempt.any fun time => now - time < set.minRefetchInterval

def lastFetchFailed : IamError :=
  .jwksUnavailable
    ("the last fetch failed less than " ++ durationDebug set.minRefetchInterval ++ " ago")

/-- The answer the cache gives without fetching, or `none` when a fetch is both needed and
allowed. -/
def answerFromMemory : Option Answer :=
  match state.fetched.filter fun fetched => fetched.isCurrent now with
  | some fetched =>
    match findKey fetched.keys kid with
    | some key => some (.ok key)
    | none => if set.coolingDown state now then some (.error (unknownKid kid)) else none
  | none => if set.coolingDown state now then some (.error set.lastFetchFailed) else none

end GoogleKeySet

/-- What a download brought, or why it failed. -/
abbrev Downloaded := Except String (List GoogleSigningKey)

/-- The end of `fetch`: the state it leaves, and what it answers. -/
def CacheState.record (state : CacheState) (downloaded : Downloaded) (finished : Nat)
    (kid : String) : CacheState × Answer :=
  let state := { state with lastAttempt := some finished }
  match downloaded with
  | .error why => (state, .error (.jwksUnavailable why))
  | .ok keys =>
    ({ state with fetched := some ⟨keys, finished⟩ },
      match findKey keys kid with
      | some key => .ok key
      | none => .error (unknownKid kid))

abbrev CallId := Nat

/-- Where a call of `key` is, with what it has read. -/
inductive Stage where
  | called
  /-- Its first look at the cache asks for a fetch: it waits for its turn. -/
  | waiting
  /-- It has the turn, and has still to look again. -/
  | holding
  /-- Its second look, at `seen`, allows a fetch. -/
  | allowed (seen : Nat)
  | downloading
  | downloaded (outcome : Downloaded)
  /-- It has read the clock, and waits for the state to write to. -/
  | finished (outcome : Downloaded) (time : Nat)
  /-- It has its answer, by the clock at `time`, and has still to give up its turn. -/
  | answered (answer : Answer) (time : Nat)
  | returned (answer : Answer) (time : Nat)
  /-- Its future was dropped. -/
  | dropped

/-- Whether a call there has the turn to fetch. -/
def Stage.hasTurn : Stage → Bool
  | .called | .waiting | .returned .. | .dropped => false
  | .holding | .allowed _ | .downloading | .downloaded _ | .finished .. | .answered .. => true

/-- Whether a call there has a download behind it or under way that is not recorded yet. -/
def Stage.unrecorded : Stage → Bool
  | .downloading | .downloaded _ | .finished .. => true
  | .called | .waiting | .holding | .allowed _ | .answered .. | .returned .. | .dropped => false

structure Call where
  kid : String
  stage : Stage

inductive Ending where
  | succeeded
  | failed
  | abandoned
  deriving DecidableEq

/-- How a download ended, and when. -/
structure Ended where
  how : Ending
  time : Nat
  deriving DecidableEq

/-- The calls of `key` on one key set. Besides what the code keeps: how the last download ended. -/
structure Callers where
  set : GoogleKeySet
  cache : CacheState
  fetching : Option CallId
  calls : CallId → Option Call
  clock : Nat
  ended : Option Ended

namespace Callers

variable (w : Callers) (i : CallId) (call : Call)

def goto (stage : Stage) : Callers :=
  { w with calls := Function.update w.calls i (some { call with stage := stage }) }

def release (stage : Stage) : Callers := { w.goto i call stage with fetching := none }

/-- One step of a call by itself. Its looks at the cache read the clock with the state in hand. -/
def advance : Option Callers :=
  match call.stage with
  | .called =>
    match w.set.answerFromMemory w.cache w.clock call.kid with
    | some answer => some (w.goto i call (.returned answer w.clock))
    | none => some (w.goto i call .waiting)
  | .waiting =>
    if w.fetching = none then some { w.goto i call .holding with fetching := some i } else none
  | .holding =>
    match w.set.answerFromMemory w.cache w.clock call.kid with
    | some answer => some (w.goto i call (.answered answer w.clock))
    | none => some (w.goto i call (.allowed w.clock))
  | .allowed _ => some (w.goto i call .downloading)
  | .downloading => none
  | .downloaded outcome => some (w.goto i call (.finished outcome w.clock))
  | .finished outcome time =>
    let (cache, answer) := w.cache.record outcome time call.kid
    some { w.goto i call (.answered answer time) with cache := cache }
  | .answered answer time => some (w.release i call (.returned answer time))
  | .returned .. | .dropped => none

/-- The download of a call ends with an outcome. -/
def respond (outcome : Downloaded) : Option Callers :=
  match call.stage with
  | .downloading =>
    let how := match outcome with
      | .ok _ => .succeeded
      | .error _ => .failed
    some { w.goto i call (.downloaded outcome) with ended := some ⟨how, w.clock⟩ }
  | _ => none

/-- The future of a call is dropped, where it can be waiting for something. -/
def dropFuture : Option Callers :=
  match call.stage with
  | .called | .waiting => some (w.goto i call .dropped)
  | .holding | .finished .. => some (w.release i call .dropped)
  | .downloading =>
    some { w.release i call .dropped with ended := some ⟨.abandoned, w.clock⟩ }
  | .allowed _ | .downloaded _ | .answered .. | .returned .. | .dropped => none

inductive Event where
  | tick (now : Nat)
  | call (i : CallId) (kid : String)
  | advance (i : CallId)
  | respond (i : CallId) (outcome : Downloaded)
  | drop (i : CallId)

def step : Event → Option Callers
  | .tick now => if w.clock ≤ now then some { w with clock := now } else none
  | .call i kid =>
    if (w.calls i).isNone then
      some { w with calls := Function.update w.calls i (some ⟨kid, .called⟩) }
    else none
  | .advance i => (w.calls i).bind fun call => w.advance i call
  | .respond i outcome => (w.calls i).bind fun call => w.respond i call outcome
  | .drop i => (w.calls i).bind fun call => w.dropFuture i call

end Callers

/-- A key set from when it is made, under any interleaving of its callers. -/
def keySet : Lts Callers Callers.Event where
  init w := w.cache = ⟨none, none⟩ ∧ w.fetching = none ∧ w.calls = (fun _ => none) ∧ w.ended = none
  step w e w' := w.step e = some w'

end Tronc.Iam
