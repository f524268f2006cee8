import Tronc.Iam.KeySet
import Tronc.Server.Answers

namespace Tronc.Iam

open Transition
open Server (StatusCode)

def DEFAULT_METADATA_HOST : String := "metadata.google.internal"

def IDENTITY_PATH : String :=
  "/computeMetadata/v1/instance/service-accounts/default/identity"

def REFRESH_AFTER : Nat := 45 * 60 * 1000000000

inductive TokenError where
  | metadataUnavailable (why : String)
  | malformedToken (why : String)
  deriving DecidableEq

/-- A cached token and when it was obtained. -/
structure Cached where
  token : String
  fetchedAt : Nat
  deriving DecidableEq

structure MetadataRequest where
  url : String
  query : List (String × String)
  headers : List (String × String)
  deriving DecidableEq

/-- What became of a request to the metadata server; a cause is as `describe_request_error` has
it. -/
inductive MetadataAnswer where
  | unreachable (cause : String)
  | answered (status : StatusCode) (body : Except String String)

/-- The host of a fetch; `env` is the variable's value, where it has one that is Unicode. -/
def metadataHost (env : Option String) : String :=
  (env.filter fun host => host ≠ "").getD DEFAULT_METADATA_HOST

def metadataRequest (audience : String) (env : Option String) : MetadataRequest :=
  ⟨"http://" ++ metadataHost env ++ IDENTITY_PATH, [("audience", audience), ("format", "full")],
    [("Metadata-Flavor", "Google")]⟩

/-- The shape of a JWT. -/
def isThreeSegments (token : String) : Bool := (token.toList.splitOn '.').length = 3

section Fetch

variable (display : StatusCode → String)

/-- The end of `fetch`, once it is known what became of its request; `display` writes a status as
`http` does. -/
def readToken : MetadataAnswer → Except TokenError String
  | .unreachable cause => .error (.metadataUnavailable cause)
  | .answered status body =>
    if !status.isSuccess then
      .error (.metadataUnavailable ("metadata server answered " ++ display status))
    else
      match body with
      | .error cause => .error (.malformedToken cause)
      | .ok token =>
        if isThreeSegments token then .ok token
        else .error (.malformedToken "response was not a three-segment JWT")

theorem readToken_ok {answer : MetadataAnswer} {token : String}
    (h : readToken display answer = .ok token) : isThreeSegments token = true := by
  cases answer with
  | unreachable cause => cases h
  | answered status body =>
    simp only [readToken] at h
    split at h
    · cases h
    · cases body with
      | error cause => cases h
      | ok text =>
        have read : (if isThreeSegments text then .ok text
            else .error (.malformedToken "response was not a three-segment JWT")) =
              (.ok token : Except TokenError String) := h
        split at read
        · rename_i shape
          rw [← Except.ok.inj read]
          exact shape
        · cases read

end Fetch

namespace IdTokenSource

abbrev Answer := Except TokenError String

/-- Where a call of `token` is, with what it has read. -/
inductive Stage where
  | called
  /-- Its look at the cache found no token young enough. -/
  | missed
  | fetching (request : MetadataRequest)
  /-- It has a token of its own, and waits to write to the cache. -/
  | fetched (token : String)
  /-- It may write, and has still to look again. -/
  | holding (token : String)
  | storing (token : String)
  | returned (answer : Answer) (time : Nat)
  | dropped
  deriving DecidableEq

def Stage.writes : Stage → Bool
  | .holding _ | .storing _ => true
  | .called | .missed | .fetching _ | .fetched _ | .returned .. | .dropped => false

def Stage.own : Stage → Option String
  | .fetched token | .holding token | .storing token => some token
  | .called | .missed | .fetching _ | .returned .. | .dropped => none

/-- The calls of `token` on one source, and the environment they read the host from. -/
structure Callers where
  audience : String
  env : Option String
  cached : Option Cached
  writer : Option CallId
  calls : CallId → Option Stage
  clock : Nat

inductive Event where
  | tick (now : Nat)
  | setHost (env : Option String)
  | call (i : CallId)
  | advance (i : CallId)
  | respond (i : CallId) (answer : MetadataAnswer)
  | drop (i : CallId)

namespace Callers

variable (w : Callers) (i : CallId)

/-- The cached token, when it is young enough to be reused. -/
def fresh : Option Cached :=
  w.cached.filter fun cached => w.clock - cached.fetchedAt < REFRESH_AFTER

def goto (stage : Stage) : Callers :=
  { w with calls := Function.update w.calls i (some stage) }

def release (stage : Stage) : Callers := { w.goto i stage with writer := none }

def advance : Stage → Option Callers
  | .called =>
    if w.writer = none then
      match w.fresh with
      | some cached => some (w.goto i (.returned (.ok cached.token) w.clock))
      | none => some (w.goto i .missed)
    else none
  -- the host is resolved for each fetch
  | .missed => some (w.goto i (.fetching (metadataRequest w.audience w.env)))
  | .fetching _ => none
  | .fetched token =>
    if w.writer = none then some { w.goto i (.holding token) with writer := some i } else none
  | .holding token =>
    match w.fresh with
    | some cached => some (w.release i (.returned (.ok cached.token) w.clock))
    | none => some (w.goto i (.storing token))
  | .storing token =>
    some { w.release i (.returned (.ok token) w.clock) with cached := some ⟨token, w.clock⟩ }
  | .returned .. | .dropped => none

variable (display : StatusCode → String)

/-- The fetch of a call ends with an answer. -/
def respond (answer : MetadataAnswer) : Stage → Option Callers
  | .fetching _ =>
    match readToken display answer with
    | .ok token => some (w.goto i (.fetched token))
    | .error failure => some (w.goto i (.returned (.error failure) w.clock))
  | _ => none

/-- The future of a call is dropped, where it can be waiting for something. -/
def dropFuture : Stage → Option Callers
  | .called | .fetching _ | .fetched _ => some (w.goto i .dropped)
  | .missed | .holding _ | .storing _ | .returned .. | .dropped => none

def step : Event → Option Callers
  | .tick now => if w.clock ≤ now then some { w with clock := now } else none
  | .setHost env => some { w with env := env }
  | .call i => if (w.calls i).isNone then some (w.goto i .called) else none
  | .advance i => (w.calls i).bind (w.advance i)
  | .respond i answer => (w.calls i).bind (w.respond i display answer)
  | .drop i => (w.calls i).bind (w.dropFuture i)

end Callers

def new (audience : String) (env : Option String) (clock : Nat) : Callers :=
  ⟨audience, env, none, none, fun _ => none, clock⟩

end IdTokenSource

/-- A token source from when it is made, under any interleaving of its callers. -/
def tokenSource (display : StatusCode → String) : Lts IdTokenSource.Callers IdTokenSource.Event where
  init w := ∃ audience env clock, w = IdTokenSource.new audience env clock
  step w e w' := w.step display e = some w'

end Tronc.Iam
