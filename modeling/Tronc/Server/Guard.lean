import Tronc.Library.Hex
import Tronc.Library.Transition
import Tronc.Notify.Render
import Tronc.Server.Answers

namespace Tronc.Server

open Transition
open Mcp (Crates HeaderMap HeaderValue)

def DEFAULT_SLOW_REQUEST_THRESHOLD : Nat := 10 * 1000000000

def TEXT_EVENT_STREAM : String := "text/event-stream"

/-- `RequestId::mint`, for the process's instance and a number of its sequence. -/
def mint (instanceId sequence : UInt64) : String :=
  .ofList (Hex.padded 16 instanceId.toNat ++ '-' :: Hex.digits sequence.toNat)

def durationMs (duration : Nat) : UInt64 := .ofNat (min (duration / 1000000) (2 ^ 64 - 1))

def parseSlowRequestThreshold (raw : Option String) : Option Nat :=
  match (raw.map Text.trim).filter fun raw => raw != "" with
  | none => some DEFAULT_SLOW_REQUEST_THRESHOLD
  | some raw =>
    match Notify.parseU64 raw with
    | some 0 => none
    | some ms => some (ms * 1000000)
    | none => some DEFAULT_SLOW_REQUEST_THRESHOLD

/-- How a request ended, as its line says, or that its handler panicked. -/
inductive Kind where
  | completed (status : StatusCode) (latencyMs : UInt64)
  | slow (status : StatusCode) (latencyMs thresholdMs : UInt64)
  | cut (status : StatusCode) (elapsedMs : UInt64)
  | dropped (elapsedMs : UInt64)
  | panicked (panic : String)
  deriving DecidableEq

def Kind.isEnd : Kind → Bool
  | .completed .. | .slow .. | .cut .. | .dropped _ => true
  | .panicked _ => false

/-- A line of the request log. -/
structure Line where
  requestId : String
  method : String
  path : String
  kind : Kind
  deriving DecidableEq

/-- A request between its arrival and its one line. -/
structure InFlight where
  requestId : String
  method : String
  path : String
  started : Nat
  slowThreshold : Option Nat
  finished : Bool
  deriving DecidableEq

namespace InFlight

variable (r : InFlight) (status : StatusCode) (now : Nat)

def line (kind : Kind) : Line := ⟨r.requestId, r.method, r.path, kind⟩

/-- `Drop`. -/
def drop : List Line :=
  if r.finished then [] else [r.line (.dropped (durationMs (now - r.started)))]

def completion : Kind :=
  let latency := now - r.started
  match r.slowThreshold with
  | some threshold =>
    if threshold ≤ latency then .slow status (durationMs latency) (durationMs threshold)
    else .completed status (durationMs latency)
  | none => .completed status (durationMs latency)

-- each of these takes the request, which is dropped at its end
def finish : List Line :=
  let r := { r with finished := true }
  r.line (r.completion status now) :: r.drop now

def cut : List Line :=
  let r := { r with finished := true }
  r.line (.cut status (durationMs (now - r.started))) :: r.drop now

end InFlight

/-- Whether a response to a request is an answer that streams. -/
def isStreamedAnswer (method : String) (response : Response) : Bool :=
  method == "POST" &&
    ((getHeader response.headers "content-type").bind HeaderValue.toStr).any fun value =>
      let type := (value.toList.dropWhile Text.isWhitespace).take TEXT_EVENT_STREAM.length
      type.map Text.asciiLowerChar == TEXT_EVENT_STREAM.toList

/-- What the body under a `StreamedAnswer` gives when it is polled. -/
inductive Polled where
  | pending
  | chunk (data : List UInt8)
  | failed (cause : String)
  | done
  deriving DecidableEq

/-- What a `StreamedAnswer` keeps beside the body it passes on. -/
structure StreamedAnswer where
  inFlight : Option InFlight
  status : StatusCode
  deriving DecidableEq

namespace StreamedAnswer

variable (answer : StreamedAnswer) (now : Nat)

/-- `poll_next`: the lines written, and the answer left. -/
def pollNext : Polled → List Line × StreamedAnswer
  | .done =>
    match answer.inFlight with
    | some r => (r.finish answer.status now, { answer with inFlight := none })
    | none => ([], answer)
  | .pending | .chunk _ | .failed _ => ([], answer)

/-- `Drop`. -/
def drop : List Line :=
  match answer.inFlight with
  | some r => r.cut answer.status now
  | none => []

end StreamedAnswer

abbrev RequestNo := Nat

/-- Where a request is. -/
inductive Stage where
  /-- Its handler is at work. -/
  | running (minted : String) (headers : HeaderMap) (r : InFlight)
  /-- Its head is out, and its body is read as it comes. -/
  | streaming (answer : StreamedAnswer)
  /-- Its whole answer is out. -/
  | answered
  /-- Its future or its body was dropped. -/
  | gone

/-- The request that has still to write its line. -/
def Stage.open? : Stage → Option InFlight
  | .running _ _ r => some r
  | .streaming answer => answer.inFlight
  | .answered | .gone => none

/-- A process whose requests all go through `guard_requests`, with all that it has logged and
answered. A line is kept with the request that wrote it. -/
structure Guarded where
  instanceId : UInt64
  sequence : UInt64
  slowThreshold : Option Nat
  clock : Nat
  requests : RequestNo → Option Stage
  log : List (RequestNo × Line)
  answers : RequestNo → Option Response

namespace Guarded

variable (crates : Crates) (s : Guarded) (i : RequestNo)

inductive Event where
  | tick (now : Nat)
  | arrive (i : RequestNo) (method path : String) (headers : HeaderMap)
  /-- The handler answers, or panics with a message. -/
  | finish (i : RequestNo) (outcome : Except String Response)
  | poll (i : RequestNo) (polled : Polled)
  | drop (i : RequestNo)

/-- `RequestId::from_headers` and `InFlight::start`. -/
def start (method path : String) (headers : HeaderMap) : InFlight :=
  ⟨requestIdOf (mint s.instanceId s.sequence) headers, method, path, s.clock, s.slowThreshold, false⟩

/-- Whether the request brings an id of its own that may be adopted. -/
def adopts (headers : HeaderMap) : Bool :=
  (((getHeader headers REQUEST_ID_HEADER).bind HeaderValue.toStr).filter isUsableRequestId).isSome

def goto (stage : Stage) (lines : List Line) : Guarded :=
  { s with
    requests := Function.update s.requests i (some stage)
    log := s.log ++ lines.map fun line => (i, line) }

/-- The response of a handler, or the guard's where it panicked. -/
def responseOf (r : InFlight) (outcome : Except String Response) : Response :=
  outcome.toOption.getD
    (failureResponse crates .INTERNAL_SERVER_ERROR HANDLER_PANIC (panicMessage r.requestId))

def panicLines (r : InFlight) : Except String Response → List Line
  | .ok _ => []
  | .error panic => [r.line (.panicked panic)]

/-- The end of `guard_requests_with_threshold`, from the handler's outcome on. -/
def answer (minted : String) (headers : HeaderMap) (r : InFlight) (outcome : Except String Response) :
    Guarded :=
  let response := responseOf crates r outcome
  let s :=
    if isStreamedAnswer r.method response then
      s.goto i (.streaming ⟨some r, response.status⟩) (panicLines r outcome)
    else s.goto i .answered (panicLines r outcome ++ r.finish response.status s.clock)
  { s with
    answers :=
      Function.update s.answers i (some (guardRequests crates minted headers outcome.toOption)) }

def dropStage : Stage → Option Guarded
  | .running _ _ r => some (s.goto i .gone (r.drop s.clock))
  | .streaming answer => some (s.goto i .gone (answer.drop s.clock))
  | .answered | .gone => none

def step : Event → Option Guarded
  | .tick now => if s.clock ≤ now then some { s with clock := now } else none
  | .arrive i method path headers =>
    if (s.requests i).isNone then
      let running := .running (mint s.instanceId s.sequence) headers (s.start method path headers)
      some { s.goto i running [] with
        sequence := if adopts headers then s.sequence else s.sequence + 1 }
    else none
  | .finish i outcome =>
    match s.requests i with
    | some (.running minted headers r) => some (s.answer crates i minted headers r outcome)
    | _ => none
  | .poll i polled =>
    match s.requests i with
    | some (.streaming answer) =>
      let (lines, answer) := answer.pollNext s.clock polled
      some (s.goto i (.streaming answer) lines)
    | _ => none
  | .drop i => (s.requests i).bind (s.dropStage i)

/-- A process that has just started; `raw` is the threshold's variable. -/
def fresh (instanceId : UInt64) (raw : Option String) (clock : Nat) : Guarded :=
  ⟨instanceId, 0, parseSlowRequestThreshold raw, clock, fun _ => none, [], fun _ => none⟩

end Guarded

/-- A guarded process from its start, under any interleaving of its requests. -/
def guarded (crates : Crates) : Lts Guarded Guarded.Event where
  init s := ∃ instanceId raw clock, s = Guarded.fresh instanceId raw clock
  step s e t := s.step crates e = some t

end Tronc.Server
