import Tronc.Library.Mpsc
import Tronc.Library.Transition
import Tronc.Mcp.Protocol

namespace Tronc.Mcp

open Transition

/-- How a `POST` may be answered, as the client's `Accept` weighs the two renderings. -/
structure Rendering where
  singleAsEvent : Bool
  mayStream : Bool
  deriving DecidableEq

inductive Single where
  | accepted
  | json (status : Nat) (response : JsonRpcResponse)
  | event (response : JsonRpcResponse)
  deriving DecidableEq

/-- The HTTP status a dispatched response travels under. -/
def responseStatus (response : JsonRpcResponse) (modern : Bool) : Nat :=
  match response.code with
  | none => 200
  | some code =>
    if code = ErrorCode.headerMismatch then 400
    else if (code = ErrorCode.unsupportedProtocolVersion ∨
        code = ErrorCode.missingRequiredClientCapability) ∧ modern then 400
    else if code = ErrorCode.methodNotFound ∧ modern then 404
    else 200

/-- 202 with no body when there is no response. -/
def renderResponse (response : Option JsonRpcResponse) (modern : Bool) (rendering : Rendering) :
    Single :=
  match response with
  | none => .accepted
  | some response =>
    let status := responseStatus response modern
    if status ≠ 200 then .json status response
    else if rendering.singleAsEvent then .event response
    else .json status response

def Single.messages : Single → List JsonRpcMessage
  | .accepted => []
  | .json _ response | .event response => [.response response]

/-- Which of its two branches a `select!` is at. -/
inductive Select where
  | outbox
  | call
  deriving DecidableEq

/-- Where a streamed call is. -/
inductive Phase where
  | running (select : Select)
  | draining (response : Option JsonRpcResponse)
  | done
  deriving DecidableEq

/-- The event stream of a call that talked to its client before answering. -/
structure CallStream where
  phase : Phase
  sent : List JsonRpcMessage
  deriving DecidableEq

inductive AnswerStage where
  | selecting (select : Select)
  /-- The call has answered, and `drain` took `sent` so far. -/
  | draining (response : Option JsonRpcResponse) (sent : List JsonRpcMessage)
  | single (body : Single)
  | streaming (stream : CallStream)
  | finished
  | panicked
  | dropped
  deriving DecidableEq

/-- A call's answer in the making: `answer_call`, then the client reading what it returned. -/
structure Answering where
  id : Option Json
  modern : Bool
  rendering : Rendering
  /-- Whether the request still counts busy in its session. -/
  serving : Bool
  outbox : Mpsc.Channel JsonRpcMessage
  stage : AnswerStage
  delivered : List JsonRpcMessage
  sent : List JsonRpcMessage
  /-- Once the call has ended, the response it produced, if any. -/
  ended : Option (Option JsonRpcResponse)
  deriving DecidableEq

inductive Poll where
  | pending
  | ready (response : Option JsonRpcResponse)
  | panicked
  deriving DecidableEq

namespace Answering

inductive Event where
  /-- The call sends its client a request or a notification, or a job it left with a clone of its
  context does. -/
  | send (request : JsonRpcRequest)
  /-- The last clone of the context is dropped. -/
  | hangUp
  | run
  /-- A receive finds nothing, also when something is queued: its task is out of budget. -/
  | starve
  | poll (outcome : Poll)
  | disconnect
  deriving DecidableEq

def callFailed (id : Option Json) : JsonRpcResponse :=
  .failure id ErrorCode.internalError "The call failed while answering"

variable (w : Answering)

def goto (stage : AnswerStage) : Answering := { w with stage := stage }

def deliver (message : JsonRpcMessage) : Answering :=
  { w with delivered := w.delivered ++ [message] }

def finish (stage : AnswerStage) : Answering :=
  { w with stage := stage, serving := false, outbox := w.outbox.close }

def send (request : JsonRpcRequest) : Answering :=
  if w.rendering.mayStream then
    { w with
      outbox := w.outbox.send (.request request)
      sent := if w.ended.isNone then w.sent ++ [.request request] else w.sent }
  else w

/-- A running call holds its context. -/
def hangUp : Option Answering :=
  if w.ended.isSome then some { w with outbox := w.outbox.close } else none

/-- `CallStream::next`, up to the next poll of the call. -/
def next (stream : CallStream) : Option Answering :=
  match stream.sent with
  | message :: rest => some ((w.deliver message).goto (.streaming { stream with sent := rest }))
  | [] =>
    match stream.phase with
    | .running .outbox =>
      match w.outbox.recv with
      | .message message rest => some { w.deliver message with outbox := rest }
      | .disconnected | .pending => some (w.goto (.streaming { stream with phase := .running .call }))
    | .running .call => none
    | .draining response =>
      match w.outbox.recv with
      | .message message rest => some { w.deliver message with outbox := rest }
      | .disconnected | .pending =>
        match response with
        | some response =>
          let w := w.deliver (.response response)
          some { w with serving := false, stage := .streaming { stream with phase := .done } }
        | none => some (w.finish .finished)
    | .done => some (w.finish .finished)

def run : Option Answering :=
  match w.stage with
  | .selecting .outbox =>
    match w.outbox.recv with
    | .message first rest =>
      some { w with outbox := rest, stage := .streaming ⟨.running .outbox, [first]⟩ }
    | .disconnected | .pending => some (w.goto (.selecting .call))
  | .draining response sent =>
    match w.outbox.recv with
    | .message message rest =>
      some { w with outbox := rest, stage := .draining response (sent ++ [message]) }
    | .disconnected | .pending =>
      some (if sent.isEmpty then w.finish (.single (renderResponse response w.modern w.rendering))
        else w.goto (.streaming ⟨.draining response, sent⟩))
  | .streaming stream => w.next stream
  | .selecting .call | .single _ | .finished | .panicked | .dropped => none

def starve : Option Answering :=
  match w.stage with
  | .selecting .outbox => some (w.goto (.selecting .call))
  | .streaming ⟨.running .outbox, []⟩ => some (w.goto (.streaming ⟨.running .call, []⟩))
  | _ => none

def poll (outcome : Poll) : Option Answering :=
  match w.stage with
  | .selecting .call =>
    match outcome with
    | .pending => some (w.goto (.selecting .outbox))
    | .ready response => some { w with stage := .draining response [], ended := some response }
    | .panicked => some { w.finish .panicked with ended := some none }
  | .streaming ⟨.running .call, sent⟩ =>
    match outcome with
    | .pending => some (w.goto (.streaming ⟨.running .outbox, sent⟩))
    | .ready response =>
      some { w with stage := .streaming ⟨.draining response, sent⟩, ended := some response }
    -- `catch_unwind` turns the panic into a response
    | .panicked =>
      let response := some (callFailed w.id)
      some { w with stage := .streaming ⟨.draining response, sent⟩, ended := some response }
  | _ => none

def disconnect : Option Answering :=
  match w.stage with
  | .selecting _ | .draining _ _ | .streaming _ =>
    some { w.finish .dropped with ended := some (w.ended.getD none) }
  | .single _ | .finished | .panicked | .dropped => none

def step : Event → Option Answering
  | .send request => some (w.send request)
  | .hangUp => w.hangUp
  | .run => w.run
  | .starve => w.starve
  | .poll outcome => w.poll outcome
  | .disconnect => w.disconnect

def read : Option (List JsonRpcMessage) :=
  match w.stage with
  | .single body => some body.messages
  | .finished => some w.delivered
  | .selecting _ | .draining _ _ | .streaming _ | .panicked | .dropped => none

end Answering

/-- A call over HTTP that is not `initialize`, from its first poll on. -/
def answering : Lts Answering Answering.Event where
  init w := w.stage = .selecting .call ∧ w.delivered = [] ∧ w.sent = [] ∧ w.ended = none ∧
    w.outbox = if w.rendering.mayStream then .empty else Mpsc.Channel.empty.close
  step w e w' := w.step e = some w'

end Tronc.Mcp
