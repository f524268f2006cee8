import Tronc.Library.Mpsc
import Tronc.Library.Text
import Tronc.Library.Transition
import Tronc.Mcp.Message

namespace Tronc.Mcp

open Transition

inductive TransportError where
  /-- Reading stdin or writing stdout failed, or the writer panicked. -/
  | stdio
  /-- A message could not be serialized. -/
  | encode
  deriving DecidableEq

/-- A message queued for stdout, and which line of input it answers, if any. -/
structure Outgoing where
  message : JsonRpcMessage
  answers : Option Nat
  deriving DecidableEq

inductive TaskEnd where
  /-- Its handling returned, and any response was sent. -/
  | returned (response : Option JsonRpcResponse)
  | panicked
  | aborted
  deriving DecidableEq

inductive TaskStage where
  | handling
  /-- Its handling returned a response, which is still to be sent. -/
  | responding (response : JsonRpcResponse)
  | ended (how : TaskEnd)
  deriving DecidableEq

structure RequestTask where
  request : JsonRpcRequest
  stage : TaskStage
  aborting : Bool
  joined : Bool
  deriving DecidableEq

/-- What became of one line of input. -/
inductive InputLine where
  | blank
  /-- Routed to the server request it answers. -/
  | answer (response : JsonRpcResponse)
  | refused (refusal : JsonRpcResponse)
  | request (task : RequestTask)
  deriving DecidableEq

/-- Where `write_lines` is. -/
inductive WriterStage where
  | selecting
  /-- `stop` has fired, and the outbox is still to be closed. -/
  | closing
  | flushing
  /-- `write_message`, with what is left to write of its line. -/
  | writing (item : Outgoing) (rest : List UInt8) (stopped : Bool)
  | ended (result : Except TransportError Unit)

inductive ServeStage where
  | reading
  /-- The writer ended first: pending requests, the connection, then the tasks are ended. -/
  | abandoning (written : Except TransportError Unit)
  | abandoned (written : Except TransportError Unit)
  | shutting (written : Except TransportError Unit)
  /-- Reading ended: no answer can arrive any more. -/
  | closing (read : Except TransportError Unit)
  | draining (read : Except TransportError Unit)
  /-- The drain timed out, and the tasks still running are aborted. -/
  | dropping (read : Except TransportError Unit)
  | stopping (read : Except TransportError Unit)
  | awaiting (read : Except TransportError Unit)
  | cancelling (read written : Except TransportError Unit)
  | returned (result : Except TransportError Unit)

/-- A stdio connection: the reader, the tasks of its requests and the writer. -/
structure Stdio where
  lines : List InputLine
  outbox : Mpsc.Channel Outgoing
  stop : Bool
  writer : WriterStage
  /-- The messages whose lines are written and flushed. -/
  written : List Outgoing
  output : List UInt8
  pendingClosed : Bool
  connectionClosed : Bool
  stage : ServeStage

namespace RequestTask

def spawned (request : JsonRpcRequest) : RequestTask := ⟨request, .handling, false, false⟩

/-- Whether it has ended and is still in the set. -/
def joinable (task : RequestTask) : Bool :=
  match task.stage with
  | .ended _ => !task.joined
  | .handling | .responding _ => false

end RequestTask

namespace InputLine

def isJoined : InputLine → Bool
  | .request task => task.joined
  | .blank | .answer _ | .refused _ => true

/-- What `JoinSet::abort_all` does to a line's task. -/
def abort : InputLine → InputLine
  | .request task => .request { task with aborting := task.aborting || !task.joined }
  | line => line

end InputLine

namespace Stdio

inductive Event where
  | line (text : String)
  | endOfInput
  | readError
  | send (request : JsonRpcRequest)
  | returns (line : Nat) (response : Option JsonRpcResponse)
  | respond (line : Nat)
  | panic (line : Nat)
  /-- A task that is aborted is dropped where it awaits. -/
  | dropTask (line : Nat)
  | join (line : Nat)
  /-- The bound on the drain strikes. -/
  | timeout
  | serve
  | write
  | chunk (n : Nat)
  | writeError
  deriving DecidableEq

variable (serde : Serde) (w : Stdio)

/-- A message as it is written: a line of its own. -/
def lineOf (item : Outgoing) : Option (List UInt8) := (serde.toVec item.message).map (· ++ [10])

def goto (stage : ServeStage) : Stdio := { w with stage := stage }

def task (line : Nat) : Option RequestTask :=
  match w.lines[line]? with
  | some (.request task) => some task
  | _ => none

def setTask (line : Nat) (task : RequestTask) : Stdio :=
  { w with lines := w.lines.set line (.request task) }

def abortAll : Stdio := { w with lines := w.lines.map InputLine.abort }

def allJoined : Bool := w.lines.all InputLine.isJoined

def send (message : JsonRpcMessage) (answers : Option Nat) : Stdio :=
  { w with outbox := w.outbox.send ⟨message, answers⟩ }

def endWriter (result : Except TransportError Unit) : Stdio :=
  { w with writer := .ended result, outbox := w.outbox.close }

def readLine (text : String) : Stdio :=
  let push (line : InputLine) : Stdio := { w with lines := w.lines ++ [line] }
  if Text.trim text = "" then push .blank
  else
    match JsonRpcMessage.parse serde text with
    | .ok (.response response) => push (.answer response)
    | .ok (.request request) => push (.request (.spawned request))
    | .error refusal =>
      (push (.refused refusal)).send (.response refusal) (some w.lines.length)

def whileReading (then_ : Stdio) : Option Stdio :=
  match w.stage with
  | .reading => some then_
  | _ => none

/-- The loop joins tasks while it reads, the drain and the shutdown until none is left. -/
def joins : Bool :=
  match w.stage with
  | .reading | .draining _ | .dropping _ | .shutting _ => true
  | .abandoning _ | .abandoned _ | .closing _ | .stopping _ | .awaiting _ | .cancelling _ _
  | .returned _ => false

/-- `stage`, once every task is joined. -/
def onceJoined (stage : ServeStage) : Option Stdio :=
  if w.allJoined then some (w.goto stage) else none

/-- `finish(written)`, after `read?`. -/
def result : Except TransportError Unit → Except TransportError Unit → Except TransportError Unit
  | .error e, _ => .error e
  | .ok (), written => written

def serve : Option Stdio :=
  match w.stage with
  | .reading =>
    match w.writer with
    | .ended written => some (w.goto (.abandoning written))
    | _ => none
  | .abandoning written => some { w with pendingClosed := true, stage := .abandoned written }
  | .abandoned written =>
    some { w.abortAll with connectionClosed := true, stage := .shutting written }
  | .shutting written => w.onceJoined (.returned written)
  | .closing read => some { w with pendingClosed := true, stage := .draining read }
  | .draining read | .dropping read => w.onceJoined (.stopping read)
  | .stopping read => some { w with stop := true, stage := .awaiting read }
  | .awaiting read =>
    match w.writer with
    | .ended written => some (w.goto (.cancelling read written))
    | _ => none
  | .cancelling read written =>
    some { w with connectionClosed := true, stage := .returned (result read written) }
  | .returned _ => none

def timeout : Option Stdio :=
  match w.stage with
  | .draining read => some (w.abortAll.goto (.dropping read))
  | _ => none

/-- `write_message` serializes the message first. -/
def beginWrite (item : Outgoing) (stopped : Bool) : Stdio :=
  match lineOf serde item with
  | some line => { w with writer := .writing item line stopped }
  | none => w.endWriter (.error .encode)

def write : Option Stdio :=
  match w.writer with
  | .selecting =>
    if w.stop then some { w with writer := .closing }
    else
      match w.outbox.recv with
      | .message item rest => some ({ w with outbox := rest }.beginWrite serde item false)
      | .disconnected => some (w.endWriter (.ok ()))
      | .pending => none
  | .closing => some { w with outbox := w.outbox.close, writer := .flushing }
  | .flushing =>
    match w.outbox.recv with
    | .message item rest => some ({ w with outbox := rest }.beginWrite serde item true)
    | .disconnected => some (w.endWriter (.ok ()))
    | .pending => none
  | .writing item [] stopped =>
    some { w with
      written := w.written ++ [item]
      writer := if stopped then .flushing else .selecting }
  | .writing _ (_ :: _) _ | .ended _ => none

def chunk (n : Nat) : Option Stdio :=
  match w.writer with
  | .writing item rest stopped =>
    some { w with
      output := w.output ++ rest.take n
      writer := .writing item (rest.drop n) stopped }
  | _ => none

/-- A write that fails may have written part of its line. -/
def writeError : Option Stdio :=
  match w.writer with
  | .writing _ _ _ => some (w.endWriter (.error .stdio))
  | _ => none

def stepTask (line : Nat) (f : RequestTask → Option RequestTask) : Option Stdio :=
  (w.task line).bind fun task => (f task).map (w.setTask line)

def handled (response : Option JsonRpcResponse) (task : RequestTask) : Option RequestTask :=
  match task.stage with
  | .handling =>
    match response with
    | some response => some { task with stage := .responding response }
    | none => some { task with stage := .ended (.returned none) }
  | .responding _ | .ended _ => none

def panicked (task : RequestTask) : Option RequestTask :=
  match task.stage with
  | .handling => some { task with stage := .ended .panicked }
  | .responding _ | .ended _ => none

def dropped (task : RequestTask) : Option RequestTask :=
  match task.stage with
  | .handling => if task.aborting then some { task with stage := .ended .aborted } else none
  | .responding _ | .ended _ => none

def joined (task : RequestTask) : Option RequestTask :=
  if task.joinable then some { task with joined := true } else none

def respond (line : Nat) : Option Stdio :=
  match w.task line with
  | some task =>
    match task.stage with
    | .responding response =>
      some ((w.send (.response response) (some line)).setTask line
        { task with stage := .ended (.returned (some response)) })
    | .handling | .ended _ => none
  | none => none

def step : Event → Option Stdio
  | .line text => w.whileReading (w.readLine serde text)
  | .endOfInput => w.whileReading (w.goto (.closing (.ok ())))
  | .readError => w.whileReading (w.goto (.closing (.error .stdio)))
  | .send request => some (w.send (.request request) none)
  | .returns line response => w.stepTask line (handled response)
  | .respond line => w.respond line
  | .panic line => w.stepTask line panicked
  | .dropTask line => w.stepTask line dropped
  | .join line => if w.joins then w.stepTask line joined else none
  | .timeout => w.timeout
  | .serve => w.serve
  | .write => w.write serde
  | .chunk n => w.chunk n
  | .writeError => w.writeError

def opening : Stdio where
  lines := []
  outbox := .empty
  stop := false
  writer := .selecting
  written := []
  output := []
  pendingClosed := false
  connectionClosed := false
  stage := .reading

end Stdio

/-- `serve_lines`, its writer, and the tasks of the requests it reads. -/
def stdio (serde : Serde) : Lts Stdio Stdio.Event where
  init w := w = .opening
  step w e w' := w.step serde e = some w'

end Tronc.Mcp
