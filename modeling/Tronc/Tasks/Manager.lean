import Mathlib.Logic.Function.Basic
import Tronc.Tasks.Store

namespace Tronc.Tasks

abbrev ManagerId := Nat

/-- A call on a manager or on a run: the future it returned, by the order they were made in. -/
abbrev OpId := Nat

/-- A `TaskRun` is named by the `create` that returned it. -/
abbrev RunId := OpId

/-- Responses an `apply_input` took, on their way to a run. Only `responses` is sent; the rest
records which call sent them, and the requests it validated them against with the call that had
written those on the task. -/
structure Answer where
  responses : InputResponses
  sentBy : OpId
  requests : Map
  askedBy : OpId
  deriving DecidableEq

inductive TaskSignal where
  | cancelled (taskId : TaskId)
  | input (taskId : TaskId) (answer : Answer)
  deriving DecidableEq

def TaskSignal.taskId : TaskSignal → TaskId
  | .cancelled taskId => taskId
  | .input taskId _ => taskId

/-- A signal the bus took, and the managers whose host has handed it to `deliver`. -/
structure Carried where
  signal : TaskSignal
  delivered : List ManagerId
  deriving DecidableEq

/-- A `TaskRun` with the token and the channel it shares with its `LiveRun`. -/
structure TaskRun where
  manager : ManagerId
  owner : TaskOwner
  task : Task
  cancel : Bool
  /-- The channel: sent and not yet received. -/
  inputs : List Answer
  live : Bool
  /-- The call that has borrowed or consumed the run. -/
  usedBy : Option OpId
  deriving DecidableEq

inductive Call where
  | create (owner : TaskOwner)
  | get (owner : TaskOwner) (id : TaskId)
  | transition (owner : TaskOwner) (id : TaskId) (payload : TaskPayload)
  | applyInput (owner : TaskOwner) (id : TaskId) (responses : InputResponses)
  | cancel (owner : TaskOwner) (id : TaskId)
  | sweepExpired
  | runRequestInput (run : RunId) (inputRequests : Map)
  | runComplete (run : RunId) (result : Map)
  | runFail (run : RunId) (error : Map)
  deriving DecidableEq

namespace Call

def complete (owner : TaskOwner) (id : TaskId) (result : Map) : Call :=
  .transition owner id (.completed result)

def fail (owner : TaskOwner) (id : TaskId) (error : Map) : Call :=
  .transition owner id (.failed error)

def requestInput (owner : TaskOwner) (id : TaskId) (inputRequests : Map) : Call :=
  .transition owner id (.inputRequired inputRequests)

def run : Call → Option RunId
  | .runRequestInput r _ | .runComplete r _ | .runFail r _ => some r
  | _ => none

end Call

/-- What a call returns. A sweep returns how many ids it removed; the record keeps which. -/
inductive Outcome where
  | run (r : RunId)
  | task (t : DetailedTask)
  | removed (ids : List TaskId)
  | responses (answer : Answer)
  | error (e : TaskError)
  deriving DecidableEq

def Outcome.ofTask : Except TaskError DetailedTask → Outcome
  | .ok t => .task t
  | .error e => .error e

/-- Where a call stands between two of its atomic sections. -/
inductive Stage where
  | called
  | stored (task : Task)
  /-- `signal_cancelled` is still to be called for `left`. -/
  | signalling (left : List TaskId) (outcome : Outcome)
  | publishing (id : TaskId) (left : List TaskId) (outcome : Outcome)
  | visible
  /-- `apply_input`: the sender of the local run, if one is registered. -/
  | found (inputs : Option RunId)
  /-- `apply_input`: the input is off the task and not yet handed over. -/
  | working (inputs : Option RunId) (answer : Answer) (working : DetailedTask)
  /-- `apply_input`: the hand-over failed, to the local run or to the bus. -/
  | unhanded (isLocal : Bool)
  | awaiting
  | settled (outcome : Outcome)
  | returned (outcome : Outcome)
  | dropped
  deriving DecidableEq

def Stage.isOver : Stage → Bool
  | .returned _ | .dropped => true
  | _ => false

structure Op where
  manager : ManagerId
  call : Call
  stage : Stage
  deriving DecidableEq

/-- The managers over one in-memory store: each manager's retention, and whether its host
installed a `TaskSignalBus`. -/
structure Config where
  chrono : Chrono
  options : ManagerId → TaskOptions
  signals : ManagerId → Bool

structure World where
  entries : Entries
  runs : ManagerId → AList fun _ : TaskId => RunId
  taskRuns : RunId → Option TaskRun
  ops : OpId → Option Op
  nextOp : OpId
  bus : List Carried
  minted : List TaskId
  /-- The call that last wrote input requests on a task. -/
  asked : TaskId → OpId

def World.init : World where
  entries := ∅
  runs := fun _ => ∅
  taskRuns := fun _ => none
  ops := fun _ => none
  nextOp := 0
  bus := []
  minted := []
  asked := fun _ => 0

/-- What the caller's environment decides at one poll: the id the CSPRNG gives, and whether the
bus takes a signal. -/
structure Choice where
  id : Except String TaskId
  published : Bool

inductive Action where
  | call (manager : ManagerId) (call : Call)
  | poll (op : OpId) (now : Int) (choice : Choice)
  | dropFuture (op : OpId)
  | dropRun (run : RunId)
  /-- A host hands a signal off the bus to its manager's `deliver`. -/
  | receive (index : Nat) (manager : ManagerId)
  | lose (index : Nat)

namespace TaskManager

/-- The change `transition` applies under the store's lock. -/
def transitionUpdate (now : String) (id : TaskId) (payload : TaskPayload)
    (current : DetailedTask) : Except TaskError DetailedTask :=
  if current.status.isTerminal then .error (.invalidState id current.status)
  else .ok (DetailedTask.new { current.task with lastUpdatedAt := now } payload)

def applyInputUpdate (now : String) (id : TaskId) (responses : InputResponses)
    (current : DetailedTask) : Except TaskError DetailedTask :=
  match current.payload with
  | .inputRequired inputRequests =>
    match validateInputKeys id inputRequests responses with
    | .error e => .error e
    | .ok () => .ok (DetailedTask.new { current.task with lastUpdatedAt := now } .working)
  | _ => .error (.invalidState id current.status)

/-- The error a task is failed with when its input could not be handed over. -/
def unhandedError (isLocal : Bool) : Map :=
  [("code", .number (.negInt ⟨-32603, by decide⟩)),
    ("message", .string (if isLocal then "task operation ended before receiving its input"
      else "task input could not be carried to the instance running the operation"))]

end TaskManager

namespace World

def modifyRun (w : World) (r : RunId) (f : TaskRun → TaskRun) : World :=
  { w with taskRuns := Function.update w.taskRuns r ((w.taskRuns r).map f) }

def send (w : World) (r : RunId) (answer : Answer) : World × Bool :=
  match w.taskRuns r with
  | some run =>
    if run.live then
      (w.modifyRun r fun run => { run with inputs := run.inputs ++ [answer] }, true)
    else (w, false)
  | none => (w, false)

def deliver (w : World) (m : ManagerId) (signal : TaskSignal) : World × Bool :=
  match (w.runs m).lookup signal.taskId with
  | none => (w, false)
  | some r =>
    match signal with
    | .cancelled _ => (w.modifyRun r fun run => { run with cancel := true }, true)
    | .input _ answer => w.send r answer

def publish (cfg : Config) (w : World) (m : ManagerId) (signal : TaskSignal) (published : Bool) :
    World × Bool :=
  if cfg.signals m && published then ({ w with bus := w.bus ++ [⟨signal, []⟩] }, true)
  else (w, false)

def transition (cfg : Config) (w : World) (now : Int) (k : OpId) (owner : TaskOwner) (id : TaskId)
    (payload : TaskPayload) : World × Except TaskError DetailedTask :=
  match InMemoryTaskStore.update cfg.chrono now w.entries owner id
      (TaskManager.transitionUpdate (cfg.chrono.toRfc3339Millis now) id payload) with
  | .error e => (w, .error e)
  | .ok (entries, t) =>
    let asked := match payload with
      | .inputRequired _ => Function.update w.asked id k
      | _ => w.asked
    ({ w with entries := entries, asked := asked }, .ok t)

def pendingRequests (w : World) (id : TaskId) : Map :=
  match w.entries.lookup id with
  | some (_, t) =>
    match t.payload with
    | .inputRequired inputRequests => inputRequests
    | _ => []
  | none => []

/-- `TaskRun::drop`: the manager forgets the run, and its channel closes. -/
def dropRun (w : World) (r : RunId) (run : TaskRun) : World :=
  let runs := Function.update w.runs run.manager ((w.runs run.manager).erase run.task.taskId)
  { w with runs := runs }.modifyRun r fun run => { run with live := false, usedBy := none }

def pollCreate (cfg : Config) (w : World) (k : OpId) (m : ManagerId) (owner : TaskOwner)
    (now : Int) (id : Except String TaskId) : Stage → Option (World × Stage)
  | .called =>
    match id with
    | .error e => some (w, .returned (.error (.store s!"no OS randomness for a task id: {e}")))
    | .ok id =>
      if id ∈ w.minted then none
      else
        let task := Task.new (cfg.chrono.toRfc3339Millis now) id (cfg.options m).ttlMs
          (some (cfg.options m).pollIntervalMs)
        let detailed := DetailedTask.new task .working
        some ({ w with
          entries := InMemoryTaskStore.create w.entries owner detailed
          minted := id :: w.minted }, .stored task)
  | .stored task =>
    some ({ w with
      runs := Function.update w.runs m ((w.runs m).insert task.taskId k)
      taskRuns := Function.update w.taskRuns k
        (some ⟨m, owner, task, false, [], true, none⟩) }, .returned (.run k))
  | _ => none

/-- `TaskManager::signal_cancelled` for each id left, then the caller's own return. -/
def pollSignalCancelled (cfg : Config) (w : World) (m : ManagerId) (published : Bool) :
    Stage → Option (World × Stage)
  | .signalling [] outcome => some (w, .returned outcome)
  | .signalling (id :: left) outcome =>
    match w.deliver m (.cancelled id) with
    | (w', true) => some (w', .signalling left outcome)
    | (w', false) => some (w', .publishing id left outcome)
  | .publishing id left outcome =>
    some ((w.publish cfg m (.cancelled id) published).1, .signalling left outcome)
  | _ => none

def pollCancel (cfg : Config) (w : World) (k : OpId) (m : ManagerId) (owner : TaskOwner)
    (id : TaskId) (now : Int) (published : Bool) : Stage → Option (World × Stage)
  | .called =>
    match w.transition cfg now k owner id .cancelled with
    | (w', .error e) => some (w', .returned (.error e))
    | (w', .ok cancelled) => some (w', .signalling [id] (.task cancelled))
  | stage => w.pollSignalCancelled cfg m published stage

def pollSweepExpired (cfg : Config) (w : World) (m : ManagerId) (now : Int) (published : Bool) :
    Stage → Option (World × Stage)
  | .called =>
    let (entries, removed) := InMemoryTaskStore.sweepExpired cfg.chrono now w.entries
    some ({ w with entries := entries }, .signalling removed (.removed removed))
  | stage => w.pollSignalCancelled cfg m published stage

def pollApplyInput (cfg : Config) (w : World) (k : OpId) (m : ManagerId) (owner : TaskOwner)
    (id : TaskId) (responses : InputResponses) (now : Int) (published : Bool) :
    Stage → Option (World × Stage)
  | .called =>
    match InMemoryTaskStore.get cfg.chrono now w.entries owner id with
    | none => some (w, .returned (.error (.notFound id)))
    | some _ => some (w, .visible)
  | .visible =>
    let inputs := (w.runs m).lookup id
    if inputs.isNone && !cfg.signals m then some (w, .returned (.error (.detached id)))
    else some (w, .found inputs)
  | .found inputs =>
    match InMemoryTaskStore.update cfg.chrono now w.entries owner id
        (TaskManager.applyInputUpdate (cfg.chrono.toRfc3339Millis now) id responses) with
    | .error e => some (w, .returned (.error e))
    | .ok (entries, working) =>
      let answer := ⟨responses, k, w.pendingRequests id, w.asked id⟩
      some ({ w with entries := entries }, .working inputs answer working)
  | .working (some r) answer working =>
    match w.send r answer with
    | (w', true) => some (w', .returned (.task working))
    | (w', false) => some (w', .unhanded true)
  | .working none answer working =>
    match w.publish cfg m (.input id answer) published with
    | (w', true) => some (w', .returned (.task working))
    | (w', false) => some (w', .unhanded false)
  | .unhanded isLocal =>
    match w.transition cfg now k owner id (.failed (TaskManager.unhandedError isLocal)) with
    | (w', .error e) => some (w', .returned (.error e))
    | (w', .ok _) => some (w', .returned (.error (.detached id)))
  | _ => none

/-- `TaskRun::request_input`: ask, then wait for the token first and the channel second. -/
def pollRunRequestInput (cfg : Config) (w : World) (k : OpId) (r : RunId) (inputRequests : Map)
    (now : Int) (run : TaskRun) : Stage → Option (World × Stage)
  | .called =>
    match w.transition cfg now k run.owner run.task.taskId (.inputRequired inputRequests) with
    | (w', .error e) => some (w'.modifyRun r fun run => { run with usedBy := none },
        .returned (.error e))
    | (w', .ok _) => some (w', .awaiting)
  | .awaiting =>
    if run.cancel then
      some (w.modifyRun r fun run => { run with usedBy := none },
        .returned (.error (.invalidState run.task.taskId .cancelled)))
    else
      match run.inputs with
      | answer :: inputs =>
        some (w.modifyRun r fun run => { run with inputs := inputs, usedBy := none },
          .returned (.responses answer))
      | [] =>
        -- The channel has closed once its `LiveRun`, which holds the sender, is gone.
        if (w.runs run.manager).lookup run.task.taskId = none then
          some (w.modifyRun r fun run => { run with usedBy := none },
            .returned (.error (.detached run.task.taskId)))
        else none
  | _ => none

/-- `TaskRun::complete` and `TaskRun::fail`. -/
def pollRunTransition (cfg : Config) (w : World) (k : OpId) (r : RunId) (payload : TaskPayload)
    (now : Int) (run : TaskRun) : Stage → Option (World × Stage)
  | .called =>
    let (w', result) := w.transition cfg now k run.owner run.task.taskId payload
    some (w', .settled (.ofTask result))
  | .settled outcome => some (w.dropRun r run, .returned outcome)
  | _ => none

/-- One atomic section of call `k`. -/
def poll (cfg : Config) (w : World) (k : OpId) (op : Op) (now : Int) (choice : Choice) :
    Option (World × Stage) :=
  match op.call with
  | .create owner => w.pollCreate cfg k op.manager owner now choice.id op.stage
  | .get owner id =>
    match op.stage with
    | .called =>
      match InMemoryTaskStore.get cfg.chrono now w.entries owner id with
      | none => some (w, .returned (.error (.notFound id)))
      | some t => some (w, .returned (.task t))
    | _ => none
  | .transition owner id payload =>
    match op.stage with
    | .called =>
      let (w', result) := w.transition cfg now k owner id payload
      some (w', .returned (.ofTask result))
    | _ => none
  | .applyInput owner id responses =>
    w.pollApplyInput cfg k op.manager owner id responses now choice.published op.stage
  | .cancel owner id => w.pollCancel cfg k op.manager owner id now choice.published op.stage
  | .sweepExpired => w.pollSweepExpired cfg op.manager now choice.published op.stage
  | .runRequestInput r inputRequests =>
    (w.taskRuns r).bind fun run => w.pollRunRequestInput cfg k r inputRequests now run op.stage
  | .runComplete r result =>
    (w.taskRuns r).bind fun run =>
      w.pollRunTransition cfg k r (.completed result) now run op.stage
  | .runFail r error =>
    (w.taskRuns r).bind fun run => w.pollRunTransition cfg k r (.failed error) now run op.stage

def setOp (w : World) (k : OpId) (op : Op) : World :=
  { w with ops := Function.update w.ops k (some op) }

/-- A run is used by one call at a time, through its own manager, and not after it is dropped. -/
def Usable (w : World) (m : ManagerId) (r : RunId) : Bool :=
  match w.taskRuns r with
  | some run => run.live && run.usedBy.isNone && run.manager == m
  | none => false

def start (w : World) (m : ManagerId) (call : Call) : World :=
  let w' := { w with nextOp := w.nextOp + 1 }.setOp w.nextOp ⟨m, call, .called⟩
  match call.run with
  | some r => w'.modifyRun r fun run => { run with usedBy := some w.nextOp }
  | none => w'

/-- A future dropped before it returned; one that consumed its run drops that too. -/
def dropFuture (w : World) (k : OpId) (op : Op) : World :=
  let w' := w.setOp k { op with stage := .dropped }
  match op.call with
  | .runRequestInput r _ => w'.modifyRun r fun run => { run with usedBy := none }
  | .runComplete r _ | .runFail r _ =>
    match w.taskRuns r with
    | some run => w'.dropRun r run
    | none => w'
  | _ => w'

def step (cfg : Config) (w : World) : Action → Option World
  | .call m call =>
    match call.run with
    | some r => if w.Usable m r then some (w.start m call) else none
    | none => some (w.start m call)
  | .poll k now choice =>
    match w.ops k with
    | none => none
    | some op =>
      match w.poll cfg k op now choice with
      | none => none
      | some (w', stage) => some (w'.setOp k { op with stage := stage })
  | .dropFuture k =>
    match w.ops k with
    | none => none
    | some op => if op.stage.isOver then none else some (w.dropFuture k op)
  | .dropRun r =>
    match w.taskRuns r with
    | none => none
    | some run => if run.live && run.usedBy.isNone then some (w.dropRun r run) else none
  | .receive i m =>
    match w.bus[i]? with
    | none => none
    | some carried =>
      if m ∈ carried.delivered then none
      else
        some ({ w with bus := w.bus.set i { carried with delivered := m :: carried.delivered } }
          |>.deliver m carried.signal).1
  | .lose i => if i < w.bus.length then some { w with bus := w.bus.eraseIdx i } else none

end World

end Tronc.Tasks
