import Tronc.Tasks.Manager

namespace Tronc.Tasks

open InMemoryTaskStore (Visible)

namespace World

variable {cfg : Config} {w : World}

@[simp] theorem setOp_entries (k : OpId) (op : Op) : (w.setOp k op).entries = w.entries := rfl
@[simp] theorem setOp_runs (k : OpId) (op : Op) : (w.setOp k op).runs = w.runs := rfl
@[simp] theorem setOp_taskRuns (k : OpId) (op : Op) : (w.setOp k op).taskRuns = w.taskRuns := rfl
@[simp] theorem setOp_nextOp (k : OpId) (op : Op) : (w.setOp k op).nextOp = w.nextOp := rfl
@[simp] theorem setOp_bus (k : OpId) (op : Op) : (w.setOp k op).bus = w.bus := rfl
@[simp] theorem setOp_minted (k : OpId) (op : Op) : (w.setOp k op).minted = w.minted := rfl
@[simp] theorem setOp_asked (k : OpId) (op : Op) : (w.setOp k op).asked = w.asked := rfl

theorem setOp_ops (k j : OpId) (op : Op) :
    (w.setOp k op).ops j = if j = k then some op else w.ops j := by
  simp [setOp, Function.update_apply]

section ModifyRun

variable (r : RunId) (f : TaskRun → TaskRun)

@[simp] theorem modifyRun_entries : (w.modifyRun r f).entries = w.entries := rfl
@[simp] theorem modifyRun_runs : (w.modifyRun r f).runs = w.runs := rfl
@[simp] theorem modifyRun_ops : (w.modifyRun r f).ops = w.ops := rfl
@[simp] theorem modifyRun_nextOp : (w.modifyRun r f).nextOp = w.nextOp := rfl
@[simp] theorem modifyRun_bus : (w.modifyRun r f).bus = w.bus := rfl
@[simp] theorem modifyRun_minted : (w.modifyRun r f).minted = w.minted := rfl
@[simp] theorem modifyRun_asked : (w.modifyRun r f).asked = w.asked := rfl

@[simp] theorem dropRun_entries (run : TaskRun) : (w.dropRun r run).entries = w.entries := rfl
@[simp] theorem dropRun_ops (run : TaskRun) : (w.dropRun r run).ops = w.ops := rfl
@[simp] theorem dropRun_nextOp (run : TaskRun) : (w.dropRun r run).nextOp = w.nextOp := rfl
@[simp] theorem dropRun_bus (run : TaskRun) : (w.dropRun r run).bus = w.bus := rfl
@[simp] theorem dropRun_minted (run : TaskRun) : (w.dropRun r run).minted = w.minted := rfl
@[simp] theorem dropRun_asked (run : TaskRun) : (w.dropRun r run).asked = w.asked := rfl

theorem modifyRun_taskRuns (r' : RunId) :
    (w.modifyRun r f).taskRuns r' = if r' = r then (w.taskRuns r).map f else w.taskRuns r' := by
  simp [modifyRun, Function.update_apply]

end ModifyRun

@[simp] theorem start_entries (m : ManagerId) (c : Call) :
    (w.start m c).entries = w.entries := by
  unfold start
  split <;> rfl

@[simp] theorem start_runs (m : ManagerId) (c : Call) : (w.start m c).runs = w.runs := by
  unfold start
  split <;> rfl

@[simp] theorem start_ops (m : ManagerId) (c : Call) :
    (w.start m c).ops = Function.update w.ops w.nextOp (some ⟨m, c, .called⟩) := by
  unfold start
  split <;> rfl

@[simp] theorem start_bus (m : ManagerId) (c : Call) : (w.start m c).bus = w.bus := by
  unfold start
  split <;> rfl

@[simp] theorem start_minted (m : ManagerId) (c : Call) : (w.start m c).minted = w.minted := by
  unfold start
  split <;> rfl

@[simp] theorem start_asked (m : ManagerId) (c : Call) : (w.start m c).asked = w.asked := by
  unfold start
  split <;> rfl

theorem start_taskRuns (m : ManagerId) (c : Call) (r : RunId) :
    (w.start m c).taskRuns r = if c.run = some r then
      (w.taskRuns r).map fun run => { run with usedBy := some w.nextOp } else w.taskRuns r := by
  unfold start
  split
  · rename_i r' hc
    simp only [modifyRun_taskRuns, hc, Option.some.injEq, setOp_taskRuns, eq_comm]
    by_cases he : r = r'
    · rw [he]
    · rw [if_neg he, if_neg he]
  · rename_i hc
    simp [hc]

/-- The transitions of call `k` between its atomic sections leave the rest of the world alone. -/
abbrev advance (w : World) (k : OpId) (op : Op) (stage : Stage) : World :=
  w.setOp k { op with stage := stage }

end World

/-- The task with a new payload, as an update at `now` writes it. -/
def DetailedTask.touched (t : DetailedTask) (now : String) (payload : TaskPayload) :
    DetailedTask :=
  .new { t.task with lastUpdatedAt := now } payload

theorem DetailedTask.touched_agrees (t : DetailedTask) (now : String) (payload : TaskPayload) :
    (t.touched now payload).Agrees ∧ (t.touched now payload).seed = t.seed := ⟨rfl, rfl⟩

namespace Stage

/-- What the call returns once it has signalled every id left. -/
def outcome : Stage → Option Outcome
  | .signalling _ o | .publishing _ _ o | .returned o => some o
  | _ => none

/-- The ids `signal_cancelled` has not looked up yet. -/
def left : Stage → List TaskId
  | .signalling ids _ | .publishing _ ids _ => ids
  | _ => []

end Stage

/-- The owner and the task a call is made for; a `create` has none yet, a sweep none at all. -/
def Op.subject (w : World) (op : Op) : Option (TaskOwner × TaskId) :=
  match op.call with
  | .get owner id | .transition owner id _ | .applyInput owner id _ | .cancel owner id =>
    some (owner, id)
  | .runRequestInput r _ | .runComplete r _ | .runFail r _ =>
    (w.taskRuns r).map fun run => (run.owner, run.task.taskId)
  | .create _ | .sweepExpired => none

/-- A call that has taken `id` out of the store, or has it cancelled there. -/
def Op.Undertook (op : Op) (id : TaskId) : Prop :=
  match op.call with
  | .cancel _ id' => id = id' ∧ ∃ t, op.stage.outcome = some (.task t)
  | .sweepExpired => ∃ ids, op.stage.outcome = some (.removed ids) ∧ id ∈ ids
  | _ => False

/-- A stage that holds nothing of a run: no signal, no answer, no registration to come. -/
def Stage.Passive (call : Call) : Stage → Prop
  | .returned (.error _) | .visible | .unhanded _ | .settled _ | .dropped => True
  | .returned (.task _) => ∀ owner id, call ≠ .cancel owner id
  | _ => False

/-- Whose requests stand on `id` once call `k` has written `payload` there. -/
def asks (op : Op) (asked : TaskId → OpId) (k : OpId) (id : TaskId) (payload : TaskPayload)
    (asked' : TaskId → OpId) : Prop :=
  (∃ requests, payload = .inputRequired requests ∧ asked' = Function.update asked id k ∧
    op.stage = .called ∧ ∃ owner, op.call = .transition owner id payload) ∨
  (∀ requests, payload ≠ .inputRequired requests) ∧ asked' = asked

open World in
/-- One step of the system, by what it does to the world. -/
inductive Step (cfg : Config) (w : World) : Action → World → Prop where
  | called {m c} (husable : ∀ r, c.run = some r → w.Usable m r = true) :
      Step cfg w (.call m c) (w.start m c)
  | moved {k now ch op stage} (hop : w.ops k = some op) (hs : op.stage.isOver = false)
      (hq : stage.Passive op.call) : Step cfg w (.poll k now ch) (w.advance k op stage)
  | looked {k now ch op owner id responses} (hop : w.ops k = some op)
      (hc : op.call = .applyInput owner id responses) (hs : op.stage = .visible) :
      Step cfg w (.poll k now ch) (w.advance k op (.found ((w.runs op.manager).lookup id)))
  | stored {k now ch op owner id task} (hop : w.ops k = some op) (hc : op.call = .create owner)
      (hs : op.stage = .called) (hch : ch.id = .ok id) (hid : id ∉ w.minted)
      (htask : task = Task.new (cfg.chrono.toRfc3339Millis now) id (cfg.options op.manager).ttlMs
        (some (cfg.options op.manager).pollIntervalMs)) :
      Step cfg w (.poll k now ch) (advance { w with
        entries := w.entries.insert id (owner, DetailedTask.new task .working)
        minted := id :: w.minted } k op (.stored task))
  | registered {k now ch op owner task} (hop : w.ops k = some op) (hc : op.call = .create owner)
      (hs : op.stage = .stored task) :
      Step cfg w (.poll k now ch) (advance { w with
        runs := Function.update w.runs op.manager ((w.runs op.manager).insert task.taskId k)
        taskRuns := Function.update w.taskRuns k
          (some ⟨op.manager, owner, task, false, [], true, none⟩) } k op (.returned (.run k)))
  | updated {k now ch op owner id t payload asked' stage} (hop : w.ops k = some op)
      (hs : op.stage.isOver = false) (hsub : op.subject w = some (owner, id))
      (hq : stage.Passive op.call)
      (hv : Visible cfg.chrono now w.entries owner id t)
      (ht : t.status.isTerminal = false) (ha : asks op w.asked k id payload asked') :
      Step cfg w (.poll k now ch) (advance { w with
        entries := w.entries.insert id (owner, t.touched (cfg.chrono.toRfc3339Millis now) payload)
        asked := asked' } k op stage)
  | recorded {k now ch op owner id t} (hop : w.ops k = some op)
      (hc : op.call = .cancel owner id) (hs : op.stage = .called)
      (hv : Visible cfg.chrono now w.entries owner id t) (ht : t.status.isTerminal = false) :
      Step cfg w (.poll k now ch) (advance { w with
        entries := w.entries.insert id (owner, t.touched (cfg.chrono.toRfc3339Millis now) .cancelled) } k op
        (.signalling [id] (.task (t.touched (cfg.chrono.toRfc3339Millis now) .cancelled))))
  | asked {k now ch op r requests run t} (hop : w.ops k = some op)
      (hc : op.call = .runRequestInput r requests) (hs : op.stage = .called)
      (hr : w.taskRuns r = some run)
      (hv : Visible cfg.chrono now w.entries run.owner run.task.taskId t)
      (ht : t.status.isTerminal = false) :
      Step cfg w (.poll k now ch) (advance { w with
        entries := w.entries.insert run.task.taskId (run.owner, t.touched (cfg.chrono.toRfc3339Millis now) (.inputRequired requests))
        asked := Function.update w.asked run.task.taskId k } k op .awaiting)
  | swept {k now ch op ids} (hop : w.ops k = some op) (hc : op.call = .sweepExpired)
      (hs : op.stage = .called)
      (hids : ids = w.entries.keysWhere fun _ e => isExpired cfg.chrono now e.2.task) :
      Step cfg w (.poll k now ch) (advance { w with
        entries := w.entries.retain fun _ e => !isExpired cfg.chrono now e.2.task } k op
        (.signalling ids (.removed ids)))
  | signalled {k now ch op outcome} (hop : w.ops k = some op) (hrun : op.call.run = none)
      (hs : op.stage = .signalling [] outcome) :
      Step cfg w (.poll k now ch) (w.advance k op (.returned outcome))
  | fired {k now ch op id left outcome r} (hop : w.ops k = some op)
      (hs : op.stage = .signalling (id :: left) outcome)
      (hr : (w.runs op.manager).lookup id = some r) :
      Step cfg w (.poll k now ch) ((w.modifyRun r fun run => { run with cancel := true }).advance
        k op (.signalling left outcome))
  | unheard {k now ch op id left outcome} (hop : w.ops k = some op)
      (hs : op.stage = .signalling (id :: left) outcome)
      (hr : (w.runs op.manager).lookup id = none) :
      Step cfg w (.poll k now ch) (w.advance k op (.publishing id left outcome))
  | carried {k now ch op id left outcome} (hop : w.ops k = some op)
      (hs : op.stage = .publishing id left outcome) :
      Step cfg w (.poll k now ch)
        (advance { w with bus := w.bus ++ [⟨.cancelled id, []⟩] } k op (.signalling left outcome))
  | uncarried {k now ch op id left outcome} (hop : w.ops k = some op)
      (hs : op.stage = .publishing id left outcome) :
      Step cfg w (.poll k now ch) (w.advance k op (.signalling left outcome))
  | taken {k now ch op owner id responses inputs requests t} (hop : w.ops k = some op)
      (hc : op.call = .applyInput owner id responses) (hs : op.stage = .found inputs)
      (hv : Visible cfg.chrono now w.entries owner id t)
      (hp : t.payload = .inputRequired requests) (hkeys : SameKeys requests responses) :
      Step cfg w (.poll k now ch) (advance { w with
        entries := w.entries.insert id (owner, t.touched (cfg.chrono.toRfc3339Millis now) .working) } k op
        (.working inputs ⟨responses, k, requests, w.asked id⟩ (t.touched (cfg.chrono.toRfc3339Millis now) .working)))
  | sent {k now ch op owner id responses r answer t run} (hop : w.ops k = some op)
      (hc : op.call = .applyInput owner id responses)
      (hs : op.stage = .working (some r) answer t) (hr : w.taskRuns r = some run)
      (hlive : run.live = true) :
      Step cfg w (.poll k now ch) ((w.modifyRun r fun run =>
        { run with inputs := run.inputs ++ [answer] }).advance k op (.returned (.task t)))
  | published {k now ch op owner id responses answer t} (hop : w.ops k = some op)
      (hc : op.call = .applyInput owner id responses)
      (hs : op.stage = .working none answer t) :
      Step cfg w (.poll k now ch) (advance { w with bus := w.bus ++ [⟨.input id answer, []⟩] } k op
        (.returned (.task t)))
  | answered {k now ch op r requests run answer inputs} (hop : w.ops k = some op)
      (hc : op.call = .runRequestInput r requests) (hs : op.stage = .awaiting)
      (hr : w.taskRuns r = some run) (hin : run.inputs = answer :: inputs) :
      Step cfg w (.poll k now ch) ((w.modifyRun r fun run =>
        { run with inputs := inputs, usedBy := none }).advance k op
        (.returned (.responses answer)))
  | unanswered {k now ch op r requests e} (hop : w.ops k = some op)
      (hc : op.call = .runRequestInput r requests) (hs : op.stage.isOver = false) :
      Step cfg w (.poll k now ch) ((w.modifyRun r fun run =>
        { run with usedBy := none }).advance k op (.returned (.error e)))
  | consumed {k now ch op r run outcome} (hop : w.ops k = some op) (hc : op.call.run = some r)
      (hs : op.stage = .settled outcome) (hr : w.taskRuns r = some run)
      (hne : ∀ requests, op.call ≠ .runRequestInput r requests) :
      Step cfg w (.poll k now ch) ((w.dropRun r run).advance k op (.returned outcome))
  | forgotten {k op} (hop : w.ops k = some op) (hs : op.stage.isOver = false)
      (hc : ∀ r, op.call.run = some r → w.taskRuns r = none) :
      Step cfg w (.dropFuture k) (w.advance k op .dropped)
  | unwaited {k op r requests} (hop : w.ops k = some op)
      (hc : op.call = .runRequestInput r requests) (hs : op.stage.isOver = false) :
      Step cfg w (.dropFuture k) ((w.advance k op .dropped).modifyRun r fun run =>
        { run with usedBy := none })
  | unconsumed {k op r run} (hop : w.ops k = some op) (hs : op.stage.isOver = false)
      (hc : op.call.run = some r) (hr : w.taskRuns r = some run) (hne : ∀ requests, op.call ≠ .runRequestInput r requests) :
      Step cfg w (.dropFuture k) ((w.advance k op .dropped).dropRun r run)
  | runDropped {r run} (hr : w.taskRuns r = some run) (hlive : run.live = true)
      (hfree : run.usedBy = none) :
      Step cfg w (.dropRun r) (w.dropRun r run)
  | unreceived {i m c} (hi : w.bus[i]? = some c) (hm : m ∉ c.delivered) :
      Step cfg w (.receive i m) { w with bus := w.bus.set i { c with delivered := m :: c.delivered } }
  | receivedCancelled {i m c id r} (hi : w.bus[i]? = some c) (hm : m ∉ c.delivered)
      (hsig : c.signal = .cancelled id) (hr : (w.runs m).lookup id = some r) :
      Step cfg w (.receive i m) (modifyRun
        { w with bus := w.bus.set i { c with delivered := m :: c.delivered } } r
        fun run => { run with cancel := true })
  | receivedInput {i m c id answer r run} (hi : w.bus[i]? = some c) (hm : m ∉ c.delivered)
      (hsig : c.signal = .input id answer) (hl : (w.runs m).lookup id = some r)
      (hr : w.taskRuns r = some run) (hlive : run.live = true) :
      Step cfg w (.receive i m) (modifyRun
        { w with bus := w.bus.set i { c with delivered := m :: c.delivered } } r
        fun run => { run with inputs := run.inputs ++ [answer] })
  | lost {i} : Step cfg w (.lose i) { w with bus := w.bus.eraseIdx i }

namespace World

variable {cfg : Config} {w w' : World} {k : OpId} {now : Int}

/-- A transition is refused with the world unchanged, or writes the visible, live task. -/
theorem transition_cases {owner : TaskOwner} {id : TaskId} {payload : TaskPayload}
    {r : Except TaskError DetailedTask} (h : w.transition cfg now k owner id payload = (w', r)) :
    (w' = w ∧ ∃ e, r = .error e) ∨
    ∃ t u asked', Visible cfg.chrono now w.entries owner id t ∧ t.status.isTerminal = false ∧
      u = t.touched (cfg.chrono.toRfc3339Millis now) payload ∧ r = .ok u ∧
      w' = { w with entries := w.entries.insert id (owner, u), asked := asked' } ∧
      ((∃ requests, payload = .inputRequired requests ∧
          asked' = Function.update w.asked id k) ∨
        (∀ requests, payload ≠ .inputRequired requests) ∧ asked' = w.asked) := by
  unfold transition at h
  cases hu : InMemoryTaskStore.update cfg.chrono now w.entries owner id
      (TaskManager.transitionUpdate (cfg.chrono.toRfc3339Millis now) id payload) with
  | error e =>
    left
    rw [hu] at h
    obtain ⟨rfl, rfl⟩ := Prod.mk.inj h
    exact ⟨rfl, e, rfl⟩
  | ok r' =>
    right
    obtain ⟨entries, u⟩ := r'
    obtain ⟨t, hv, ha, rfl⟩ := InMemoryTaskStore.update_eq_ok.mp hu
    rw [hu] at h
    obtain ⟨rfl, rfl⟩ := Prod.mk.inj h
    unfold TaskManager.transitionUpdate at ha
    split at ha
    · simp at ha
    · rename_i ht
      refine ⟨t, u, _, hv, by simpa using ht, (Except.ok.inj ha).symm, rfl, rfl, ?_⟩
      cases payload <;> simp

theorem applyInputUpdate_eq_ok {at' : String} {id : TaskId} {responses : InputResponses}
    {t u : DetailedTask} :
    TaskManager.applyInputUpdate at' id responses t = .ok u ↔
      ∃ requests, t.payload = .inputRequired requests ∧ SameKeys requests responses ∧
        u = t.touched at' .working := by
  unfold TaskManager.applyInputUpdate
  cases hp : t.payload with
  | inputRequired requests =>
    cases hk : validateInputKeys id requests responses with
    | error e =>
      have hn : ¬ SameKeys requests responses := by
        intro h
        rw [validateInputKeys_eq_ok.mpr h] at hk
        simp at hk
      simp [hk, hn]
    | ok _ =>
      have hs := validateInputKeys_eq_ok.mp hk
      simp [hk, hs, DetailedTask.touched, eq_comm]
  | working | completed _ | failed _ | cancelled => simp

theorem pendingRequests_eq {owner : TaskOwner} {id : TaskId} {t : DetailedTask} {requests : Map}
    (hl : w.entries.lookup id = some (owner, t)) (hp : t.payload = .inputRequired requests) :
    w.pendingRequests id = requests := by
  simp [pendingRequests, hl, hp]

theorem send_cases {r : RunId} {answer : Answer} {b : Bool} (h : w.send r answer = (w', b)) :
    (b = true ∧ ∃ run, w.taskRuns r = some run ∧ run.live = true ∧
      w' = w.modifyRun r fun run => { run with inputs := run.inputs ++ [answer] }) ∨
    (b = false ∧ w' = w ∧ ∀ run, w.taskRuns r = some run → run.live = false) := by
  unfold send at h
  cases hr : w.taskRuns r with
  | none =>
    rw [hr] at h
    obtain ⟨rfl, rfl⟩ := Prod.mk.inj h
    exact .inr ⟨rfl, rfl, by simp⟩
  | some run =>
    rw [hr] at h
    cases hl : run.live with
    | true =>
      simp only [hl, if_true] at h
      obtain ⟨rfl, rfl⟩ := Prod.mk.inj h
      exact .inl ⟨rfl, run, rfl, hl, rfl⟩
    | false =>
      simp only [hl, Bool.false_eq_true, if_false] at h
      obtain ⟨rfl, rfl⟩ := Prod.mk.inj h
      exact .inr ⟨rfl, rfl, by simp [hl]⟩

theorem publish_cases {m : ManagerId} {signal : TaskSignal} {p b : Bool}
    (h : w.publish cfg m signal p = (w', b)) :
    (b = true ∧ w' = { w with bus := w.bus ++ [⟨signal, []⟩] }) ∨ (b = false ∧ w' = w) := by
  unfold publish at h
  split at h
  · obtain ⟨rfl, rfl⟩ := Prod.mk.inj h
    exact .inl ⟨rfl, rfl⟩
  · obtain ⟨rfl, rfl⟩ := Prod.mk.inj h
    exact .inr ⟨rfl, rfl⟩

section Sound

variable {op : Op} {stage : Stage} {ch : Choice}

private theorem pollCreate_sound {owner : TaskOwner} (hop : w.ops k = some op)
    (hc : op.call = .create owner)
    (h : w.pollCreate cfg k op.manager owner now ch.id op.stage = some (w', stage)) :
    Step cfg w (.poll k now ch) (w'.advance k op stage) := by
  cases hs : op.stage <;> rw [hs] at h <;> simp only [pollCreate] at h <;> try contradiction
  case called =>
    split at h
    · obtain ⟨rfl, rfl⟩ := Prod.mk.inj (Option.some.inj h)
      exact .moved hop (by rw [hs]; rfl) (by simp [Stage.Passive])
    · rename_i hch
      split at h
      · simp at h
      · rename_i hid
        obtain ⟨rfl, rfl⟩ := Prod.mk.inj (Option.some.inj h)
        exact .stored hop hc hs hch hid rfl
  case stored task =>
    obtain ⟨rfl, rfl⟩ := Prod.mk.inj (Option.some.inj h)
    exact .registered hop hc hs

private theorem pollSignalCancelled_sound {m : ManagerId} (hop : w.ops k = some op)
    (hm : op.manager = m) (hrun : op.call.run = none)
    (h : w.pollSignalCancelled cfg m ch.published op.stage = some (w', stage)) :
    Step cfg w (.poll k now ch) (w'.advance k op stage) := by
  subst hm
  cases hs : op.stage <;> rw [hs] at h <;> try contradiction
  case signalling ids outcome =>
    cases ids with
    | nil =>
      obtain ⟨rfl, rfl⟩ := Prod.mk.inj (Option.some.inj h)
      exact .signalled hop hrun hs
    | cons id left =>
      cases hr : (w.runs op.manager).lookup id with
      | none =>
        simp only [pollSignalCancelled, deliver, TaskSignal.taskId, hr] at h
        obtain ⟨rfl, rfl⟩ := Prod.mk.inj (Option.some.inj h)
        exact .unheard hop hs hr
      | some r =>
        simp only [pollSignalCancelled, deliver, TaskSignal.taskId, hr] at h
        obtain ⟨rfl, rfl⟩ := Prod.mk.inj (Option.some.inj h)
        exact .fired hop hs hr
  case publishing id left outcome =>
    simp only [pollSignalCancelled] at h
    obtain ⟨rfl, rfl⟩ := Prod.mk.inj (Option.some.inj h)
    obtain ⟨_, hw⟩ | ⟨_, hw⟩ := publish_cases
      (Prod.mk.eta (p := w.publish cfg op.manager (.cancelled id) ch.published)).symm
    · rw [hw]
      exact .carried hop hs
    · rw [hw]
      exact .uncarried hop hs

private theorem pollCancel_sound {owner : TaskOwner} {id : TaskId} (hop : w.ops k = some op)
    (hc : op.call = .cancel owner id)
    (h : w.pollCancel cfg k op.manager owner id now ch.published op.stage = some (w', stage)) :
    Step cfg w (.poll k now ch) (w'.advance k op stage) := by
  by_cases hs : op.stage = .called
  · rw [hs] at h
    simp only [pollCancel] at h
    split at h
    · rename_i e ht
      obtain ⟨rfl, rfl⟩ := Prod.mk.inj (Option.some.inj h)
      obtain ⟨rfl, _⟩ | ⟨_, _, _, _, _, _, hr, _⟩ := transition_cases ht
      · exact .moved hop (by rw [hs]; rfl) (by simp [Stage.Passive])
      · simp at hr
    · rename_i cancelled ht
      obtain ⟨rfl, rfl⟩ := Prod.mk.inj (Option.some.inj h)
      obtain ⟨_, e, hr⟩ | ⟨t, u, asked', hv, hl, rfl, hr, rfl, ha⟩ := transition_cases ht
      · simp at hr
      · obtain ⟨_, hp, _⟩ | ⟨_, rfl⟩ := ha
        · simp at hp
        · rw [Except.ok.inj hr]
          exact .recorded hop hc hs hv hl
  · apply pollSignalCancelled_sound hop rfl (by rw [hc]; rfl)
    cases hst : op.stage <;> rw [hst] at h hs <;> first | contradiction | exact h

private theorem pollSweepExpired_sound (hop : w.ops k = some op) (hc : op.call = .sweepExpired)
    (h : w.pollSweepExpired cfg op.manager now ch.published op.stage = some (w', stage)) :
    Step cfg w (.poll k now ch) (w'.advance k op stage) := by
  by_cases hs : op.stage = .called
  · rw [hs] at h
    obtain ⟨rfl, rfl⟩ := Prod.mk.inj (Option.some.inj h)
    exact .swept hop hc hs rfl
  · apply pollSignalCancelled_sound hop rfl (by rw [hc]; rfl)
    cases hst : op.stage <;> rw [hst] at h hs <;> first | contradiction | exact h

private theorem pollApplyInput_sound {owner : TaskOwner} {id : TaskId}
    {responses : InputResponses} (hop : w.ops k = some op)
    (hc : op.call = .applyInput owner id responses)
    (h : w.pollApplyInput cfg k op.manager owner id responses now ch.published op.stage =
      some (w', stage)) :
    Step cfg w (.poll k now ch) (w'.advance k op stage) := by
  have passive {e : TaskError} : (Stage.returned (.error e)).Passive op.call := by
    simp [Stage.Passive]
  cases hs : op.stage <;> rw [hs] at h <;> try contradiction
  case called =>
    simp only [pollApplyInput] at h
    split at h <;> obtain ⟨rfl, rfl⟩ := Prod.mk.inj (Option.some.inj h)
    · exact .moved hop (by rw [hs]; rfl) passive
    · exact .moved hop (by rw [hs]; rfl) (by simp [Stage.Passive])
  case visible =>
    simp only [pollApplyInput] at h
    split at h <;> obtain ⟨rfl, rfl⟩ := Prod.mk.inj (Option.some.inj h)
    · exact .moved hop (by rw [hs]; rfl) passive
    · exact .looked hop hc hs
  case found inputs =>
    simp only [pollApplyInput] at h
    split at h
    · obtain ⟨rfl, rfl⟩ := Prod.mk.inj (Option.some.inj h)
      exact .moved hop (by rw [hs]; rfl) passive
    · rename_i entries working hu
      obtain ⟨rfl, rfl⟩ := Prod.mk.inj (Option.some.inj h)
      obtain ⟨t, hv, ha, rfl⟩ := InMemoryTaskStore.update_eq_ok.mp hu
      obtain ⟨requests, hp, hkeys, rfl⟩ := applyInputUpdate_eq_ok.mp ha
      rw [pendingRequests_eq hv.1 hp]
      exact .taken hop hc hs hv hp hkeys
  case working inputs answer working =>
    cases inputs with
    | some r =>
      simp only [pollApplyInput] at h
      split at h
      · rename_i ht
        obtain ⟨rfl, rfl⟩ := Prod.mk.inj (Option.some.inj h)
        obtain ⟨_, run, hr, hl, rfl⟩ | ⟨hb, _⟩ := send_cases ht
        · exact .sent hop hc hs hr hl
        · simp at hb
      · rename_i ht
        obtain ⟨rfl, rfl⟩ := Prod.mk.inj (Option.some.inj h)
        obtain ⟨hb, _⟩ | ⟨_, rfl, _⟩ := send_cases ht
        · simp at hb
        · exact .moved hop (by rw [hs]; rfl) (by simp [Stage.Passive])
    | none =>
      simp only [pollApplyInput] at h
      split at h
      · rename_i ht
        obtain ⟨rfl, rfl⟩ := Prod.mk.inj (Option.some.inj h)
        obtain ⟨_, rfl⟩ | ⟨hb, _⟩ := publish_cases ht
        · exact .published hop hc hs
        · simp at hb
      · rename_i ht
        obtain ⟨rfl, rfl⟩ := Prod.mk.inj (Option.some.inj h)
        obtain ⟨hb, _⟩ | ⟨_, rfl⟩ := publish_cases ht
        · simp at hb
        · exact .moved hop (by rw [hs]; rfl) (by simp [Stage.Passive])
  case unhanded isLocal =>
    simp only [pollApplyInput] at h
    split at h
    · rename_i ht
      obtain ⟨rfl, rfl⟩ := Prod.mk.inj (Option.some.inj h)
      obtain ⟨rfl, _⟩ | ⟨_, _, _, _, _, _, hr, _⟩ := transition_cases ht
      · exact .moved hop (by rw [hs]; rfl) passive
      · simp at hr
    · rename_i ht
      obtain ⟨rfl, rfl⟩ := Prod.mk.inj (Option.some.inj h)
      obtain ⟨_, e, hr⟩ | ⟨t, u, asked', hv, hl, rfl, hr, rfl, ha⟩ := transition_cases ht
      · simp at hr
      · obtain ⟨_, hp, _⟩ | ha := ha
        · simp at hp
        · exact .updated hop (by rw [hs]; rfl) (by simp [Op.subject, hc]) passive hv hl (.inr ha)

private theorem pollRunRequestInput_sound {r : RunId} {requests : Map} {run : TaskRun}
    (hop : w.ops k = some op) (hc : op.call = .runRequestInput r requests)
    (hr : w.taskRuns r = some run)
    (h : w.pollRunRequestInput cfg k r requests now run op.stage = some (w', stage)) :
    Step cfg w (.poll k now ch) (w'.advance k op stage) := by
  cases hs : op.stage <;> rw [hs] at h <;> try contradiction
  case called =>
    simp only [pollRunRequestInput] at h
    split at h
    · rename_i ht
      obtain ⟨rfl, rfl⟩ := Prod.mk.inj (Option.some.inj h)
      obtain ⟨rfl, _⟩ | ⟨_, _, _, _, _, _, hr, _⟩ := transition_cases ht
      · exact .unanswered hop hc (by rw [hs]; rfl)
      · simp at hr
    · rename_i ht
      obtain ⟨rfl, rfl⟩ := Prod.mk.inj (Option.some.inj h)
      obtain ⟨_, e, hr⟩ | ⟨t, u, asked', hv, hl, rfl, _, rfl, ha⟩ := transition_cases ht
      · simp at hr
      · obtain ⟨_, _, rfl⟩ | ⟨hp, _⟩ := ha
        · exact .asked hop hc hs hr hv hl
        · exact absurd rfl (hp requests)
  case awaiting =>
    simp only [pollRunRequestInput] at h
    split at h
    · obtain ⟨rfl, rfl⟩ := Prod.mk.inj (Option.some.inj h)
      exact .unanswered hop hc (by rw [hs]; rfl)
    · split at h
      · rename_i hin
        obtain ⟨rfl, rfl⟩ := Prod.mk.inj (Option.some.inj h)
        exact .answered hop hc hs hr hin
      · split at h
        · obtain ⟨rfl, rfl⟩ := Prod.mk.inj (Option.some.inj h)
          exact .unanswered hop hc (by rw [hs]; rfl)
        · simp at h

private theorem pollRunTransition_sound {r : RunId} {payload : TaskPayload} {run : TaskRun}
    (hop : w.ops k = some op) (hc : op.call.run = some r)
    (hne : ∀ requests, op.call ≠ .runRequestInput r requests)
    (hp : ∀ requests, payload ≠ .inputRequired requests) (hr : w.taskRuns r = some run)
    (hsub : op.subject w = some (run.owner, run.task.taskId))
    (h : w.pollRunTransition cfg k r payload now run op.stage = some (w', stage)) :
    Step cfg w (.poll k now ch) (w'.advance k op stage) := by
  cases hs : op.stage <;> rw [hs] at h <;> try contradiction
  case called =>
    simp only [pollRunTransition] at h
    obtain ⟨rfl, rfl⟩ := Prod.mk.inj (Option.some.inj h)
    obtain ⟨hw, _⟩ | ⟨t, u, asked', hv, hl, rfl, _, hw, ha⟩ := transition_cases
      (Prod.mk.eta (p := w.transition cfg now k run.owner run.task.taskId payload)).symm
    · rw [hw]
      exact .moved hop (by rw [hs]; rfl) (by simp [Stage.Passive])
    · rw [hw]
      obtain ⟨_, he, _⟩ | ha := ha
      · exact absurd he (hp _)
      · exact .updated hop (by rw [hs]; rfl) hsub (by simp [Stage.Passive]) hv hl (.inr ha)
  case settled outcome =>
    obtain ⟨rfl, rfl⟩ := Prod.mk.inj (Option.some.inj h)
    exact .consumed hop hc hs hr hne

theorem poll_sound (hop : w.ops k = some op)
    (h : w.poll cfg k op now ch = some (w', stage)) :
    Step cfg w (.poll k now ch) (w'.advance k op stage) := by
  unfold poll at h
  cases hc : op.call <;> simp only [hc] at h
  case create owner => exact pollCreate_sound hop hc h
  case get owner id =>
    split at h <;> try contradiction
    rename_i hs
    split at h <;> obtain ⟨rfl, rfl⟩ := Prod.mk.inj (Option.some.inj h) <;>
      exact .moved hop (by rw [hs]; rfl) (by simp [Stage.Passive, hc])
  case transition owner id payload =>
    split at h <;> try contradiction
    rename_i hs
    obtain ⟨rfl, rfl⟩ := Prod.mk.inj (Option.some.inj h)
    obtain ⟨hw, e, hr⟩ | ⟨t, u, asked', hv, hl, rfl, hr, hw, ha⟩ := transition_cases
      (Prod.mk.eta (p := w.transition cfg now k owner id payload)).symm
    · rw [hw, hr]
      exact .moved hop (by rw [hs]; rfl) (by simp [Stage.Passive, Outcome.ofTask])
    · rw [hw, hr]
      refine .updated hop (by rw [hs]; rfl) (by simp [Op.subject, hc])
        (by simp [Stage.Passive, Outcome.ofTask, hc]) hv hl ?_
      obtain ⟨requests, hp, rfl⟩ | ha := ha
      · exact .inl ⟨requests, hp, rfl, hs, owner, hc⟩
      · exact .inr ha
  case applyInput owner id responses => exact pollApplyInput_sound hop hc h
  case cancel owner id => exact pollCancel_sound hop hc h
  case sweepExpired => exact pollSweepExpired_sound hop hc h
  case runRequestInput r requests =>
    obtain ⟨run, hr, h⟩ := Option.bind_eq_some_iff.mp h
    exact pollRunRequestInput_sound hop hc hr h
  case runComplete r result =>
    obtain ⟨run, hr, h⟩ := Option.bind_eq_some_iff.mp h
    exact pollRunTransition_sound hop (by simp [hc, Call.run]) (by simp [hc]) (by simp) hr
      (by simp [Op.subject, hc, hr]) h
  case runFail r error =>
    obtain ⟨run, hr, h⟩ := Option.bind_eq_some_iff.mp h
    exact pollRunTransition_sound hop (by simp [hc, Call.run]) (by simp [hc]) (by simp) hr
      (by simp [Op.subject, hc, hr]) h

private theorem dropFuture_sound (hop : w.ops k = some op) (hs : op.stage.isOver = false) :
    Step cfg w (.dropFuture k) (w.dropFuture k op) := by
  have forgets {r : RunId} (hc : op.call.run = some r) (hr : w.taskRuns r = none) :
      Step cfg w (.dropFuture k) (w.advance k op .dropped) :=
    .forgotten hop hs (by simp [hc, hr])
  unfold dropFuture
  split
  · rename_i r requests hc
    exact .unwaited hop hc hs
  · rename_i r _ hc
    have hrun : op.call.run = some r := by rw [hc]; rfl
    split
    · rename_i hr
      exact .unconsumed hop hs hrun hr (by simp [hc])
    · rename_i hr
      exact forgets hrun hr
  · rename_i r _ hc
    have hrun : op.call.run = some r := by rw [hc]; rfl
    split
    · rename_i hr
      exact .unconsumed hop hs hrun hr (by simp [hc])
    · rename_i hr
      exact forgets hrun hr
  · rename_i hreq hcomplete hfail
    refine .forgotten hop hs fun r hr => ?_
    cases hc : op.call <;> rw [hc] at hr <;> simp [Call.run] at hr
    case runRequestInput => exact absurd hc (hreq _ _)
    case runComplete => exact absurd hc (hcomplete _ _)
    case runFail => exact absurd hc (hfail _ _)

private theorem receive_sound {i : Nat} {m : ManagerId} {c : Carried} (hi : w.bus[i]? = some c)
    (hm : m ∉ c.delivered) :
    Step cfg w (.receive i m) ({ w with
      bus := w.bus.set i { c with delivered := m :: c.delivered } }.deliver m c.signal).1 := by
  unfold deliver
  split
  · exact .unreceived hi hm
  · rename_i r hl
    split
    · rename_i id hsig
      rw [hsig] at hl
      exact .receivedCancelled hi hm hsig hl
    · rename_i id answer hsig
      rw [hsig] at hl
      obtain ⟨_, run, hr, hlive, hw⟩ | ⟨_, hw, _⟩ := send_cases
        (Prod.mk.eta (p := { w with
          bus := w.bus.set i { c with delivered := m :: c.delivered } }.send r answer)).symm
      · rw [hw]
        exact .receivedInput hi hm hsig hl hr hlive
      · rw [hw]
        exact .unreceived hi hm

theorem step_sound {a : Action} (h : w.step cfg a = some w') : Step cfg w a w' := by
  cases a with
  | call m c =>
    simp only [step] at h
    split at h
    · rename_i r hr
      split at h
      · rename_i hu
        obtain rfl := Option.some.inj h
        refine .called fun r' hr' => ?_
        rw [hr] at hr'
        exact Option.some.inj hr' ▸ hu
      · simp at h
    · rename_i hr
      obtain rfl := Option.some.inj h
      exact .called (by simp [hr])
  | poll k now ch =>
    simp only [step] at h
    split at h
    · simp at h
    · rename_i op hop
      split at h
      · simp at h
      · rename_i hp
        obtain rfl := Option.some.inj h
        exact poll_sound hop hp
  | dropFuture k =>
    simp only [step] at h
    split at h
    · simp at h
    · rename_i op hop
      split at h
      · simp at h
      · rename_i hs
        obtain rfl := Option.some.inj h
        exact dropFuture_sound hop (by simpa using hs)
  | dropRun r =>
    simp only [step] at h
    split at h
    · simp at h
    · rename_i run hr
      split at h
      · rename_i hu
        obtain rfl := Option.some.inj h
        simp only [Bool.and_eq_true, Option.isNone_iff_eq_none] at hu
        exact .runDropped hr hu.1 hu.2
      · simp at h
  | receive i m =>
    simp only [step] at h
    split at h
    · simp at h
    · rename_i c hi
      split at h
      · simp at h
      · rename_i hm
        obtain rfl := Option.some.inj h
        exact receive_sound hi hm
  | lose i =>
    simp only [step] at h
    split at h
    · obtain rfl := Option.some.inj h
      exact .lost
    · simp at h

end Sound

end World

end Tronc.Tasks
