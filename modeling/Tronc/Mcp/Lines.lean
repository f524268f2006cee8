import Tronc.Mcp.Stdio

namespace Tronc.Mcp

open Transition

/-- The response a task has sent. -/
def RequestTask.owed (task : RequestTask) : List JsonRpcMessage :=
  match task.stage with
  | .ended (.returned (some response)) => [.response response]
  | .ended (.returned none) | .ended .panicked | .ended .aborted | .handling | .responding _ => []

/-- The response a line has been given. -/
def InputLine.owed : InputLine → List JsonRpcMessage
  | .refused refusal => [.response refusal]
  | .request task => task.owed
  | .blank | .answer _ => []

/-- A task that is joined has ended. -/
def InputLine.JoinedEnded (line : InputLine) : Prop :=
  ∀ task, line = .request task → task.joined = true → ∃ how, task.stage = .ended how

namespace ServeStage

def pendingClosed : ServeStage → Bool
  | .reading | .abandoning _ | .closing _ => false
  | .abandoned _ | .shutting _ | .draining _ | .dropping _ | .stopping _ | .awaiting _
  | .cancelling _ _ | .returned _ => true

def connectionClosed : ServeStage → Bool
  | .shutting _ | .returned _ => true
  | .reading | .abandoning _ | .closing _ | .abandoned _ | .draining _ | .dropping _ | .stopping _
  | .awaiting _ | .cancelling _ _ => false

/-- Every task is joined. -/
def settled : ServeStage → Bool
  | .stopping _ | .awaiting _ | .cancelling _ _ | .returned _ => true
  | .reading | .abandoning _ | .abandoned _ | .shutting _ | .closing _ | .draining _
  | .dropping _ => false

/-- `stop_writing` may have fired. -/
def stopped : ServeStage → Bool
  | .awaiting _ | .cancelling _ _ | .returned _ => true
  | .reading | .abandoning _ | .abandoned _ | .shutting _ | .closing _ | .draining _ | .dropping _
  | .stopping _ => false

/-- How the writer ended, where `serve_lines` knows it. -/
def written : ServeStage → Option (Except TransportError Unit)
  | .abandoning written | .abandoned written | .shutting written | .cancelling _ written =>
    some written
  | .reading | .closing _ | .draining _ | .dropping _ | .stopping _ | .awaiting _
  | .returned _ => none

theorem settled_of_stopped {stage : ServeStage} (h : stage.stopped = true) :
    stage.settled = true := by
  cases stage with
  | awaiting | cancelling | returned => rfl
  | reading | abandoning | abandoned | shutting | closing | draining | dropping | stopping => cases h

end ServeStage

namespace Stdio

variable {serde : Serde} {w w' : Stdio} {e : Event}

/-- What one step of a request's own task does, but for sending its response. -/
structure Turned (task task' : RequestTask) : Prop where
  owed : task'.owed = task.owed
  /-- A task that has ended and is joined does nothing more. -/
  live : task.joined = true → ∀ how, task.stage ≠ .ended how
  joined : task.joined = false → task'.joined = true → ∃ how, task'.stage = .ended how
  ended : ∀ how, task.stage = .ended how → task'.stage = .ended how
  responding : ∀ response, task.stage = .responding response → task'.stage = .responding response

inductive Served (w : Stdio) : Stdio → Prop where
  | ends (read : Except TransportError Unit) : w.stage = .reading → Served w (w.goto (.closing read))
  | abandons (written : Except TransportError Unit) : w.stage = .reading →
      w.writer = .ended written → Served w (w.goto (.abandoning written))
  | rejects (written : Except TransportError Unit) : w.stage = .abandoning written →
      Served w { w with pendingClosed := true, stage := .abandoned written }
  | cancels (written : Except TransportError Unit) : w.stage = .abandoned written →
      Served w { w.abortAll with connectionClosed := true, stage := .shutting written }
  | shuts (written : Except TransportError Unit) : w.stage = .shutting written →
      w.allJoined = true → Served w (w.goto (.returned written))
  | closes (read : Except TransportError Unit) : w.stage = .closing read →
      Served w { w with pendingClosed := true, stage := .draining read }
  | timesOut (read : Except TransportError Unit) : w.stage = .draining read →
      Served w (w.abortAll.goto (.dropping read))
  | drains (read : Except TransportError Unit) : w.stage = .draining read ∨ w.stage = .dropping read →
      w.allJoined = true → Served w (w.goto (.stopping read))
  | stops (read : Except TransportError Unit) : w.stage = .stopping read →
      Served w { w with stop := true, stage := .awaiting read }
  | awaits (read written : Except TransportError Unit) : w.stage = .awaiting read →
      w.writer = .ended written → Served w (w.goto (.cancelling read written))
  | returns (read written : Except TransportError Unit) : w.stage = .cancelling read written →
      Served w { w with connectionClosed := true, stage := .returned (result read written) }

/-- Where the writer waits for a message, before `stop` and after. -/
def receiving (stopped : Bool) : WriterStage := if stopped then .flushing else .selecting

def isReceiving : WriterStage → Bool
  | .selecting | .flushing => true
  | .closing | .writing _ _ _ | .ended _ => false

theorem isReceiving_receiving (stopped : Bool) : isReceiving (receiving stopped) = true := by
  cases stopped with
  | true => rfl
  | false => rfl

theorem ne_of_isReceiving {stage writer : WriterStage} (h : isReceiving writer = true)
    (hs : isReceiving stage = false) : writer ≠ stage := by
  rintro rfl
  rw [h] at hs
  cases hs

inductive Wrote (serde : Serde) (w : Stdio) : Stdio → Prop where
  | stops : w.writer = .selecting → w.stop = true → Wrote serde w { w with writer := .closing }
  | closes : w.writer = .closing →
      Wrote serde w { w with outbox := w.outbox.close, writer := .flushing }
  | takes (item : Outgoing) (rest : Mpsc.Channel Outgoing) (line : List UInt8) (stopped : Bool) :
      w.writer = receiving stopped → w.outbox.recv = .message item rest →
      lineOf serde item = some line →
      Wrote serde w { w with outbox := rest, writer := .writing item line stopped }
  | encodes (item : Outgoing) (rest : Mpsc.Channel Outgoing) (stopped : Bool) :
      w.writer = receiving stopped → w.outbox.recv = .message item rest →
      lineOf serde item = none →
      Wrote serde w ({ w with outbox := rest }.endWriter (.error .encode))
  | finishes (stopped : Bool) : w.writer = receiving stopped → w.outbox.recv = .disconnected →
      Wrote serde w (w.endWriter (.ok ()))
  | flushes (item : Outgoing) (stopped : Bool) : w.writer = .writing item [] stopped →
      Wrote serde w { w with written := w.written ++ [item], writer := receiving stopped }
  | chunks (item : Outgoing) (line : List UInt8) (stopped : Bool) (n : Nat) :
      w.writer = .writing item line stopped →
      Wrote serde w { w with
        output := w.output ++ line.take n
        writer := .writing item (line.drop n) stopped }
  | fails (item : Outgoing) (line : List UInt8) (stopped : Bool) :
      w.writer = .writing item line stopped → Wrote serde w (w.endWriter (.error .stdio))

/-- What one step does to the connection. -/
inductive Moves (serde : Serde) (w : Stdio) : Event → Stdio → Prop where
  | reads (text : String) (line : InputLine) : w.stage = .reading → line.owed = [] →
      line.JoinedEnded → Moves serde w (.line text) { w with lines := w.lines ++ [line] }
  | refuses (text : String) (refusal : JsonRpcResponse) : w.stage = .reading →
      Moves serde w (.line text)
        ({ w with lines := w.lines ++ [InputLine.refused refusal] }.send (.response refusal)
          (some w.lines.length))
  | sends (request : JsonRpcRequest) : Moves serde w (.send request) (w.send (.request request) none)
  | turns (e : Event) (line : Nat) (task task' : RequestTask) : w.task line = some task →
      Turned task task' → Moves serde w e (w.setTask line task')
  | responds (line : Nat) (task : RequestTask) (response : JsonRpcResponse) :
      w.task line = some task → task.stage = .responding response →
      Moves serde w (.respond line) ((w.send (.response response) (some line)).setTask line
        { task with stage := .ended (.returned (some response)) })
  | serves (e : Event) (w' : Stdio) : Served w w' → Moves serde w e w'
  | writes (e : Event) (w' : Stdio) : Wrote serde w w' → Moves serde w e w'

theorem whileReading_eq {then_ : Stdio} (h : w.whileReading then_ = some w') :
    w.stage = .reading ∧ then_ = w' := by
  unfold whileReading at h
  split at h
  · rename_i hs
    exact ⟨hs, Option.some.inj h⟩
  · cases h

theorem onceJoined_eq {stage : ServeStage} (h : w.onceJoined stage = some w') :
    w.allJoined = true ∧ w.goto stage = w' := by
  unfold onceJoined at h
  split at h
  · rename_i hj
    exact ⟨hj, Option.some.inj h⟩
  · cases h

theorem readLine_moves (hs : w.stage = .reading) (text : String) :
    Moves serde w (.line text) (w.readLine serde text) := by
  unfold readLine
  dsimp only
  split
  · refine .reads text .blank hs rfl ?_
    intro task h
    cases h
  · split
    · rename_i response _
      refine .reads text (.answer response) hs rfl ?_
      intro task h
      cases h
    · rename_i request _
      refine .reads text (.request (.spawned request)) hs rfl ?_
      intro task h hj
      obtain rfl := InputLine.request.inj h
      cases hj
    · rename_i refusal _
      exact .refuses text refusal hs

theorem serve_served (h : w.serve = some w') : Served w w' := by
  unfold serve at h
  split at h
  · rename_i hs
    split at h
    · rename_i written hw
      obtain rfl := Option.some.inj h
      exact .abandons written hs hw
    · cases h
  · rename_i written hs
    obtain rfl := Option.some.inj h
    exact .rejects written hs
  · rename_i written hs
    obtain rfl := Option.some.inj h
    exact .cancels written hs
  · rename_i written hs
    obtain ⟨hj, rfl⟩ := onceJoined_eq h
    exact .shuts written hs hj
  · rename_i read hs
    obtain rfl := Option.some.inj h
    exact .closes read hs
  · rename_i read hs
    obtain ⟨hj, rfl⟩ := onceJoined_eq h
    exact .drains read (.inl hs) hj
  · rename_i read hs
    obtain ⟨hj, rfl⟩ := onceJoined_eq h
    exact .drains read (.inr hs) hj
  · rename_i read hs
    obtain rfl := Option.some.inj h
    exact .stops read hs
  · rename_i read hs
    split at h
    · rename_i written hw
      obtain rfl := Option.some.inj h
      exact .awaits read written hs hw
    · cases h
  · rename_i read written hs
    obtain rfl := Option.some.inj h
    exact .returns read written hs
  · cases h

theorem beginWrite_wrote {item : Outgoing} {rest : Mpsc.Channel Outgoing} (stopped : Bool)
    (hw : w.writer = receiving stopped) (hr : w.outbox.recv = .message item rest) :
    Wrote serde w ({ w with outbox := rest }.beginWrite serde item stopped) := by
  unfold beginWrite
  split
  · rename_i line hl
    exact .takes item rest line stopped hw hr hl
  · rename_i hl
    exact .encodes item rest stopped hw hr hl

theorem write_wrote (h : w.write serde = some w') : Wrote serde w w' := by
  unfold write at h
  split at h
  · rename_i hw
    split at h
    · rename_i hstop
      obtain rfl := Option.some.inj h
      exact .stops hw hstop
    · split at h
      · rename_i item rest hr
        obtain rfl := Option.some.inj h
        exact beginWrite_wrote false hw hr
      · rename_i hr
        obtain rfl := Option.some.inj h
        exact .finishes false hw hr
      · cases h
  · rename_i hw
    obtain rfl := Option.some.inj h
    exact .closes hw
  · rename_i hw
    split at h
    · rename_i item rest hr
      obtain rfl := Option.some.inj h
      exact beginWrite_wrote true hw hr
    · rename_i hr
      obtain rfl := Option.some.inj h
      exact .finishes true hw hr
    · cases h
  · rename_i item stopped hw
    obtain rfl := Option.some.inj h
    exact .flushes item stopped hw
  all_goals cases h

theorem stepTask_eq {line : Nat} {f : RequestTask → Option RequestTask}
    (h : w.stepTask line f = some w') : ∃ task task', w.task line = some task ∧
      f task = some task' ∧ w.setTask line task' = w' := by
  obtain ⟨task, htask, h⟩ := Option.bind_eq_some_iff.mp h
  obtain ⟨task', hf, h⟩ := Option.map_eq_some_iff.mp h
  exact ⟨task, task', htask, hf, h⟩

/-- A task that is still handled goes on. -/
theorem Turned.of_handling {task : RequestTask} (hs : task.stage = .handling) {stage : TaskStage}
    (howed : ({ task with stage := stage } : RequestTask).owed = []) :
    Turned task { task with stage := stage } where
  owed := by
    rw [howed, RequestTask.owed, hs]
  live _ how hended := by
    rw [hs] at hended
    cases hended
  joined hn hj := by
    have hj : task.joined = true := hj
    rw [hn] at hj
    cases hj
  ended how hended := by
    rw [hs] at hended
    cases hended
  responding response hr := by
    rw [hs] at hr
    cases hr

theorem handled_turned {response : Option JsonRpcResponse} {task task' : RequestTask}
    (h : handled response task = some task') : Turned task task' := by
  unfold handled at h
  split at h
  · rename_i hs
    split at h
    · obtain rfl := Option.some.inj h
      exact .of_handling hs rfl
    · obtain rfl := Option.some.inj h
      exact .of_handling hs rfl
  all_goals cases h

theorem panicked_turned {task task' : RequestTask} (h : panicked task = some task') :
    Turned task task' := by
  unfold panicked at h
  split at h
  · rename_i hs
    obtain rfl := Option.some.inj h
    exact .of_handling hs rfl
  all_goals cases h

theorem dropped_turned {task task' : RequestTask} (h : dropped task = some task') :
    Turned task task' := by
  unfold dropped at h
  split at h
  · rename_i hs
    split at h
    · obtain rfl := Option.some.inj h
      exact .of_handling hs rfl
    · cases h
  all_goals cases h

theorem joined_turned {task task' : RequestTask} (h : joined task = some task') :
    Turned task task' := by
  unfold joined at h
  split at h
  · rename_i hj
    obtain rfl := Option.some.inj h
    unfold RequestTask.joinable at hj
    split at hj
    · rename_i how hs
      refine ⟨rfl, fun ht => ?_, fun _ _ => ⟨how, hs⟩, fun _ hs => hs, fun _ hs => hs⟩
      rw [ht] at hj
      cases hj
    all_goals cases hj
  · cases h

theorem step_moves (h : w.step serde e = some w') : Moves serde w e w' := by
  have turns {line : Nat} {f : RequestTask → Option RequestTask}
      (hf : ∀ task task', f task = some task' → Turned task task')
      (h : w.stepTask line f = some w') : Moves serde w e w' := by
    obtain ⟨task, task', htask, hft, rfl⟩ := stepTask_eq h
    exact .turns e line task task' htask (hf task task' hft)
  cases e with
  | line text =>
    obtain ⟨hs, rfl⟩ := whileReading_eq h
    exact readLine_moves hs text
  | endOfInput =>
    obtain ⟨hs, rfl⟩ := whileReading_eq h
    exact .serves _ _ (.ends _ hs)
  | readError =>
    obtain ⟨hs, rfl⟩ := whileReading_eq h
    exact .serves _ _ (.ends _ hs)
  | send request =>
    obtain rfl := Option.some.inj h
    exact .sends request
  | returns line response => exact turns (fun _ _ => handled_turned) h
  | respond line =>
    simp only [step, respond] at h
    split at h
    · rename_i task htask
      split at h
      · rename_i response hs
        obtain rfl := Option.some.inj h
        exact .responds line task response htask hs
      all_goals cases h
    · cases h
  | panic line => exact turns (fun _ _ => panicked_turned) h
  | dropTask line => exact turns (fun _ _ => dropped_turned) h
  | join line =>
    simp only [step] at h
    split at h
    · exact turns (fun _ _ => joined_turned) h
    · cases h
  | timeout =>
    simp only [step, timeout] at h
    split at h
    · rename_i read hs
      obtain rfl := Option.some.inj h
      exact .serves _ _ (.timesOut read hs)
    · cases h
  | serve => exact .serves _ _ (serve_served h)
  | write => exact .writes _ _ (write_wrote h)
  | chunk n =>
    simp only [step, chunk] at h
    split at h
    · rename_i item line stopped hw
      obtain rfl := Option.some.inj h
      exact .writes _ _ (.chunks item line stopped n hw)
    · cases h
  | writeError =>
    simp only [step, writeError] at h
    split at h
    · rename_i item line stopped hw
      obtain rfl := Option.some.inj h
      exact .writes _ _ (.fails item line stopped hw)
    · cases h

theorem task_eq_some {n : Nat} {task : RequestTask} :
    w.task n = some task ↔ w.lines[n]? = some (.request task) := by
  unfold Stdio.task
  split
  · rename_i task' h
    rw [h, Option.some.injEq, Option.some.injEq, InputLine.request.injEq]
  · rename_i h
    exact iff_of_false nofun (h task)

theorem task_mem {n : Nat} {task : RequestTask} (h : w.task n = some task) :
    .request task ∈ w.lines :=
  List.mem_of_getElem? (task_eq_some.mp h)

theorem owed_abort (line : InputLine) : line.abort.owed = line.owed := by
  cases line with
  | blank | answer | refused | request => rfl

theorem joinedEnded_abort {line : InputLine} (h : line.JoinedEnded) : line.abort.JoinedEnded := by
  cases line with
  | blank | answer | refused => exact h
  | request task =>
    intro task' heq hj
    obtain rfl := InputLine.request.inj heq
    exact h task rfl hj

/-- How far the connection is shut down, by where `serve_lines` is. -/
structure Shut (w : Stdio) : Prop where
  joined : ∀ line ∈ w.lines, line.JoinedEnded
  pending : w.stage.pendingClosed = true → w.pendingClosed = true
  connection : w.stage.connectionClosed = true → w.connectionClosed = true
  settled : w.stage.settled = true → w.allJoined = true
  stop : w.stop = true → w.stage.stopped = true
  written : ∀ written, w.stage.written = some written → w.writer = .ended written
  returned : ∀ result, w.stage = .returned result → ∃ written, w.writer = .ended written

/-- A task that is not joined keeps `serve_lines` from settling. -/
theorem Shut.unsettled (s : Shut w) {n : Nat} {task : RequestTask} (htask : w.task n = some task)
    (hj : task.joined = false) : w.stage.settled = false := by
  cases hs : w.stage.settled with
  | false => rfl
  | true =>
    have hall := List.all_eq_true.mp (s.settled hs) _ (task_mem htask)
    have hjoined : task.joined = true := hall
    rw [hj] at hjoined
    cases hjoined

theorem Shut.unstopped (s : Shut w) (h : w.stage.settled = false) : w.stop = false := by
  cases hstop : w.stop with
  | false => rfl
  | true =>
    rw [ServeStage.settled_of_stopped (s.stop hstop)] at h
    cases h

theorem Shut.unjoined (s : Shut w) {n : Nat} {task : RequestTask} (htask : w.task n = some task)
    (h : ∀ how, task.stage ≠ .ended how) : task.joined = false := by
  cases hj : task.joined with
  | false => rfl
  | true =>
    obtain ⟨how, hended⟩ := s.joined _ (task_mem htask) task rfl hj
    exact absurd hended (h how)

theorem Shut.turn (s : Shut w) {n : Nat} {task task' : RequestTask} (htask : w.task n = some task)
    (t : Turned task task') : Shut (w.setTask n task') := by
  have hnot : task.joined = false := by
    cases hj : task.joined with
    | false => rfl
    | true =>
      obtain ⟨how, hended⟩ := s.joined _ (task_mem htask) task rfl hj
      exact absurd hended (t.live hj how)
  refine ⟨fun line hline => ?_, s.pending, s.connection, fun hs => ?_, s.stop, s.written, s.returned⟩
  · rcases List.mem_or_eq_of_mem_set hline with hline | rfl
    · exact s.joined line hline
    · intro task'' heq hj
      obtain rfl := InputLine.request.inj heq
      exact t.joined hnot hj
  · have hunsettled := s.unsettled htask hnot
    have hs : w.stage.settled = true := hs
    rw [hs] at hunsettled
    cases hunsettled

theorem Shut.serve (s : Shut w) (h : Served w w') : Shut w' := by
  have running {stage : ServeStage} (hs : w.stage = stage) (hstopped : stage.stopped = false) :
      ¬ w.stop = true := by
    intro hstop
    have hbad := s.stop hstop
    rw [hs, hstopped] at hbad
    cases hbad
  have aborted : ∀ line ∈ w.abortAll.lines, line.JoinedEnded := by
    intro line' hline'
    obtain ⟨line, hline, rfl⟩ := List.mem_map.mp hline'
    exact joinedEnded_abort (s.joined line hline)
  cases h with
  | ends read hs =>
    exact ⟨s.joined, nofun, nofun, nofun, fun h => absurd h (running hs rfl), nofun, nofun⟩
  | abandons written hs hw =>
    refine ⟨s.joined, nofun, nofun, nofun, fun h => absurd h (running hs rfl), ?_, nofun⟩
    rintro written' ⟨⟩
    exact hw
  | rejects written hs =>
    refine ⟨s.joined, fun _ => rfl, nofun, nofun, fun h => absurd h (running hs rfl), ?_, nofun⟩
    rintro written' ⟨⟩
    exact s.written written (by rw [hs]; rfl)
  | cancels written hs =>
    refine ⟨aborted, fun _ => s.pending (by rw [hs]; rfl), fun _ => rfl, nofun,
      fun h => absurd h (running hs rfl), ?_, nofun⟩
    rintro written' ⟨⟩
    exact s.written written (by rw [hs]; rfl)
  | shuts written hs hj =>
    refine ⟨s.joined, fun _ => s.pending (by rw [hs]; rfl), fun _ => s.connection (by rw [hs]; rfl),
      fun _ => hj, fun h => absurd h (running hs rfl), nofun, fun _ _ => ⟨written, ?_⟩⟩
    exact s.written written (by rw [hs]; rfl)
  | closes read hs =>
    exact ⟨s.joined, fun _ => rfl, nofun, nofun, fun h => absurd h (running hs rfl), nofun, nofun⟩
  | timesOut read hs =>
    exact ⟨aborted, fun _ => s.pending (by rw [hs]; rfl), nofun, nofun,
      fun h => absurd h (running hs rfl), nofun, nofun⟩
  | drains read hs hj =>
    have hpending : w.pendingClosed = true := by
      rcases hs with hs | hs
      · exact s.pending (by rw [hs]; rfl)
      · exact s.pending (by rw [hs]; rfl)
    refine ⟨s.joined, fun _ => hpending, nofun, fun _ => hj, fun h => ?_, nofun, nofun⟩
    rcases hs with hs | hs
    · exact absurd h (running hs rfl)
    · exact absurd h (running hs rfl)
  | stops read hs =>
    exact ⟨s.joined, fun _ => s.pending (by rw [hs]; rfl), nofun,
      fun _ => s.settled (by rw [hs]; rfl), fun _ => rfl, nofun, nofun⟩
  | awaits read written hs hw =>
    refine ⟨s.joined, fun _ => s.pending (by rw [hs]; rfl), nofun,
      fun _ => s.settled (by rw [hs]; rfl), fun _ => rfl, ?_, nofun⟩
    rintro written' ⟨⟩
    exact hw
  | returns read written hs =>
    exact ⟨s.joined, fun _ => s.pending (by rw [hs]; rfl), fun _ => rfl,
      fun _ => s.settled (by rw [hs]; rfl), fun _ => rfl, nofun,
      fun _ _ => ⟨written, s.written written (by rw [hs]; rfl)⟩⟩

/-- What the writer does leaves the shutdown as it is, but that it may end. -/
theorem Shut.write (s : Shut w) (h : Wrote serde w w') : Shut w' := by
  have kept {w' : Stdio} (hl : w'.lines = w.lines) (hp : w'.pendingClosed = w.pendingClosed)
      (hc : w'.connectionClosed = w.connectionClosed) (hstop : w'.stop = w.stop)
      (hs : w'.stage = w.stage) (hn : ∀ written, w.writer ≠ .ended written) : Shut w' := by
    refine ⟨by rw [hl]; exact s.joined, by rw [hs, hp]; exact s.pending,
      by rw [hs, hc]; exact s.connection, ?_, by rw [hs, hstop]; exact s.stop, ?_, ?_⟩
    · rw [hs, allJoined, hl]
      exact s.settled
    · intro written hw
      rw [hs] at hw
      exact absurd (s.written written hw) (hn written)
    · intro result hr
      rw [hs] at hr
      obtain ⟨written, hw⟩ := s.returned result hr
      exact absurd hw (hn written)
  have receives {stopped : Bool} (hw : w.writer = receiving stopped) (written) :
      w.writer ≠ .ended written := ne_of_isReceiving (hw ▸ isReceiving_receiving stopped) rfl
  cases h with
  | stops hw => exact kept rfl rfl rfl rfl rfl (by rw [hw]; exact nofun)
  | closes hw => exact kept rfl rfl rfl rfl rfl (by rw [hw]; exact nofun)
  | takes _ _ _ _ hw => exact kept rfl rfl rfl rfl rfl (receives hw)
  | encodes _ _ _ hw => exact kept rfl rfl rfl rfl rfl (receives hw)
  | finishes _ hw => exact kept rfl rfl rfl rfl rfl (receives hw)
  | flushes _ _ hw => exact kept rfl rfl rfl rfl rfl (by rw [hw]; exact nofun)
  | chunks _ _ _ _ hw => exact kept rfl rfl rfl rfl rfl (by rw [hw]; exact nofun)
  | fails _ _ _ hw => exact kept rfl rfl rfl rfl rfl (by rw [hw]; exact nofun)

theorem Shut.step (s : Shut w) (h : w.step serde e = some w') : Shut w' := by
  have push {line : InputLine} (hs : w.stage = .reading) (hline : line.JoinedEnded) :
      Shut { w with lines := w.lines ++ [line] } := by
    refine ⟨fun l hl => ?_, s.pending, s.connection, fun h => ?_, s.stop, s.written, s.returned⟩
    · rcases List.mem_append.mp hl with hl | hl
      · exact s.joined l hl
      · rw [List.mem_singleton.mp hl]
        exact hline
    · have h : w.stage.settled = true := h
      rw [hs] at h
      cases h
  cases step_moves h with
  | reads text line hs _ hline => exact push hs hline
  | refuses text refusal hs =>
    have hline : (InputLine.refused refusal).JoinedEnded := by
      intro task h
      cases h
    have hpush := push hs hline
    exact ⟨hpush.joined, hpush.pending, hpush.connection, hpush.settled, hpush.stop, hpush.written,
      hpush.returned⟩
  | sends request =>
    exact ⟨s.joined, s.pending, s.connection, s.settled, s.stop, s.written, s.returned⟩
  | turns e n task task' htask t => exact s.turn htask t
  | responds n task response htask hs =>
    have hnot : task.joined = false := s.unjoined htask (by rw [hs]; exact nofun)
    refine ⟨fun line hline => ?_, s.pending, s.connection, fun h => ?_, s.stop, s.written,
      s.returned⟩
    · rcases List.mem_or_eq_of_mem_set hline with hline | rfl
      · exact s.joined line hline
      · intro task' heq _
        obtain rfl := InputLine.request.inj heq
        exact ⟨_, rfl⟩
    · have h : w.stage.settled = true := h
      rw [s.unsettled htask hnot] at h
      cases h
  | serves _ _ h => exact s.serve h
  | writes _ _ h => exact s.write h

/-- The lines of messages, one after the other. -/
def textOf (serde : Serde) (items : List Outgoing) : List UInt8 :=
  items.flatMap fun item => (lineOf serde item).getD []

theorem textOf_append (items items' : List Outgoing) :
    textOf serde (items ++ items') = textOf serde items ++ textOf serde items' :=
  List.flatMap_append

theorem textOf_singleton {item : Outgoing} {line : List UInt8} (h : lineOf serde item = some line) :
    textOf serde [item] = line := by
  simp [textOf, h]

/-- What is written is what was taken off the outbox, but for the message in hand. -/
structure Ordered (serde : Serde) (w : Stdio) : Prop where
  closed : w.outbox.closed = true → w.stop = true ∨ ∃ e, w.writer = .ended (.error e)
  receives : isReceiving w.writer = true → w.outbox.taken = w.written ∧
    w.output = textOf serde w.written
  closing : w.writer = .closing → w.outbox.taken = w.written ∧ w.output = textOf serde w.written ∧
    w.stop = true
  writing : ∀ item rest stopped, w.writer = .writing item rest stopped →
    w.outbox.taken = w.written ++ [item] ∧
      ∃ done, lineOf serde item = some (done ++ rest) ∧ w.output = textOf serde w.written ++ done
  finished : w.writer = .ended (.ok ()) → w.outbox.taken = w.written ∧
    w.output = textOf serde w.written ∧ w.outbox.queue = [] ∧ w.outbox.closed = true
  failed : ∀ e, w.writer = .ended (.error e) → ∃ item, w.outbox.taken = w.written ++ [item] ∧
    ∃ done, done <+: textOf serde [item] ∧ w.output = textOf serde w.written ++ done

/-- What the writer's stage says of what it has written. -/
private def Wrought (serde : Serde) (w : Stdio) : WriterStage → Prop
  | .selecting | .flushing => w.outbox.taken = w.written ∧ w.output = textOf serde w.written
  | .closing => w.outbox.taken = w.written ∧ w.output = textOf serde w.written ∧ w.stop = true
  | .writing item rest _ => w.outbox.taken = w.written ++ [item] ∧
      ∃ done, lineOf serde item = some (done ++ rest) ∧ w.output = textOf serde w.written ++ done
  | .ended (.ok ()) => w.outbox.taken = w.written ∧
      w.output = textOf serde w.written ∧ w.outbox.queue = [] ∧ w.outbox.closed = true
  | .ended (.error _) => ∃ item, w.outbox.taken = w.written ++ [item] ∧
      ∃ done, done <+: textOf serde [item] ∧ w.output = textOf serde w.written ++ done

private theorem Ordered.of_stage
    (closed : w.outbox.closed = true → w.stop = true ∨ ∃ e, w.writer = .ended (.error e))
    (h : w.Wrought serde w.writer) : Ordered serde w := by
  refine ⟨closed, fun hw => ?_, fun hw => ?_, fun item rest stopped hw => ?_, fun hw => ?_,
    fun e hw => ?_⟩
  · revert hw h
    cases w.writer with
    | selecting => exact fun h _ => h
    | flushing => exact fun h _ => h
    | closing => exact fun _ hw => (nomatch hw)
    | writing item rest stopped => exact fun _ hw => (nomatch hw)
    | ended result => exact fun _ hw => (nomatch hw)
  all_goals
    rw [hw] at h
    exact h

/-- What only queues messages leaves the writer's side as it is. -/
theorem Ordered.frame (o : Ordered serde w) (hw : w'.writer = w.writer)
    (hwritten : w'.written = w.written) (hout : w'.output = w.output)
    (hstop : w.stop = true → w'.stop = true) (htaken : w'.outbox.taken = w.outbox.taken)
    (hclosed : w'.outbox.closed = w.outbox.closed)
    (hqueue : w.outbox.closed = true → w'.outbox.queue = w.outbox.queue) : Ordered serde w' := by
  constructor
  · intro h
    rw [hclosed] at h
    rw [hw]
    exact (o.closed h).imp_left hstop
  · intro h
    rw [hw] at h
    rw [htaken, hwritten, hout]
    exact o.receives h
  · intro h
    rw [hw] at h
    obtain ⟨ht, ho, hs⟩ := o.closing h
    rw [htaken, hwritten, hout]
    exact ⟨ht, ho, hstop hs⟩
  · intro item rest stopped h
    rw [hw] at h
    rw [htaken, hwritten, hout]
    exact o.writing item rest stopped h
  · intro h
    rw [hw] at h
    obtain ⟨ht, ho, hq, hc⟩ := o.finished h
    rw [htaken, hwritten, hout, hqueue hc, hclosed]
    exact ⟨ht, ho, hq, hc⟩
  · intro e h
    rw [hw] at h
    rw [htaken, hwritten, hout]
    exact o.failed e h

theorem Ordered.send (o : Ordered serde w) (message : JsonRpcMessage) (answers : Option Nat) :
    Ordered serde (w.send message answers) := by
  have hclosed : w.outbox.closed = true →
      (w.outbox.send ⟨message, answers⟩).queue = w.outbox.queue := fun hc => by
    rw [Mpsc.Channel.send_closed hc]
  exact o.frame rfl rfl rfl id (Mpsc.Channel.taken_send _ _) (Mpsc.Channel.closed_send _ _) hclosed

theorem Ordered.serve (o : Ordered serde w) (h : Served w w') : Ordered serde w' := by
  cases h with
  | stops => exact o.frame rfl rfl rfl (fun _ => rfl) rfl rfl fun _ => rfl
  | ends | abandons | rejects | cancels | shuts | closes | timesOut | drains | awaits | returns =>
    exact o.frame rfl rfl rfl id rfl rfl fun _ => rfl

/-- A writer that has not ended finds its outbox open until `stop` has fired. -/
theorem Ordered.stopped (o : Ordered serde w) (hn : ∀ e, w.writer ≠ .ended (.error e))
    (h : w.outbox.closed = true) : w.stop = true := by
  rcases o.closed h with hs | ⟨e, he⟩
  · exact hs
  · exact absurd he (hn e)

theorem Ordered.write (o : Ordered serde w) (h : Wrote serde w w') : Ordered serde w' := by
  cases h with
  | stops hw hs =>
    obtain ⟨ht, ho⟩ := o.receives (by rw [hw]; rfl)
    exact .of_stage (fun _ => .inl hs) ⟨ht, ho, hs⟩
  | closes hw =>
    obtain ⟨ht, ho, hs⟩ := o.closing hw
    exact .of_stage (fun _ => .inl hs) ⟨ht, ho⟩
  | takes item rest line stopped hw hr hl =>
    obtain ⟨hq, ht, hc⟩ := Mpsc.Channel.recv_message hr
    have hrecv : isReceiving w.writer = true := hw ▸ isReceiving_receiving stopped
    obtain ⟨ht', ho⟩ := o.receives hrecv
    refine .of_stage (fun h => ?_) ⟨?_, [], hl, ?_⟩
    · have h : rest.closed = true := h
      rw [hc] at h
      exact .inl (o.stopped (fun e => ne_of_isReceiving hrecv rfl) h)
    · show rest.taken = w.written ++ [item]
      rw [ht, ht']
    · rw [List.append_nil]
      exact ho
  | encodes item rest stopped hw hr hl =>
    obtain ⟨hq, ht, hc⟩ := Mpsc.Channel.recv_message hr
    obtain ⟨ht', ho⟩ := o.receives (hw ▸ isReceiving_receiving stopped)
    refine .of_stage (fun _ => .inr ⟨_, rfl⟩) ⟨item, ?_, [], List.nil_prefix, ?_⟩
    · show rest.taken = w.written ++ [item]
      rw [ht, ht']
    · rw [List.append_nil]
      exact ho
  | finishes stopped hw hr =>
    obtain ⟨hq, hc⟩ := Mpsc.Channel.recv_disconnected hr
    have hrecv : isReceiving w.writer = true := hw ▸ isReceiving_receiving stopped
    obtain ⟨ht, ho⟩ := o.receives hrecv
    exact .of_stage (fun _ => .inl (o.stopped (fun e => ne_of_isReceiving hrecv rfl) hc))
      ⟨ht, ho, hq, rfl⟩
  | flushes item stopped hw =>
    obtain ⟨ht, done, hl, ho⟩ := o.writing item [] stopped hw
    rw [List.append_nil] at hl
    have hout : w.output = textOf serde (w.written ++ [item]) := by
      rw [textOf_append, textOf_singleton hl]
      exact ho
    refine .of_stage (fun h => .inl (o.stopped (by rw [hw]; exact nofun) h)) ?_
    cases stopped with
    | true => exact ⟨ht, hout⟩
    | false => exact ⟨ht, hout⟩
  | chunks item line stopped n hw =>
    obtain ⟨ht, done, hl, ho⟩ := o.writing item line stopped hw
    refine .of_stage (fun h => .inl (o.stopped (by rw [hw]; exact nofun) h))
      ⟨ht, done ++ line.take n, ?_, ?_⟩
    · rw [List.append_assoc, List.take_append_drop]
      exact hl
    · show w.output ++ line.take n = _
      rw [ho, List.append_assoc]
  | fails item line stopped hw =>
    obtain ⟨ht, done, hl, ho⟩ := o.writing item line stopped hw
    refine .of_stage (fun _ => .inr ⟨_, rfl⟩) ⟨item, ht, done, ?_, ho⟩
    rw [textOf_singleton hl]
    exact List.prefix_append _ _

theorem Ordered.step (o : Ordered serde w) (h : w.step serde e = some w') : Ordered serde w' := by
  cases step_moves h with
  | reads text line => exact o.frame rfl rfl rfl id rfl rfl fun _ => rfl
  | refuses text refusal =>
    have hpush : Ordered serde { w with lines := w.lines ++ [InputLine.refused refusal] } :=
      o.frame rfl rfl rfl id rfl rfl fun _ => rfl
    exact hpush.send _ _
  | sends request => exact o.send _ _
  | turns e n task task' => exact o.frame rfl rfl rfl id rfl rfl fun _ => rfl
  | responds n task response =>
    exact (o.send _ _).frame rfl rfl rfl id rfl rfl fun _ => rfl
  | serves _ _ h => exact o.serve h
  | writes _ _ h => exact o.write h

end Stdio

end Tronc.Mcp
