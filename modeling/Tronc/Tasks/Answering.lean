import Tronc.Tasks.Input

namespace Tronc.Tasks

open InMemoryTaskStore (Visible)

namespace World

/-- A call waits on a run of `id` whose channel is empty. -/
def Waiting (w : World) (id : TaskId) : Prop :=
  ∃ k op r requests run, w.ops k = some op ∧ op.call = .runRequestInput r requests ∧
    op.stage = .awaiting ∧ w.taskRuns r = some run ∧ run.task.taskId = id ∧ run.inputs = []

/-- A run asks only once no earlier answer may still reach it, and nobody else puts requests on a
task whose run waits. -/
def InTurn (cfg : Config) (w : World) : Action → Prop
  | .poll k now _ => ∀ op owner id requests, w.ops k = some op →
    w.Asking cfg k now owner id requests →
      match op.call with
      | .runRequestInput r _ => ∀ run, w.taskRuns r = some run → ∀ x, ¬ w.InFlight run x
      | _ => ¬ w.Waiting id
  | _ => True

/-- What call `k` will be given by the run it waits on. -/
inductive Awaits (w : World) (k : OpId) (run : TaskRun) : Prop where
  | ready (x : Answer) (rest : List Answer) (hi : run.inputs = x :: rest) (hx : x.askedBy = k)
  | asking (hi : run.inputs = []) (hx : ∀ x, w.InFlight run x → x.askedBy = k)
      (hs : ∀ owner t requests, w.entries.lookup run.task.taskId = some (owner, t) →
        t.payload = .inputRequired requests → w.asked run.task.taskId = k)

/-- Every call that waits will be given, and every one that returned was given, its own answer. -/
structure Answering (w : World) : Prop where
  awaits : ∀ k op r requests run, w.ops k = some op → op.call = .runRequestInput r requests →
    op.stage = .awaiting → w.taskRuns r = some run → w.Awaits k run
  returned : ∀ k op r requests x, w.ops k = some op → op.call = .runRequestInput r requests →
    op.stage = .returned (.responses x) → x.askedBy = k

end World

variable {cfg : Config} {w w' : World} {a : Action}

/-- A call that waits waited before, or has just put its requests on its run's task. -/
theorem Step.awaiting_back (h : Step cfg w a w') {j : OpId} {op' : Op} {r : RunId} {requests : Map}
    (hj : w'.ops j = some op') (hc' : op'.call = .runRequestInput r requests)
    (hs' : op'.stage = .awaiting) :
    w.ops j = some op' ∨ ∃ now ch op run, a = .poll j now ch ∧ w.ops j = some op ∧
      op.call = .runRequestInput r requests ∧ op.stage = .called ∧ w.taskRuns r = some run ∧
      w.Asking cfg j now run.owner run.task.taskId requests ∧
      w'.asked run.task.taskId = j := by
  have other {v : World} {k : OpId} {op : Op} {stage : Stage} (hv : v.ops = w.ops)
      (hne : stage ≠ .awaiting) (hw' : w'.ops = (v.advance k op stage).ops) :
      w.ops j = some op' := by
    rw [hw'] at hj
    obtain ⟨_, rfl⟩ | ⟨_, hj⟩ := World.setOp_eq_some hj
    · exact absurd hs' hne
    · rw [← hv]
      exact hj
  have passive {c : Call} {stage : Stage} (hq : stage.Passive c) : stage ≠ .awaiting := by
    rintro rfl
    exact hq
  cases h with
  | @called m c =>
    rw [World.start_ops] at hj
    by_cases he : j = w.nextOp
    · rw [he, Function.update_self] at hj
      obtain rfl := Option.some.inj hj
      simp at hs'
    · rw [Function.update_of_ne he] at hj
      exact .inl hj
  | @asked k now ch op r' requests' run t hop hc hs hr hv ht =>
    obtain ⟨rfl, rfl⟩ | ⟨_, hj⟩ := World.setOp_eq_some hj
    · rw [hc] at hc'
      obtain ⟨rfl, rfl⟩ := Call.runRequestInput.inj hc'
      exact .inr ⟨now, ch, op, run, rfl, hop, hc, hs, hr,
        ⟨⟨op, hop, hs, .inl ⟨r', run, hc, hr, rfl, rfl⟩⟩, t, hv, ht⟩,
        Function.update_self _ _ _⟩
    · exact .inl hj
  | moved hop hs hq => exact .inl (other rfl (passive hq) rfl)
  | updated hop hs hsub hq => exact .inl (other rfl (passive hq) rfl)
  | stored | registered | recorded | swept | taken | sent | published | answered | consumed
  | looked | signalled | fired | unheard | carried | uncarried | unanswered | forgotten | unwaited
  | unconsumed => exact .inl (other rfl (by simp) rfl)
  | runDropped | unreceived | receivedCancelled | receivedInput | lost => exact .inl hj

/-- What is in flight for a run was, unless the step has just taken it. -/
theorem Step.inFlight_back (h : Step cfg w a w') {run run' : TaskRun} {x : Answer}
    (hm : run'.manager = run.manager) (ht : run'.task = run.task) (hx : w'.InFlight run' x) :
    x ∈ run'.inputs ∨ w.InFlight run x ∨ w.Takes a run.task.taskId x := by
  obtain hx | ⟨c', hc', hsig, hd⟩ | hx := hx
  · exact .inl hx
  · rw [ht] at hsig
    obtain ⟨c, hc, hsig', hdel⟩ | hx := h.bus_back hc' hsig
    · refine .inr (.inl (.inr (.inl ⟨c, hc, hsig'.trans hsig, fun hcd => hd ?_⟩)))
      rw [hm]
      exact hdel _ hcd
    · exact .inr (.inl (.inr (.inr hx)))
  · rw [ht] at hx
    obtain hx | hx := h.handing_back hx
    · exact .inr (.inl (.inr (.inr hx)))
    · exact .inr (.inr hx)

private theorem World.Registered.user (hw : w.Registered) {j k : OpId} {op op' : Op} {r : RunId}
    (hj : w.ops j = some op) (hc : op.call.run = some r) (hs : op.stage.isOver = false)
    (hk : w.ops k = some op') (hc' : op'.call.run = some r) (hs' : op'.stage.isOver = false) :
    j = k := by
  obtain ⟨run, hr, hu, _⟩ := hw.used j op r hj hc hs
  obtain ⟨run', hr', hu', _⟩ := hw.used k op' r hk hc' hs'
  rw [hr] at hr'
  obtain rfl := Option.some.inj hr'
  rw [hu] at hu'
  exact Option.some.inj hu'

/-- Requests put on a task whose run waits are those of the call that waits. -/
private theorem World.InTurn.asked_own (hg : w.InTurn cfg a) (hw : w.Registered) {j k : OpId}
    {now : Int} {ch : Choice} {op : Op} {r : RunId} {run : TaskRun} {requests requests' : Map}
    {owner : TaskOwner} (hj : w.ops j = some op) (hc : op.call = .runRequestInput r requests)
    (hs : op.stage = .awaiting) (hr : w.taskRuns r = some run) (hi : run.inputs = [])
    (ha : a = .poll k now ch) (hk : w.Asking cfg k now owner run.task.taskId requests') : k = j := by
  subst ha
  obtain ⟨op', hop', hs', ⟨r', run', hc', hr', _, hid⟩ | hc'⟩ := hk.call
  · have hrr : r' = r := hw.single r' run'.manager r run.manager _ (.inr ⟨run', hr', rfl, hid⟩)
      (.inr ⟨run, hr, rfl, rfl⟩)
    subst hrr
    exact hw.user hop' (by rw [hc']; rfl) (by rw [hs']; rfl) hj (by rw [hc]; rfl) (by rw [hs]; rfl)
  · have hn := hg op' owner run.task.taskId requests' hop' hk
    rw [hc'] at hn
    exact absurd ⟨j, op, r, requests, run, hj, hc, hs, hr, rfl, hi⟩ hn

private theorem Step.awaits_kept (h : Step cfg w a w') (hg : w.InTurn cfg a) (hw : w.Registered)
    (ha : w.Answering) {j : OpId} {op : Op} {r : RunId} {requests : Map} {run' : TaskRun}
    (hj : w.ops j = some op) (hj' : w'.ops j = some op)
    (hc : op.call = .runRequestInput r requests) (hs : op.stage = .awaiting)
    (hr' : w'.taskRuns r = some run') : w'.Awaits j run' := by
  obtain ⟨run, hr, hu, _⟩ := hw.used j op r hj (by rw [hc]; rfl) (by rw [hs]; rfl)
  obtain ⟨run'', hr'', hm, ht, hmove⟩ := h.channelMove hw hr
  rw [hr'] at hr''
  obtain rfl := Option.some.inj hr''
  have old := ha.awaits j op r requests run hj hc hs hr
  cases hmove with
  | same hi =>
    cases old with
    | ready x rest hx hk => exact .ready x rest (hi.trans hx) hk
    | asking hempty hflight hstored =>
      refine .asking (hi.trans hempty) ?_ ?_
      · intro x hx
        obtain hx | hx | hx := h.inFlight_back hm ht hx
        · rw [hi, hempty] at hx
          simp at hx
        · exact hflight x hx
        · obtain ⟨owner, t, hl, hp⟩ := hx.stored
          exact hx.asked.trans (hstored owner t _ hl hp)
      · intro owner t requests' hl hp
        rw [ht] at hl ⊢
        obtain ⟨he, t', hl', hp'⟩ | ⟨now, ch, ha', hasking⟩ := h.requests_back hl hp
        · exact he.trans (hstored owner t' requests' hl' hp')
        · exact hg.asked_own hw hj hc hs hr hempty ha' hasking
  | sent x hx hi =>
    cases old with
    | ready y rest hy hk => exact .ready y (rest ++ [x]) (by rw [hi, hy]; rfl) hk
    | asking hempty hflight hstored => exact .ready x [] (by rw [hi, hempty]; rfl) (hflight x hx)
  | given k op' requests' x hop' hc' hs'' hi ho =>
    have hk : k = j := hw.user hop' (by rw [hc']; rfl) (by rw [hs'']; rfl) hj (by rw [hc]; rfl)
      (by rw [hs]; rfl)
    subst hk
    rw [hj'] at ho
    rw [Option.some.inj ho] at hs
    simp at hs

private theorem Step.awaits_new (h : Step cfg w a w') (hg : w.InTurn cfg a) (hw : w.Registered)
    {j : OpId} {op : Op} {r : RunId} {requests : Map} {run run' : TaskRun} {now : Int} {ch : Choice}
    (ha : a = .poll j now ch) (hj : w.ops j = some op) (hc : op.call = .runRequestInput r requests)
    (hs : op.stage = .called) (hr : w.taskRuns r = some run)
    (hk : w.Asking cfg j now run.owner run.task.taskId requests)
    (hasked : w'.asked run.task.taskId = j) (hr' : w'.taskRuns r = some run') : w'.Awaits j run' := by
  have none : ∀ x, ¬ w.InFlight run x := by
    subst ha
    have hn := hg op run.owner run.task.taskId requests hj hk
    rw [hc] at hn
    exact hn run hr
  obtain ⟨run'', hr'', hm, ht, hmove⟩ := h.channelMove hw hr
  rw [hr'] at hr''
  obtain rfl := Option.some.inj hr''
  have hempty : run.inputs = [] := List.eq_nil_iff_forall_not_mem.mpr fun x hx => none x (.inl hx)
  cases hmove with
  | same hi =>
    refine .asking (hi.trans hempty) ?_ ?_
    · intro x hx
      obtain hx | hx | hx := h.inFlight_back hm ht hx
      · rw [hi, hempty] at hx
        simp at hx
      · exact absurd hx (none x)
      · obtain ⟨now', ch', hp⟩ := hx.polled
        obtain ⟨op', owner, hop', hc'⟩ := hx.applied
        rw [ha] at hp
        rw [← (Action.poll.inj hp).1, hj] at hop'
        rw [← Option.some.inj hop', hc] at hc'
        simp at hc'
    · intro owner t requests' hl hp
      rw [ht]
      exact hasked
  | sent x hx => exact absurd hx (none x)
  | given k op' requests' x hop' hc' hs' =>
    have hkj : k = j := hw.user hop' (by rw [hc']; rfl) (by rw [hs']; rfl) hj (by rw [hc]; rfl)
      (by rw [hs]; rfl)
    subst hkj
    rw [hj] at hop'
    rw [← Option.some.inj hop', hs] at hs'
    simp at hs'

theorem Step.answering_kept (h : Step cfg w a w') (hg : w.InTurn cfg a) (hw : w.Registered)
    (ha : w.Answering) : w'.Answering where
  awaits j op' r requests run' hj hc hs hr' := by
    obtain hj0 | ⟨now, ch, op, run, haj, hop, hcall, hcalled, hr, hk, hasked⟩ :=
      h.awaiting_back hj hc hs
    · exact h.awaits_kept hg hw ha hj0 hj hc hs hr'
    · exact h.awaits_new hg hw haj hop hcall hcalled hr hk hasked hr'
  returned k op' r requests x hk hc hs := by
    obtain hk | ⟨op, run, rest, hop, hc, hs', hr, hi⟩ := h.returned_back hk hc hs
    · exact ha.returned k op' r requests x hk hc hs
    · cases ha.awaits k op r requests run hop hc hs' hr with
      | ready y rest' hy hyk =>
        rw [hi] at hy
        rw [(List.cons.inj hy).1]
        exact hyk
      | asking hempty =>
        rw [hi] at hempty
        simp at hempty

/-- What a run's `request_input` returns are responses to its own requests, sent by an
`apply_input` that was checked against them as that very call had put them on the task. -/
def World.OwnAnswers (w : World) : Prop :=
  ∀ k op r requests x, w.ops k = some op → op.call = .runRequestInput r requests →
    op.stage = .returned (.responses x) →
      SameKeys requests x.responses ∧ x.requests = requests ∧ x.askedBy = k ∧
      ∃ run sender owner, w.taskRuns r = some run ∧ w.ops x.sentBy = some sender ∧
        sender.call = .applyInput owner run.task.taskId x.responses

theorem World.Answering.own (ha : w.Answering) (hv : w.Vouching) : w.OwnAnswers := by
  intro k op r requests x hop hc hs
  have hk := ha.returned k op r requests x hop hc hs
  obtain ⟨run, hr, hx⟩ := hv.returned k op r requests x hop hc hs
  obtain ⟨sender, owner, hsender, hsc⟩ := hx.applied
  obtain ⟨asker, hasker, hasks⟩ := hx.asked
  rw [hk, hop] at hasker
  rw [← Option.some.inj hasker, hc] at hasks
  have hreq : x.requests = requests := by
    obtain ⟨_, _, hcall, _⟩ | ⟨_, hcall⟩ := hasks
    · exact ((Call.runRequestInput.inj hcall).2).symm
    · simp at hcall
  exact ⟨hreq ▸ hx.keys, hreq, hk, run, sender, owner, hr, hsender, hsc⟩

/-- In every run that asks in turn, every answer goes to the request it was given for. -/
theorem request_input_answered
    (h : ((machine cfg).restrict (World.InTurn cfg)).Reachable w) : w.OwnAnswers := by
  have ha : w.Answering := by
    refine h.invariant (P := World.Answering) ?_ ?_
    · rintro _ rfl
      constructor <;> simp [World.init]
    · intro s a t hr hs step
      exact (World.step_sound step.2).answering_kept step.1 (reachable_registered hr.of_restrict) hs
  exact ha.own (reachable_vouching h.of_restrict)

/-- No answer is on its way to any run. -/
def World.silent (w : World) : Bool :=
  w.bus.isEmpty && (List.range w.nextOp).all fun k =>
    (match w.ops k with
      | some ⟨_, _, .working _ _ _⟩ => false
      | _ => true) &&
    (match w.taskRuns k with
      | some run => run.inputs.isEmpty
      | none => true)

theorem World.not_inFlight_of_silent (hw : w.Registered) (h : w.silent = true) {r : RunId}
    {run : TaskRun} (hr : w.taskRuns r = some run) (x : Answer) : ¬ w.InFlight run x := by
  simp only [silent, Bool.and_eq_true, List.all_eq_true, List.mem_range,
    List.isEmpty_iff] at h
  obtain ⟨hb, hall⟩ := h
  rintro (hx | ⟨c, hc, _⟩ | ⟨k, ⟨m, call, stage⟩, _, _, _, _, hop, _, hs⟩)
  · obtain ⟨op, hop, _⟩ := hw.creator r run hr
    have hq := (hall r (hw.fresh r op hop)).2
    rw [hr] at hq
    rw [List.isEmpty_iff.mp hq] at hx
    simp at hx
  · rw [hb] at hc
    simp at hc
  · have hq := (hall k (hw.fresh k _ hop)).1
    obtain rfl : stage = _ := hs
    rw [hop] at hq
    simp at hq

/-- A test that a step asks in turn, for runs that ask only through `TaskRun`. -/
def World.turn (w : World) : Action → Bool
  | .poll k _ _ =>
    match w.ops k with
    | some ⟨_, .runRequestInput _ _, .called⟩ => w.silent
    | some ⟨_, .transition _ _ _, .called⟩ => false
    | _ => true
  | _ => true

theorem World.inTurn_of_turn (w : World) (a : Action) (hw : w.Registered) (h : w.turn a = true) :
    w.InTurn cfg a := by
  cases a with
  | poll k now ch =>
    rintro ⟨m, c, stage⟩ owner id requests hop hk
    obtain ⟨op', hop', hs, ⟨r, run, hc, hr, _⟩ | hc⟩ := hk.call
    · rw [hop] at hop'
      obtain rfl := Option.some.inj hop'
      obtain rfl : c = _ := hc
      obtain rfl : stage = _ := hs
      simp only [turn, hop] at h
      exact fun run' hr' x => not_inFlight_of_silent hw h hr' x
    · rw [hop] at hop'
      obtain rfl := Option.some.inj hop'
      obtain rfl : c = _ := hc
      obtain rfl : stage = _ := hs
      simp [turn, hop] at h
  | _ => trivial

/-- A run asks, is answered, and asks again. -/
def answeredRun : List Action :=
  [.call 0 (.create ⟨some "user", none⟩), .poll 0 0 .task, .poll 0 0 .task,
    .call 0 (.runRequestInput 0 [("name", .null)]), .poll 1 0 .task,
    .call 0 (.applyInput ⟨some "user", none⟩ ⟨"task"⟩ [("name", .string "first")]),
    .poll 2 0 .task, .poll 2 0 .task, .poll 2 0 .task, .poll 2 0 .task, .poll 1 0 .task,
    .call 0 (.runRequestInput 0 [("email", .null)]), .poll 3 0 .task]

theorem request_input_answered_run :
    ∃ w, World.init.execIf World.turn (.plain none) answeredRun = some w ∧
      (w.ops 1).map Op.stage = some (.returned (.responses
        ⟨[("name", .string "first")], 2, [("name", .null)], 1⟩)) ∧ w.OwnAnswers := by
  have hstage : (World.init.execIf World.turn (.plain none) answeredRun).map
      (fun w => (w.ops 1).map Op.stage) = some (some (.returned (.responses
        ⟨[("name", .string "first")], 2, [("name", .null)], 1⟩))) := by decide
  obtain ⟨w, hw, hs⟩ := Option.map_eq_some_iff.mp hstage
  exact ⟨w, hw, hs, request_input_answered
    (World.execIf_reachable World.inTurn_of_turn answeredRun hw (.start rfl))⟩

/-- A run asks and stops waiting; it is answered, and then asks for something else. -/
def staleRun : List Action :=
  [.call 0 (.create ⟨some "user", none⟩), .poll 0 0 .task, .poll 0 0 .task,
    .call 0 (.runRequestInput 0 [("name", .null)]), .poll 1 0 .task, .dropFuture 1,
    .call 0 (.applyInput ⟨some "user", none⟩ ⟨"task"⟩ [("name", .string "first")]),
    .poll 2 0 .task, .poll 2 0 .task, .poll 2 0 .task, .poll 2 0 .task,
    .call 0 (.runRequestInput 0 [("email", .null)]), .poll 3 0 .task, .poll 3 0 .task]

theorem request_input_stale :
    ∃ w, World.init.exec (.plain none) staleRun = some w ∧ (machine (.plain none)).Reachable w ∧
      w.ops 3 = some ⟨0, .runRequestInput 0 [("email", .null)], .returned (.responses
        ⟨[("name", .string "first")], 2, [("name", .null)], 1⟩)⟩ ∧ ¬ w.OwnAnswers := by
  have hop : (World.init.exec (.plain none) staleRun).map (fun w => w.ops 3) =
      some (some ⟨0, .runRequestInput 0 [("email", .null)], .returned (.responses
        ⟨[("name", .string "first")], 2, [("name", .null)], 1⟩)⟩) := by decide
  obtain ⟨w, hw, hop⟩ := Option.map_eq_some_iff.mp hop
  refine ⟨w, hw, World.exec_reachable staleRun hw (init_reachable _), hop, fun h => ?_⟩
  have own := (h 3 _ 0 _ _ hop rfl rfl).2.2.1
  simp at own

end Tronc.Tasks
