import Tronc.Tasks.Lifecycle

namespace Tronc.Tasks

variable {cfg : Config} {w w' : World} {a : Action}

/-- What a step does to the calls: one is made, one that is not over moves on, or none. -/
inductive OpMove (w w' : World) (a : Action) : Prop where
  | made (m : ManagerId) (c : Call) (ha : a = .call m c)
      (ho : w'.ops = Function.update w.ops w.nextOp (some ⟨m, c, .called⟩))
      (hn : w'.nextOp = w.nextOp + 1)
  | moved (k : OpId) (op : Op) (stage : Stage) (ha : a = .dropFuture k ∨ ∃ now ch, a = .poll k now ch)
      (hop : w.ops k = some op) (hs : op.stage.isOver = false)
      (ho : w'.ops = Function.update w.ops k (some { op with stage := stage }))
      (hn : w'.nextOp = w.nextOp)
  | still (ho : w'.ops = w.ops) (hn : w'.nextOp = w.nextOp)

theorem Step.opMove (h : Step cfg w a w') : OpMove w w' a := by
  have poll {k now ch} : (Action.poll k now ch = .dropFuture k ∨
      ∃ now' ch', Action.poll k now ch = .poll k now' ch') := .inr ⟨_, _, rfl⟩
  cases h with
  | @called m c =>
    refine .made m c rfl ?_ ?_ <;> (unfold World.start; split <;> rfl)
  | moved hop hs | updated hop hs => exact .moved _ _ _ poll hop hs rfl rfl
  | unanswered hop hc hs => exact .moved _ _ _ poll hop hs rfl rfl
  | stored hop hc hs | registered hop hc hs | recorded hop hc hs | asked hop hc hs
  | swept hop hc hs | taken hop hc hs | sent hop hc hs | published hop hc hs
  | answered hop hc hs | consumed hop hc hs | looked hop hc hs =>
    exact .moved _ _ _ poll hop (by rw [hs]; rfl) rfl rfl
  | signalled hop hrun hs => exact .moved _ _ _ poll hop (by rw [hs]; rfl) rfl rfl
  | fired hop hs | unheard hop hs | carried hop hs | uncarried hop hs =>
    exact .moved _ _ _ poll hop (by rw [hs]; rfl) rfl rfl
  | forgotten hop hs | unconsumed hop hs => exact .moved _ _ _ (.inl rfl) hop hs rfl rfl
  | unwaited hop hc hs => exact .moved _ _ _ (.inl rfl) hop hs rfl rfl
  | runDropped | unreceived | receivedCancelled | receivedInput | lost => exact .still rfl rfl

/-- What a step does to the runs: none or one of them changes, one is registered, one dropped. -/
inductive RunMove (w w' : World) : Prop where
  | kept (hr : w'.runs = w.runs) (ht : w'.taskRuns = w.taskRuns)
  | tended (r : RunId) (f : TaskRun → TaskRun)
      (hf : ∀ run, (f run).manager = run.manager ∧ (f run).owner = run.owner ∧
        (f run).task = run.task ∧ (f run).live = run.live ∧
        (run.cancel = true → (f run).cancel = true))
      (hr : w'.runs = w.runs)
      (ht : w'.taskRuns = Function.update w.taskRuns r ((w.taskRuns r).map f))
  | registered (k : OpId) (op : Op) (owner : TaskOwner) (task : Task) (hop : w.ops k = some op)
      (hs : op.stage = .stored task)
      (ho : w'.ops k = some { op with stage := .returned (.run k) })
      (hr : w'.runs = Function.update w.runs op.manager
        ((w.runs op.manager).insert task.taskId k))
      (ht : w'.taskRuns = Function.update w.taskRuns k
        (some ⟨op.manager, owner, task, false, [], true, none⟩))
  | dropped (r : RunId) (run : TaskRun) (hrun : w.taskRuns r = some run)
      (hr : w'.runs = Function.update w.runs run.manager
        ((w.runs run.manager).erase run.task.taskId))
      (ht : w'.taskRuns = Function.update w.taskRuns r
        (some { run with live := false, usedBy := none }))

theorem Step.runMove (h : Step cfg w a w') : RunMove w w' := by
  have dropped {r : RunId} {run : TaskRun} (hrun : w.taskRuns r = some run) :
      (w.dropRun r run).taskRuns = Function.update w.taskRuns r
        (some { run with live := false, usedBy := none }) := by
    simp only [World.dropRun, World.modifyRun, hrun, Option.map_some]
  cases h with
  | @called m c =>
    unfold World.start
    split
    · refine .tended _ _ ?_ rfl rfl
      exact fun run => ⟨rfl, rfl, rfl, rfl, id⟩
    · exact .kept rfl rfl
  | registered hop hc hs =>
    exact .registered _ _ _ _ hop hs (by simp [World.setOp_ops]) rfl rfl
  | fired | receivedCancelled =>
    refine .tended _ _ ?_ rfl rfl
    exact fun run => ⟨rfl, rfl, rfl, rfl, fun _ => rfl⟩
  | sent | answered | unanswered | unwaited | receivedInput =>
    refine .tended _ _ ?_ rfl rfl
    exact fun run => ⟨rfl, rfl, rfl, rfl, id⟩
  | consumed hop hc hs hr => exact .dropped _ _ hr rfl (dropped hr)
  | unconsumed hop hs hc hr => exact .dropped _ _ hr rfl (dropped hr)
  | runDropped hr => exact .dropped _ _ hr rfl (dropped hr)
  | _ => exact .kept rfl rfl

/-- The run an `apply_input` has looked up, to send it the input. -/
def Stage.inputs : Stage → Option RunId
  | .found inputs | .working inputs _ _ => inputs
  | _ => none

/-- Call `k` holds, or will register, the run of `id` on manager `m`. -/
def World.Creates (w : World) (k : OpId) (m : ManagerId) (id : TaskId) : Prop :=
  (∃ op task, w.ops k = some op ∧ op.manager = m ∧ op.stage = .stored task ∧ task.taskId = id) ∨
  ∃ run, w.taskRuns k = some run ∧ run.manager = m ∧ run.task.taskId = id

/-- How the calls, the runs and the live-run tables fit together. -/
structure World.Registered (w : World) : Prop where
  fresh : ∀ k op, w.ops k = some op → k < w.nextOp
  creator : ∀ r run, w.taskRuns r = some run →
    ∃ op, w.ops r = some op ∧ op.stage = .returned (.run r)
  minted : ∀ k m id, w.Creates k m id → id ∈ w.minted
  single : ∀ k m k' m' id, w.Creates k m id → w.Creates k' m' id → k = k'
  listed : ∀ m id r, (w.runs m).lookup id = some r →
    ∃ run, w.taskRuns r = some run ∧ run.manager = m ∧ run.task.taskId = id ∧ run.live = true
  live : ∀ r run, w.taskRuns r = some run → run.live = true →
    (w.runs run.manager).lookup run.task.taskId = some r
  used : ∀ k op r, w.ops k = some op → op.call.run = some r → op.stage.isOver = false →
    ∃ run, w.taskRuns r = some run ∧ run.usedBy = some k ∧ run.live = true
  handed : ∀ k op owner id responses r, w.ops k = some op →
    op.call = .applyInput owner id responses → op.stage.inputs = some r →
      ∃ run, w.taskRuns r = some run ∧ run.task.taskId = id

theorem init_registered : World.init.Registered where
  fresh := by simp [World.init]
  creator := by simp [World.init]
  minted := by simp [World.init, World.Creates]
  single := by simp [World.init, World.Creates]
  listed := by simp [World.init]
  live := by simp [World.init]
  used := by simp [World.init]
  handed := by simp [World.init]

/-- A run that was there is there still, as the same run, and a fired token stays fired. -/
theorem RunMove.forth (h : RunMove w w') (hw : w.Registered) {r : RunId} {run : TaskRun}
    (hr : w.taskRuns r = some run) :
    ∃ run', w'.taskRuns r = some run' ∧ run'.manager = run.manager ∧ run'.owner = run.owner ∧
      run'.task = run.task ∧ (run.cancel = true → run'.cancel = true) ∧
      (run'.live = true → run.live = true) := by
  cases h with
  | kept _ ht => exact ⟨run, by rw [ht]; exact hr, rfl, rfl, rfl, id, id⟩
  | tended r' f hf _ ht =>
    by_cases he : r = r'
    · subst he
      refine ⟨f run, by rw [ht, Function.update_self, hr]; rfl, (hf run).1, (hf run).2.1,
        (hf run).2.2.1, (hf run).2.2.2.2, fun hl => ?_⟩
      rw [← (hf run).2.2.2.1]
      exact hl
    · exact ⟨run, by rw [ht, Function.update_of_ne he]; exact hr, rfl, rfl, rfl, id, id⟩
  | registered k op owner task hop hs _ _ ht =>
    have he : r ≠ k := by
      rintro rfl
      obtain ⟨op', hop', hs'⟩ := hw.creator _ _ hr
      rw [hop] at hop'
      rw [← Option.some.inj hop', hs] at hs'
      simp at hs'
    exact ⟨run, by rw [ht, Function.update_of_ne he]; exact hr, rfl, rfl, rfl, id, id⟩
  | dropped r' run' hrun _ ht =>
    by_cases he : r = r'
    · subst he
      rw [hr] at hrun
      obtain rfl := Option.some.inj hrun
      exact ⟨{ run with live := false, usedBy := none }, by rw [ht, Function.update_self], rfl, rfl,
        rfl, id, by simp⟩
    · exact ⟨run, by rw [ht, Function.update_of_ne he]; exact hr, rfl, rfl, rfl, id, id⟩

/-- A run that is there was there before, or has just been registered. -/
theorem RunMove.back (h : RunMove w w') {r : RunId} {run' : TaskRun}
    (hr : w'.taskRuns r = some run') :
    (∃ run, w.taskRuns r = some run ∧ run'.manager = run.manager ∧ run'.task = run.task ∧
      (run'.live = true → run.live = true)) ∨
    ∃ op, w.ops r = some op ∧ op.stage = .stored run'.task ∧ op.manager = run'.manager ∧
      run'.inputs = [] ∧ w'.ops r = some { op with stage := .returned (.run r) } := by
  cases h with
  | kept _ ht =>
    rw [ht] at hr
    exact .inl ⟨run', hr, rfl, rfl, id⟩
  | tended r' f hf _ ht =>
    rw [ht] at hr
    by_cases he : r = r'
    · subst he
      rw [Function.update_self] at hr
      obtain ⟨run, hrun, rfl⟩ := Option.map_eq_some_iff.mp hr
      refine .inl ⟨run, hrun, (hf run).1, (hf run).2.2.1, fun hl => ?_⟩
      rw [← (hf run).2.2.2.1]
      exact hl
    · rw [Function.update_of_ne he] at hr
      exact .inl ⟨run', hr, rfl, rfl, id⟩
  | registered k op owner task hop hs ho _ ht =>
    rw [ht] at hr
    by_cases he : r = k
    · subst he
      rw [Function.update_self] at hr
      obtain rfl := Option.some.inj hr
      exact .inr ⟨op, hop, hs, rfl, rfl, ho⟩
    · rw [Function.update_of_ne he] at hr
      exact .inl ⟨run', hr, rfl, rfl, id⟩
  | dropped r' run hrun _ ht =>
    rw [ht] at hr
    by_cases he : r = r'
    · subst he
      rw [Function.update_self] at hr
      obtain rfl := Option.some.inj hr
      exact .inl ⟨run, hrun, rfl, rfl, by simp⟩
    · rw [Function.update_of_ne he] at hr
      exact .inl ⟨run', hr, rfl, rfl, id⟩

theorem World.setOp_eq_some {k j : OpId} {op op' : Op} (h : (w.setOp k op).ops j = some op') :
    (j = k ∧ op' = op) ∨ (j ≠ k ∧ w.ops j = some op') := by
  rw [World.setOp_ops] at h
  by_cases hk : j = k
  · rw [if_pos hk] at h
    exact .inl ⟨hk, (Option.some.inj h).symm⟩
  · rw [if_neg hk] at h
    exact .inr ⟨hk, h⟩

/-- A task is stored for a run to come by a `create` alone, under an id not minted before. -/
theorem Step.stored_back (h : Step cfg w a w') {j : OpId} {op' : Op} {task : Task}
    (hj : w'.ops j = some op') (hs' : op'.stage = .stored task) :
    w.ops j = some op' ∨ (task.taskId ∉ w.minted ∧ w'.minted = task.taskId :: w.minted ∧
      ∃ now ch, a = .poll j now ch) := by
  have other {v : World} {k : OpId} {op : Op} {stage : Stage} (hv : v.ops = w.ops)
      (hne : ∀ task, stage ≠ .stored task) (hw : w'.ops = (v.advance k op stage).ops) :
      w.ops j = some op' := by
    rw [hw] at hj
    obtain ⟨_, rfl⟩ | ⟨_, hj⟩ := World.setOp_eq_some hj
    · exact absurd hs' (hne task)
    · rw [← hv]
      exact hj
  have passive {c : Call} {stage : Stage} (hq : stage.Passive c) (task : Task) :
      stage ≠ .stored task := by
    rintro rfl
    exact hq
  cases h with
  | called =>
    refine .inl ?_
    unfold World.start at hj
    split at hj
    · obtain ⟨_, rfl⟩ | ⟨_, hj⟩ := World.setOp_eq_some hj
      · simp at hs'
      · exact hj
    · obtain ⟨_, rfl⟩ | ⟨_, hj⟩ := World.setOp_eq_some hj
      · simp at hs'
      · exact hj
  | stored hop hc hs hch hid htask =>
    obtain ⟨rfl, rfl⟩ | ⟨_, hj⟩ := World.setOp_eq_some hj
    · obtain rfl := Stage.stored.inj hs'
      subst htask
      exact .inr ⟨hid, rfl, _, _, rfl⟩
    · exact .inl hj
  | moved hop hs hq => exact .inl (other rfl (passive hq) rfl)
  | updated hop hs hsub hq => exact .inl (other rfl (passive hq) rfl)
  | registered | recorded | asked | swept | taken | sent | published | answered | consumed
  | looked | signalled | fired | unheard | carried | uncarried | unanswered | forgotten | unwaited
  | unconsumed => exact .inl (other rfl (by simp) rfl)
  | runDropped | unreceived | receivedCancelled | receivedInput | lost => exact .inl hj

private theorem OpMove.fresh (h : OpMove w w' a) (hw : w.Registered) {k : OpId} {op : Op}
    (hk : w'.ops k = some op) : k < w'.nextOp := by
  cases h with
  | made m c _ ho hn =>
    rw [ho] at hk
    rw [hn]
    by_cases he : k = w.nextOp
    · rw [he]
      exact Nat.lt_succ_self _
    · rw [Function.update_of_ne he] at hk
      exact Nat.lt_succ_of_lt (hw.fresh k op hk)
  | moved j op' stage _ hop _ ho hn =>
    rw [ho] at hk
    rw [hn]
    by_cases he : k = j
    · rw [he]
      exact hw.fresh j op' hop
    · rw [Function.update_of_ne he] at hk
      exact hw.fresh k op hk
  | still ho hn =>
    rw [ho] at hk
    rw [hn]
    exact hw.fresh k op hk

/-- A call that is over stays as it is. -/
theorem OpMove.ended (h : OpMove w w' a) (hw : w.Registered) {k : OpId} {op : Op}
    (hk : w.ops k = some op) (hs : op.stage.isOver = true) : w'.ops k = some op := by
  cases h with
  | made m c _ ho =>
    have he : k ≠ w.nextOp := (hw.fresh k op hk).ne
    rw [ho, Function.update_of_ne he]
    exact hk
  | moved j op' stage _ hop hs' ho =>
    have he : k ≠ j := by
      rintro rfl
      rw [hk] at hop
      rw [← Option.some.inj hop, hs] at hs'
      simp at hs'
    rw [ho, Function.update_of_ne he]
    exact hk
  | still ho =>
    rw [ho]
    exact hk

/-- A call keeps its manager and its arguments. -/
theorem OpMove.forth (h : OpMove w w' a) (hw : w.Registered) {k : OpId} {op : Op}
    (hk : w.ops k = some op) : ∃ stage, w'.ops k = some { op with stage := stage } := by
  cases h with
  | made m c _ ho =>
    have he : k ≠ w.nextOp := (hw.fresh k op hk).ne
    exact ⟨op.stage, by rw [ho, Function.update_of_ne he]; exact hk⟩
  | moved j op' stage _ hop _ ho =>
    by_cases he : k = j
    · subst he
      rw [hk] at hop
      obtain rfl := Option.some.inj hop
      exact ⟨stage, by rw [ho, Function.update_self]⟩
    · exact ⟨op.stage, by rw [ho, Function.update_of_ne he]; exact hk⟩
  | still ho => exact ⟨op.stage, by rw [ho]; exact hk⟩

theorem Writes.minted_mono (h : Writes cfg w w') {id : TaskId} (hid : id ∈ w.minted) :
    id ∈ w'.minted := by
  cases h with
  | nothing _ hm | rewrites _ _ _ _ _ _ _ _ _ hm | sweeps _ _ hm =>
    rw [hm]
    exact hid
  | births _ _ _ _ _ _ hm =>
    rw [hm]
    exact List.mem_cons_of_mem _ hid

private theorem Step.creates_back (h : Step cfg w a w') {k : OpId} {m : ManagerId} {id : TaskId}
    (hk : w'.Creates k m id) : w.Creates k m id ∨
      (id ∉ w.minted ∧ w'.minted = id :: w.minted ∧ ∃ now ch, a = .poll k now ch) := by
  obtain ⟨op, task, hop, hm, hs, hid⟩ | ⟨run', hr, hm, hid⟩ := hk
  · obtain hop | ⟨hn, hm', ha⟩ := h.stored_back hop hs
    · exact .inl (.inl ⟨op, task, hop, hm, hs, hid⟩)
    · rw [← hid]
      exact .inr ⟨hn, hm', ha⟩
  · obtain ⟨run, hrun, hm', ht, _⟩ | ⟨op, hop, hs, hm', _, _⟩ := h.runMove.back hr
    · exact .inl (.inr ⟨run, hrun, hm' ▸ hm, ht ▸ hid⟩)
    · exact .inl (.inl ⟨op, run'.task, hop, hm'.trans hm, hs, hid⟩)

private theorem RunMove.listed (h : RunMove w w') (hw : w.Registered) {m : ManagerId} {id : TaskId}
    {r : RunId} (hl : (w'.runs m).lookup id = some r) :
    ∃ run, w'.taskRuns r = some run ∧ run.manager = m ∧ run.task.taskId = id ∧ run.live = true := by
  cases h with
  | kept hr ht =>
    rw [hr] at hl
    rw [ht]
    exact hw.listed m id r hl
  | tended r' f hf hr ht =>
    rw [hr] at hl
    obtain ⟨run, hrun, hm, hid, hlive⟩ := hw.listed m id r hl
    rw [ht]
    by_cases he : r = r'
    · subst he
      refine ⟨f run, by rw [Function.update_self, hrun]; rfl, (hf run).1.trans hm, ?_,
        (hf run).2.2.2.1.trans hlive⟩
      rw [(hf run).2.2.1]
      exact hid
    · exact ⟨run, by rw [Function.update_of_ne he]; exact hrun, hm, hid, hlive⟩
  | registered k op owner task hop hs _ hr ht =>
    rw [hr] at hl
    rw [ht]
    by_cases hm : m = op.manager ∧ id = task.taskId
    · obtain ⟨rfl, rfl⟩ := hm
      rw [Function.update_self, AList.lookup_insert] at hl
      obtain rfl := Option.some.inj hl
      exact ⟨_, by rw [Function.update_self], rfl, rfl, rfl⟩
    · have hold : (w.runs m).lookup id = some r := by
        by_cases hmm : m = op.manager
        · subst hmm
          have hid : id ≠ task.taskId := fun e => hm ⟨rfl, e⟩
          rw [Function.update_self, AList.lookup_insert_ne hid] at hl
          exact hl
        · rw [Function.update_of_ne hmm] at hl
          exact hl
      obtain ⟨run, hrun, hrm, hid, hlive⟩ := hw.listed m id r hold
      have he : r ≠ k := by
        rintro rfl
        obtain ⟨op', hop', hs'⟩ := hw.creator _ _ hrun
        rw [hop] at hop'
        rw [← Option.some.inj hop', hs] at hs'
        simp at hs'
      exact ⟨run, by rw [Function.update_of_ne he]; exact hrun, hrm, hid, hlive⟩
  | dropped r' run' hrun' hr ht =>
    rw [hr] at hl
    rw [ht]
    have hold : (w.runs m).lookup id = some r ∧ ¬ (m = run'.manager ∧ id = run'.task.taskId) := by
      by_cases hm : m = run'.manager
      · subst hm
        rw [Function.update_self] at hl
        by_cases hid : id = run'.task.taskId
        · rw [hid, AList.lookup_erase] at hl
          simp at hl
        · rw [AList.lookup_erase_ne hid] at hl
          exact ⟨hl, fun e => hid e.2⟩
      · rw [Function.update_of_ne hm] at hl
        exact ⟨hl, fun e => hm e.1⟩
    obtain ⟨run, hrun, hrm, hid, hlive⟩ := hw.listed m id r hold.1
    have he : r ≠ r' := by
      rintro rfl
      rw [hrun] at hrun'
      obtain rfl := Option.some.inj hrun'
      exact hold.2 ⟨hrm.symm, hid.symm⟩
    exact ⟨run, by rw [Function.update_of_ne he]; exact hrun, hrm, hid, hlive⟩

private theorem RunMove.live (h : RunMove w w') (hw : w.Registered) {r : RunId} {run : TaskRun}
    (hr : w'.taskRuns r = some run) (hlive : run.live = true) :
    (w'.runs run.manager).lookup run.task.taskId = some r := by
  cases h with
  | kept hrs ht =>
    rw [ht] at hr
    rw [hrs]
    exact hw.live r run hr hlive
  | tended r' f hf hrs ht =>
    rw [ht] at hr
    rw [hrs]
    by_cases he : r = r'
    · subst he
      rw [Function.update_self] at hr
      obtain ⟨old, hold, rfl⟩ := Option.map_eq_some_iff.mp hr
      rw [(hf old).1, (hf old).2.2.1]
      rw [(hf old).2.2.2.1] at hlive
      exact hw.live r old hold hlive
    · rw [Function.update_of_ne he] at hr
      exact hw.live r run hr hlive
  | registered k op owner task hop hs _ hrs ht =>
    rw [ht] at hr
    rw [hrs]
    by_cases he : r = k
    · subst he
      rw [Function.update_self] at hr
      obtain rfl := Option.some.inj hr
      rw [Function.update_self, AList.lookup_insert]
    · rw [Function.update_of_ne he] at hr
      have hold := hw.live r run hr hlive
      by_cases hm : run.manager = op.manager
      · have hid : run.task.taskId ≠ task.taskId := by
          intro e
          exact he (hw.single r run.manager k op.manager _ (.inr ⟨run, hr, rfl, rfl⟩)
            (.inl ⟨op, task, hop, rfl, hs, e.symm⟩))
        rw [hm, Function.update_self, AList.lookup_insert_ne hid, ← hm]
        exact hold
      · rw [Function.update_of_ne hm]
        exact hold
  | dropped r' old hrun hrs ht =>
    rw [ht] at hr
    rw [hrs]
    by_cases he : r = r'
    · subst he
      rw [Function.update_self] at hr
      obtain rfl := Option.some.inj hr
      simp at hlive
    · rw [Function.update_of_ne he] at hr
      have hold := hw.live r run hr hlive
      by_cases hm : run.manager = old.manager
      · have hid : run.task.taskId ≠ old.task.taskId := by
          intro e
          exact he (hw.single r run.manager r' old.manager _ (.inr ⟨run, hr, rfl, rfl⟩)
            (.inr ⟨old, hrun, rfl, e.symm⟩))
        rw [hm, Function.update_self, AList.lookup_erase_ne hid, ← hm]
        exact hold
      · rw [Function.update_of_ne hm]
        exact hold

theorem OpMove.back (h : OpMove w w' a) {j : OpId} {op' : Op} (hj : w'.ops j = some op') :
    (∃ op, w.ops j = some op ∧ op.call = op'.call ∧ op.manager = op'.manager ∧
      (op'.stage.isOver = false → op.stage.isOver = false)) ∨
    ∃ m c, a = .call m c ∧ j = w.nextOp ∧ op' = ⟨m, c, .called⟩ := by
  cases h with
  | made m c ha ho =>
    rw [ho] at hj
    by_cases he : j = w.nextOp
    · rw [he, Function.update_self] at hj
      exact .inr ⟨m, c, ha, he, (Option.some.inj hj).symm⟩
    · rw [Function.update_of_ne he] at hj
      exact .inl ⟨op', hj, rfl, rfl, id⟩
  | moved k op stage _ hop hs ho =>
    rw [ho] at hj
    by_cases he : j = k
    · rw [he, Function.update_self] at hj
      obtain rfl := Option.some.inj hj
      exact .inl ⟨op, he ▸ hop, rfl, rfl, fun _ => hs⟩
    · rw [Function.update_of_ne he] at hj
      exact .inl ⟨op', hj, rfl, rfl, id⟩
  | still ho =>
    rw [ho] at hj
    exact .inl ⟨op', hj, rfl, rfl, id⟩

/-- A run in use stays in the hands of the call that uses it until that call is over. -/
private theorem Step.held (h : Step cfg w a w') (hw : w.Registered) {j : OpId} {op' : Op}
    {r : RunId} {run : TaskRun} (hj : w'.ops j = some op') (hs' : op'.stage.isOver = false)
    (hr : w.taskRuns r = some run) (hu : run.usedBy = some j) (hl : run.live = true) :
    ∃ run', w'.taskRuns r = some run' ∧ run'.usedBy = some j ∧ run'.live = true := by
  have ended {v : World} {k : OpId} {op : Op} {stage : Stage} (hop : w.ops k = some op)
      (hc : op.call.run = some r) (hs : op.stage.isOver = false) (hn : stage.isOver = true)
      (ho : w'.ops = (v.advance k op stage).ops) : False := by
    obtain ⟨run', hr', hu', _⟩ := hw.used k op r hop hc hs
    rw [hr] at hr'
    obtain rfl := Option.some.inj hr'
    rw [hu] at hu'
    rw [ho, ← Option.some.inj hu', World.setOp_ops, if_pos rfl] at hj
    obtain rfl := Option.some.inj hj
    rw [hn] at hs'
    simp at hs'
  have tended {v : World} {r' : RunId} {f : TaskRun → TaskRun} (hv : v.taskRuns = w.taskRuns)
      (hf : (f run).usedBy = run.usedBy ∧ (f run).live = run.live)
      (ht : w'.taskRuns = (v.modifyRun r' f).taskRuns) :
      ∃ run', w'.taskRuns r = some run' ∧ run'.usedBy = some j ∧ run'.live = true := by
    rw [ht, World.modifyRun_taskRuns, hv]
    by_cases he : r = r'
    · subst he
      exact ⟨f run, by rw [if_pos rfl, hr]; rfl, hf.1.trans hu, hf.2.trans hl⟩
    · exact ⟨run, by rw [if_neg he]; exact hr, hu, hl⟩
  have elsewhere {v : World} {r' : RunId} {f : TaskRun → TaskRun} (he : r ≠ r')
      (hv : v.taskRuns = w.taskRuns) (ht : w'.taskRuns = (v.modifyRun r' f).taskRuns) :
      ∃ run', w'.taskRuns r = some run' ∧ run'.usedBy = some j ∧ run'.live = true := by
    refine ⟨run, ?_, hu, hl⟩
    rw [ht, World.modifyRun_taskRuns, hv, if_neg he]
    exact hr
  cases h with
  | @called m c husable =>
    refine ⟨run, ?_, hu, hl⟩
    rw [World.start_taskRuns, if_neg]
    · exact hr
    · intro hc
      have usable := husable r hc
      simp [World.Usable, hr, hu] at usable
  | registered hop hc hs =>
    refine ⟨run, ?_, hu, hl⟩
    refine (Function.update_of_ne ?_ _ _).trans hr
    rintro rfl
    obtain ⟨op', hop', hs'⟩ := hw.creator _ _ hr
    rw [hop] at hop'
    rw [← Option.some.inj hop', hs] at hs'
    simp at hs'
  | fired => exact tended rfl ⟨rfl, rfl⟩ rfl
  | sent => exact tended rfl ⟨rfl, rfl⟩ rfl
  | receivedCancelled => exact tended rfl ⟨rfl, rfl⟩ rfl
  | receivedInput => exact tended rfl ⟨rfl, rfl⟩ rfl
  | answered hop hc hs =>
    refine elsewhere ?_ rfl rfl
    rintro rfl
    exact ended hop (by rw [hc]; rfl) (by rw [hs]; rfl) rfl rfl
  | unanswered hop hc hs =>
    refine elsewhere ?_ rfl rfl
    rintro rfl
    exact ended hop (by rw [hc]; rfl) hs rfl rfl
  | unwaited hop hc hs =>
    refine elsewhere ?_ rfl rfl
    rintro rfl
    exact ended hop (by rw [hc]; rfl) hs rfl rfl
  | consumed hop hc hs =>
    refine elsewhere ?_ rfl rfl
    rintro rfl
    exact ended hop hc (by rw [hs]; rfl) rfl rfl
  | unconsumed hop hs hc =>
    refine elsewhere ?_ rfl rfl
    rintro rfl
    exact ended hop hc hs rfl rfl
  | runDropped hr' hlive hfree =>
    refine elsewhere ?_ rfl rfl
    rintro rfl
    rw [hr] at hr'
    obtain rfl := Option.some.inj hr'
    rw [hu] at hfree
    simp at hfree
  | _ => exact ⟨run, hr, hu, hl⟩

private theorem Step.handed (h : Step cfg w a w') (hw : w.Registered) {j : OpId} {op' : Op}
    {owner : TaskOwner} {id : TaskId} {responses : InputResponses} {r : RunId}
    (hj : w'.ops j = some op') (hc' : op'.call = .applyInput owner id responses)
    (hi : op'.stage.inputs = some r) : ∃ run, w.taskRuns r = some run ∧ run.task.taskId = id := by
  have other {v : World} {k : OpId} {op : Op} {stage : Stage} (hv : v.ops = w.ops)
      (hne : stage.inputs = none) (hw' : w'.ops = (v.advance k op stage).ops) :
      ∃ run, w.taskRuns r = some run ∧ run.task.taskId = id := by
    rw [hw'] at hj
    obtain ⟨_, rfl⟩ | ⟨_, hj⟩ := World.setOp_eq_some hj
    · rw [hne] at hi
      simp at hi
    · rw [hv] at hj
      exact hw.handed j op' owner id responses r hj hc' hi
  have passive {c : Call} {stage : Stage} (hq : stage.Passive c) : stage.inputs = none := by
    cases stage <;> first | rfl | exact hq.elim
  cases h with
  | @called m c =>
    rw [World.start_ops] at hj
    by_cases he : j = w.nextOp
    · rw [he, Function.update_self] at hj
      obtain rfl := Option.some.inj hj
      simp [Stage.inputs] at hi
    · rw [Function.update_of_ne he] at hj
      exact hw.handed j op' owner id responses r hj hc' hi
  | looked hop hc hs =>
    obtain ⟨_, rfl⟩ | ⟨_, hj⟩ := World.setOp_eq_some hj
    · rw [hc] at hc'
      obtain ⟨rfl, rfl, rfl⟩ := Call.applyInput.inj hc'
      obtain ⟨run, hrun, _, hid, _⟩ := hw.listed _ _ _ hi
      exact ⟨run, hrun, hid⟩
    · exact hw.handed j op' owner id responses r hj hc' hi
  | taken hop hc hs =>
    obtain ⟨rfl, rfl⟩ | ⟨_, hj⟩ := World.setOp_eq_some hj
    · refine hw.handed _ _ owner id responses r hop hc' ?_
      rw [hs]
      exact hi
    · exact hw.handed j op' owner id responses r hj hc' hi
  | moved hop hs hq => exact other rfl (passive hq) rfl
  | updated hop hs hsub hq => exact other rfl (passive hq) rfl
  | stored | registered | recorded | asked | swept | sent | published | answered | consumed
  | signalled | fired | unheard | carried | uncarried | unanswered | forgotten | unwaited
  | unconsumed => exact other rfl rfl rfl
  | runDropped | unreceived | receivedCancelled | receivedInput | lost =>
    exact hw.handed j op' owner id responses r hj hc' hi

theorem Step.registered_kept (h : Step cfg w a w') (hwf : w.WellFormed) (hw : w.Registered) :
    w'.Registered where
  fresh _ _ hk := h.opMove.fresh hw hk
  creator r run hr := by
    obtain ⟨old, hold, _⟩ | ⟨op, hop, hs, _, _, ho⟩ := h.runMove.back hr
    · obtain ⟨op, hop, hs⟩ := hw.creator r old hold
      exact ⟨op, h.opMove.ended hw hop (by rw [hs]; rfl), hs⟩
    · exact ⟨_, ho, rfl⟩
  minted k m id hk := by
    obtain hk | ⟨_, hm, _⟩ := h.creates_back hk
    · exact (h.writes hwf).minted_mono (hw.minted k m id hk)
    · rw [hm]
      exact List.mem_cons_self
  single k m k' m' id hk hk' := by
    obtain hk | ⟨hn, _, now, ch, ha⟩ := h.creates_back hk
    · obtain hk' | ⟨hn, _⟩ := h.creates_back hk'
      · exact hw.single k m k' m' id hk hk'
      · exact absurd (hw.minted k m id hk) hn
    · obtain hk' | ⟨_, _, now', ch', ha'⟩ := h.creates_back hk'
      · exact absurd (hw.minted k' m' id hk') hn
      · rw [ha] at ha'
        exact (Action.poll.inj ha').1
  listed _ _ _ hl := h.runMove.listed hw hl
  live _ _ hr hlive := h.runMove.live hw hr hlive
  used j op' r hj hc hs := by
    obtain ⟨op, hop, hcall, _, hover⟩ | ⟨m, c, ha, rfl, rfl⟩ := h.opMove.back hj
    · obtain ⟨run, hr, hu, hl⟩ := hw.used j op r hop (hcall ▸ hc) (hover hs)
      exact h.held hw hj hs hr hu hl
    · subst ha
      obtain ⟨husable⟩ := h
      have usable := husable r hc
      cases hr : w.taskRuns r with
      | none => simp [World.Usable, hr] at usable
      | some run =>
        simp only [World.Usable, hr, Bool.and_eq_true] at usable
        refine ⟨{ run with usedBy := some w.nextOp }, ?_, rfl, usable.1.1⟩
        rw [World.start_taskRuns, if_pos hc, hr]
        rfl
  handed j op' owner id responses r hj hc hi := by
    obtain ⟨run, hr, hid⟩ := h.handed hw hj hc hi
    obtain ⟨run', hr', _, _, ht, _⟩ := h.runMove.forth hw hr
    exact ⟨run', hr', by rw [ht]; exact hid⟩

theorem reachable_registered (h : (machine cfg).Reachable w) : w.Registered := by
  refine h.invariant (P := World.Registered) ?_ ?_
  · rintro _ rfl
    exact init_registered
  · intro s a t hr hs step
    exact (World.step_sound step).registered_kept (reachable_wellFormed hr) hs

/-- Take the steps in turn, from `w`, each of them one that passes `test`. -/
def World.execIf (test : World → Action → Bool) (cfg : Config) (w : World)
    (actions : List Action) : Option World :=
  Transition.exec (fun w a => if test w a then w.step cfg a else none) w actions

theorem World.execIf_reachable {test : World → Action → Bool} {G : World → Action → Prop}
    (hG : ∀ w a, w.Registered → test w a = true → G w a) (actions : List Action)
    (h : w.execIf test cfg actions = some w') (hr : ((machine cfg).restrict G).Reachable w) :
    ((machine cfg).restrict G).Reachable w' := by
  refine hr.exec (fun v a v' hv hs => ?_) actions h
  split at hs
  · rename_i ht
    exact ⟨hG v a (reachable_registered hv.of_restrict) ht, hs⟩
  · simp at hs

end Tronc.Tasks
