import Tronc.Tasks.Registry

namespace Tronc.Tasks

open InMemoryTaskStore (Visible)

/-- The ids a call has still to signal, the one it is publishing among them. -/
def Stage.signals : Stage → List TaskId
  | .signalling ids _ => ids
  | .publishing id ids _ => id :: ids
  | _ => []

namespace World

/-- Task `id` was cancelled, or it is gone from the store. -/
def Ended (w : World) (id : TaskId) : Prop :=
  id ∈ w.minted ∧ ∀ owner t, w.entries.lookup id = some (owner, t) → t.status = .cancelled

/-- Only what has ended is signalled as cancelled. -/
structure Signals (w : World) : Prop where
  signalling : ∀ k op id, w.ops k = some op → id ∈ op.stage.signals → w.Ended id
  carried : ∀ c ∈ w.bus, ∀ id, c.signal = .cancelled id → w.Ended id
  fired : ∀ r run, w.taskRuns r = some run → run.cancel = true → w.Ended run.task.taskId
  undertook : ∀ k op id, w.ops k = some op → op.Undertook id → w.Ended id

/-- No run of `id` is live on manager `m` with its token unfired, nor will one be registered. -/
def Hushed (w : World) (m : ManagerId) (id : TaskId) : Prop :=
  (∀ k op task, w.ops k = some op → op.manager = m → op.stage = .stored task →
    task.taskId ≠ id) ∧
  ∀ r run, w.taskRuns r = some run → run.manager = m → run.task.taskId = id →
    run.live = true → run.cancel = true

/-- A cancellation is looked up in the live-run table with no `create` of that manager between
storing the task and registering its run. -/
def InOrder (w : World) : Action → Prop
  | .poll k _ _ => ∀ op id left outcome, w.ops k = some op →
    op.stage = .signalling (id :: left) outcome →
      ∀ j op' task, w.ops j = some op' → op'.manager = op.manager → op'.stage = .stored task →
        task.taskId ≠ id
  | _ => True

end World

variable {cfg : Config} {w w' : World} {a : Action}

theorem World.Ended.next (hr : (machine cfg).Reachable w) (h : w.step cfg a = some w')
    {id : TaskId} (hid : w.Ended id) : w'.Ended id := by
  have hwf := reachable_wellFormed hr
  obtain ⟨hm, hc⟩ := hid
  refine ⟨((World.step_sound h).writes hwf).minted_mono hm, fun owner t hl => ?_⟩
  have leads := step_life hr h id
  cases hl' : w.entries.lookup id with
  | none =>
    simp only [life, hl', hm, if_true, hl] at leads
    split at leads <;> simp only [Life.Leads] at leads
  | some e =>
    obtain ⟨owner', t'⟩ := e
    have hterm : t'.status.isTerminal = true := by
      rw [hc owner' t' hl']
      rfl
    simp only [life, hl', hterm, if_true, hl] at leads
    split at leads <;> simp only [Life.Leads] at leads
    rw [leads.2]
    exact hc owner' t' hl'

/-- What a cancel records and what a sweep removes has ended. -/
private theorem Step.recorded_ended {id : TaskId} {owner : TaskOwner} {t : DetailedTask} {at' : String}
    (hwf : w.WellFormed) (hl : w.entries.lookup id = some (owner, t))
    (he : w'.entries = w.entries.insert id (owner, t.touched at' .cancelled))
    (hm : w'.minted = w.minted) : w'.Ended id := by
  refine ⟨hm ▸ (hwf id owner t hl).2.2, fun owner' t' hl' => ?_⟩
  rw [he, AList.lookup_insert] at hl'
  obtain ⟨rfl, rfl⟩ := Prod.mk.inj (Option.some.inj hl')
  rfl

private theorem Step.swept_ended {id : TaskId} {now : Int} (hwf : w.WellFormed)
    (hid : id ∈ w.entries.keysWhere fun _ e => isExpired cfg.chrono now e.2.task)
    (he : w'.entries = w.entries.retain fun _ e => !isExpired cfg.chrono now e.2.task)
    (hm : w'.minted = w.minted) : w'.Ended id := by
  obtain ⟨⟨owner, t⟩, hl, hx⟩ := AList.mem_keysWhere.mp hid
  refine ⟨hm ▸ (hwf id owner t hl).2.2, fun owner' t' hl' => ?_⟩
  rw [he] at hl'
  obtain ⟨hl', hx'⟩ := AList.lookup_retain_eq_some.mp hl'
  rw [hl] at hl'
  obtain ⟨rfl, rfl⟩ := Prod.mk.inj (Option.some.inj hl')
  simp only at hx hx'
  rw [hx] at hx'
  simp at hx'

private theorem Stage.Passive.signals {c : Call} {stage : Stage} (hq : stage.Passive c) :
    stage.signals = [] := by
  cases stage <;> first | rfl | exact hq.elim

/-- What a call has to signal it had to signal before, or has ended by its own step. -/
private theorem Step.signals_back (h : Step cfg w a w') (hwf : w.WellFormed) {j : OpId} {op' : Op}
    {id : TaskId} (hj : w'.ops j = some op') (hid : id ∈ op'.stage.signals) :
    (∃ op, w.ops j = some op ∧ id ∈ op.stage.signals) ∨ w'.Ended id := by
  have other {v : World} {k : OpId} {op : Op} {stage : Stage} (hop : w.ops k = some op)
      (hv : v.ops = w.ops) (hsub : id ∈ stage.signals → id ∈ op.stage.signals)
      (hw' : w'.ops = (v.advance k op stage).ops) :
      ∃ op, w.ops j = some op ∧ id ∈ op.stage.signals := by
    rw [hw'] at hj
    obtain ⟨rfl, rfl⟩ | ⟨_, hj⟩ := World.setOp_eq_some hj
    · exact ⟨op, hop, hsub hid⟩
    · rw [hv] at hj
      exact ⟨op', hj, hid⟩
  have silent {op : Op} {stage : Stage} (hs : stage.signals = []) :
      id ∈ stage.signals → id ∈ op.stage.signals := by
    intro hin
    rw [hs] at hin
    simp at hin
  cases h with
  | @called m c =>
    rw [World.start_ops] at hj
    by_cases he : j = w.nextOp
    · rw [he, Function.update_self] at hj
      obtain rfl := Option.some.inj hj
      simp [Stage.signals] at hid
    · rw [Function.update_of_ne he] at hj
      exact .inl ⟨op', hj, hid⟩
  | recorded hop hc hs hv ht =>
    obtain ⟨rfl, rfl⟩ | ⟨_, hj⟩ := World.setOp_eq_some hj
    · obtain rfl := List.mem_singleton.mp hid
      exact .inr (Step.recorded_ended hwf hv.1 rfl rfl)
    · exact .inl ⟨op', hj, hid⟩
  | swept hop hc hs hids =>
    obtain ⟨rfl, rfl⟩ | ⟨_, hj⟩ := World.setOp_eq_some hj
    · rw [hids] at hid
      exact .inr (Step.swept_ended hwf hid rfl rfl)
    · exact .inl ⟨op', hj, hid⟩
  | fired hop hs =>
    exact .inl (other hop rfl (fun hin => by rw [hs]; exact List.mem_cons_of_mem _ hin) rfl)
  | unheard hop hs => exact .inl (other hop rfl (fun hin => by rw [hs]; exact hin) rfl)
  | carried hop hs | uncarried hop hs =>
    exact .inl (other hop rfl (fun hin => by rw [hs]; exact List.mem_cons_of_mem _ hin) rfl)
  | moved hop hs hq => exact .inl (other hop rfl (silent hq.signals) rfl)
  | updated hop hs hsub hq => exact .inl (other hop rfl (silent hq.signals) rfl)
  | stored hop | registered hop | taken hop | sent hop | published hop | answered hop
  | consumed hop | looked hop | signalled hop | unanswered hop | forgotten hop | unwaited hop
  | unconsumed hop | asked hop => exact .inl (other hop rfl (silent rfl) rfl)
  | runDropped | unreceived | receivedCancelled | receivedInput | lost =>
    exact .inl ⟨op', hj, hid⟩

private theorem Stage.Passive.not_undertook {op : Op} {stage : Stage} {id : TaskId}
    (hq : stage.Passive op.call) : ¬ ({ op with stage := stage } : Op).Undertook id := by
  intro hu
  unfold Op.Undertook at hu
  split at hu
  · rename_i owner id' hc
    obtain ⟨_, t, ho⟩ := hu
    cases stage with
    | returned outcome =>
      obtain rfl := Option.some.inj ho
      exact hq owner id' hc
    | _ => first | exact hq.elim | simp [Stage.outcome] at ho
  · obtain ⟨ids, ho, _⟩ := hu
    cases stage with
    | returned outcome =>
      obtain rfl := Option.some.inj ho
      exact hq
    | _ => first | exact hq.elim | simp [Stage.outcome] at ho
  · exact hu

/-- A call has undertaken no more than it had, unless by its own step, and then it has the id left
to signal; or it has just looked the id up. -/
inductive UndertookMove (w w' : World) (a : Action) (j : OpId) (op' : Op) (id : TaskId) : Prop where
  | before (op : Op) (hop : w.ops j = some op) (hm : op.manager = op'.manager)
      (hu : op.Undertook id) (hleft : id ∈ op.stage.left → id ∈ op'.stage.left)
  | undertaken (he : w'.Ended id) (hleft : id ∈ op'.stage.left)
  | fired (op : Op) (left : List TaskId) (outcome : Outcome) (r : RunId) (hop : w.ops j = some op)
      (hm : op.manager = op'.manager) (hu : op.Undertook id)
      (hs : op.stage = .signalling (id :: left) outcome) (ha : ∃ now ch, a = .poll j now ch)
      (hr : (w.runs op.manager).lookup id = some r)
      (ht : w'.taskRuns = (w.modifyRun r fun run => { run with cancel := true }).taskRuns)
  | unheard (op : Op) (left : List TaskId) (outcome : Outcome) (hop : w.ops j = some op)
      (hm : op.manager = op'.manager) (hu : op.Undertook id)
      (hs : op.stage = .signalling (id :: left) outcome) (ha : ∃ now ch, a = .poll j now ch)
      (hr : (w.runs op.manager).lookup id = none) (ht : w'.taskRuns = w.taskRuns)

theorem Op.Undertook.of_outcome {op : Op} {stage : Stage} {id : TaskId}
    (hu : ({ op with stage := stage } : Op).Undertook id) (ho : stage.outcome = op.stage.outcome) :
    op.Undertook id := by
  unfold Undertook at hu ⊢
  simp only [ho] at hu
  exact hu

theorem Step.undertookMove (h : Step cfg w a w') (hwf : w.WellFormed) {j : OpId} {op' : Op}
    {id : TaskId} (hj : w'.ops j = some op') (hu : op'.Undertook id) :
    UndertookMove w w' a j op' id := by
  have same (hj : w.ops j = some op') : UndertookMove w w' a j op' id :=
    .before op' hj rfl hu (fun hin => hin)
  have other {v : World} {k : OpId} {op : Op} {stage : Stage} (hv : v.ops = w.ops)
      (hne : ¬ ({ op with stage := stage } : Op).Undertook id)
      (hw' : w'.ops = (v.advance k op stage).ops) : UndertookMove w w' a j op' id := by
    rw [hw'] at hj
    obtain ⟨_, rfl⟩ | ⟨_, hj⟩ := World.setOp_eq_some hj
    · exact absurd hu hne
    · rw [hv] at hj
      exact same hj
  have none (op : Op) {stage : Stage} (ho : stage.outcome = Option.none) :
      ¬ ({ op with stage := stage } : Op).Undertook id := by
    intro hu
    unfold Op.Undertook at hu
    split at hu
    · obtain ⟨_, t, ho'⟩ := hu
      rw [ho] at ho'
      simp at ho'
    · obtain ⟨ids, ho', _⟩ := hu
      rw [ho] at ho'
      simp at ho'
    · exact hu
  have calls {op : Op} {stage : Stage} (hc : ∀ owner id, op.call ≠ .cancel owner id)
      (hc' : op.call ≠ .sweepExpired) : ¬ ({ op with stage := stage } : Op).Undertook id := by
    intro hu
    unfold Op.Undertook at hu
    split at hu
    · rename_i hcall
      exact hc _ _ hcall
    · rename_i hcall
      exact hc' hcall
    · exact hu
  cases h with
  | @called m c =>
    rw [World.start_ops] at hj
    by_cases he : j = w.nextOp
    · rw [he, Function.update_self] at hj
      obtain rfl := Option.some.inj hj
      exact absurd hu (none ⟨m, c, .called⟩ rfl)
    · rw [Function.update_of_ne he] at hj
      exact same hj
  | recorded hop hc hs hv ht =>
    obtain ⟨rfl, rfl⟩ | ⟨_, hj⟩ := World.setOp_eq_some hj
    · obtain ⟨rfl, _⟩ : id = _ ∧ _ := by simpa only [Op.Undertook, hc] using hu
      exact .undertaken (Step.recorded_ended hwf hv.1 rfl rfl) List.mem_cons_self
    · exact same hj
  | swept hop hc hs hids =>
    obtain ⟨rfl, rfl⟩ | ⟨_, hj⟩ := World.setOp_eq_some hj
    · obtain ⟨ids', ho, hid⟩ : ∃ ids', _ = some (Outcome.removed ids') ∧ id ∈ ids' := by
        simpa only [Op.Undertook, hc] using hu
      obtain rfl := Outcome.removed.inj (Option.some.inj ho)
      refine .undertaken (Step.swept_ended hwf ?_ rfl rfl) hid
      rw [← hids]
      exact hid
    · exact same hj
  | signalled hop hrun hs =>
    obtain ⟨rfl, rfl⟩ | ⟨_, hj⟩ := World.setOp_eq_some hj
    · refine .before _ hop rfl (hu.of_outcome (by rw [hs]; rfl)) fun hin => ?_
      rw [hs] at hin
      exact hin
    · exact same hj
  | @fired k now ch op id' left outcome r hop hs hr =>
    obtain ⟨rfl, rfl⟩ | ⟨_, hj⟩ := World.setOp_eq_some hj
    · have hu' : op.Undertook id := hu.of_outcome (by rw [hs]; rfl)
      by_cases hid : id = id'
      · subst hid
        exact .fired op left outcome r hop rfl hu' hs ⟨now, ch, rfl⟩ hr rfl
      · refine .before op hop rfl hu' fun hin => ?_
        rw [hs] at hin
        exact (List.mem_cons.mp hin).resolve_left hid
    · exact same hj
  | @unheard k now ch op id' left outcome hop hs hr =>
    obtain ⟨rfl, rfl⟩ | ⟨_, hj⟩ := World.setOp_eq_some hj
    · have hu' : op.Undertook id := hu.of_outcome (by rw [hs]; rfl)
      by_cases hid : id = id'
      · subst hid
        exact .unheard op left outcome hop rfl hu' hs ⟨now, ch, rfl⟩ hr rfl
      · refine .before op hop rfl hu' fun hin => ?_
        rw [hs] at hin
        exact (List.mem_cons.mp hin).resolve_left hid
    · exact same hj
  | carried hop hs | uncarried hop hs =>
    obtain ⟨rfl, rfl⟩ | ⟨_, hj⟩ := World.setOp_eq_some hj
    · refine .before _ hop rfl (hu.of_outcome (by rw [hs]; rfl)) fun hin => ?_
      rw [hs] at hin
      exact hin
    · exact same hj
  | moved hop hs hq => exact other rfl hq.not_undertook rfl
  | updated hop hs hsub hq => exact other rfl hq.not_undertook rfl
  | stored | taken | looked | asked | forgotten | unwaited | unconsumed =>
    exact other rfl (none _ rfl) rfl
  | registered hop hc | sent hop hc | published hop hc | answered hop hc | unanswered hop hc =>
    exact other rfl (calls (by simp [hc]) (by simp [hc])) rfl
  | consumed hop hc =>
    refine other rfl (calls (fun owner id hcall => ?_) (fun hcall => ?_)) rfl
    · rw [hcall] at hc
      simp [Call.run] at hc
    · rw [hcall] at hc
      simp [Call.run] at hc
  | runDropped | unreceived | receivedCancelled | receivedInput | lost => exact same hj

private theorem Step.carried_cancelled (h : Step cfg w a w') (hw : w.Signals) {c' : Carried}
    (hc' : c' ∈ w'.bus) {id : TaskId} (hsig : c'.signal = .cancelled id) : w.Ended id := by
  have received {i : Nat} {m : ManagerId} {c : Carried} (hi : w.bus[i]? = some c)
      (hc' : c' ∈ w.bus.set i { c with delivered := m :: c.delivered }) : w.Ended id := by
    obtain hc' | rfl := List.mem_or_eq_of_mem_set hc'
    · exact hw.carried c' hc' id hsig
    · exact hw.carried c (List.mem_of_getElem? hi) id hsig
  cases h with
  | called =>
    rw [World.start_bus] at hc'
    exact hw.carried c' hc' id hsig
  | carried hop hs =>
    obtain hc' | hc' := List.mem_append.mp hc'
    · exact hw.carried c' hc' id hsig
    · rw [List.mem_singleton.mp hc'] at hsig
      obtain rfl := TaskSignal.cancelled.inj hsig
      exact hw.signalling _ _ _ hop (by rw [hs]; exact List.mem_cons_self)
  | published =>
    obtain hc' | hc' := List.mem_append.mp hc'
    · exact hw.carried c' hc' id hsig
    · rw [List.mem_singleton.mp hc'] at hsig
      simp at hsig
  | unreceived hi => exact received hi hc'
  | receivedCancelled hi => exact received hi hc'
  | receivedInput hi => exact received hi hc'
  | lost => exact hw.carried c' (List.mem_of_mem_eraseIdx hc') id hsig
  | _ => exact hw.carried c' hc' id hsig

/-- A token that has fired had fired, or fires for a task that has ended. -/
private theorem Step.fired_back (h : Step cfg w a w') (hreg : w.Registered) (hw : w.Signals)
    {r : RunId} {run' : TaskRun} (hr' : w'.taskRuns r = some run') (hc : run'.cancel = true) :
    w.Ended run'.task.taskId := by
  have tended {v : World} {r' : RunId} {f : TaskRun → TaskRun}
      (ht : w'.taskRuns = (v.modifyRun r' f).taskRuns) (hv : v.taskRuns = w.taskRuns)
      (hf : ∀ run, (f run).task = run.task)
      (hfc : ∀ run, w.taskRuns r = some run → r = r' → (f run).cancel = true →
        w.Ended run.task.taskId) : w.Ended run'.task.taskId := by
    rw [ht, World.modifyRun_taskRuns, hv] at hr'
    by_cases he : r = r'
    · rw [if_pos he, ← he] at hr'
      obtain ⟨run, hrun, rfl⟩ := Option.map_eq_some_iff.mp hr'
      rw [hf]
      exact hfc run hrun he hc
    · rw [if_neg he] at hr'
      exact hw.fired r run' hr' hc
  have heard {m : ManagerId} {id : TaskId} {r' : RunId} (hl : (w.runs m).lookup id = some r')
      (hid : w.Ended id) (run : TaskRun) (hrun : w.taskRuns r = some run) (he : r = r') :
      w.Ended run.task.taskId := by
    subst he
    obtain ⟨run'', hr'', _, hid', _⟩ := hreg.listed m id r hl
    rw [hrun] at hr''
    obtain rfl := Option.some.inj hr''
    rw [hid']
    exact hid
  cases h with
  | @called m c =>
    rw [World.start_taskRuns] at hr'
    split at hr'
    · obtain ⟨run, hrun, rfl⟩ := Option.map_eq_some_iff.mp hr'
      exact hw.fired r run hrun hc
    · exact hw.fired r run' hr' hc
  | @registered k now ch op owner task hop hc' hs =>
    change Function.update w.taskRuns k _ r = some run' at hr'
    by_cases he : r = k
    · rw [he, Function.update_self] at hr'
      obtain rfl := Option.some.inj hr'
      simp at hc
    · rw [Function.update_of_ne he] at hr'
      exact hw.fired r run' hr' hc
  | fired hop hs hl =>
    refine tended rfl rfl (fun _ => rfl) fun run hrun he _ => ?_
    exact heard hl (hw.signalling _ _ _ hop (by rw [hs]; exact List.mem_cons_self)) run hrun he
  | receivedCancelled hi hm hsig hl =>
    refine tended rfl rfl (fun _ => rfl) fun run hrun he _ => ?_
    exact heard hl (hw.carried _ (List.mem_of_getElem? hi) _ hsig) run hrun he
  | sent | answered | unanswered | unwaited | receivedInput =>
    exact tended rfl rfl (fun _ => rfl) fun run hrun _ hc => hw.fired r run hrun hc
  | consumed | unconsumed | runDropped =>
    exact tended rfl rfl (fun _ => rfl) fun run hrun _ hc => hw.fired r run hrun hc
  | _ => exact hw.fired r run' hr' hc

private theorem signals_next (hr : (machine cfg).Reachable w) (hstep : w.step cfg a = some w')
    (hw : w.Signals) : w'.Signals := by
  have h := World.step_sound hstep
  have hwf := reachable_wellFormed hr
  refine ⟨?_, ?_, ?_, ?_⟩
  · intro k op id hk hid
    obtain ⟨op', hop', hid'⟩ | he := h.signals_back hwf hk hid
    · exact (hw.signalling k op' id hop' hid').next hr hstep
    · exact he
  · intro c hc id hsig
    exact (h.carried_cancelled hw hc hsig).next hr hstep
  · intro r run hrun hc
    exact (h.fired_back (reachable_registered hr) hw hrun hc).next hr hstep
  · intro k op id hk hu
    cases h.undertookMove hwf hk hu with
    | before op' hop' _ hu' | fired op' _ _ _ hop' _ hu' | unheard op' _ _ hop' _ hu' =>
      exact (hw.undertook k op' id hop' hu').next hr hstep
    | undertaken he => exact he

theorem reachable_signals (h : (machine cfg).Reachable w) : w.Signals := by
  refine h.invariant (P := World.Signals) ?_ ?_
  · rintro _ rfl
    constructor <;> simp [World.init]
  · intro s a t hr hs step
    exact signals_next hr step hs

/-- A task whose id was minted stays hushed on a manager once it is. -/
private theorem Step.hushed_kept (h : Step cfg w a w') (hreg : w.Registered) {m : ManagerId}
    {id : TaskId} (hid : id ∈ w.minted) (hw : w.Hushed m id) : w'.Hushed m id := by
  refine ⟨?_, ?_⟩
  · intro k op task hk hm hs he
    obtain hk | ⟨hn, _⟩ := h.stored_back hk hs
    · exact hw.1 k op task hk hm hs he
    · rw [he] at hn
      exact hn hid
  · intro r run' hr' hm ht hlive
    obtain ⟨run, hr, hm', ht', hl⟩ | ⟨op, hop, hs, hm', _⟩ := h.runMove.back hr'
    · obtain ⟨run'', hr'', _, _, _, hc, _⟩ := h.runMove.forth hreg hr
      rw [hr'] at hr''
      obtain rfl := Option.some.inj hr''
      exact hc (hw.2 r run hr (hm'.symm.trans hm) (by rw [← ht']; exact ht) (hl hlive))
    · exact absurd ht (hw.1 r op run'.task hop (hm'.trans hm) hs)

/-- What each call has undertaken and already looked up is hushed on its manager. -/
def World.Reaches (w : World) : Prop :=
  ∀ k op id, w.ops k = some op → op.Undertook id → id ∉ op.stage.left → w.Hushed op.manager id

private theorem reaches_next (hr : (machine cfg).Reachable w) (hstep : w.step cfg a = some w')
    (hg : w.InOrder a) (hw : w.Reaches) : w'.Reaches := by
  intro k op' id hk hu hleft
  have h := World.step_sound hstep
  have hreg := reachable_registered hr
  have hsig := reachable_signals hr
  -- no `create` holds the id while it is looked up, so the table has every run there will be
  have stored {op : Op} {left : List TaskId} {outcome : Outcome} (hop : w.ops k = some op)
      (hm : op.manager = op'.manager) (hs : op.stage = .signalling (id :: left) outcome)
      (ha : ∃ now ch, a = .poll k now ch) {j : OpId} {oj : Op} {task : Task}
      (hj : w'.ops j = some oj) (hmj : oj.manager = op'.manager) (hsj : oj.stage = .stored task)
      (hid : id ∈ w.minted) : task.taskId ≠ id := by
    obtain ⟨now, ch, rfl⟩ := ha
    obtain hj | ⟨hn, _⟩ := h.stored_back hj hsj
    · exact hg op id left outcome hop hs j oj task hj (hmj.trans hm.symm) hsj
    · rintro rfl
      exact hn hid
  cases h.undertookMove (reachable_wellFormed hr) hk hu with
  | before op hop hm hu' hl =>
    rw [← hm]
    exact h.hushed_kept hreg (hsig.undertook k op id hop hu').1
      (hw k op id hop hu' fun hin => hleft (hl hin))
  | undertaken _ hin => exact absurd hin hleft
  | fired op left outcome r hop hm hu' hs ha hl ht =>
    have hid := (hsig.undertook k op id hop hu').1
    refine ⟨fun j oj task hj hmj hsj => stored hop hm hs ha hj hmj hsj hid, ?_⟩
    intro r' run' hr' hmr htr hlive
    obtain ⟨run, hrun, hrm, hrt, _⟩ := hreg.listed op.manager id r hl
    have hrr : r' = r := by
      have hback := h.runMove.back hr'
      obtain ⟨old, hold, hom, hot, _⟩ | ⟨oj, hoj, hsj, hmj, _⟩ := hback
      · exact hreg.single r' old.manager r run.manager id
          (.inr ⟨old, hold, rfl, by rw [← hot]; exact htr⟩) (.inr ⟨run, hrun, rfl, hrt⟩)
      · exact hreg.single r' oj.manager r run.manager id
          (.inl ⟨oj, run'.task, hoj, rfl, hsj, htr⟩) (.inr ⟨run, hrun, rfl, hrt⟩)
    subst hrr
    rw [ht, World.modifyRun_taskRuns, if_pos rfl, hrun] at hr'
    obtain rfl := Option.some.inj hr'
    rfl
  | unheard op left outcome hop hm hu' hs ha hl ht =>
    have hid := (hsig.undertook k op id hop hu').1
    refine ⟨fun j oj task hj hmj hsj => stored hop hm hs ha hj hmj hsj hid, ?_⟩
    intro r run hrun hmr htr hlive
    rw [ht] at hrun
    have hlive := hreg.live r run hrun hlive
    rw [hmr, htr, ← hm, hl] at hlive
    simp at hlive

/-- A cancellation, or a sweep that removed the task, reaches every run of the task that is live
on its manager; and a run is only ever reached by one for a task that has ended. -/
structure World.CancellationReaches (w : World) : Prop where
  cancelled : ∀ k op owner id t, w.ops k = some op → op.call = .cancel owner id →
    op.stage = .returned (.task t) → ∀ r run, w.taskRuns r = some run →
      run.manager = op.manager → run.task.taskId = id → run.live = true → run.cancel = true
  swept : ∀ k op ids id, w.ops k = some op → op.call = .sweepExpired →
    op.stage = .returned (.removed ids) → id ∈ ids → ∀ r run, w.taskRuns r = some run →
      run.manager = op.manager → run.task.taskId = id → run.live = true → run.cancel = true
  fired : ∀ r run, w.taskRuns r = some run → run.cancel = true → ∀ owner t,
    w.entries.lookup run.task.taskId = some (owner, t) → t.payload = .cancelled

/-- In every run whose cancellations are looked up in order, they reach what they cancel. -/
theorem cancellation_reaches
    (h : ((machine cfg).restrict World.InOrder).Reachable w) : w.CancellationReaches := by
  have hw : w.Reaches := by
    refine h.invariant (P := World.Reaches) ?_ ?_
    · rintro _ rfl k op id hk
      simp [World.init] at hk
    · intro s a t hr hs step
      exact reaches_next hr.of_restrict step.2 step.1 hs
  have hsig := reachable_signals h.of_restrict
  have hwf := reachable_wellFormed h.of_restrict
  refine ⟨?_, ?_, ?_⟩
  · intro k op owner id t hk hc hs r run hr hm ht hl
    refine (hw k op id hk ?_ ?_).2 r run hr hm ht hl
    · simp only [Op.Undertook, hc]
      exact ⟨trivial, t, by rw [hs]; rfl⟩
    · rw [hs]
      simp [Stage.left]
  · intro k op ids id hk hc hs hid r run hr hm ht hl
    refine (hw k op id hk ?_ ?_).2 r run hr hm ht hl
    · simp only [Op.Undertook, hc]
      exact ⟨ids, by rw [hs]; rfl, hid⟩
    · rw [hs]
      simp [Stage.left]
  · intro r run hr hc owner t hl
    have hst := (hsig.fired r run hr hc).2 owner t hl
    have agrees : t.status = t.payload.status := (hwf _ owner t hl).1
    rw [hst] at agrees
    cases hp : t.payload <;> rw [hp] at agrees <;> simp [TaskPayload.status] at agrees

/-- A test that a step looks its cancellation up in order. -/
def World.order (w : World) : Action → Bool
  | .poll k _ _ =>
    match w.ops k with
    | some ⟨m, _, .signalling (id :: _) _⟩ => (List.range w.nextOp).all fun j =>
      match w.ops j with
      | some ⟨m', _, .stored task⟩ => m' != m || task.taskId != id
      | _ => true
    | _ => true
  | _ => true

theorem World.inOrder_of_order (w : World) (a : Action) (hw : w.Registered)
    (h : w.order a = true) : w.InOrder a := by
  cases a with
  | poll k now ch =>
    rintro ⟨m, c, stage⟩ id left outcome hop hs j ⟨m', c', stage'⟩ task hj hm hs' rfl
    obtain rfl : stage = _ := hs
    obtain rfl : stage' = _ := hs'
    obtain rfl : m' = m := hm
    simp only [order, hop, List.all_eq_true, List.mem_range] at h
    have hq := h j (hw.fresh j _ hj)
    rw [hj] at hq
    simp at hq
  | _ => trivial

/-- A task created and cancelled by its owner. -/
def cancelledRun : List Action :=
  [.call 0 (.create ⟨some "user", none⟩), .poll 0 0 .task, .poll 0 0 .task,
    .call 0 (.cancel ⟨some "user", none⟩ ⟨"task"⟩), .poll 1 0 .task, .poll 1 0 .task,
    .poll 1 0 .task]

theorem cancellation_reaches_run :
    ∃ w, World.init.execIf World.order (.plain none) cancelledRun = some w ∧
      (w.taskRuns 0).map TaskRun.cancel = some true ∧ w.CancellationReaches := by
  have hrun : (World.init.execIf World.order (.plain none) cancelledRun).map
      (fun w => (w.taskRuns 0).map TaskRun.cancel) = some (some true) := by decide
  obtain ⟨w, hw, hc⟩ := Option.map_eq_some_iff.mp hrun
  exact ⟨w, hw, hc, cancellation_reaches
    (World.execIf_reachable World.inOrder_of_order cancelledRun hw (.start rfl))⟩

/-- A sweep removes a task that lives for no time at all before its run is registered. -/
def unheardRun : List Action :=
  [.call 0 (.create ⟨some "user", none⟩), .poll 0 0 .task, .call 0 .sweepExpired,
    .poll 1 1 .task, .poll 1 1 .task, .poll 1 1 .task, .poll 1 1 .task, .poll 0 1 .task]

theorem cancellation_unheard :
    ∃ w, World.init.exec (.plain (some 0)) unheardRun = some w ∧
      (machine (.plain (some 0))).Reachable w ∧
      w.ops 0 = some ⟨0, .create ⟨some "user", none⟩, .returned (.run 0)⟩ ∧
      w.ops 1 = some ⟨0, .sweepExpired, .returned (.removed [⟨"task"⟩])⟩ ∧
      (w.taskRuns 0).map (fun run => (run.live, run.cancel)) = some (true, false) ∧
      ¬ w.CancellationReaches := by
  have hfirst : (World.init.exec (.plain (some 0)) unheardRun).map (fun w => w.ops 0) =
      some (some ⟨0, .create ⟨some "user", none⟩, .returned (.run 0)⟩) := by decide
  have hsecond : (World.init.exec (.plain (some 0)) unheardRun).map (fun w => w.ops 1) =
      some (some ⟨0, .sweepExpired, .returned (.removed [⟨"task"⟩])⟩) := by decide
  have hthird : (World.init.exec (.plain (some 0)) unheardRun).map (fun w => w.taskRuns 0) =
      some (some ⟨0, ⟨some "user", none⟩, .new "1970-01-01T00:00:00.000Z" ⟨"task"⟩ (some 0)
        (some 1000), false, [], true, none⟩) := by decide
  obtain ⟨w, hw, h0⟩ := Option.map_eq_some_iff.mp hfirst
  rw [hw] at hsecond hthird
  have h1 : w.ops 1 = _ := Option.some.inj hsecond
  have hr : w.taskRuns 0 = _ := Option.some.inj hthird
  refine ⟨w, hw, World.exec_reachable unheardRun hw (init_reachable _), h0, h1, ?_, fun h => ?_⟩
  · rw [hr]
    rfl
  · have fired := h.swept 1 _ _ _ h1 rfl rfl List.mem_cons_self 0 _ hr rfl rfl rfl
    simp at fired

end Tronc.Tasks
