import Tronc.Tasks.Finality
import Tronc.Tasks.Registry

namespace Tronc.Tasks

open InMemoryTaskStore (Visible)
open Transition (Taken)

/-- The hand-over of manager `m` works now: the local run is live, or the bus takes the signal. -/
def World.Receptive (cfg : Config) (w : World) (m : ManagerId) (published : Bool) :
    Option RunId → Prop
  | some r => ∃ run, w.taskRuns r = some run ∧ run.live = true
  | none => cfg.signals m = true ∧ published = true

/-- An answer for task `id` is in the channel of its run, or on the bus. -/
def World.Passed (w w' : World) (id : TaskId) (answer : Answer) : Option RunId → Prop
  | some r => ∃ run, w.taskRuns r = some run ∧ run.live = true ∧
      w'.taskRuns r = some { run with inputs := run.inputs ++ [answer] }
  | none => w'.bus = w.bus ++ [⟨.input id answer, []⟩]

/-- One atomic section of an `apply_input` of `responses`, by where it starts and where it ends. -/
inductive ApplyMove (cfg : Config) (m : ManagerId) (published : Bool) (now : Int)
    (owner : TaskOwner) (id : TaskId) (responses : InputResponses) (w w' : World) :
    Stage → Stage → Prop where
  | seen (he : w'.entries = w.entries) :
      ApplyMove cfg m published now owner id responses w w' .called .visible
  | looked {inputs} (he : w'.entries = w.entries) :
      ApplyMove cfg m published now owner id responses w w' .visible (.found inputs)
  | refused {s e} (hs : s = .called ∨ s = .visible ∨ ∃ inputs, s = .found inputs)
      (he : w'.entries = w.entries) :
      ApplyMove cfg m published now owner id responses w w' s (.returned (.error e))
  | taken {inputs answer u t requests} (hv : Visible cfg.chrono now w.entries owner id t)
      (hp : t.payload = .inputRequired requests) (hk : SameKeys requests responses)
      (he : w'.entries = w.entries.insert id
        (owner, t.touched (cfg.chrono.toRfc3339Millis now) .working))
      (ha : answer.responses = responses) :
      ApplyMove cfg m published now owner id responses w w' (.found inputs)
        (.working inputs answer u)
  | handed {inputs answer u} (he : w'.entries = w.entries)
      (hr : w.Receptive cfg m published inputs) (hp : w.Passed w' id answer inputs) :
      ApplyMove cfg m published now owner id responses w w' (.working inputs answer u)
        (.returned (.task u))
  | unhanded {inputs answer u isLocal} (he : w'.entries = w.entries) :
      ApplyMove cfg m published now owner id responses w w' (.working inputs answer u)
        (.unhanded isLocal)
  | failed {isLocal t} (hv : Visible cfg.chrono now w.entries owner id t)
      (ht : t.status.isTerminal = false)
      (he : w'.entries = w.entries.insert id (owner, t.touched (cfg.chrono.toRfc3339Millis now)
        (.failed (TaskManager.unhandedError isLocal)))) :
      ApplyMove cfg m published now owner id responses w w' (.unhanded isLocal)
        (.returned (.error (.detached id)))
  | late {isLocal e} (he : w'.entries = w.entries)
      (hl : (e = .notFound id ∧ ∀ t, ¬ Visible cfg.chrono now w.entries owner id t) ∨
        ∃ t, Visible cfg.chrono now w.entries owner id t ∧ t.status.isTerminal = true ∧
          e = .invalidState id t.status) :
      ApplyMove cfg m published now owner id responses w w' (.unhanded isLocal)
        (.returned (.error e))

variable {cfg : Config} {w w' : World} {a : Action} {k : OpId}

/-- A transition is refused because the task is absent or settled, or it is written. -/
theorem World.transition_refused {now : Int} {owner : TaskOwner} {id : TaskId}
    {payload : TaskPayload} {e : TaskError}
    (h : w.transition cfg now k owner id payload = (w', .error e)) :
    w' = w ∧ ((e = .notFound id ∧ ∀ t, ¬ Visible cfg.chrono now w.entries owner id t) ∨
      ∃ t, Visible cfg.chrono now w.entries owner id t ∧ t.status.isTerminal = true ∧
        e = .invalidState id t.status) := by
  obtain ⟨e', he, rfl, hr⟩ | ⟨_, _, _, _, hr⟩ := World.transition_update h
  · obtain rfl := Except.error.inj hr
    refine ⟨rfl, ?_⟩
    obtain ⟨hn, hr⟩ | ⟨t, hv, hr⟩ := InMemoryTaskStore.update_cases he
    · exact .inl ⟨Except.error.inj hr, hn⟩
    · cases ht : t.status.isTerminal with
      | false => simp [TaskManager.transitionUpdate, ht, Except.map] at hr
      | true =>
        rw [TaskManager.transitionUpdate_settled ht] at hr
        exact .inr ⟨t, hv, ht, Except.error.inj hr⟩
  · simp at hr

theorem World.publish_receptive {m : ManagerId} {signal : TaskSignal} {published : Bool}
    (h : w.publish cfg m signal published = (w', true)) : w.Receptive cfg m published none := by
  unfold publish at h
  split at h
  · rename_i hboth
    exact Bool.and_eq_true_iff.mp hboth
  · cases (Prod.mk.inj h).2

theorem World.pollApplyInput_move {m : ManagerId} {owner : TaskOwner} {id : TaskId}
    {responses : InputResponses} {now : Int} {published : Bool} {stage stage' : Stage}
    (h : w.pollApplyInput cfg k m owner id responses now published stage = some (w', stage')) :
    ApplyMove cfg m published now owner id responses w w' stage stage' := by
  cases stage <;> try contradiction
  case called =>
    simp only [pollApplyInput] at h
    split at h <;> obtain ⟨rfl, rfl⟩ := Prod.mk.inj (Option.some.inj h)
    · exact .refused (.inl rfl) rfl
    · exact .seen rfl
  case visible =>
    simp only [pollApplyInput] at h
    split at h <;> obtain ⟨rfl, rfl⟩ := Prod.mk.inj (Option.some.inj h)
    · exact .refused (.inr (.inl rfl)) rfl
    · exact .looked rfl
  case found inputs =>
    simp only [pollApplyInput] at h
    split at h
    · obtain ⟨rfl, rfl⟩ := Prod.mk.inj (Option.some.inj h)
      exact .refused (.inr (.inr ⟨inputs, rfl⟩)) rfl
    · rename_i entries working hu
      obtain ⟨rfl, rfl⟩ := Prod.mk.inj (Option.some.inj h)
      obtain ⟨t, hv, ha, rfl⟩ := InMemoryTaskStore.update_eq_ok.mp hu
      obtain ⟨requests, hp, hkeys, rfl⟩ := applyInputUpdate_eq_ok.mp ha
      exact .taken hv hp hkeys rfl rfl
  case working inputs answer working =>
    cases inputs with
    | some r =>
      simp only [pollApplyInput] at h
      split at h <;> rename_i hsend <;> obtain ⟨rfl, rfl⟩ := Prod.mk.inj (Option.some.inj h)
      · obtain ⟨_, run, hrun, hlive, rfl⟩ | ⟨hfalse, _, _⟩ := send_cases hsend
        · refine .handed rfl ⟨run, hrun, hlive⟩ ⟨run, hrun, hlive, ?_⟩
          simp [modifyRun, hrun]
        · cases hfalse
      · obtain ⟨_, _, _, _, rfl⟩ | ⟨_, rfl, _⟩ := send_cases hsend
        · exact .unhanded rfl
        · exact .unhanded rfl
    | none =>
      simp only [pollApplyInput] at h
      split at h <;> rename_i hpub <;> obtain ⟨rfl, rfl⟩ := Prod.mk.inj (Option.some.inj h)
      · obtain ⟨_, rfl⟩ | ⟨hfalse, _⟩ := publish_cases hpub
        · exact .handed rfl (publish_receptive hpub) rfl
        · cases hfalse
      · obtain ⟨_, rfl⟩ | ⟨_, rfl⟩ := publish_cases hpub
        · exact .unhanded rfl
        · exact .unhanded rfl
  case unhanded isLocal =>
    simp only [pollApplyInput] at h
    split at h <;> rename_i ht <;> obtain ⟨rfl, rfl⟩ := Prod.mk.inj (Option.some.inj h)
    · obtain ⟨rfl, hl⟩ := transition_refused ht
      exact .late rfl hl
    · obtain ⟨_, e, hr⟩ | ⟨t, u, asked', hv, hl, rfl, hr, rfl, ha⟩ := transition_cases ht
      · simp at hr
      · exact .failed hv hl rfl

/-- The step is one of call `k`. -/
def Polls (k : OpId) (x : Taken World Action) : Prop := ∃ now ch, x.label = .poll k now ch

/-- No step of call `k` changed any stored task. -/
def Untouched (k : OpId) (tr : List (Taken World Action)) : Prop :=
  ∀ x ∈ tr, Polls k x → x.target.entries = x.source.entries

/-- The step takes the input off a task that waits on requests with just these keys. -/
def TakesInput (cfg : Config) (k : OpId) (owner : TaskOwner) (id : TaskId)
    (responses : InputResponses) (x : Taken World Action) : Prop :=
  ∃ now ch t requests, x.label = .poll k now ch ∧
    Visible cfg.chrono now x.source.entries owner id t ∧
    t.payload = .inputRequired requests ∧ SameKeys requests responses ∧
    x.target.entries = x.source.entries.insert id
      (owner, t.touched (cfg.chrono.toRfc3339Millis now) .working)

/-- The step hands the responses over: to the channel of a live run of the task, or to the bus. -/
def HandsOver (k : OpId) (id : TaskId) (responses : InputResponses)
    (x : Taken World Action) : Prop :=
  ∃ now ch answer inputs, x.label = .poll k now ch ∧ answer.responses = responses ∧
    x.source.Passed x.target id answer inputs ∧
    ∀ r, inputs = some r → ∃ run, x.source.taskRuns r = some run ∧ run.task.taskId = id

/-- The step tries to hand the input over, and neither a live run nor the bus takes it. -/
def FailsHandOver (cfg : Config) (k : OpId) (x : Taken World Action) : Prop :=
  ∃ now ch op inputs answer u, x.label = .poll k now ch ∧ x.source.ops k = some op ∧
    op.stage = .working inputs answer u ∧ ¬ x.source.Receptive cfg op.manager ch.published inputs

/-- The step closes a task whose input could not be handed over: when the call returns `e`, the
task is settled, past its TTL or gone. -/
def ClosesTask (cfg : Config) (k : OpId) (id : TaskId) (e : TaskError)
    (x : Taken World Action) : Prop :=
  ∃ now ch isLocal, x.label = .poll k now ch ∧
    (x.source.ops k).map Op.stage = some (.unhanded isLocal) ∧
    (x.target.ops k).map Op.stage = some (.returned (.error e)) ∧
    (∀ owner t, x.target.entries.lookup id = some (owner, t) →
      t.status.isTerminal = true ∨ isExpired cfg.chrono now t.task = true) ∧
    (e = .detached id ∨ (e = .notFound id ∨ ∃ status, e = .invalidState id status) ∧
      x.target.entries = x.source.entries)

/-- Task `id` was minted, and no one but `owner` holds it. -/
def World.Owned (w : World) (id : TaskId) (owner : TaskOwner) : Prop :=
  id ∈ w.minted ∧ ∀ owner' t, w.entries.lookup id = some (owner', t) → owner' = owner

theorem World.Owned.next {id : TaskId} {owner : TaskOwner} (hr : (machine cfg).Reachable w)
    (h : w.step cfg a = some w') (ho : w.Owned id owner) : w'.Owned id owner := by
  have hwf := reachable_wellFormed hr
  refine ⟨((World.step_sound h).writes hwf).minted_mono ho.1, fun owner' t' hl' => ?_⟩
  have leads := step_life hr h id
  cases hl : w.entries.lookup id with
  | none =>
    simp only [life, hl, ho.1, if_true, hl'] at leads
    split at leads <;> simp only [Life.Leads] at leads
  | some e =>
    obtain ⟨owner'', t⟩ := e
    rw [← ho.2 owner'' t hl]
    simp only [life, hl, hl'] at leads
    split at leads <;> split at leads <;> simp only [Life.Leads] at leads
    · exact leads.1
    · exact leads.1
    · exact leads.1

/-- No hand-over of call `k` has failed. -/
def Unfailed (cfg : Config) (k : OpId) (tr : List (Taken World Action)) : Prop :=
  ∀ x ∈ tr, ¬ FailsHandOver cfg k x

/-- What an `apply_input` has done by the time it stands at a stage. -/
def Course (cfg : Config) (k : OpId) (owner : TaskOwner) (id : TaskId) (responses : InputResponses)
    (tr : List (Taken World Action)) (w : World) : Stage → Prop
  | .called | .visible | .found _ => Untouched k tr ∧ Unfailed cfg k tr
  | .working _ answer _ => ((∃ x ∈ tr, TakesInput cfg k owner id responses x) ∧ w.Owned id owner) ∧
    answer.responses = responses ∧ Unfailed cfg k tr
  | .unhanded _ => (∃ x ∈ tr, TakesInput cfg k owner id responses x) ∧ w.Owned id owner
  | .returned (.task _) => (∃ x ∈ tr, TakesInput cfg k owner id responses x) ∧
    (∃ x ∈ tr, HandsOver k id responses x) ∧ Unfailed cfg k tr
  | .returned (.error e) => Untouched k tr ∧ Unfailed cfg k tr ∨
    (∃ x ∈ tr, TakesInput cfg k owner id responses x) ∧ ∃ x ∈ tr, ClosesTask cfg k id e x
  | .dropped => True
  | _ => False

/-- The only changes an `apply_input` makes: it takes the input, and it closes the task. -/
def WritesOnly (cfg : Config) (k : OpId) (owner : TaskOwner) (id : TaskId)
    (responses : InputResponses) (tr : List (Taken World Action)) : Prop :=
  ∀ x ∈ tr, Polls k x → x.target.entries = x.source.entries ∨
    TakesInput cfg k owner id responses x ∨ ∃ e, ClosesTask cfg k id e x

section Snoc

variable {tr : List (Taken World Action)} {x : Taken World Action} {owner : TaskOwner}
  {id : TaskId} {responses : InputResponses}

private theorem Untouched.snoc (h : Untouched k tr)
    (hx : Polls k x → x.target.entries = x.source.entries) : Untouched k (tr ++ [x]) := by
  intro y hy hp
  rcases List.mem_append.mp hy with hy | hy
  · exact h y hy hp
  · rw [List.mem_singleton.mp hy] at hp ⊢
    exact hx hp

private theorem Unfailed.snoc (h : Unfailed cfg k tr) (hx : ¬ FailsHandOver cfg k x) :
    Unfailed cfg k (tr ++ [x]) := by
  intro y hy
  rcases List.mem_append.mp hy with hy | hy
  · exact h y hy
  · rw [List.mem_singleton.mp hy]
    exact hx

private theorem FailsHandOver.polls (h : FailsHandOver cfg k x) : Polls k x := by
  obtain ⟨now, ch, _, _, _, _, hlabel, _⟩ := h
  exact ⟨now, ch, hlabel⟩

private theorem WritesOnly.snoc (h : WritesOnly cfg k owner id responses tr)
    (hx : Polls k x → x.target.entries = x.source.entries ∨
      TakesInput cfg k owner id responses x ∨ ∃ e, ClosesTask cfg k id e x) :
    WritesOnly cfg k owner id responses (tr ++ [x]) := by
  intro y hy hp
  rcases List.mem_append.mp hy with hy | hy
  · exact h y hy hp
  · rw [List.mem_singleton.mp hy] at hp ⊢
    exact hx hp

private theorem exists_snoc {E : Taken World Action → Prop} (h : ∃ y ∈ tr, E y) :
    ∃ y ∈ tr ++ [x], E y := by
  obtain ⟨y, hy, he⟩ := h
  exact ⟨y, List.mem_append_left _ hy, he⟩

private theorem last_snoc {E : Taken World Action → Prop} (h : E x) : ∃ y ∈ tr ++ [x], E y :=
  ⟨x, List.mem_append_right _ (List.mem_singleton_self _), h⟩

/-- The steps of others leave the course of a call as it is. -/
private theorem Course.snoc {stage : Stage} (hr : (machine cfg).Reachable w)
    (h : w.step cfg a = some w') (hn : ¬ Polls k ⟨w, a, w'⟩)
    (hc : Course cfg k owner id responses tr w stage) :
    Course cfg k owner id responses (tr ++ [⟨w, a, w'⟩]) w' stage := by
  have untouched (hu : Untouched k tr) : Untouched k (tr ++ [⟨w, a, w'⟩]) :=
    hu.snoc fun hp => absurd hp hn
  have unfailed (hu : Unfailed cfg k tr) : Unfailed cfg k (tr ++ [⟨w, a, w'⟩]) :=
    hu.snoc fun hf => hn hf.polls
  cases stage with
  | called | visible | found => exact ⟨untouched hc.1, unfailed hc.2⟩
  | working => exact ⟨⟨exists_snoc hc.1.1, hc.1.2.next hr h⟩, hc.2.1, unfailed hc.2.2⟩
  | unhanded => exact ⟨exists_snoc hc.1, hc.2.next hr h⟩
  | returned outcome =>
    cases outcome with
    | task t => exact ⟨exists_snoc hc.1, exists_snoc hc.2.1, unfailed hc.2.2⟩
    | error e =>
      obtain hc | hc := hc
      · exact .inl ⟨untouched hc.1, unfailed hc.2⟩
      · exact .inr ⟨exists_snoc hc.1, exists_snoc hc.2⟩
    | run | removed | responses => exact hc
  | dropped => trivial
  | stored | signalling | publishing | awaiting | settled => exact hc

end Snoc

private theorem World.step_dropFuture {op : Op} {owner : TaskOwner} {id : TaskId}
    {responses : InputResponses} (hop : w.ops k = some op)
    (hc : op.call = .applyInput owner id responses)
    (h : w.step cfg (.dropFuture k) = some w') :
    w'.ops k = some { op with stage := .dropped } := by
  simp only [step, hop] at h
  split at h
  · simp at h
  · obtain rfl := Option.some.inj h
    simp only [dropFuture, hc, World.setOp_ops, if_true]

/-- One step of the call itself moves its course on. -/
private theorem Course.polled {op : Op} {owner : TaskOwner} {id : TaskId}
    {responses : InputResponses} {tr : List (Taken World Action)} {now : Int} {ch : Choice}
    (hr : (machine cfg).Reachable w) (hop : w.ops k = some op)
    (hcall : op.call = .applyInput owner id responses)
    (h : w.step cfg (.poll k now ch) = some w')
    (hc : Course cfg k owner id responses tr w op.stage)
    (hw : WritesOnly cfg k owner id responses tr) :
    ∃ stage, w'.ops k = some { op with stage := stage } ∧
      Course cfg k owner id responses (tr ++ [⟨w, .poll k now ch, w'⟩]) w' stage ∧
      WritesOnly cfg k owner id responses (tr ++ [⟨w, .poll k now ch, w'⟩]) := by
  obtain ⟨v, stage, hp, hw'⟩ := World.step_poll hop h
  simp only [World.poll, hcall] at hp
  have move := World.pollApplyInput_move hp
  have he' : w'.entries = v.entries := by rw [hw', World.setOp_entries]
  have hop' : w'.ops k = some { op with stage := stage } := by
    rw [hw', World.setOp_ops, if_pos rfl]
  refine ⟨stage, hop', ?_⟩
  have receptive {inputs : Option RunId} {answer : Answer} {u : DetailedTask}
      (hs : op.stage = .working inputs answer u)
      (hf : FailsHandOver cfg k ⟨w, .poll k now ch, w'⟩) :
      ¬ w.Receptive cfg op.manager ch.published inputs := by
    obtain ⟨now', ch', op', inputs', answer', u', hlabel, hop'', hs', hnot⟩ := hf
    obtain ⟨rfl, rfl⟩ : now = now' ∧ ch = ch' := by injection hlabel with _ h₁ h₂; exact ⟨h₁, h₂⟩
    obtain rfl := Option.some.inj (hop.symm.trans hop'')
    rw [hs] at hs'
    obtain ⟨rfl, _, _⟩ := Stage.working.inj hs'
    exact hnot
  have elsewhere (hs : ∀ inputs answer u, op.stage ≠ .working inputs answer u) :
      ¬ FailsHandOver cfg k ⟨w, .poll k now ch, w'⟩ := by
    rintro ⟨_, _, op', inputs', answer', u', _, hop'', hs', _⟩
    obtain rfl := Option.some.inj (hop.symm.trans hop'')
    exact hs _ _ _ hs'
  generalize hs : op.stage = from' at hc move receptive elsewhere
  cases move with
  | seen he | looked he =>
    exact ⟨⟨Untouched.snoc hc.1 fun _ => he'.trans he, hc.2.snoc (elsewhere (by simp))⟩,
      hw.snoc fun _ => .inl (he'.trans he)⟩
  | refused hfrom he =>
    have hu : Untouched k tr ∧ Unfailed cfg k tr := by
      rcases hfrom with rfl | rfl | ⟨inputs, rfl⟩ <;> exact hc
    have hother : ∀ inputs answer u, from' ≠ .working inputs answer u := by
      rcases hfrom with rfl | rfl | ⟨inputs, rfl⟩ <;> simp
    exact ⟨.inl ⟨hu.1.snoc fun _ => he'.trans he, hu.2.snoc (elsewhere hother)⟩,
      hw.snoc fun _ => .inl (he'.trans he)⟩
  | taken hv hpay hk he ha =>
    have takes : TakesInput cfg k owner id responses ⟨w, .poll k now ch, w'⟩ :=
      ⟨now, ch, _, _, rfl, hv, hpay, hk, he'.trans he⟩
    have owned : w.Owned id owner := by
      refine ⟨(reachable_wellFormed hr id owner _ hv.1).2.2, fun owner' t hl => ?_⟩
      rw [hv.1] at hl
      exact (Prod.mk.inj (Option.some.inj hl)).1.symm
    exact ⟨⟨⟨last_snoc takes, owned.next hr h⟩, ha, hc.2.snoc (elsewhere (by simp))⟩,
      hw.snoc fun _ => .inr (.inl takes)⟩
  | @handed inputs answer u he hreceptive hpassed =>
    have hands : HandsOver k id responses ⟨w, .poll k now ch, w'⟩ := by
      refine ⟨now, ch, answer, inputs, rfl, hc.2.1, ?_, ?_⟩
      · rw [hw']
        cases inputs with
        | some r => exact hpassed
        | none => exact hpassed
      · rintro r rfl
        exact (reachable_registered hr).handed k op owner id responses r hop hcall (by rw [hs]; rfl)
    exact ⟨⟨exists_snoc hc.1.1, last_snoc hands,
      hc.2.2.snoc fun hf => receptive rfl hf hreceptive⟩, hw.snoc fun _ => .inl (he'.trans he)⟩
  | unhanded he =>
    exact ⟨⟨exists_snoc hc.1.1, hc.1.2.next hr h⟩, hw.snoc fun _ => .inl (he'.trans he)⟩
  | @failed isLocal t hv ht he =>
    have closes : ClosesTask cfg k id (.detached id) ⟨w, .poll k now ch, w'⟩ := by
      refine ⟨now, ch, isLocal, rfl, by rw [hop, Option.map_some, hs], by rw [hop', Option.map_some],
        fun owner' t' hl => .inl ?_, .inl rfl⟩
      rw [he', he, AList.lookup_insert] at hl
      obtain ⟨_, rfl⟩ := Prod.mk.inj (Option.some.inj hl)
      rfl
    exact ⟨.inr ⟨exists_snoc hc.1, last_snoc closes⟩, hw.snoc fun _ => .inr (.inr ⟨_, closes⟩)⟩
  | @late isLocal e he hl =>
    have closes : ClosesTask cfg k id e ⟨w, .poll k now ch, w'⟩ := by
      refine ⟨now, ch, isLocal, rfl, by rw [hop, Option.map_some, hs], by rw [hop', Option.map_some],
        fun owner' t' hl' => ?_, .inr ⟨?_, he'.trans he⟩⟩
      · rw [he', he] at hl'
        obtain rfl := hc.2.2 owner' t' hl'
        obtain ⟨_, hn⟩ | ⟨t, hv, ht, _⟩ := hl
        · refine .inr (Bool.not_eq_false _ |>.mp fun hx => ?_)
          exact hn t' ⟨hl', hx⟩
        · rw [hv.1] at hl'
          obtain ⟨_, rfl⟩ := Prod.mk.inj (Option.some.inj hl')
          exact .inl ht
      · obtain ⟨rfl, _⟩ | ⟨t, _, _, rfl⟩ := hl
        · exact .inl rfl
        · exact .inr ⟨_, rfl⟩
    exact ⟨.inr ⟨exists_snoc hc.1, last_snoc closes⟩, hw.snoc fun _ => .inr (.inr ⟨_, closes⟩)⟩

/-- A step that is not the call's own leaves its course as it is, or drops the call. -/
private theorem Course.unpolled {op op' : Op} {owner : TaskOwner} {id : TaskId}
    {responses : InputResponses} {tr : List (Taken World Action)} {a : Action}
    (hr : (machine cfg).Reachable w) (hop : w.ops k = some op) (hop' : w'.ops k = some op')
    (hcall : op.call = .applyInput owner id responses) (h : w.step cfg a = some w')
    (hp : ¬ Polls k ⟨w, a, w'⟩) (hc : Course cfg k owner id responses tr w op.stage) :
    Course cfg k owner id responses (tr ++ [⟨w, a, w'⟩]) w' op'.stage := by
  have step := World.step_sound h
  have hreg := reachable_registered hr
  obtain hold | rfl : w'.ops k = some op ∨ a = .dropFuture k := by
    cases step.opMove with
    | made m c ha ho =>
      left
      rw [ho, Function.update_of_ne (hreg.fresh k op hop).ne]
      exact hop
    | moved j opj stage ha hj hs ho =>
      by_cases he : k = j
      · subst he
        rw [hop] at hj
        obtain rfl := Option.some.inj hj
        obtain ha | ⟨now, ch, ha⟩ := ha
        · exact .inr ha
        · exact absurd ⟨now, ch, ha⟩ hp
      · left
        rw [ho, Function.update_of_ne he]
        exact hop
    | still ho =>
      left
      rw [ho]
      exact hop
  · rw [hop'] at hold
    obtain rfl := Option.some.inj hold
    exact hc.snoc hr h hp
  · have hd := World.step_dropFuture hop hcall h
    rw [hop'] at hd
    obtain rfl := Option.some.inj hd
    trivial

/-- A call that is not made yet has never been polled. -/
private theorem run_unmade {tr : List (Taken World Action)} (h : (machine cfg).Run World.init tr w)
    (hk : w.ops k = none) : ∀ x ∈ tr, ¬ Polls k x := by
  induction h with
  | start => exact fun x hx => by simp at hx
  | @next s t tr a hrun hstep ih =>
    intro x hx hp
    have hs : s.ops k = none := by
      cases hs : s.ops k with
      | none => rfl
      | some op =>
        obtain ⟨stage, hop⟩ := (World.step_sound hstep).opMove.forth
          (reachable_registered ((init_reachable cfg).run hrun)) hs
        rw [hk] at hop
        simp at hop
    rcases List.mem_append.mp hx with hx | hx
    · exact ih hs x hx hp
    · rw [List.mem_singleton.mp hx] at hp
      obtain ⟨now, ch, rfl⟩ := hp
      change s.step cfg (.poll k now ch) = some t at hstep
      simp [World.step, hs] at hstep

/-- Over a whole run, every `apply_input` has kept to its course. -/
private theorem run_course {tr : List (Taken World Action)}
    (h : (machine cfg).Run World.init tr w) {op : Op} {owner : TaskOwner} {id : TaskId}
    {responses : InputResponses} (hop : w.ops k = some op)
    (hcall : op.call = .applyInput owner id responses) :
    Course cfg k owner id responses tr w op.stage ∧ WritesOnly cfg k owner id responses tr := by
  induction h generalizing op with
  | start => simp [World.init] at hop
  | @next s t tr a hrun hstep ih =>
    have hr : (machine cfg).Reachable s := (init_reachable cfg).run hrun
    obtain ⟨before, hbefore, hsame, _, _⟩ | ⟨m, c, rfl, rfl, rfl⟩ :=
      (World.step_sound hstep).opMove.back hop
    · rw [hcall] at hsame
      obtain ⟨hc, hw⟩ := ih hbefore hsame
      by_cases hp : Polls k ⟨s, a, t⟩
      · obtain ⟨now, ch, rfl⟩ := hp
        obtain ⟨stage, hpolled, hcourse⟩ := Course.polled hr hbefore hsame hstep hc hw
        rw [hop] at hpolled
        obtain rfl := Option.some.inj hpolled
        exact hcourse
      · exact ⟨hc.unpolled hr hbefore hop hsame hstep hp, hw.snoc fun h => absurd h hp⟩
    · have unpolled : ∀ x ∈ tr ++ [⟨s, .call m c, t⟩], ¬ Polls s.nextOp x := by
        intro x hx hp
        rcases List.mem_append.mp hx with hx | hx
        · refine run_unmade hrun ?_ x hx hp
          cases hs : s.ops s.nextOp with
          | none => rfl
          | some op => exact absurd rfl ((reachable_registered hr).fresh _ op hs).ne
        · rw [List.mem_singleton.mp hx] at hp
          obtain ⟨now, ch, ha⟩ := hp
          simp at ha
      exact ⟨⟨fun x hx hp => absurd hp (unpolled x hx), fun x hx hf => unpolled x hx hf.polls⟩,
        fun x hx hp => absurd hp (unpolled x hx)⟩

theorem World.exec_run {s : World} {tr : List (Taken World Action)} (actions : List Action)
    (h : w.exec cfg actions = some w') (hr : (machine cfg).Run s tr w) :
    ∃ rest, (machine cfg).Run s (tr ++ rest) w' :=
  hr.exec (I := fun _ => True) (fun _ _ _ _ hs => ⟨hs, trivial⟩) actions trivial h

/-- Input is asked for by id and applied, up to the point where the store is next to change. -/
def appliedRun : List Action :=
  [.call 0 (.create ⟨some "user", none⟩), .poll 0 0 .task, .poll 0 0 .task,
    .call 0 (.requestInput ⟨some "user", none⟩ ⟨"task"⟩ [("name", .null)]), .poll 1 0 .task,
    .call 0 (.applyInput ⟨some "user", none⟩ ⟨"task"⟩ [("name", .string "first")]),
    .poll 2 0 .task, .poll 2 0 .task]

/-- The input is taken; the run goes before it is handed over, and the task is cancelled before
it can be failed. -/
def cancelledMeanwhile : List Action :=
  [.dropRun 0, .poll 2 0 .task, .call 0 (.cancel ⟨some "user", none⟩ ⟨"task"⟩), .poll 3 0 .task,
    .poll 2 0 .task]

end Tronc.Tasks
