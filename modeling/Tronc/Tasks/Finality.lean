import Tronc.Tasks.Lifecycle

namespace Tronc.Tasks

open InMemoryTaskStore (Visible)
open Transition (Taken)

/-- What an update of a stored task makes of it, given the text of the current instant. -/
abbrev Change := String → DetailedTask → Except TaskError DetailedTask

namespace Op

/-- The store update the next atomic section of a call makes: for whom, on which task, and what. -/
def update (w : World) (op : Op) : Option (TaskOwner × TaskId × Change) :=
  match op.call, op.stage with
  | .transition owner id payload, .called =>
    some (owner, id, fun now => TaskManager.transitionUpdate now id payload)
  | .cancel owner id, .called =>
    some (owner, id, fun now => TaskManager.transitionUpdate now id .cancelled)
  | .applyInput owner id responses, .found _ =>
    some (owner, id, fun now => TaskManager.applyInputUpdate now id responses)
  | .applyInput owner id _, .unhanded isLocal =>
    some (owner, id, fun now =>
      TaskManager.transitionUpdate now id (.failed (TaskManager.unhandedError isLocal)))
  | .runRequestInput r inputRequests, .called =>
    (w.taskRuns r).map fun run => (run.owner, run.task.taskId, fun now =>
      TaskManager.transitionUpdate now run.task.taskId (.inputRequired inputRequests))
  | .runComplete r result, .called =>
    (w.taskRuns r).map fun run => (run.owner, run.task.taskId, fun now =>
      TaskManager.transitionUpdate now run.task.taskId (.completed result))
  | .runFail r error, .called =>
    (w.taskRuns r).map fun run => (run.owner, run.task.taskId, fun now =>
      TaskManager.transitionUpdate now run.task.taskId (.failed error))
  | _, _ => none

/-- The task the next atomic section of a call looks up, and for whom. -/
def looksUp (w : World) (op : Op) : Option (TaskOwner × TaskId) :=
  match op.call, op.stage with
  | .get owner id, .called | .applyInput owner id _, .called => some (owner, id)
  | _, _ => (op.update w).map fun u => (u.1, u.2.1)

end Op

/-- The error a call is about to return, or has returned. -/
def Stage.refusal : Stage → Option TaskError
  | .returned (.error e) | .settled (.error e) => some e
  | _ => none

/-- A step that settles `id`: its update goes through and writes a terminal task. -/
def Settles (cfg : Config) (id : TaskId) (x : Taken World Action) : Prop :=
  ∃ k now ch op owner change entries t, x.label = .poll k now ch ∧ x.source.ops k = some op ∧
    op.update x.source = some (owner, id, change) ∧
    InMemoryTaskStore.update cfg.chrono now x.source.entries owner id
      (change (cfg.chrono.toRfc3339Millis now)) = .ok (entries, t) ∧
    t.status.isTerminal = true

/-- What the managers keep of every stored task, from a state on. -/
structure World.Finality (cfg : Config) (w : World) : Prop where
  agrees : ∀ id owner t, w.entries.lookup id = some (owner, t) →
    t.task.status = t.payload.status ∧ t.task.taskId = id
  kept : ∀ tr w', (machine cfg).Run w tr w' → ∀ id owner t owner' t',
    w.entries.lookup id = some (owner, t) → w'.entries.lookup id = some (owner', t') →
      owner' = owner ∧ t'.seed = t.seed
  frozen : ∀ tr w', (machine cfg).Run w tr w' → ∀ id owner t,
    w.entries.lookup id = some (owner, t) → t.status.isTerminal = true →
      w'.entries.lookup id = some (owner, t) ∨ w'.entries.lookup id = none
  gone : ∀ tr w', (machine cfg).Run w tr w' → ∀ id, id ∈ w.minted →
    w.entries.lookup id = none → w'.entries.lookup id = none
  removed : ∀ a w', w.step cfg a = some w' → ∀ id owner t,
    w.entries.lookup id = some (owner, t) → w'.entries.lookup id = none →
      ∃ k now ch op, a = .poll k now ch ∧ w.ops k = some op ∧ op.call = .sweepExpired ∧
        isExpired cfg.chrono now t.task = true
  settledOnce : ∀ tr w', (machine cfg).Run w tr w' → ∀ id,
    tr.Pairwise fun x y => ¬ (Settles cfg id x ∧ Settles cfg id y)
  refused : ∀ k now ch op w', w.ops k = some op → w.step cfg (.poll k now ch) = some w' →
    ∀ owner id change, op.update w = some (owner, id, change) →
      (∀ owner' t, w.entries.lookup id = some (owner', t) → t.status.isTerminal = true) →
      w'.entries = w.entries ∧ ∃ stage e, w'.ops k = some { op with stage := stage } ∧
        stage.refusal = some e ∧ (e = .notFound id ∨ ∃ status, e = .invalidState id status)
  foreign : ∀ k now ch op w', w.ops k = some op → w.step cfg (.poll k now ch) = some w' →
    ∀ owner id owner' t, op.looksUp w = some (owner, id) →
      w.entries.lookup id = some (owner', t) → owner' ≠ owner →
      w'.entries = w.entries ∧ ∃ stage, w'.ops k = some { op with stage := stage } ∧
        stage.refusal = some (.notFound id)
  confined : ∀ k now ch op w', w.ops k = some op → w.step cfg (.poll k now ch) = some w' →
    op.call ≠ .sweepExpired → ∀ id, (∀ owner, op.subject w ≠ some (owner, id)) →
      (∀ owner, op.call = .create owner → ch.id ≠ .ok id) →
      w'.entries.lookup id = w.entries.lookup id
  polled : ∀ a w', w.step cfg a = some w' → (∀ k now ch, a ≠ .poll k now ch) →
    w'.entries = w.entries

variable {cfg : Config} {w w' : World} {a : Action} {k : OpId} {op : Op} {now : Int} {ch : Choice}

theorem World.step_poll (hop : w.ops k = some op) (h : w.step cfg (.poll k now ch) = some w') :
    ∃ v stage, w.poll cfg k op now ch = some (v, stage) ∧
      w' = v.setOp k { op with stage := stage } := by
  simp only [step, hop] at h
  split at h
  · simp at h
  · rename_i v stage hp
    exact ⟨v, stage, hp, (Option.some.inj h).symm⟩

/-- A transition either is refused by the store's update, or writes what the update gives. -/
theorem World.transition_update {owner : TaskOwner} {id : TaskId} {payload : TaskPayload}
    {r : Except TaskError DetailedTask} (h : w.transition cfg now k owner id payload = (w', r)) :
    (∃ e, InMemoryTaskStore.update cfg.chrono now w.entries owner id
        (TaskManager.transitionUpdate (cfg.chrono.toRfc3339Millis now) id payload) = .error e ∧
      w' = w ∧ r = .error e) ∨
    ∃ entries t, InMemoryTaskStore.update cfg.chrono now w.entries owner id
        (TaskManager.transitionUpdate (cfg.chrono.toRfc3339Millis now) id payload) =
          .ok (entries, t) ∧
      w'.entries = entries ∧ r = .ok t := by
  unfold transition at h
  split at h
  · rename_i e he
    obtain ⟨rfl, rfl⟩ := Prod.mk.inj h
    exact .inl ⟨e, he, rfl, rfl⟩
  · rename_i entries t he
    obtain ⟨rfl, rfl⟩ := Prod.mk.inj h
    exact .inr ⟨entries, t, he, rfl, rfl⟩

private theorem World.settled_update {owner : TaskOwner} {id : TaskId} {payload : TaskPayload}
    {stage : Stage}
    (h : some ((w.transition cfg now k owner id payload).1,
      Stage.settled (.ofTask (w.transition cfg now k owner id payload).2)) = some (w', stage)) :
    (∃ e, InMemoryTaskStore.update cfg.chrono now w.entries owner id
        (TaskManager.transitionUpdate (cfg.chrono.toRfc3339Millis now) id payload) = .error e ∧
      w'.entries = w.entries ∧ stage.refusal = some e) ∨
    ∃ entries t, InMemoryTaskStore.update cfg.chrono now w.entries owner id
        (TaskManager.transitionUpdate (cfg.chrono.toRfc3339Millis now) id payload) =
          .ok (entries, t) ∧
      w'.entries = entries := by
  cases ht : w.transition cfg now k owner id payload with | mk v r =>
  rw [ht] at h
  obtain ⟨rfl, rfl⟩ := Prod.mk.inj (Option.some.inj h)
  obtain ⟨e, he, rfl, rfl⟩ | ⟨entries, t, he, hw, rfl⟩ := transition_update ht
  · exact .inl ⟨e, he, rfl, rfl⟩
  · exact .inr ⟨entries, t, he, hw⟩

/-- The section that makes a call's update refuses with its error, or writes what it gives. -/
theorem World.poll_update {owner : TaskOwner} {id : TaskId} {change : Change} {stage : Stage}
    (hu : op.update w = some (owner, id, change))
    (h : w.poll cfg k op now ch = some (w', stage)) :
    (∃ e, InMemoryTaskStore.update cfg.chrono now w.entries owner id
        (change (cfg.chrono.toRfc3339Millis now)) = .error e ∧
      w'.entries = w.entries ∧ stage.refusal = some e) ∨
    ∃ entries t, InMemoryTaskStore.update cfg.chrono now w.entries owner id
        (change (cfg.chrono.toRfc3339Millis now)) = .ok (entries, t) ∧
      w'.entries = entries := by
  unfold Op.update at hu
  split at hu
  case h_1 _ _ owner' id' payload hc hs =>
    simp only [Option.some.injEq, Prod.mk.injEq] at hu
    obtain ⟨rfl, rfl, rfl⟩ := hu
    simp only [poll, hc, hs] at h
    cases ht : w.transition cfg now k owner' id' payload with | mk v r =>
    rw [ht] at h
    obtain ⟨rfl, rfl⟩ := Prod.mk.inj (Option.some.inj h)
    obtain ⟨e, he, rfl, rfl⟩ | ⟨entries, t, he, hw, _⟩ := transition_update ht
    · exact .inl ⟨e, he, rfl, rfl⟩
    · exact .inr ⟨entries, t, he, hw⟩
  case h_2 _ _ owner' id' hc hs =>
    simp only [Option.some.injEq, Prod.mk.injEq] at hu
    obtain ⟨rfl, rfl, rfl⟩ := hu
    simp only [poll, pollCancel, hc, hs] at h
    cases ht : w.transition cfg now k owner' id' .cancelled with | mk v r =>
    rw [ht] at h
    obtain ⟨e, he, rfl, rfl⟩ | ⟨entries, t, he, hw, rfl⟩ := transition_update ht
    · obtain ⟨rfl, rfl⟩ := Prod.mk.inj (Option.some.inj h)
      exact .inl ⟨e, he, rfl, rfl⟩
    · obtain ⟨rfl, rfl⟩ := Prod.mk.inj (Option.some.inj h)
      exact .inr ⟨entries, t, he, hw⟩
  case h_3 _ _ owner' id' responses inputs hc hs =>
    simp only [Option.some.injEq, Prod.mk.injEq] at hu
    obtain ⟨rfl, rfl, rfl⟩ := hu
    simp only [poll, pollApplyInput, hc, hs] at h
    split at h <;> obtain ⟨rfl, rfl⟩ := Prod.mk.inj (Option.some.inj h)
    · rename_i e he
      exact .inl ⟨e, he, rfl, rfl⟩
    · rename_i entries t he
      exact .inr ⟨entries, t, he, rfl⟩
  case h_4 _ _ owner' id' responses isLocal hc hs =>
    simp only [Option.some.injEq, Prod.mk.injEq] at hu
    obtain ⟨rfl, rfl, rfl⟩ := hu
    simp only [poll, pollApplyInput, hc, hs] at h
    cases ht : w.transition cfg now k owner' id' (.failed (TaskManager.unhandedError isLocal)) with
    | mk v r =>
    rw [ht] at h
    obtain ⟨e, he, rfl, rfl⟩ | ⟨entries, t, he, hw, rfl⟩ := transition_update ht
    · obtain ⟨rfl, rfl⟩ := Prod.mk.inj (Option.some.inj h)
      exact .inl ⟨e, he, rfl, rfl⟩
    · obtain ⟨rfl, rfl⟩ := Prod.mk.inj (Option.some.inj h)
      exact .inr ⟨entries, t, he, hw⟩
  case h_5 _ _ r inputRequests hc hs =>
    obtain ⟨run, hr, hu⟩ := Option.map_eq_some_iff.mp hu
    simp only [Prod.mk.injEq] at hu
    obtain ⟨rfl, rfl, rfl⟩ := hu
    simp only [poll, pollRunRequestInput, hc, hs, hr, Option.bind_some] at h
    cases ht : w.transition cfg now k run.owner run.task.taskId (.inputRequired inputRequests) with
    | mk v res =>
    rw [ht] at h
    obtain ⟨e, he, rfl, rfl⟩ | ⟨entries, t, he, hw, rfl⟩ := transition_update ht
    · obtain ⟨rfl, rfl⟩ := Prod.mk.inj (Option.some.inj h)
      exact .inl ⟨e, he, rfl, rfl⟩
    · obtain ⟨rfl, rfl⟩ := Prod.mk.inj (Option.some.inj h)
      exact .inr ⟨entries, t, he, hw⟩
  case h_6 _ _ r result hc hs =>
    obtain ⟨run, hr, hu⟩ := Option.map_eq_some_iff.mp hu
    simp only [Prod.mk.injEq] at hu
    obtain ⟨rfl, rfl, rfl⟩ := hu
    simp only [poll, pollRunTransition, hc, hs, hr, Option.bind_some] at h
    exact settled_update h
  case h_7 _ _ r error hc hs =>
    obtain ⟨run, hr, hu⟩ := Option.map_eq_some_iff.mp hu
    simp only [Prod.mk.injEq] at hu
    obtain ⟨rfl, rfl, rfl⟩ := hu
    simp only [poll, pollRunTransition, hc, hs, hr, Option.bind_some] at h
    exact settled_update h
  case h_8 => simp at hu

theorem TaskManager.transitionUpdate_settled {at' : String} {id : TaskId} {payload : TaskPayload}
    {t : DetailedTask} (h : t.status.isTerminal = true) :
    transitionUpdate at' id payload t = .error (.invalidState id t.status) := by
  simp [transitionUpdate, h]

theorem TaskManager.applyInputUpdate_settled {at' : String} {id : TaskId}
    {responses : InputResponses} {t : DetailedTask} (ha : t.Agrees)
    (h : t.status.isTerminal = true) :
    applyInputUpdate at' id responses t = .error (.invalidState id t.status) := by
  have hs : t.status = t.payload.status := ha
  unfold applyInputUpdate
  cases hp : t.payload with
  | inputRequired requests =>
    rw [hs, hp] at h
    simp [TaskPayload.status, TaskStatus.isTerminal] at h
  | working | completed _ | failed _ | cancelled => rfl

/-- Each update checks the status it finds: none touches a settled task. -/
theorem Op.update_settled {owner : TaskOwner} {id : TaskId} {change : Change} {at' : String}
    {t : DetailedTask} (hu : op.update w = some (owner, id, change)) (ha : t.Agrees)
    (h : t.status.isTerminal = true) : change at' t = .error (.invalidState id t.status) := by
  unfold Op.update at hu
  split at hu
  case h_1 | h_2 | h_4 =>
    simp only [Option.some.injEq, Prod.mk.injEq] at hu
    obtain ⟨_, rfl, rfl⟩ := hu
    exact TaskManager.transitionUpdate_settled h
  case h_3 =>
    simp only [Option.some.injEq, Prod.mk.injEq] at hu
    obtain ⟨_, rfl, rfl⟩ := hu
    exact TaskManager.applyInputUpdate_settled ha h
  case h_5 | h_6 | h_7 =>
    obtain ⟨run, _, hu⟩ := Option.map_eq_some_iff.mp hu
    simp only [Prod.mk.injEq] at hu
    obtain ⟨_, rfl, rfl⟩ := hu
    exact TaskManager.transitionUpdate_settled h
  case h_8 => simp at hu

theorem InMemoryTaskStore.update_absent {chrono : Chrono} {entries : Entries} {owner : TaskOwner}
    {id : TaskId} {apply : DetailedTask → Except TaskError DetailedTask}
    (h : ∀ t, entries.lookup id ≠ some (owner, t)) :
    update chrono now entries owner id apply = .error (.notFound id) := by
  obtain ⟨_, hr⟩ | ⟨t, hv, _⟩ := update_cases (rfl : update chrono now entries owner id apply = _)
  · exact hr
  · exact absurd hv.1 (h t)

private theorem World.poll_refused {owner : TaskOwner} {id : TaskId} {change : Change}
    {stage : Stage} (hwf : w.WellFormed) (hu : op.update w = some (owner, id, change))
    (hset : ∀ owner' t, w.entries.lookup id = some (owner', t) → t.status.isTerminal = true)
    (h : w.poll cfg k op now ch = some (w', stage)) :
    w'.entries = w.entries ∧ ∃ e, stage.refusal = some e ∧
      (e = .notFound id ∨ ∃ status, e = .invalidState id status) := by
  obtain ⟨hn, hr⟩ | ⟨t, hv, hr⟩ := InMemoryTaskStore.update_cases
    (rfl : InMemoryTaskStore.update cfg.chrono now w.entries owner id
      (change (cfg.chrono.toRfc3339Millis now)) = _)
  · obtain ⟨e, he, hw, hs⟩ | ⟨entries, t, he, _⟩ := World.poll_update hu h
    · have hn : e = .notFound id := Except.error.inj (he.symm.trans hr)
      exact ⟨hw, e, hs, .inl hn⟩
    · rw [hr] at he
      simp at he
  · rw [Op.update_settled hu (hwf id owner t hv.1).1 (hset owner t hv.1)] at hr
    obtain ⟨e, he, hw, hs⟩ | ⟨entries, t, he, _⟩ := World.poll_update hu h
    · have hi : e = .invalidState id t.status := Except.error.inj (he.symm.trans hr)
      exact ⟨hw, e, hs, .inr ⟨_, hi⟩⟩
    · rw [hr] at he
      simp [Except.map] at he

private theorem World.poll_foreign {owner owner' : TaskOwner} {id : TaskId} {t : DetailedTask}
    {stage : Stage} (hl : op.looksUp w = some (owner, id))
    (hid : w.entries.lookup id = some (owner', t)) (hne : owner' ≠ owner)
    (h : w.poll cfg k op now ch = some (w', stage)) :
    w'.entries = w.entries ∧ stage.refusal = some (.notFound id) := by
  have other : ∀ u, w.entries.lookup id ≠ some (owner, u) := by
    intro u hu
    rw [hid] at hu
    exact hne (Prod.mk.inj (Option.some.inj hu)).1
  have unseen : InMemoryTaskStore.get cfg.chrono now w.entries owner id = none := by
    cases hg : InMemoryTaskStore.get cfg.chrono now w.entries owner id with
    | none => rfl
    | some u => exact absurd (InMemoryTaskStore.get_eq_some.mp hg).1 (other u)
  unfold Op.looksUp at hl
  split at hl
  · rename_i o i hc hs
    obtain ⟨rfl, rfl⟩ := Prod.mk.inj (Option.some.inj hl)
    simp only [poll, hc, hs, unseen] at h
    obtain ⟨rfl, rfl⟩ := Prod.mk.inj (Option.some.inj h)
    exact ⟨rfl, rfl⟩
  · rename_i o i responses hc hs
    obtain ⟨rfl, rfl⟩ := Prod.mk.inj (Option.some.inj hl)
    simp only [poll, pollApplyInput, hc, hs, unseen] at h
    obtain ⟨rfl, rfl⟩ := Prod.mk.inj (Option.some.inj h)
    exact ⟨rfl, rfl⟩
  · obtain ⟨⟨o, i, change⟩, hu, hoi⟩ := Option.map_eq_some_iff.mp hl
    obtain ⟨rfl, rfl⟩ := Prod.mk.inj hoi
    obtain ⟨e, he, hw, hs⟩ | ⟨entries, u, he, _⟩ := World.poll_update hu h
    · rw [InMemoryTaskStore.update_absent other] at he
      exact ⟨hw, by rw [hs, ← Except.error.inj he]⟩
    · rw [InMemoryTaskStore.update_absent other] at he
      simp at he

theorem Step.confined (h : Step cfg w (.poll k now ch) w') (hop : w.ops k = some op)
    (hc : op.call ≠ .sweepExpired) {id : TaskId} (hid : ∀ owner, op.subject w ≠ some (owner, id))
    (hnew : ∀ owner, op.call = .create owner → ch.id ≠ .ok id) :
    w'.entries.lookup id = w.entries.lookup id := by
  have same {op' : Op} (hop' : w.ops k = some op') : op' = op := by
    rw [hop] at hop'
    exact (Option.some.inj hop').symm
  cases h with
  | stored hop' hc' hs hch =>
    obtain rfl := same hop'
    refine AList.lookup_insert_ne fun he => hnew _ hc' ?_
    rw [hch, he]
  | @updated _ _ _ op' owner _ _ _ _ _ hop' _ hsub =>
    obtain rfl := same hop'
    refine AList.lookup_insert_ne fun he => hid owner ?_
    rw [hsub, he]
  | @recorded _ _ _ op' owner _ _ hop' hc' =>
    obtain rfl := same hop'
    refine AList.lookup_insert_ne fun he => hid owner ?_
    simp only [Op.subject, hc', he]
  | @asked _ _ _ op' r requests run _ hop' hc' hs hr =>
    obtain rfl := same hop'
    refine AList.lookup_insert_ne fun he => hid run.owner ?_
    simp only [Op.subject, hc', hr, he, Option.map_some]
  | @taken _ _ _ op' owner _ _ _ _ _ hop' hc' =>
    obtain rfl := same hop'
    refine AList.lookup_insert_ne fun he => hid owner ?_
    simp only [Op.subject, hc', he]
  | swept hop' hc' =>
    obtain rfl := same hop'
    exact absurd hc' hc
  | _ => rfl

theorem Step.polled (h : Step cfg w a w') (ha : ∀ k now ch, a ≠ .poll k now ch) :
    w'.entries = w.entries := by
  cases h with
  | called => unfold World.start; split <;> rfl
  | stored | updated | recorded | asked | swept | taken => exact absurd rfl (ha _ _ _)
  | _ => rfl

/-- Only a sweep takes a task out of the store, and only once its TTL has elapsed. -/
theorem Step.removed (h : Step cfg w a w') {id : TaskId} {owner : TaskOwner} {t : DetailedTask}
    (hl : w.entries.lookup id = some (owner, t)) (hn : w'.entries.lookup id = none) :
    ∃ k now ch op, a = .poll k now ch ∧ w.ops k = some op ∧ op.call = .sweepExpired ∧
      isExpired cfg.chrono now t.task = true := by
  have kept {id' : TaskId} {e : TaskOwner × DetailedTask} :
      (w.entries.insert id' e).lookup id ≠ none := by
    by_cases hi : id = id'
    · simp [hi]
    · simp [AList.lookup_insert_ne hi, hl]
  cases h with
  | called =>
    unfold World.start at hn
    split at hn <;> simp [hl] at hn
  | stored | updated | recorded | asked | taken => exact absurd hn kept
  | @swept k now ch op ids hop hc =>
    refine ⟨k, now, ch, op, rfl, hop, hc, ?_⟩
    have hf : (w.entries.lookup id).filter (fun e => !isExpired cfg.chrono now e.2.task) = none :=
      (AList.lookup_retain _ _ _).symm.trans hn
    simpa [hl, Option.filter_some] using hf
  | _ => cases hl.symm.trans hn

/-- What a settled task and a removed one have in common. -/
private def World.Over (id : TaskId) (w : World) : Prop :=
  id ∈ w.minted ∧ ∀ owner t, w.entries.lookup id = some (owner, t) → t.status.isTerminal = true

private theorem World.over_iff (hwf : w.WellFormed) (id : TaskId) :
    w.Over id ↔ w.life id = .gone ∨ ∃ owner t, w.life id = .final owner t := by
  cases hl : w.entries.lookup id with
  | none =>
    by_cases hm : id ∈ w.minted <;> simp [Over, life, hl, hm]
  | some e =>
    obtain ⟨owner, t⟩ := e
    have hm := (hwf id owner t hl).2.2
    cases ht : t.status.isTerminal <;> simp [Over, life, hl, hm, ht]

private theorem World.Over.next (hr : (machine cfg).Reachable w) {id : TaskId}
    (h : w.step cfg a = some w') (hw : w.Over id) : w'.Over id := by
  have leads := step_life hr h id
  have hr' : (machine cfg).Reachable w' := hr.next h
  refine (World.over_iff (reachable_wellFormed hr') id).mpr ?_
  obtain hg | ⟨owner, t, hf⟩ := (World.over_iff (reachable_wellFormed hr) id).mp hw
  · rw [hg] at leads
    cases hl : w'.life id <;> simp [hl, Life.Leads] at leads
    simp
  · rw [hf] at leads
    cases hl : w'.life id <;> simp [hl, Life.Leads] at leads
    · simp
    · simp

private theorem Settles.needs {id : TaskId} {x : Taken World Action} (hwf : x.source.WellFormed)
    (h : Settles cfg id x) : ¬ x.source.Over id := by
  obtain ⟨k, now, ch, op, owner, change, entries, t, _, _, hu, he, _⟩ := h
  obtain ⟨u, hv, ha, _⟩ := InMemoryTaskStore.update_eq_ok.mp he
  rintro ⟨_, hset⟩
  rw [Op.update_settled hu (hwf _ _ _ hv.1).1 (hset _ _ hv.1)] at ha
  simp at ha

private theorem Settles.makes {id : TaskId} {x : Taken World Action}
    (hr : (machine cfg).Reachable x.source) (h : Settles cfg id x)
    (hstep : x.source.step cfg x.label = some x.target) : x.target.Over id := by
  have hr' : (machine cfg).Reachable x.target := hr.next hstep
  obtain ⟨k, now, ch, op, owner, change, entries, t, hx, hop, hu, he, ht⟩ := h
  rw [hx] at hstep
  obtain ⟨v, stage, hp, hw⟩ := World.step_poll hop hstep
  obtain ⟨u, hv, _, hent⟩ := InMemoryTaskStore.update_eq_ok.mp he
  obtain ⟨e, hn, _⟩ | ⟨entries', t', hok, hwe⟩ := World.poll_update hu hp
  · rw [he] at hn
    simp at hn
  · rw [he] at hok
    obtain ⟨rfl, rfl⟩ := Prod.mk.inj (Except.ok.inj hok)
    have hl : x.target.entries.lookup id = some (owner, t) := by
      rw [hw, World.setOp_entries, hwe, hent, AList.lookup_insert]
    refine ⟨(reachable_wellFormed hr' id owner t hl).2.2, fun o u hu => ?_⟩
    rw [hl] at hu
    obtain ⟨-, rfl⟩ := Prod.mk.inj (Option.some.inj hu)
    exact ht

/-- Terminal states are final, and every task keeps to itself, in every interleaving of the
managers' calls over one store. -/
theorem task_finality (hr : (machine cfg).Reachable w) : w.Finality cfg := by
  have hwf := reachable_wellFormed hr
  refine
    { agrees := fun id owner t hl => ⟨(hwf id owner t hl).1, (hwf id owner t hl).2.1⟩
      kept := ?_
      frozen := ?_
      gone := ?_
      removed := fun a w' h id owner t hl hn => (World.step_sound h).removed hl hn
      settledOnce := ?_
      refused := ?_
      foreign := ?_
      confined := fun k now ch op w' hop h hc id hid hnew =>
        (World.step_sound h).confined hop hc hid hnew
      polled := fun a w' h ha => (World.step_sound h).polled ha }
  · intro tr w' h id owner t owner' t' hl hl'
    have leads := run_life hr h id
    simp only [World.life, hl, hl'] at leads
    split at leads <;> split at leads <;> simp only [Life.Leads] at leads
    · exact ⟨leads.1, by rw [leads.2]⟩
    · exact leads
    · exact leads
  · intro tr w' h id owner t hl ht
    have leads := run_life hr h id
    simp only [World.life, hl, ht, if_true] at leads
    cases hl' : w'.entries.lookup id with
    | none => exact .inr rfl
    | some e =>
      obtain ⟨owner', t'⟩ := e
      simp only [hl'] at leads
      split at leads <;> simp only [Life.Leads] at leads
      obtain ⟨rfl, rfl⟩ := leads
      exact .inl rfl
  · intro tr w' h id hm hl
    have leads := run_life hr h id
    simp only [World.life, hl, hm, if_true] at leads
    cases hl' : w'.entries.lookup id with
    | none => rfl
    | some e =>
      obtain ⟨owner', t'⟩ := e
      simp only [hl'] at leads
      split at leads <;> simp only [Life.Leads] at leads
  · intro tr w' h id
    exact h.at_most_once (D := World.Over id) hr (fun s a t hs step => hs.next step)
      (fun s a t hs hd step => hd.next hs step)
      (fun x hs _ he => he.needs (reachable_wellFormed hs))
      (fun x hs step he => he.makes hs step)
  · intro k now ch op w' hop h owner id change hu hset
    obtain ⟨v, stage, hp, rfl⟩ := World.step_poll hop h
    obtain ⟨hw, e, hs, he⟩ := World.poll_refused hwf hu hset hp
    refine ⟨hw, stage, e, ?_, hs, he⟩
    rw [World.setOp_ops, if_pos rfl]
  · intro k now ch op w' hop h owner id owner' t hl hid hne
    obtain ⟨v, stage, hp, rfl⟩ := World.step_poll hop h
    obtain ⟨hw, hs⟩ := World.poll_foreign hl hid hne hp
    refine ⟨hw, stage, ?_, hs⟩
    rw [World.setOp_ops, if_pos rfl]

/-- A task created and completed by its owner. -/
def completedRun : List Action :=
  [.call 0 (.create ⟨some "user", none⟩), .poll 0 0 .task, .poll 0 0 .task,
    .call 0 (.complete ⟨some "user", none⟩ ⟨"task"⟩ []), .poll 1 0 .task]

theorem task_finality_completed :
    ∃ w, World.init.exec (.plain none) completedRun = some w ∧
      ((w.entries.lookup ⟨"task"⟩).map fun e => e.2.status) = some .completed ∧
      w.Finality (.plain none) :=
  ⟨_, rfl, by decide, task_finality (World.exec_reachable completedRun rfl (init_reachable _))⟩

end Tronc.Tasks
