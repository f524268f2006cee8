import Tronc.Library.Retain
import Tronc.Tasks.Types

namespace Tronc.Tasks

/-- The rows of an `InMemoryTaskStore`: each task with the owner it is bound to. -/
abbrev Entries := AList fun _ : TaskId => TaskOwner × DetailedTask

/-- Whether a task's TTL has elapsed by `now`, in milliseconds. -/
def isExpired (chrono : Chrono) (now : Int) (task : Task) : Bool :=
  match task.ttlMs with
  | none => false
  | some ttlMs =>
    match chrono.parseFromRfc3339 task.createdAt with
    | none => false
    | some created => decide (now - created > min (ttlMs.toNat : Int) (2^63 - 1))

namespace InMemoryTaskStore

variable (chrono : Chrono) (now : Int)

def create (entries : Entries) (owner : TaskOwner) (task : DetailedTask) : Entries :=
  entries.insert task.task.taskId (owner, task)

def get (entries : Entries) (owner : TaskOwner) (id : TaskId) : Option DetailedTask :=
  (((entries.lookup id).filter fun e => e.1 == owner).filter
    fun e => !isExpired chrono now e.2.task).map Prod.snd

/-- The read and the write are one step, under the write lock. -/
def update (entries : Entries) (owner : TaskOwner) (id : TaskId)
    (apply : DetailedTask → Except TaskError DetailedTask) :
    Except TaskError (Entries × DetailedTask) :=
  match (entries.lookup id).filter fun e => e.1 == owner && !isExpired chrono now e.2.task with
  | none => .error (.notFound id)
  | some (taskOwner, stored) =>
    match apply stored with
    | .error e => .error e
    | .ok updated => .ok (entries.insert id (taskOwner, updated), updated)

/-- Drop the tasks whose TTL has elapsed, with the ids removed. -/
def sweepExpired (entries : Entries) : Entries × List TaskId :=
  (entries.retain fun _ e => !isExpired chrono now e.2.task,
    entries.keysWhere fun _ e => isExpired chrono now e.2.task)

/-- A task is visible to its own owner until it expires. -/
def Visible (entries : Entries) (owner : TaskOwner) (id : TaskId) (t : DetailedTask) : Prop :=
  entries.lookup id = some (owner, t) ∧ isExpired chrono now t.task = false

variable {chrono now}

theorem get_eq_some {entries : Entries} {owner : TaskOwner} {id : TaskId} {t : DetailedTask} :
    get chrono now entries owner id = some t ↔ Visible chrono now entries owner id t := by
  cases h : entries.lookup id with
  | none => simp [get, Visible, h]
  | some e =>
    obtain ⟨o, u⟩ := e
    simp only [get, Visible, h, Option.filter_some]
    by_cases ho : o = owner
    · cases hx : isExpired chrono now u.task with
      | false =>
        simp only [ho, hx, beq_self_eq_true, if_true, Option.filter_some, Bool.not_false,
          Option.map_some, Option.some.injEq, Prod.mk.injEq, true_and]
        exact ⟨fun h => ⟨h, h ▸ hx⟩, fun h => h.1⟩
      | true =>
        simp only [ho, hx, beq_self_eq_true, if_true, Option.filter_some, Bool.not_true]
        constructor
        · intro h
          simp at h
        · rintro ⟨h, hv⟩
          have he : u = t := by simpa using h
          rw [← he, hx] at hv
          simp at hv
    · simp [ho]

/-- The two ways an update ends: refused as absent, or what `apply` says of the visible task. -/
theorem update_cases {entries : Entries} {owner : TaskOwner} {id : TaskId}
    {apply : DetailedTask → Except TaskError DetailedTask}
    {r : Except TaskError (Entries × DetailedTask)}
    (h : update chrono now entries owner id apply = r) :
    ((∀ t, ¬ Visible chrono now entries owner id t) ∧ r = .error (.notFound id)) ∨
    ∃ t, Visible chrono now entries owner id t ∧
      r = (apply t).map fun u => (entries.insert id (owner, u), u) := by
  subst h
  cases hl : entries.lookup id with
  | none =>
    left
    simp [update, Visible, hl]
  | some e =>
    obtain ⟨o, t⟩ := e
    by_cases hv : o = owner ∧ isExpired chrono now t.task = false
    · obtain ⟨rfl, hx⟩ := hv
      right
      refine ⟨t, ⟨hl, hx⟩, ?_⟩
      simp only [update, hl, Option.filter_some, hx, beq_self_eq_true, Bool.not_false, Bool.and_self,
        if_true]
      cases apply t <;> rfl
    · left
      have hf : (o == owner && !isExpired chrono now t.task) = false := by
        simpa [Bool.and_eq_false_iff, imp_iff_not_or] using hv
      refine ⟨?_, by simp [update, hl, Option.filter_some, hf]⟩
      rintro u ⟨hu, hx⟩
      rw [hl] at hu
      obtain ⟨rfl, rfl⟩ := Prod.mk.inj (Option.some.inj hu)
      exact hv ⟨rfl, hx⟩

theorem update_eq_ok {entries entries' : Entries} {owner : TaskOwner} {id : TaskId}
    {apply : DetailedTask → Except TaskError DetailedTask} {u : DetailedTask} :
    update chrono now entries owner id apply = .ok (entries', u) ↔
      ∃ t, Visible chrono now entries owner id t ∧ apply t = .ok u ∧
        entries' = entries.insert id (owner, u) := by
  constructor
  · intro h
    obtain ⟨_, hr⟩ | ⟨t, hv, hr⟩ := update_cases h
    · simp at hr
    · cases ha : apply t with
      | error e => simp [ha, Except.map] at hr
      | ok w =>
        simp only [ha, Except.map, Except.ok.injEq, Prod.mk.injEq] at hr
        obtain ⟨rfl, rfl⟩ := hr
        exact ⟨t, hv, ha, rfl⟩
  · rintro ⟨t, ⟨hl, hx⟩, ha, rfl⟩
    simp [update, hl, Option.filter_some, hx, ha]

end InMemoryTaskStore

end Tronc.Tasks
