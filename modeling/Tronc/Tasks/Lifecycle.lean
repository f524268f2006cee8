import Tronc.Library.Transition
import Tronc.Tasks.Step

namespace Tronc.Tasks

open InMemoryTaskStore (Visible)
open Transition (Taken)

/-- The managers' futures over one store, from an empty store on. -/
def machine (cfg : Config) : Transition.Lts World Action where
  init w := w = World.init
  step w a w' := w.step cfg a = some w'

/-- Take the steps in turn, from `w`. -/
def World.exec (cfg : Config) (w : World) (actions : List Action) : Option World :=
  Transition.exec (fun w => w.step cfg) w actions

theorem World.exec_reachable {cfg : Config} {w w' : World} (actions : List Action)
    (h : w.exec cfg actions = some w') (hr : (machine cfg).Reachable w) :
    (machine cfg).Reachable w' := hr.exec (fun _ _ _ _ hs => hs) actions h

theorem init_reachable (cfg : Config) : (machine cfg).Reachable World.init := .start rfl

/-- The one instant a run on fixed inputs happens at, and its RFC 3339 text. -/
def Chrono.epoch : Chrono where
  toRfc3339Millis _ := "1970-01-01T00:00:00.000Z"
  parseFromRfc3339 s := if s = "1970-01-01T00:00:00.000Z" then some 0 else none

/-- Managers with no bus, whose tasks live for `ttlMs`. -/
def Config.plain (ttlMs : Option UInt64) : Config where
  chrono := .epoch
  options _ := ⟨ttlMs, 1000⟩
  signals _ := false

/-- The choices of runs on fixed inputs: the id `task`, and a bus that takes every signal. -/
def Choice.task : Choice := ⟨.ok ⟨"task"⟩, true⟩

/-- The life of one task id, as a client can tell it: not minted yet, open under its owner,
settled for good, or gone from the store. -/
inductive Life where
  | unborn
  | active (owner : TaskOwner) (seed : TaskId × String × Option UInt64)
  | final (owner : TaskOwner) (task : DetailedTask)
  | gone
  deriving DecidableEq

/-- What may become of a life: owner and seed stay, a final task is frozen, nothing returns. -/
def Life.Leads : Life → Life → Prop
  | .unborn, _ => True
  | .active owner seed, .active owner' seed' => owner' = owner ∧ seed' = seed
  | .active owner seed, .final owner' t => owner' = owner ∧ t.seed = seed
  | .active _ _, .gone => True
  | .final owner t, .final owner' t' => owner' = owner ∧ t' = t
  | .final _ _, .gone => True
  | .gone, .gone => True
  | _, _ => False

theorem Life.Leads.refl (l : Life) : l.Leads l := by
  cases l <;> simp [Leads]

theorem Life.Leads.trans {l m n : Life} (h : l.Leads m) (k : m.Leads n) : l.Leads n := by
  cases l <;> cases m <;> simp only [Leads] at h <;> cases n <;> simp only [Leads] at k ⊢
  case active.active.active => exact ⟨k.1.trans h.1, k.2.trans h.2⟩
  case active.active.final => exact ⟨k.1.trans h.1, k.2.trans h.2⟩
  case active.final.final => exact ⟨k.1.trans h.1, k.2 ▸ h.2⟩
  case final.final.final => exact ⟨k.1.trans h.1, k.2.trans h.2⟩

/-- The life of `id` in the store of `w`. -/
def World.life (w : World) (id : TaskId) : Life :=
  match w.entries.lookup id with
  | some (owner, t) => if t.status.isTerminal then .final owner t else .active owner t.seed
  | none => if id ∈ w.minted then .gone else .unborn

/-- Every stored task agrees with its payload, stands under its own id, and was minted. -/
def World.WellFormed (w : World) : Prop :=
  ∀ id owner t, w.entries.lookup id = some (owner, t) →
    t.Agrees ∧ t.task.taskId = id ∧ id ∈ w.minted

/-- Everything a step can do to the stored tasks. -/
inductive Writes (cfg : Config) (w w' : World) : Prop where
  | nothing (he : w'.entries = w.entries) (hm : w'.minted = w.minted)
  | births (owner : TaskOwner) (id : TaskId) (t : DetailedTask) (hid : id ∉ w.minted)
      (ht : t.Agrees ∧ t.task.taskId = id) (he : w'.entries = w.entries.insert id (owner, t))
      (hm : w'.minted = id :: w.minted)
  | rewrites (now : Int) (owner : TaskOwner) (id : TaskId) (t u : DetailedTask)
      (hv : Visible cfg.chrono now w.entries owner id t) (ht : t.status.isTerminal = false)
      (hu : u.Agrees ∧ u.seed = t.seed) (he : w'.entries = w.entries.insert id (owner, u))
      (hm : w'.minted = w.minted)
  | sweeps (now : Int)
      (he : w'.entries = w.entries.retain fun _ e => !isExpired cfg.chrono now e.2.task)
      (hm : w'.minted = w.minted)

variable {cfg : Config} {w w' : World} {a : Action}

theorem Step.writes (h : Step cfg w a w') (hwf : w.WellFormed) : Writes cfg w w' := by
  cases h with
  | called => unfold World.start; split <;> exact .nothing rfl rfl
  | stored hop hc hs hch hid htask =>
    subst htask
    exact .births _ _ _ hid ⟨DetailedTask.new_agrees _ _, rfl⟩ rfl rfl
  | updated hop hs hsub hq hv ht ha =>
    exact .rewrites _ _ _ _ _ hv ht (DetailedTask.touched_agrees _ _ _) rfl rfl
  | recorded hop hc hs hv ht =>
    exact .rewrites _ _ _ _ _ hv ht (DetailedTask.touched_agrees _ _ _) rfl rfl
  | asked hop hc hs hr hv ht =>
    exact .rewrites _ _ _ _ _ hv ht (DetailedTask.touched_agrees _ _ _) rfl rfl
  | taken hop hc hs hv hp hkeys =>
    -- a task waiting on input is not settled, because its status agrees with its payload
    have ht : DetailedTask.status _ = _ := (hwf _ _ _ hv.1).1
    rw [hp] at ht
    exact .rewrites _ _ _ _ _ hv (by rw [ht]; rfl)
      (DetailedTask.touched_agrees _ _ _) rfl rfl
  | swept hop hc hs hids => exact .sweeps _ rfl rfl
  | _ => exact .nothing rfl rfl

theorem Writes.wellFormed (h : Writes cfg w w') (hwf : w.WellFormed) : w'.WellFormed := by
  intro id owner t hl
  cases h with
  | nothing he hm =>
    rw [he] at hl
    rw [hm]
    exact hwf id owner t hl
  | births owner' id' t' hid ht he hm =>
    rw [he] at hl
    rw [hm]
    by_cases hi : id = id'
    · subst hi
      rw [AList.lookup_insert] at hl
      obtain ⟨-, rfl⟩ := Prod.mk.inj (Option.some.inj hl)
      exact ⟨ht.1, ht.2, List.mem_cons_self⟩
    · rw [AList.lookup_insert_ne hi] at hl
      have old := hwf id owner t hl
      exact ⟨old.1, old.2.1, List.mem_cons_of_mem _ old.2.2⟩
  | rewrites now owner' id' t' u hv ht hu he hm =>
    rw [he] at hl
    rw [hm]
    by_cases hi : id = id'
    · subst hi
      rw [AList.lookup_insert] at hl
      obtain ⟨-, rfl⟩ := Prod.mk.inj (Option.some.inj hl)
      have old := hwf id owner' t' hv.1
      have seed : u.task.taskId = t'.task.taskId := congrArg Prod.fst hu.2
      exact ⟨hu.1, seed.trans old.2.1, old.2.2⟩
    · rw [AList.lookup_insert_ne hi] at hl
      exact hwf id owner t hl
  | sweeps now he hm =>
    rw [he] at hl
    rw [hm]
    exact hwf id owner t (AList.lookup_retain_eq_some.mp hl).1

/-- Refinement: whatever a step does, each task's life only moves forward. -/
theorem Writes.life (h : Writes cfg w w') (hwf : w.WellFormed) (id : TaskId) :
    (w.life id).Leads (w'.life id) := by
  cases h with
  | nothing he hm =>
    have same : w'.life id = w.life id := by simp only [World.life, he, hm]
    rw [same]
    exact .refl _
  | births owner id' t hid ht he hm =>
    have fresh : w.entries.lookup id' = none := by
      cases hl : w.entries.lookup id' with
      | none => rfl
      | some e => exact absurd (hwf id' e.1 e.2 hl).2.2 hid
    by_cases hi : id = id'
    · subst hi
      have unborn : w.life id = .unborn := by simp [World.life, fresh, hid]
      rw [unborn]
      trivial
    · have same : w'.life id = w.life id := by
        simp only [World.life, he, hm, AList.lookup_insert_ne hi, List.mem_cons, hi, false_or]
      rw [same]
      exact .refl _
  | rewrites now owner id' t u hv ht hu he hm =>
    by_cases hi : id = id'
    · subst hi
      have before : w.life id = .active owner t.seed := by
        simp only [World.life, hv.1, ht, Bool.false_eq_true, if_false]
      rw [before]
      simp only [World.life, he, AList.lookup_insert]
      split
      · exact ⟨rfl, hu.2⟩
      · exact ⟨rfl, hu.2⟩
    · have same : w'.life id = w.life id := by
        simp only [World.life, he, hm, AList.lookup_insert_ne hi]
      rw [same]
      exact .refl _
  | sweeps now he hm =>
    cases hl : w.entries.lookup id with
    | none =>
      have same : w'.life id = w.life id := by
        simp only [World.life, he, hm, AList.lookup_retain, hl, Option.filter_none]
      rw [same]
      exact .refl _
    | some e =>
      obtain ⟨owner, t⟩ := e
      have minted := (hwf id owner t hl).2.2
      cases hx : isExpired cfg.chrono now t.task with
      | false =>
        have same : w'.life id = w.life id := by
          simp [World.life, he, AList.lookup_retain, hl, Option.filter_some, hx]
        rw [same]
        exact .refl _
      | true =>
        have gone : w'.life id = .gone := by
          simp [World.life, he, hm, AList.lookup_retain, hl, Option.filter_some, hx, minted]
        rw [gone]
        simp only [World.life, hl]
        split <;> trivial

theorem reachable_wellFormed (h : (machine cfg).Reachable w) : w.WellFormed := by
  refine h.invariant (P := World.WellFormed) ?_ ?_
  · rintro _ rfl id owner t hl
    simp [World.init] at hl
  · intro s a t _ hs step
    exact ((World.step_sound step).writes hs).wellFormed hs

theorem step_life (hr : (machine cfg).Reachable w) (h : w.step cfg a = some w') (id : TaskId) :
    (w.life id).Leads (w'.life id) :=
  ((World.step_sound h).writes (reachable_wellFormed hr)).life (reachable_wellFormed hr) id

/-- Over a whole run too, from any state a run can reach. -/
theorem run_life {tr : List (Taken World Action)} (hr : (machine cfg).Reachable w)
    (h : (machine cfg).Run w tr w') (id : TaskId) : (w.life id).Leads (w'.life id) := by
  have both : (machine cfg).Reachable w' ∧ (w.life id).Leads (w'.life id) := h.invariant
    (P := fun s => (machine cfg).Reachable s ∧ (w.life id).Leads (s.life id))
    (fun s a t hs step => ⟨hs.1.next step, hs.2.trans (step_life hs.1 step id)⟩)
    ⟨hr, .refl _⟩
  exact both.2

end Tronc.Tasks
