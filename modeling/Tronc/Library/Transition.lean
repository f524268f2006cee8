import Mathlib.Data.List.Basic
import Mathlib.Logic.Function.Basic

namespace Transition

/-- A labelled transition system: where it may start, and what one step may do. -/
structure Lts (S A : Type*) where
  init : S → Prop
  step : S → A → S → Prop

/-- One step taken in a run. -/
structure Taken (S A : Type*) where
  source : S
  label : A
  target : S

variable {S A : Type*} {M : Lts S A}

/-- Take the steps in turn, from `s`. -/
def exec (step : S → A → Option S) (s : S) : List A → Option S
  | [] => some s
  | a :: rest => (step s a).bind fun t => exec step t rest

namespace Lts

/-- A finite run from one state to another, with every step it took, the last one last. -/
inductive Run (M : Lts S A) : S → List (Taken S A) → S → Prop where
  | start (s : S) : Run M s [] s
  | next {s t u : S} {tr : List (Taken S A)} {a : A} :
      Run M s tr t → M.step t a u → Run M s (tr ++ [⟨t, a, u⟩]) u

def Reachable (M : Lts S A) (s : S) : Prop := ∃ s₀ tr, M.init s₀ ∧ M.Run s₀ tr s

/-- The system that takes only the steps `G` admits. -/
def restrict (M : Lts S A) (G : S → A → Prop) : Lts S A where
  init := M.init
  step s a t := G s a ∧ M.step s a t

end Lts

theorem Lts.Run.invariant {P : S → Prop} {s t : S} {tr : List (Taken S A)} (h : M.Run s tr t)
    (hstep : ∀ s a t, P s → M.step s a t → P t) (hs : P s) : P t := by
  induction h with
  | start => exact hs
  | next _ step ih => exact hstep _ _ _ ih step

theorem Lts.Reachable.start {s : S} (h : M.init s) : M.Reachable s := ⟨s, [], h, .start s⟩

theorem Lts.Reachable.next {s t : S} {a : A} (h : M.Reachable s) (step : M.step s a t) :
    M.Reachable t := by
  obtain ⟨s₀, tr, h₀, hr⟩ := h
  exact ⟨s₀, _, h₀, hr.next step⟩

theorem Lts.Reachable.run {s t : S} {tr : List (Taken S A)} (h : M.Reachable s) (hr : M.Run s tr t) :
    M.Reachable t :=
  hr.invariant (fun _ _ _ => Reachable.next) h

/-- What holds at the start and is kept by every step from a reachable state holds in every
reachable state. -/
theorem Lts.Reachable.invariant {P : S → Prop} (hinit : ∀ s, M.init s → P s)
    (hstep : ∀ s a t, M.Reachable s → P s → M.step s a t → P t) {s : S}
    (h : M.Reachable s) : P s := by
  obtain ⟨s₀, tr, h₀, hr⟩ := h
  have both : M.Reachable s ∧ P s := hr.invariant
    (P := fun s => M.Reachable s ∧ P s) (fun s a t h step => ⟨h.1.next step, hstep s a t h.1 h.2 step⟩) ⟨.start h₀, hinit s₀ h₀⟩
  exact both.2

/-- What `exec` does is a run, where `I` holds all along. -/
theorem Lts.Run.exec {I : S → Prop} {step : S → A → Option S}
    (hstep : ∀ s a t, I s → step s a = some t → M.step s a t ∧ I t) (labels : List A)
    {s t u : S} {tr : List (Taken S A)} (ht : I t) (h : exec step t labels = some u)
    (hr : M.Run s tr t) : ∃ rest, M.Run s (tr ++ rest) u := by
  induction labels generalizing t tr with
  | nil =>
    obtain rfl := Option.some.inj h
    exact ⟨[], by rw [List.append_nil]; exact hr⟩
  | cons a labels ih =>
    obtain ⟨v, hv, hlabels⟩ := Option.bind_eq_some_iff.mp h
    obtain ⟨hs, hi⟩ := hstep t a v ht hv
    obtain ⟨rest, hrest⟩ := ih hi hlabels (hr.next hs)
    exact ⟨_, by rw [List.append_assoc] at hrest; exact hrest⟩

/-- What `exec` does is a run that takes the steps it was given. -/
theorem Lts.Run.labels {step : S → A → Option S} (hstep : ∀ s a t, step s a = some t → M.step s a t)
    (labels : List A) {s t u : S} {tr : List (Taken S A)} (h : Transition.exec step t labels = some u)
    (hr : M.Run s tr t) : ∃ rest, M.Run s (tr ++ rest) u ∧ rest.map Taken.label = labels := by
  induction labels generalizing t tr with
  | nil =>
    obtain rfl := Option.some.inj h
    exact ⟨[], by rw [List.append_nil]; exact hr, rfl⟩
  | cons a labels ih =>
    obtain ⟨v, hv, hlabels⟩ := Option.bind_eq_some_iff.mp h
    obtain ⟨rest, hrest, hmap⟩ := ih hlabels (hr.next (hstep t a v hv))
    rw [List.append_assoc] at hrest
    exact ⟨_, hrest, congrArg (a :: ·) hmap⟩

theorem Lts.Reachable.exec {step : S → A → Option S}
    (hstep : ∀ s a t, M.Reachable s → step s a = some t → M.step s a t) (labels : List A) {s t : S}
    (h : exec step s labels = some t) (hr : M.Reachable s) : M.Reachable t := by
  obtain ⟨_, hrun⟩ := Run.exec (I := M.Reachable)
    (fun s a t hs ha => ⟨hstep s a t hs ha, hs.next (hstep s a t hs ha)⟩) labels hr h (.start s)
  exact hr.run hrun

/-- Every step of a run is a step of the system, from a state the run's start leads to. -/
theorem Lts.Run.taken {s t : S} {tr : List (Taken S A)} (h : M.Run s tr t) {x : Taken S A}
    (hx : x ∈ tr) : M.step x.source x.label x.target ∧ ∃ before, M.Run s before x.source := by
  induction h with
  | start => simp at hx
  | next hr step ih =>
    rcases List.mem_append.mp hx with hx | hx
    · exact ih hx
    · rw [List.mem_singleton.mp hx]
      exact ⟨step, _, hr⟩

/-- What a step makes true and no step undoes holds at the end of the run. -/
theorem Lts.Run.stays {P : S → Prop} {s t : S} {tr : List (Taken S A)} (h : M.Run s tr t)
    (hstep : ∀ s a t, P s → M.step s a t → P t) {x : Taken S A} (hx : x ∈ tr) (hP : P x.target) :
    P t := by
  induction h with
  | start => simp at hx
  | next hr step ih =>
    rcases List.mem_append.mp hx with hx | hx
    · exact hstep _ _ _ (ih hx) step
    · rw [List.mem_singleton.mp hx] at hP
      exact hP

/-- A step that needs `D` to be false and makes it true, when nothing makes `D` false again, is
taken at most once in a run; `I` holds all along. -/
theorem Lts.Run.at_most_once {E : Taken S A → Prop} {D I : S → Prop} {s t : S}
    {tr : List (Taken S A)} (h : M.Run s tr t) (hs : I s)
    (keeps : ∀ s a t, I s → M.step s a t → I t)
    (stable : ∀ s a t, I s → D s → M.step s a t → D t)
    (needs : ∀ x : Taken S A, I x.source → M.step x.source x.label x.target → E x → ¬ D x.source)
    (makes : ∀ x : Taken S A, I x.source → M.step x.source x.label x.target → E x → D x.target) :
    tr.Pairwise (fun x y => ¬ (E x ∧ E y)) := by
  suffices tr.Pairwise (fun x y => ¬ (E x ∧ E y)) ∧ ∀ x ∈ tr, E x → D t from this.1
  induction h with
  | start => simp
  | @next t u tr a hr step ih =>
    have ht : I t := hr.invariant keeps hs
    refine ⟨List.pairwise_append.mpr ⟨ih.1, List.pairwise_singleton _ _, ?_⟩, ?_⟩
    · intro x hx y hy both
      rw [List.mem_singleton.mp hy] at both
      exact needs ⟨t, a, u⟩ ht step both.2 (ih.2 x hx both.1)
    · intro x hx he
      rcases List.mem_append.mp hx with hx | hx
      · exact stable t a u ht (ih.2 x hx he) step
      · have hx := List.mem_singleton.mp hx
        subst hx
        exact makes ⟨t, a, u⟩ ht step he

/-- An order that every step goes up in orders what a run goes through; `I` holds all along. -/
theorem Lts.Run.ordered {R : S → S → Prop} {I : S → Prop} {s t : S} {tr : List (Taken S A)}
    (h : M.Run s tr t) (hs : I s) (keeps : ∀ s a t, I s → M.step s a t → I t)
    (refl : ∀ s, R s s) (trans : ∀ s t u, R s t → R t u → R s u)
    (hstep : ∀ s a t, I s → M.step s a t → R s t) :
    tr.Pairwise (fun x y => R x.target y.source) := by
  suffices tr.Pairwise (fun x y => R x.target y.source) ∧ ∀ x ∈ tr, R x.target t from this.1
  induction h with
  | start => simp
  | @next t u tr a hr step ih =>
    have ht : I t := hr.invariant keeps hs
    refine ⟨List.pairwise_append.mpr ⟨ih.1, List.pairwise_singleton _ _, ?_⟩, ?_⟩
    · intro x hx y hy
      rw [List.mem_singleton.mp hy]
      exact ih.2 x hx
    · intro x hx
      rcases List.mem_append.mp hx with hx | hx
      · exact trans x.target t u (ih.2 x hx) (hstep t a u ht step)
      · rw [List.mem_singleton.mp hx]
        exact refl u

theorem Lts.Run.of_restrict {G : S → A → Prop} {s t : S} {tr : List (Taken S A)}
    (h : (M.restrict G).Run s tr t) : M.Run s tr t := by
  induction h with
  | start => exact .start _
  | next _ step ih => exact ih.next step.2

/-- Copies of a system beside each other: a step is one copy's, and leaves the others alone. -/
def Lts.each (ι : Type*) (M : Lts S A) : Lts (ι → S) (ι × A) where
  init f := ∀ i, M.init (f i)
  step f a g := M.step (f a.1) a.2 (g a.1) ∧ ∀ i, i ≠ a.1 → g i = f i

/-- What one copy does is a run of its own. -/
theorem Lts.Run.component {ι : Type*} {f g : ι → S} {tr : List (Taken (ι → S) (ι × A))}
    (h : (M.each ι).Run f tr g) (i : ι) : ∃ tr', M.Run (f i) tr' (g i) := by
  induction h with
  | start => exact ⟨[], .start _⟩
  | @next g u tr a _ step ih =>
    obtain ⟨tr', hr⟩ := ih
    by_cases ha : i = a.1
    · subst ha
      exact ⟨_, hr.next step.1⟩
    · rw [step.2 i ha]
      exact ⟨tr', hr⟩

/-- One copy may run alone. -/
theorem Lts.Run.lift {ι : Type*} [DecidableEq ι] {s t : S} {tr : List (Taken S A)} (h : M.Run s tr t)
    {f : ι → S} {i : ι} (hf : f i = s) : ∃ tr', (M.each ι).Run f tr' (Function.update f i t) ∧
      ∀ x ∈ tr, ∃ y ∈ tr', y.label = (i, x.label) ∧ y.source i = x.source := by
  induction h with
  | start =>
    rw [← hf, Function.update_eq_self]
    exact ⟨[], .start f, by simp⟩
  | @next t u tr a _ step ih =>
    obtain ⟨tr', hr, hsame⟩ := ih
    have hstep : (M.each ι).step (Function.update f i t) (i, a) (Function.update f i u) := by
      refine ⟨?_, fun j hj => ?_⟩
      · show M.step (Function.update f i t i) a (Function.update f i u i)
        rw [Function.update_self, Function.update_self]
        exact step
      · rw [Function.update_of_ne hj, Function.update_of_ne hj]
    refine ⟨_, hr.next hstep, fun x hx => ?_⟩
    rcases List.mem_append.mp hx with hx | hx
    · obtain ⟨y, hy, hlabel⟩ := hsame x hx
      exact ⟨y, List.mem_append_left _ hy, hlabel⟩
    · rw [List.mem_singleton.mp hx]
      exact ⟨_, List.mem_append_right _ (.head _), rfl, Function.update_self ..⟩

/-- What `exec` does when every step it takes meets the test `p`. -/
theorem Lts.Run.execIf {G : S → A → Prop} {p : S → A → Bool} {step : S → A → Option S}
    (hp : ∀ s a, p s a = true → G s a) (hstep : ∀ s a t, step s a = some t → M.step s a t)
    (labels : List A) {s t : S}
    (h : Transition.exec (fun s a => if p s a then step s a else none) s labels = some t) :
    ∃ tr, (M.restrict G).Run s tr t := by
  refine Run.exec (M := M.restrict G) (I := fun _ => True) (fun s a t _ ha => ?_) labels trivial h
    (.start s)
  split at ha
  · rename_i hpa
    exact ⟨⟨hp s a hpa, hstep s a t ha⟩, trivial⟩
  · cases ha

theorem Lts.Reachable.of_restrict {G : S → A → Prop} {s : S} (h : (M.restrict G).Reachable s) :
    M.Reachable s := by
  obtain ⟨s₀, tr, h₀, hr⟩ := h
  exact ⟨s₀, tr, h₀, hr.of_restrict⟩

end Transition
