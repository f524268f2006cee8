import Mathlib.Data.List.Induction
import Mathlib.Order.MinMax

namespace Ranked

variable {R W : Type} [LinearOrder R] [LinearOrder W] {xs ys : List (R × W)} {b c : R × W}

/-- What is held after a candidate: of the higher rank, and of one rank the greater weight. -/
def hold (best : Option (R × W)) (candidate : R × W) : Option (R × W) :=
  some (match best with
    | some held =>
      if held.1 > candidate.1 then held
      else if held.1 = candidate.1 then (held.1, max held.2 candidate.2)
      else candidate
    | none => candidate)

def best (xs : List (R × W)) : Option (R × W) := xs.foldl hold none

/-- Of the highest rank in the list, with the greatest weight of that rank. -/
structure IsBest (xs : List (R × W)) (b : R × W) : Prop where
  mem : b ∈ xs
  rank_le : ∀ x ∈ xs, x.1 ≤ b.1
  weight_le : ∀ x ∈ xs, x.1 = b.1 → x.2 ≤ b.2

theorem IsBest.unique (hb : IsBest xs b) (hc : IsBest xs c) : b = c := by
  have hrank : b.1 = c.1 := le_antisymm (hc.rank_le b hb.mem) (hb.rank_le c hc.mem)
  have hweight : b.2 = c.2 :=
    le_antisymm (hc.weight_le b hb.mem hrank) (hb.weight_le c hc.mem hrank.symm)
  exact Prod.ext hrank hweight

theorem isBest_singleton (x : R × W) : IsBest [x] x where
  mem := List.mem_singleton_self x
  rank_le y hy := by rw [List.mem_singleton.mp hy]
  weight_le y hy _ := by rw [List.mem_singleton.mp hy]

/-- One more candidate. -/
theorem IsBest.hold (h : IsBest xs b) (x : R × W) :
    ∃ c, hold (some b) x = some c ∧ IsBest (xs ++ [x]) c := by
  have hall {p : R × W → Prop} (hxs : ∀ y ∈ xs, p y) (hx : p x) : ∀ y ∈ xs ++ [x], p y := by
    intro y hy
    rcases List.mem_append.mp hy with hy | hy
    · exact hxs y hy
    · rw [List.mem_singleton.mp hy]
      exact hx
  have hleft : b ∈ xs ++ [x] := List.mem_append_left _ h.mem
  have hright : x ∈ xs ++ [x] := List.mem_append_right _ (List.mem_singleton_self x)
  refine ⟨_, rfl, ?_⟩
  dsimp only
  split
  · rename_i hgt
    exact ⟨hleft, hall h.rank_le hgt.le, hall h.weight_le fun heq => absurd heq hgt.ne⟩
  · rename_i hle
    split
    · rename_i heq
      refine ⟨?_, hall h.rank_le heq.ge, hall (fun y hy hrank => ?_) fun _ => le_max_right _ _⟩
      · rcases max_choice b.2 x.2 with hmax | hmax
        · rw [hmax]
          exact hleft
        · rw [hmax, heq]
          exact hright
      · exact (h.weight_le y hy hrank).trans (le_max_left _ _)
    · rename_i hne
      have hlt : b.1 < x.1 := lt_of_le_of_ne (not_lt.mp hle) hne
      exact ⟨hright, hall (fun y hy => (h.rank_le y hy).trans hlt.le) le_rfl,
        hall (fun y hy hrank => absurd (hrank ▸ h.rank_le y hy) (not_le.mpr hlt)) fun _ => le_rfl⟩

/-- What is held last is the best of all. -/
theorem best_isBest (hne : xs ≠ []) : ∃ b, best xs = some b ∧ IsBest xs b := by
  induction xs using List.reverseRecOn with
  | nil => exact absurd rfl hne
  | append_singleton xs x ih =>
    unfold best at ih ⊢
    rw [List.foldl_append, List.foldl_cons, List.foldl_nil]
    by_cases hxs : xs = []
    · subst hxs
      exact ⟨x, rfl, isBest_singleton x⟩
    · obtain ⟨b, hb, hbest⟩ := ih hxs
      rw [hb]
      exact hbest.hold x

theorem best_eq_some_iff : best xs = some b ↔ IsBest xs b := by
  constructor
  · intro h
    have hne : xs ≠ [] := by
      rintro rfl
      cases h
    obtain ⟨c, hc, hbest⟩ := best_isBest hne
    rw [← Option.some.inj (hc.symm.trans h)]
    exact hbest
  · intro h
    obtain ⟨c, hc, hbest⟩ := best_isBest (List.ne_nil_of_mem h.mem)
    rw [hc, hbest.unique h]

theorem best_eq_none_iff : best xs = none ↔ xs = [] := by
  constructor
  · intro h
    by_contra hne
    obtain ⟨b, hb, -⟩ := best_isBest hne
    cases hb.symm.trans h
  · rintro rfl
    rfl

/-- The order of the candidates is of no account. -/
theorem best_perm (h : xs.Perm ys) : best xs = best ys := by
  refine Option.ext fun b => ?_
  rw [best_eq_some_iff, best_eq_some_iff]
  constructor
  · intro hb
    exact ⟨h.mem_iff.mp hb.mem, fun x hx => hb.rank_le x (h.mem_iff.mpr hx),
      fun x hx => hb.weight_le x (h.mem_iff.mpr hx)⟩
  · intro hb
    exact ⟨h.mem_iff.mpr hb.mem, fun x hx => hb.rank_le x (h.mem_iff.mp hx),
      fun x hx => hb.weight_le x (h.mem_iff.mp hx)⟩

end Ranked
