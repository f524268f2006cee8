import Mathlib.Data.List.Basic

namespace SlidingWindow

variable {w now later : Nat} {times : List Nat}

/-- The times from `t` on, in a window of width `w`. -/
def inWindow (w t : Nat) (times : List Nat) : List Nat :=
  times.filter fun x => t ≤ x ∧ x < t + w

/-- The times less than `w` ago. -/
def recent (w now : Nat) (times : List Nat) : List Nat := times.filter fun x => now - x < w

theorem recent_append (w now : Nat) (times more : List Nat) :
    recent w now (times ++ more) = recent w now times ++ recent w now more :=
  List.filter_append ..

theorem recent_recent (times : List Nat) (h : now ≤ later) :
    recent w later (recent w now times) = recent w later times := by
  unfold recent
  rw [List.filter_filter]
  refine List.filter_congr fun x _ => ?_
  rw [← Bool.decide_and, decide_eq_decide]
  omega

/-- What agrees on the recent times agrees on them later. -/
theorem recent_later {other : List Nat} (heq : recent w now times = recent w now other)
    (h : now ≤ later) : recent w later times = recent w later other := by
  rw [← recent_recent times h, heq, recent_recent other h]

/-- The times of a window that is still open are recent. -/
theorem inWindow_length_le {t : Nat} (times : List Nat) (hopen : now < t + w) :
    (inWindow w t times).length ≤ (recent w now times).length := by
  refine (List.monotone_filter_right times fun x hx => ?_).length_le
  have hx := of_decide_eq_true hx
  exact decide_eq_true (by omega)

/-- When fewer than `n` times are recent, one more keeps every window to `n`. -/
theorem inWindow_snoc {n : Nat} (hbound : ∀ t, (inWindow w t times).length ≤ n)
    (hroom : (recent w now times).length < n) (t : Nat) :
    (inWindow w t (times ++ [now])).length ≤ n := by
  unfold inWindow
  rw [List.filter_append, List.length_append]
  by_cases hin : t ≤ now ∧ now < t + w
  · have hle := inWindow_length_le times hin.2
    have hone : ([now].filter fun x => decide (t ≤ x ∧ x < t + w)).length ≤ 1 :=
      List.length_filter_le _ [now]
    unfold inWindow at hle
    omega
  · have hnone : ([now].filter fun x => decide (t ≤ x ∧ x < t + w)) = [] := by
      simp [hin]
    rw [hnone]
    exact hbound t

end SlidingWindow
