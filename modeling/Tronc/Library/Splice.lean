import Mathlib.Data.List.Infix

namespace Splice

variable {α : Type*}

/-- A search for a span at the front of a text, after the character before it: where the span starts,
and where it ends. -/
abbrev Search (α : Type*) := Option α → List α → Option (Nat × Nat)

/-- Go through a text and put the word in place of each span found; `skip` is what is left of the
last one. -/
def splice (word : List α) (find : Search α) : Option α → Nat → List α → List α
  | _, _, [] => []
  | _, skip + 1, c :: rest => splice word find (some c) skip rest
  | prev, 0, c :: rest =>
    match find prev (c :: rest) with
    | some (start, stop) =>
      (c :: rest).take start ++ word ++ splice word find (some c) (stop - 1) rest
    | none => c :: splice word find (some c) 0 rest

/-- The spans found are not empty, and within the text. -/
def Search.Sound (find : Search α) : Prop :=
  ∀ prev text start stop, find prev text = some (start, stop) → start < stop ∧ stop ≤ text.length

/-- The character before what is left after `n` more. -/
def lastOf (prev : Option α) (n : Nat) (text : List α) : Option α := (text.take n).getLast?.or prev

variable {word : List α} {find : Search α}

theorem splice_skip (prev : Option α) (n : Nat) (text : List α) :
    splice word find prev n text = splice word find (lastOf prev n text) 0 (text.drop n) := by
  induction n generalizing prev text with
  | zero => rfl
  | succ n ih =>
    cases text with
    | nil => simp [splice]
    | cons c rest =>
      rw [splice, ih, List.drop_succ_cons]
      unfold lastOf
      rw [List.take_succ_cons, List.getLast?_cons]
      cases (rest.take n).getLast? with
      | none => rfl
      | some d => rfl

theorem splice_found {prev : Option α} {c : α} {rest : List α} {start stop : Nat}
    (h : find prev (c :: rest) = some (start, stop)) (hstop : 0 < stop) :
    splice word find prev 0 (c :: rest) = (c :: rest).take start ++ word ++
      splice word find (lastOf prev stop (c :: rest)) 0 ((c :: rest).drop stop) := by
  obtain ⟨n, rfl⟩ : ∃ n, stop = n + 1 := ⟨stop - 1, by omega⟩
  rw [← splice_skip prev (n + 1) (c :: rest)]
  simp only [splice, h, Nat.add_sub_cancel]

theorem splice_none {prev : Option α} {c : α} {rest : List α}
    (h : find prev (c :: rest) = none) :
    splice word find prev 0 (c :: rest) = c :: splice word find (some c) 0 rest := by
  rw [splice, h]

/-- The second text is the first with the word in place of some spans. -/
inductive Spliced (word : List α) : List α → List α → Prop where
  | nil : Spliced word [] []
  | keep (c : α) {x y : List α} : Spliced word x y → Spliced word (c :: x) (c :: y)
  | mask (span : List α) {x y : List α} : Spliced word x y → Spliced word (span ++ x) (word ++ y)

theorem Spliced.refl (word x : List α) : Spliced word x x := by
  induction x with
  | nil => exact .nil
  | cons c x ih => exact .keep c ih

theorem Spliced.kept {x y : List α} (front : List α) (h : Spliced word x y) :
    Spliced word (front ++ x) (front ++ y) := by
  induction front with
  | nil => exact h
  | cons c front ih => exact .keep c ih

theorem splice_spliced (sound : find.Sound) (prev : Option α) (text : List α) :
    Spliced word text (splice word find prev 0 text) := by
  induction hn : text.length using Nat.strong_induction_on generalizing prev text with
  | _ n ih =>
    cases text with
    | nil => exact .nil
    | cons c rest =>
      cases hfind : find prev (c :: rest) with
      | none =>
        rw [splice_none hfind]
        exact .keep c (ih _ (by rw [← hn]; simp) _ _ rfl)
      | some span =>
        obtain ⟨start, stop⟩ := span
        obtain ⟨hlt, hle⟩ := sound _ _ _ _ hfind
        rw [splice_found hfind (by omega)]
        have hrest := ih ((c :: rest).drop stop).length
          (by rw [← hn, List.length_drop]; rw [List.length_cons] at hle ⊢; omega)
          (lastOf prev stop (c :: rest)) _ rfl
        have hsplit : c :: rest = (c :: rest).take start ++
            (((c :: rest).take stop).drop start ++ (c :: rest).drop stop) := by
          have hfront : (c :: rest).take start = ((c :: rest).take stop).take start := by
            rw [List.take_take, Nat.min_eq_left hlt.le]
          rw [← List.append_assoc, hfront, List.take_append_drop, List.take_append_drop]
        have hspliced := Spliced.kept ((c :: rest).take start)
          (Spliced.mask (((c :: rest).take stop).drop start) hrest)
        rw [← hsplit, ← List.append_assoc] at hspliced
        exact hspliced

/-- A front of the result that has not the word's first character is a front of the text. -/
theorem Spliced.atStart {first : α} {tail x y v : List α} (h : Spliced (first :: tail) x y)
    (hv : first ∉ v) (hfront : v <+: y) : v <+: x := by
  induction h generalizing v with
  | nil => exact hfront
  | keep c _ ih =>
    cases v with
    | nil => exact List.nil_prefix
    | cons d v =>
      obtain ⟨rfl, hrest⟩ := List.cons_prefix_cons.mp hfront
      exact List.cons_prefix_cons.mpr ⟨rfl, ih (fun hmem => hv (.tail _ hmem)) hrest⟩
  | mask span _ _ =>
    cases v with
    | nil => exact List.nil_prefix
    | cons d v =>
      obtain ⟨rfl, -⟩ := List.cons_prefix_cons.mp hfront
      exact absurd (.head _) hv

/-- A part that has not the word's last character lies in the word or after it. -/
theorem infix_word_append {w y v : List α} {last : α} (hv : last ∉ v)
    (h : v <:+: (w ++ [last]) ++ y) : v <:+: w ++ [last] ∨ v <:+: y := by
  rcases List.infix_append_iff_ne_nil.mp h with h | h | ⟨l₁, l₂, hne, -, rfl, hsuffix, -⟩
  · exact .inl h
  · exact .inr h
  · have hmem : last ∈ l₁ := by
      obtain ⟨t, ht⟩ := hsuffix
      have hlast : l₁.getLast? = some last := by
        have hwhole := congrArg List.getLast? ht
        rw [List.getLast?_append_of_ne_nil t hne, List.getLast?_concat] at hwhole
        exact hwhole
      exact List.mem_of_getLast? hlast
    exact absurd (List.mem_append_left _ hmem) hv

variable {first last : α} {middle x y v : List α}

/-- The word begins and ends with a character of its own: a part of the result that has neither, and
is not within the word, is a part of the text. -/
theorem Spliced.inside (h : Spliced (first :: (middle ++ [last])) x y) (hfirst : first ∉ v)
    (hlast : last ∉ v) (hword : ¬ v <:+: first :: (middle ++ [last])) (hv : v <:+: y) :
    v <:+: x := by
  induction h with
  | nil => exact hv
  | keep c hrest ih =>
    rcases List.infix_cons_iff.mp hv with hfront | hv
    · exact (Spliced.atStart (.keep c hrest) hfirst hfront).isInfix
    · exact (ih hv).trans (List.suffix_cons _ _).isInfix
  | mask span _ ih =>
    rw [← List.cons_append] at hv
    rcases infix_word_append (w := first :: middle) hlast hv with hv | hv
    · exact absurd hv hword
    · exact (ih hv).trans (List.suffix_append _ _).isInfix

section Replace

variable [DecidableEq α]

/-- The search for one pattern. -/
def occurrence (pat : List α) : Search α :=
  fun _ text => if pat <+: text then some (0, pat.length) else none

theorem occurrence_sound {pat : List α} (hpat : pat ≠ []) : (occurrence pat).Sound := by
  intro prev text start stop h
  unfold occurrence at h
  split at h
  · rename_i hfront
    obtain ⟨rfl, rfl⟩ := Prod.mk.inj (Option.some.inj h)
    exact ⟨List.length_pos_iff.mpr hpat, hfront.length_le⟩
  · cases h

/-- No occurrence of a pattern is left, nor made, where the pattern has neither end of the word, and
is not within it. -/
theorem replace_removes {pat : List α} (hpat : pat ≠ []) (hfirst : first ∉ pat)
    (hlast : last ∉ pat) (hword : ¬ pat <:+: first :: (middle ++ [last])) (prev : Option α)
    (text : List α) :
    ¬ pat <:+: splice (first :: (middle ++ [last])) (occurrence pat) prev 0 text := by
  induction hn : text.length using Nat.strong_induction_on generalizing prev text with
  | _ n ih =>
    cases text with
    | nil => exact fun h => hpat (List.infix_nil.mp h)
    | cons c rest =>
      by_cases hfront : pat <+: c :: rest
      · have hfind : occurrence pat prev (c :: rest) = some (0, pat.length) := if_pos hfront
        have hpos := List.length_pos_iff.mpr hpat
        rw [splice_found hfind hpos, List.take_zero, List.nil_append]
        intro h
        rw [← List.cons_append] at h
        rcases infix_word_append (w := first :: middle) hlast h with h | h
        · exact hword h
        · refine ih _ ?_ _ _ rfl h
          rw [← hn, List.length_drop, List.length_cons]
          omega
      · have hfind : occurrence pat prev (c :: rest) = none := if_neg hfront
        intro h
        have hspliced : Spliced (first :: (middle ++ [last])) (c :: rest)
            (splice (first :: (middle ++ [last])) (occurrence pat) prev 0 (c :: rest)) :=
          splice_spliced (occurrence_sound hpat) prev (c :: rest)
        rw [splice_none hfind] at h hspliced
        rcases List.infix_cons_iff.mp h with h | h
        · exact hfront (hspliced.atStart hfirst h)
        · exact ih _ (by rw [← hn]; simp) _ _ rfl h

end Replace

end Splice
