import Tronc.Library.Splice

namespace Splice

variable {α : Type*}

/-- The character before a place of the text. -/
def before (text : List α) (i : Nat) : Option α := (text.take i).getLast?

/-- What the search finds at a place of the text. -/
def found (find : Search α) (text : List α) (i : Nat) : Option (Nat × Nat) :=
  find (before text i) (text.drop i)

/-- The place to go on from. -/
def advance (find : Search α) (text : List α) (i : Nat) : Nat :=
  match found find text i with
  | some (_, stop) => i + stop
  | none => i + 1

/-- A place the splice searches from. -/
inductive Stop (find : Search α) (text : List α) : Nat → Prop where
  | first : Stop find text 0
  | next {i : Nat} : Stop find text i → i < text.length → Stop find text (advance find text i)

/-- A place that the word is put over. -/
def Masked (find : Search α) (text : List α) (j : Nat) : Prop :=
  ∃ i start stop, Stop find text i ∧ found find text i = some (start, stop) ∧
    i + start ≤ j ∧ j < i + stop

/-- The spans that the word is put over, in order. -/
def spans (find : Search α) : Option α → Nat → Nat → List α → List (Nat × Nat)
  | _, _, _, [] => []
  | _, skip + 1, i, c :: rest => spans find (some c) skip (i + 1) rest
  | prev, 0, i, c :: rest =>
    match find prev (c :: rest) with
    | some (start, stop) => (i + start, i + stop) :: spans find (some c) (stop - 1) (i + 1) rest
    | none => spans find (some c) 0 (i + 1) rest

/-- The text from a place on, with the word over the spans: what is outside them is copied. -/
def fill (word text : List α) : Nat → List (Nat × Nat) → List α
  | copied, [] => text.drop copied
  | copied, (start, stop) :: rest =>
    (text.take start).drop copied ++ word ++ fill word text stop rest

/-- The spans are not empty, and each begins where the last one ends or after it. -/
def Ordered (length : Nat) : Nat → List (Nat × Nat) → Prop
  | copied, [] => copied ≤ length
  | copied, (start, stop) :: rest => copied ≤ start ∧ start < stop ∧ Ordered length stop rest

section

variable {find : Search α} {text : List α} {i j start stop : Nat}

theorem advance_found (h : found find text i = some (start, stop)) :
    advance find text i = i + stop := by
  unfold advance
  rw [h]

theorem advance_none (h : found find text i = none) : advance find text i = i + 1 := by
  unfold advance
  rw [h]

theorem found_sound (sound : find.Sound) (h : found find text i = some (start, stop)) :
    start < stop ∧ i + stop ≤ text.length := by
  obtain ⟨hlt, hle⟩ := sound _ _ _ _ h
  rw [List.length_drop] at hle
  omega

theorem lt_advance (sound : find.Sound) : i < advance find text i := by
  cases h : found find text i with
  | none =>
    rw [advance_none h]
    omega
  | some span =>
    obtain ⟨start, stop⟩ := span
    obtain ⟨hlt, -⟩ := found_sound sound h
    rw [advance_found h]
    omega

/-- Places are searched from in order: none between one and the place to go on from. -/
theorem advance_le_of_lt (sound : find.Sound) (hi : Stop find text i) (hj : Stop find text j)
    (h : i < j) : advance find text i ≤ j := by
  induction j using Nat.strong_induction_on generalizing i with
  | _ j ih =>
    cases hj with
    | first => omega
    | @next k hk _ =>
      have hkj : k < advance find text k := lt_advance sound
      rcases Nat.lt_trichotomy i k with hik | rfl | hki
      · have hle := ih k hkj hi hk hik
        omega
      · exact Nat.le_refl _
      · have hle := ih i h hk hi hki
        omega

/-- Every place is searched from, or passed with what is found before it. -/
theorem stop_or_passed (sound : find.Sound) (hj : j ≤ text.length) : Stop find text j ∨
    ∃ i start stop, Stop find text i ∧ found find text i = some (start, stop) ∧
      i < j ∧ j < i + stop := by
  induction j with
  | zero => exact .inl .first
  | succ j ih =>
    rcases ih (by omega) with hstop | ⟨i, start, stop, hi, hfound, hij, hlt⟩
    · have hnext := Stop.next hstop (by omega)
      cases hfound : found find text j with
      | none =>
        rw [advance_none hfound] at hnext
        exact .inl hnext
      | some span =>
        obtain ⟨start, stop⟩ := span
        obtain ⟨hlt, -⟩ := found_sound sound hfound
        rw [advance_found hfound] at hnext
        by_cases hone : stop = 1
        · rw [hone] at hnext
          exact .inl hnext
        · exact .inr ⟨j, start, stop, hstop, hfound, by omega, by omega⟩
    · by_cases hend : j + 1 = i + stop
      · have hbound := (found_sound sound hfound).2
        have hnext := Stop.next hi (by omega)
        rw [advance_found hfound, ← hend] at hnext
        exact .inl hnext
      · exact .inr ⟨i, start, stop, hi, hfound, by omega, by omega⟩

theorem drop_cons (h : i < text.length) : ∃ c rest, text.drop i = c :: rest :=
  ⟨text[i], text.drop (i + 1), List.drop_eq_getElem_cons h⟩

theorem before_succ {c : α} {rest : List α} (h : text.drop i = c :: rest) :
    before text (i + 1) = some c ∧ text.drop (i + 1) = rest := by
  have hget : text[i]? = some c := by
    rw [← Nat.add_zero i, ← List.getElem?_drop, h]
    rfl
  constructor
  · unfold before
    rw [List.take_add_one, hget]
    simp
  · rw [← List.drop_drop, h]
    rfl

theorem lastOf_before (n : Nat) :
    lastOf (before text i) n (text.drop i) = before text (i + n) := by
  unfold lastOf before
  rw [List.take_add, List.getLast?_append]

theorem spans_skip (prev : Option α) (n i : Nat) (text : List α) :
    spans find prev n i text = spans find (lastOf prev n text) 0 (i + n) (text.drop n) := by
  induction n generalizing prev i text with
  | zero => rfl
  | succ n ih =>
    cases text with
    | nil => simp [spans]
    | cons c rest =>
      rw [spans, ih, List.drop_succ_cons]
      unfold lastOf
      rw [List.take_succ_cons, List.getLast?_cons, Nat.add_assoc, Nat.add_comm 1 n]
      cases (rest.take n).getLast? with
      | none => rfl
      | some d => rfl

/-- The spans from a place on. -/
def spansAt (find : Search α) (text : List α) (i : Nat) : List (Nat × Nat) :=
  spans find (before text i) 0 i (text.drop i)

theorem spansAt_end (h : text.length ≤ i) : spansAt find text i = [] := by
  unfold spansAt
  rw [List.drop_eq_nil_of_le h, spans]

theorem spansAt_none (hi : i < text.length) (h : found find text i = none) :
    spansAt find text i = spansAt find text (i + 1) := by
  obtain ⟨c, rest, hdrop⟩ := drop_cons hi
  obtain ⟨hbefore, hrest⟩ := before_succ hdrop
  unfold found at h
  unfold spansAt
  rw [hbefore, hrest]
  rw [hdrop] at h ⊢
  rw [spans, h]

theorem spansAt_found (sound : find.Sound) (h : found find text i = some (start, stop)) :
    spansAt find text i = (i + start, i + stop) :: spansAt find text (i + stop) := by
  obtain ⟨hlt, hle⟩ := found_sound sound h
  obtain ⟨c, rest, hdrop⟩ := drop_cons (show i < text.length by omega)
  obtain ⟨n, rfl⟩ : ∃ n, stop = n + 1 := ⟨stop - 1, by omega⟩
  obtain ⟨hbefore, hrest⟩ := before_succ hdrop
  unfold found at h
  unfold spansAt
  rw [hdrop] at h ⊢
  rw [spans, h]
  dsimp only
  rw [Nat.add_sub_cancel, spans_skip, ← hbefore, ← hrest, lastOf_before, List.drop_drop,
    Nat.add_assoc, Nat.add_comm 1 n]

end

section

variable {find : Search α} {text : List α} {i j start stop : Nat} {word : List α}

theorem ordered_spansAt (sound : find.Sound) (i : Nat) (hi : i ≤ text.length) :
    Ordered text.length i (spansAt find text i) := by
  induction hn : text.length - i using Nat.strong_induction_on generalizing i with
  | _ n ih =>
    rcases Nat.lt_or_ge i text.length with hlt | hge
    · cases hfound : found find text i with
      | none =>
        rw [spansAt_none hlt hfound]
        have hrest := ih _ (by omega) (i + 1) (by omega) rfl
        cases hspans : spansAt find text (i + 1) with
        | nil => exact hi
        | cons span rest =>
          obtain ⟨start, stop⟩ := span
          rw [hspans] at hrest
          obtain ⟨hstart, hboth⟩ := hrest
          exact ⟨by omega, hboth⟩
      | some span =>
        obtain ⟨start, stop⟩ := span
        obtain ⟨hspan, hbound⟩ := found_sound sound hfound
        rw [spansAt_found sound hfound]
        exact ⟨by omega, by omega, ih _ (by omega) (i + stop) hbound rfl⟩
    · rw [spansAt_end hge]
      exact hi

theorem fill_succ {spans : List (Nat × Nat)} (hi : i < text.length)
    (h : Ordered text.length (i + 1) spans) :
    fill word text i spans = text[i] :: fill word text (i + 1) spans := by
  cases spans with
  | nil => exact List.drop_eq_getElem_cons hi
  | cons span rest =>
    obtain ⟨start, stop⟩ := span
    obtain ⟨hstart, -⟩ := h
    have hlt : i < (text.take start).length := by
      rw [List.length_take]
      omega
    have hcons : (text.take start).drop i = text[i] :: (text.take start).drop (i + 1) := by
      rw [List.drop_eq_getElem_cons hlt, List.getElem_take]
    rw [fill, fill, hcons]
    rfl

/-- The splice is the text with the word over its spans. -/
theorem splice_eq_fill (sound : find.Sound) (i : Nat) (hi : i ≤ text.length) :
    splice word find (before text i) 0 (text.drop i) =
      fill word text i (spansAt find text i) := by
  induction hn : text.length - i using Nat.strong_induction_on generalizing i with
  | _ n ih =>
    rcases Nat.lt_or_ge i text.length with hlt | hge
    · obtain ⟨c, rest, hdrop⟩ := drop_cons hlt
      cases hfound : found find text i with
      | none =>
        have hc : text[i] = c := by
          rw [List.drop_eq_getElem_cons hlt] at hdrop
          exact (List.cons.inj hdrop).1
        obtain ⟨hbefore, hrest⟩ := before_succ hdrop
        have hnext := ih _ (by omega) (i + 1) (by omega) rfl
        rw [hbefore, hrest] at hnext
        have hordered := ordered_spansAt sound (i + 1) (Nat.succ_le_of_lt hlt)
        rw [spansAt_none hlt hfound, fill_succ hlt hordered, ← hnext, hc, hdrop]
        unfold found at hfound
        rw [hdrop] at hfound
        exact splice_none hfound
      | some span =>
        obtain ⟨start, stop⟩ := span
        obtain ⟨hspan, hbound⟩ := found_sound sound hfound
        have hnext := ih _ (by omega) (i + stop) hbound rfl
        have hsplice : splice word find (before text i) 0 (text.drop i) =
            (text.drop i).take start ++ word ++
              splice word find (lastOf (before text i) stop (text.drop i)) 0
                ((text.drop i).drop stop) := by
          unfold found at hfound
          rw [hdrop] at hfound ⊢
          exact splice_found hfound (by omega)
        rw [hsplice, lastOf_before, List.drop_drop, hnext, spansAt_found sound hfound, fill,
          List.drop_take, Nat.add_sub_cancel_left]
    · rw [spansAt_end hge, List.drop_eq_nil_of_le hge, splice, fill, List.drop_eq_nil_of_le hge]

theorem spansAt_stop (sound : find.Sound) (h : Stop find text i) :
    ∃ front, spansAt find text 0 = front ++ spansAt find text i := by
  induction h with
  | first => exact ⟨[], rfl⟩
  | @next i _ hlt ih =>
    obtain ⟨front, hfront⟩ := ih
    cases hfound : found find text i with
    | none =>
      rw [advance_none hfound, ← spansAt_none hlt hfound]
      exact ⟨front, hfront⟩
    | some span =>
      obtain ⟨start, stop⟩ := span
      rw [advance_found hfound]
      refine ⟨front ++ [(i + start, i + stop)], ?_⟩
      rw [hfront, spansAt_found sound hfound, List.append_assoc]
      rfl

theorem mem_spansAt (sound : find.Sound) {span : Nat × Nat} (hi : Stop find text i)
    (h : span ∈ spansAt find text i) : ∃ k start stop, Stop find text k ∧
      found find text k = some (start, stop) ∧ span = (k + start, k + stop) := by
  induction hn : text.length - i using Nat.strong_induction_on generalizing i with
  | _ n ih =>
    rcases Nat.lt_or_ge i text.length with hlt | hge
    · have hnext := Stop.next hi hlt
      cases hfound : found find text i with
      | none =>
        rw [advance_none hfound] at hnext
        rw [spansAt_none hlt hfound] at h
        exact ih _ (by omega) hnext h rfl
      | some found =>
        obtain ⟨start, stop⟩ := found
        obtain ⟨hspan, hbound⟩ := found_sound sound hfound
        rw [advance_found hfound] at hnext
        rw [spansAt_found sound hfound] at h
        rcases List.mem_cons.mp h with heq | hrest
        · exact ⟨i, start, stop, hi, hfound, heq⟩
        · exact ih _ (by omega) hnext hrest rfl
    · rw [spansAt_end hge] at h
      cases h

/-- The places masked are those within the spans. -/
theorem masked_iff (sound : find.Sound) : Masked find text j ↔
    ∃ span ∈ spansAt find text 0, span.1 ≤ j ∧ j < span.2 := by
  constructor
  · rintro ⟨i, start, stop, hi, hfound, hfrom, hto⟩
    obtain ⟨front, hfront⟩ := spansAt_stop sound hi
    refine ⟨(i + start, i + stop), ?_, hfrom, hto⟩
    rw [hfront, spansAt_found sound hfound]
    simp
  · rintro ⟨span, hmem, hfrom, hto⟩
    obtain ⟨k, start, stop, hk, hfound, rfl⟩ := mem_spansAt sound .first hmem
    exact ⟨k, start, stop, hk, hfound, hfrom, hto⟩

end

end Splice
