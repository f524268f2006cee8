import Tronc.Library.Text

namespace Tronc.Slices

def encode (text : List Char) : List UInt8 := text.flatMap String.utf8EncodeChar

/-- `&text[n..]`. -/
def after : Nat → List Char → Option (List Char)
  | 0, text => some text
  | _ + 1, [] => none
  | n + 1, c :: rest => if c.utf8Size ≤ n + 1 then after (n + 1 - c.utf8Size) rest else none

/-- `&text[..n]`. -/
def upTo : Nat → List Char → Option (List Char)
  | 0, _ => some []
  | _ + 1, [] => none
  | n + 1, c :: rest =>
    if c.utf8Size ≤ n + 1 then (upTo (n + 1 - c.utf8Size) rest).map (c :: ·) else none

/-- `&text[start..stop]`. -/
def slice (start stop : Nat) (text : List Char) : Option (List Char) :=
  (upTo stop text).bind (after start)

/-- A byte that does not begin a character. -/
def isContinuation (b : UInt8) : Bool := 128 ≤ b && b < 192

/-- `str::is_char_boundary`. -/
def isCharBoundary (text : List Char) (n : Nat) : Bool :=
  n == 0 ||
    match (encode text)[n]? with
    | some b => !isContinuation b
    | none => n == (encode text).length

/-- `str::floor_char_boundary`: the last boundary up to there. -/
def floorCharBoundary (text : List Char) : Nat → Nat
  | 0 => 0
  | n + 1 => if isCharBoundary text (n + 1) then n + 1 else floorCharBoundary text n

/-- `String::truncate`. -/
def truncate (n : Nat) (text : List Char) : Option (List Char) :=
  if n ≤ (encode text).length then upTo n text else some text

/-- The longest front of a text that is within so many bytes. -/
structure LongestWithin (budget : Nat) (text kept : List Char) : Prop where
  isPrefix : kept <+: text
  within : (encode kept).length ≤ budget
  longest : ∀ other, other <+: text → (encode other).length ≤ budget → other <+: kept

/-- The byte offset of the `n`th character. -/
def offset (text : List Char) (n : Nat) : Nat := (encode (text.take n)).length

section

variable {text front rest : List Char} {n m : Nat} {c d : Char}

theorem encode_append (front rest : List Char) :
    encode (front ++ rest) = encode front ++ encode rest := List.flatMap_append

theorem encode_cons (c : Char) (rest : List Char) :
    encode (c :: rest) = String.utf8EncodeChar c ++ encode rest := List.flatMap_cons

theorem length_encode_cons (c : Char) (rest : List Char) :
    (encode (c :: rest)).length = c.utf8Size + (encode rest).length := by
  rw [encode_cons, List.length_append, String.length_utf8EncodeChar]

theorem utf8ByteSize_ofList (text : List Char) :
    (String.ofList text).utf8ByteSize = (encode text).length := by
  induction text with
  | nil => rfl
  | cons c rest ih =>
    rw [String.ofList_cons, String.utf8ByteSize_append, String.utf8ByteSize_singleton,
      length_encode_cons, ih]

theorem length_le_encode (text : List Char) : text.length ≤ (encode text).length := by
  induction text with
  | nil => exact Nat.le_refl _
  | cons c rest ih =>
    have hpos := c.utf8Size_pos
    rw [length_encode_cons, List.length_cons]
    omega

/-- A text has as many bytes as characters if all of them are ASCII. -/
theorem length_encode_eq : (encode text).length = text.length ↔ ∀ c ∈ text, c.toNat ≤ 127 := by
  induction text with
  | nil => exact iff_of_true rfl fun c hc => nomatch hc
  | cons c rest ih =>
    have hpos := c.utf8Size_pos
    have hrest := length_le_encode rest
    have hone : c.utf8Size = 1 ↔ c.toNat ≤ 127 := Char.utf8Size_eq_one_iff
    rw [length_encode_cons, List.length_cons, List.forall_mem_cons, ← ih, ← hone]
    omega

/-- A slice from the end of a front of the text is what is left of it. -/
theorem after_encode (front rest : List Char) :
    after (encode front).length (front ++ rest) = some rest := by
  induction front with
  | nil =>
    show after 0 rest = some rest
    rw [after]
  | cons c front ih =>
    have hpos := c.utf8Size_pos
    rw [length_encode_cons]
    obtain ⟨n, hn⟩ : ∃ n, c.utf8Size + (encode front).length = n + 1 :=
      ⟨c.utf8Size + (encode front).length - 1, by omega⟩
    rw [hn, List.cons_append, after, if_pos (by omega), ← hn, Nat.add_sub_cancel_left]
    exact ih

theorem upTo_encode (front rest : List Char) :
    upTo (encode front).length (front ++ rest) = some front := by
  induction front with
  | nil =>
    show upTo 0 rest = some []
    rw [upTo]
  | cons c front ih =>
    have hpos := c.utf8Size_pos
    rw [length_encode_cons]
    obtain ⟨n, hn⟩ : ∃ n, c.utf8Size + (encode front).length = n + 1 :=
      ⟨c.utf8Size + (encode front).length - 1, by omega⟩
    rw [hn, List.cons_append, upTo, if_pos (by omega), ← hn, Nat.add_sub_cancel_left, ih]
    rfl

theorem slice_encode (done pending rest : List Char) :
    slice (encode done).length (encode (done ++ pending)).length (done ++ pending ++ rest) =
      some pending := by
  unfold slice
  rw [upTo_encode, Option.bind_some, after_encode]

theorem drop_offset (text : List Char) (n : Nat) :
    (encode text).drop (offset text n) = encode (text.drop n) := by
  have hsplit := congrArg encode (List.take_append_drop n text)
  rw [encode_append] at hsplit
  rw [← hsplit]
  exact List.drop_left

theorem offset_add (text : List Char) (n m : Nat) :
    offset text (n + m) = offset text n + offset (text.drop n) m := by
  unfold offset
  rw [List.take_add, encode_append, List.length_append]

/-- The first byte of a character past ASCII is past ASCII. -/
theorem head_encode (hd : d.toNat ≤ 127) :
    (encode text).head? = some (UInt8.ofNat d.toNat) ↔ text.head? = some d := by
  have hbyte : (UInt8.ofNat d.toNat).toNat = d.toNat := by
    rw [UInt8.toNat_ofNat', Nat.mod_eq_of_lt (by omega)]
  cases text with
  | nil => exact iff_of_false (fun h => nomatch h) (fun h => nomatch h)
  | cons c rest =>
    rw [encode_cons, List.head?_append, List.head?_cons, Option.some_inj]
    by_cases hc : c.toNat ≤ 127
    · have hbyte' : (UInt8.ofNat c.toNat).toNat = c.toNat := by
        rw [UInt8.toNat_ofNat', Nat.mod_eq_of_lt (by omega)]
      rw [Text.utf8EncodeChar_ascii hc, List.head?_cons, Option.some_or, Option.some_inj]
      constructor
      · intro h
        apply Char.toNat_inj.mp
        rw [← hbyte, ← hbyte', h]
      · intro h
        rw [h]
    · have hhigh := Text.utf8EncodeChar_high (Nat.lt_of_not_le hc)
      obtain ⟨b, bytes, hbytes⟩ := List.exists_cons_of_ne_nil (String.utf8EncodeChar_ne_nil (c := c))
      have hb := hhigh b (by rw [hbytes]; exact List.mem_cons_self)
      rw [hbytes, List.head?_cons, Option.some_or, Option.some_inj]
      constructor
      · intro h
        rw [h] at hb
        omega
      · intro h
        rw [h] at hc
        exact absurd hd hc

theorem getElem?_offset (hd : d.toNat ≤ 127) :
    (encode text)[offset text n]? = some (UInt8.ofNat d.toNat) ↔ text[n]? = some d := by
  rw [← List.head?_drop, drop_offset, head_encode hd, List.head?_drop]

/-- A character of one byte. -/
theorem offset_succ (hd : d.toNat ≤ 127) (h : text[n]? = some d) :
    offset text (n + 1) = offset text n + 1 := by
  have hone : offset (text.drop n) 1 = 1 := by
    obtain ⟨rest, hrest⟩ : ∃ rest, text.drop n = d :: rest := by
      rw [← List.head?_eq_some_iff, List.head?_drop, h]
    unfold offset
    rw [hrest, List.take_succ_cons, List.take_zero, length_encode_cons,
      ← String.length_utf8EncodeChar, Text.utf8EncodeChar_ascii hd]
    rfl
  rw [offset_add, hone]

theorem offset_ascii (h : ∀ c ∈ text.take n, c.toNat ≤ 127) (hn : n ≤ text.length) :
    offset text n = n := by
  unfold offset
  rw [length_encode_eq.mpr h, List.length_take, Nat.min_eq_left hn]

theorem offset_pos (hn : n ≤ text.length) : 0 < offset text n ↔ 0 < n := by
  constructor
  · intro h
    rcases Nat.eq_zero_or_pos n with rfl | hpos
    · exact h
    · exact hpos
  · intro h
    cases text with
    | nil =>
      rw [List.length_nil] at hn
      omega
    | cons c rest =>
      obtain ⟨k, rfl⟩ : ∃ k, n = k + 1 := ⟨n - 1, by omega⟩
      have hpos := c.utf8Size_pos
      unfold offset
      rw [List.take_succ_cons, length_encode_cons]
      omega

/-- A test on bytes says of each byte of a character what the test on characters says of it. -/
def Agrees (acceptByte : UInt8 → Bool) (accept : Char → Bool) : Prop :=
  ∀ c, ∀ b ∈ String.utf8EncodeChar c, acceptByte b = accept c

theorem agrees_of_ascii {acceptByte : UInt8 → Bool} {accept : Char → Bool} (high : Bool)
    (hascii : ∀ n : Fin 128, acceptByte (UInt8.ofNat n.val) = accept (Char.ofNat n.val))
    (hbyte : ∀ n : Fin 128, acceptByte (UInt8.ofNat (128 + n.val)) = high)
    (hchar : ∀ c : Char, 128 ≤ c.toNat → accept c = high) : Agrees acceptByte accept := by
  intro c b hb
  by_cases hc : c.toNat ≤ 127
  · rw [Text.utf8EncodeChar_ascii hc] at hb
    rw [List.mem_singleton.mp hb]
    have hn := hascii ⟨c.toNat, by omega⟩
    rwa [Char.ofNat_toNat] at hn
  · have hlow := Text.utf8EncodeChar_high (Nat.lt_of_not_le hc) b hb
    have hlt := b.toNat_lt
    have hn := hbyte ⟨b.toNat - 128, by omega⟩
    dsimp only at hn
    rw [Nat.add_sub_cancel' hlow, UInt8.ofNat_toNat] at hn
    rw [hn, hchar c (by omega)]

theorem takeWhile_encode {acceptByte : UInt8 → Bool} {accept : Char → Bool}
    (h : Agrees acceptByte accept) (text : List Char) :
    (encode text).takeWhile acceptByte = encode (text.takeWhile accept) := by
  induction text with
  | nil => rfl
  | cons c rest ih =>
    rw [encode_cons]
    by_cases hc : accept c = true
    · rw [List.takeWhile_append_of_pos fun b hb => (h c b hb).trans hc, ih,
        List.takeWhile_cons_of_pos hc, encode_cons]
    · obtain ⟨b, bytes, hbytes⟩ := List.exists_cons_of_ne_nil (String.utf8EncodeChar_ne_nil (c := c))
      have hb := h c b (by rw [hbytes]; exact List.mem_cons_self)
      rw [hbytes, List.cons_append, List.takeWhile_cons_of_neg (by rw [hb]; exact hc),
        List.takeWhile_cons_of_neg hc]
      rfl

/-- A span of accepted bytes ends where the span of accepted characters does. -/
theorem length_takeWhile_encode {acceptByte : UInt8 → Bool} {accept : Char → Bool}
    (h : Agrees acceptByte accept) (text : List Char) :
    ((encode text).takeWhile acceptByte).length = offset text (text.takeWhile accept).length := by
  rw [takeWhile_encode h]
  unfold offset
  rw [← List.prefix_iff_eq_take.mp (List.takeWhile_prefix accept)]

end

section Boundaries

variable {text front rest kept other : List Char} {n m budget : Nat}

theorem utf8EncodeChar_bytes (c : Char) : ∃ first bytes, String.utf8EncodeChar c = first :: bytes ∧
    isContinuation first = false ∧ ∀ b ∈ bytes, isContinuation b = true := by
  have toNat (k : Nat) (hk : k < 256) : (UInt8.ofNat k).toNat = k := by
    rw [UInt8.toNat_ofNat', Nat.mod_eq_of_lt hk]
  have begins (k : Nat) (hk : k < 256) (hfirst : k < 128 ∨ 192 ≤ k) :
      isContinuation (UInt8.ofNat k) = false := by
    unfold isContinuation
    rw [Bool.and_eq_false_iff, decide_eq_false_iff_not, decide_eq_false_iff_not,
      UInt8.le_iff_toNat_le, UInt8.lt_iff_toNat_lt, toNat k hk]
    exact hfirst.imp Nat.not_le_of_lt Nat.not_lt_of_le
  have goesOn (k : Nat) : isContinuation (UInt8.ofNat (k % 64 + 128)) = true := by
    unfold isContinuation
    rw [Bool.and_eq_true, decide_eq_true_eq, decide_eq_true_eq, UInt8.le_iff_toNat_le,
      UInt8.lt_iff_toNat_lt, toNat _ (by omega)]
    exact ⟨Nat.le_add_left _ _, Nat.add_lt_add_right (Nat.mod_lt k (by decide)) 128⟩
  unfold String.utf8EncodeChar
  dsimp only
  split
  · exact ⟨_, _, rfl, begins _ (by omega) (by omega), fun b hb => nomatch hb⟩
  · split
    · refine ⟨_, _, rfl, begins _ (by omega) (by omega), ?_⟩
      simp only [List.forall_mem_cons, goesOn, true_and]
      exact fun b hb => nomatch hb
    · split
      · refine ⟨_, _, rfl, begins _ (by omega) (by omega), ?_⟩
        simp only [List.forall_mem_cons, goesOn, true_and]
        exact fun b hb => nomatch hb
      · refine ⟨_, _, rfl, begins _ (by omega) (by omega), ?_⟩
        simp only [List.forall_mem_cons, goesOn, true_and]
        exact fun b hb => nomatch hb

/-- The boundaries are the ends of the fronts of a text. -/
theorem isCharBoundary_iff : isCharBoundary text n = true ↔
    ∃ front, front <+: text ∧ n = (encode front).length := by
  induction text generalizing n with
  | nil =>
    constructor
    · intro h
      refine ⟨[], List.prefix_refl [], ?_⟩
      simpa [isCharBoundary, encode] using h
    · rintro ⟨front, hfront, rfl⟩
      rw [List.prefix_nil.mp hfront]
      rfl
  | cons c rest ih =>
    obtain ⟨first, bytes, hbytes, hfirst, hnext⟩ := utf8EncodeChar_bytes c
    have hsize : c.utf8Size = bytes.length + 1 := by
      rw [← String.length_utf8EncodeChar, hbytes, List.length_cons]
    have hencode : encode (c :: rest) = first :: (bytes ++ encode rest) := by
      rw [encode_cons, hbytes, List.cons_append]
    cases n with
    | zero => exact iff_of_true rfl ⟨[], List.nil_prefix, rfl⟩
    | succ n =>
      have hfront : (∃ front, front <+: c :: rest ∧ n + 1 = (encode front).length) ↔
          ∃ front, front <+: rest ∧ n = bytes.length + (encode front).length := by
        constructor
        · rintro ⟨front, hfront, hn⟩
          cases front with
          | nil => cases hn
          | cons d front =>
            obtain ⟨rfl, hrest⟩ := List.cons_prefix_cons.mp hfront
            rw [length_encode_cons, hsize] at hn
            exact ⟨front, hrest, by omega⟩
        · rintro ⟨front, hfront, rfl⟩
          refine ⟨c :: front, List.cons_prefix_cons.mpr ⟨rfl, hfront⟩, ?_⟩
          rw [length_encode_cons, hsize]
          omega
      rw [hfront]
      rcases Nat.lt_or_ge n bytes.length with hwithin | hafter
      · -- within the character
        have hget : (encode (c :: rest))[n + 1]? = some bytes[n] := by
          rw [hencode, List.getElem?_cons_succ, List.getElem?_append_left hwithin,
            List.getElem?_eq_getElem hwithin]
        refine iff_of_false ?_ ?_
        · unfold isCharBoundary
          rw [hget]
          simp [hnext _ (List.getElem_mem hwithin)]
        · rintro ⟨front, -, rfl⟩
          omega
      · obtain ⟨k, rfl⟩ := Nat.exists_eq_add_of_le hafter
        have hget : (encode (c :: rest))[bytes.length + k + 1]? = (encode rest)[k]? := by
          rw [hencode, List.getElem?_cons_succ, List.getElem?_append_right (by omega),
            Nat.add_sub_cancel_left]
        have hboundary : isCharBoundary (c :: rest) (bytes.length + k + 1) =
            isCharBoundary rest k := by
          unfold isCharBoundary
          rw [hget, length_encode_cons, hsize]
          cases rest with
          | nil =>
            cases k with
            | zero => simp [encode]
            | succ k => simp [encode]
          | cons d rest =>
            cases k with
            | zero =>
              obtain ⟨first', bytes', hbytes', hfirst', -⟩ := utf8EncodeChar_bytes d
              rw [encode_cons, hbytes']
              simp [hfirst']
            | succ k =>
              have hzero : (bytes.length + (k + 1) + 1 == 0) = false := rfl
              have hzero' : (k + 1 == 0) = false := rfl
              rw [hzero, hzero', Bool.false_or, Bool.false_or]
              cases (encode (d :: rest))[k + 1]? with
              | some b => rfl
              | none =>
                rw [Bool.eq_iff_iff, beq_iff_eq, beq_iff_eq]
                omega
        rw [hboundary, ih]
        refine exists_congr fun front => and_congr_right fun _ => ?_
        omega

theorem floorCharBoundary_le (text : List Char) (n : Nat) : floorCharBoundary text n ≤ n := by
  induction n with
  | zero => exact Nat.le_refl 0
  | succ n ih =>
    unfold floorCharBoundary
    split
    · exact Nat.le_refl _
    · exact Nat.le_succ_of_le ih

theorem isCharBoundary_floor (text : List Char) (n : Nat) :
    isCharBoundary text (floorCharBoundary text n) = true := by
  induction n with
  | zero => rfl
  | succ n ih =>
    unfold floorCharBoundary
    split
    · rename_i h
      exact h
    · exact ih

theorem le_floorCharBoundary (hm : isCharBoundary text m = true) (h : m ≤ n) :
    m ≤ floorCharBoundary text n := by
  induction n with
  | zero => exact h
  | succ n ih =>
    unfold floorCharBoundary
    split
    · exact h
    · rename_i hnot
      have hne : m ≠ n + 1 := by
        rintro rfl
        exact hnot hm
      exact ih (by omega)

/-- Of two fronts of a text the one with fewer bytes is a front of the other. -/
theorem prefix_of_encode_le (hfront : front <+: text) (hother : other <+: text)
    (h : (encode front).length ≤ (encode other).length) : front <+: other := by
  rcases List.prefix_or_prefix_of_prefix hfront hother with hle | ⟨more, rfl⟩
  · exact hle
  · rw [encode_append, List.length_append] at h
    have hmore := length_le_encode more
    have hnil : more = [] := List.eq_nil_of_length_eq_zero (by omega)
    exact ⟨[], by rw [hnil, List.append_nil, List.append_nil]⟩

/-- Cut at the last boundary up to a budget, a text is its longest front within it. -/
theorem longestWithin_truncate (text : List Char) (budget : Nat) : ∃ kept,
    truncate (floorCharBoundary text budget) text = some kept ∧ LongestWithin budget text kept := by
  obtain ⟨kept, hkept, hfloor⟩ := isCharBoundary_iff.mp (isCharBoundary_floor text budget)
  have hle := floorCharBoundary_le text budget
  refine ⟨kept, ?_, hkept, by omega, fun other hother hwithin => ?_⟩
  · obtain ⟨rest, rfl⟩ := hkept
    have hshort : (encode kept).length ≤ (encode (kept ++ rest)).length := by
      rw [encode_append, List.length_append]
      omega
    unfold truncate
    rw [hfloor, if_pos hshort, upTo_encode]
  · have hmost := le_floorCharBoundary (isCharBoundary_iff.mpr ⟨other, hother, rfl⟩) hwithin
    exact prefix_of_encode_le hother hkept (by omega)

theorem LongestWithin.unique (h : LongestWithin budget text kept)
    (hother : LongestWithin budget text other) : kept = other := by
  have hforth := hother.longest kept h.isPrefix h.within
  have hback := h.longest other hother.isPrefix hother.within
  exact hforth.eq_of_length_le hback.length_le

end Boundaries

end Tronc.Slices
