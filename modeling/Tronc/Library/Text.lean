import Mathlib.Data.List.Infix
import Mathlib.Data.List.DropRight

namespace Text

/-- What is said of the characters of a text is decided over these, not over all characters. -/
instance (priority := high) decidableBAllChars (text : List Char) (p : Char → Prop) [DecidablePred p] :
    Decidable (∀ c ∈ text, p c) := List.decidableBAll p text

instance (priority := high) decidableForallChar (char : Option Char) (p : Char → Prop) [DecidablePred p] :
    Decidable (∀ c ∈ char, p c) :=
  Option.decidableForallMem char

/-- Unicode's `White_Space`. -/
def isWhitespace (c : Char) : Bool :=
  let v := c.toNat
  decide (9 ≤ v ∧ v ≤ 13) || v == 32 || v == 0x85 || v == 0xA0 || v == 0x1680 ||
    decide (0x2000 ≤ v ∧ v ≤ 0x200A) || v == 0x2028 || v == 0x2029 || v == 0x202F ||
    v == 0x205F || v == 0x3000

/-- Without the white space at either end. -/
def trim (s : String) : String :=
  .ofList ((s.toList.dropWhile isWhitespace).rdropWhile isWhitespace)

def stripPrefix (s p : String) : Option String := (s.toList.dropPrefix? p.toList).map .ofList

def stripSuffix (s p : String) : Option String := (s.toList.dropSuffix? p.toList).map .ofList

/-- Whether the fragment occurs in the text. -/
def contains (s fragment : String) : Bool :=
  s.toList.tails.any fragment.toList.isPrefixOf

def asciiLowerChar (c : Char) : Char :=
  if 'A' ≤ c ∧ c ≤ 'Z' then .ofNat (c.toNat + 32) else c

def asciiLower (s : String) : String := .ofList (s.toList.map asciiLowerChar)

/-- The UTF-8 bytes of a string. -/
def utf8 (s : String) : List UInt8 := s.toList.flatMap String.utf8EncodeChar

theorem utf8_append (s t : String) : utf8 (s ++ t) = utf8 s ++ utf8 t := by
  unfold utf8
  rw [String.toList_append, List.flatMap_append]

def fromUtf8 (bytes : List UInt8) : Option String := String.fromUTF8? bytes.toByteArray

theorem toByteArray_utf8 (s : String) : (utf8 s).toByteArray = s.toByteArray := by
  have h : (String.ofList s.toList).toByteArray = s.toList.utf8Encode := String.toByteArray_ofList
  rw [String.ofList_toList] at h
  exact h.symm

theorem fromUtf8_utf8 (s : String) : fromUtf8 (utf8 s) = some s := by
  have hbytes := toByteArray_utf8 s
  unfold fromUtf8 String.fromUTF8?
  rw [dif_pos (by rw [hbytes]; exact s.isValidUTF8)]
  simp only [hbytes]
  rfl

theorem length_le_utf8 (s : String) : s.toList.length ≤ (utf8 s).length := by
  unfold utf8
  induction s.toList with
  | nil => exact Nat.le_refl _
  | cons c l ih =>
    have hpos := List.length_pos_iff.mpr (String.utf8EncodeChar_ne_nil (c := c))
    rw [List.flatMap_cons, List.length_append, List.length_cons]
    omega

/-- A text is decoded from its own bytes only. -/
theorem utf8_of_fromUtf8 {bytes : List UInt8} {s : String} (h : fromUtf8 bytes = some s) :
    utf8 s = bytes := by
  unfold fromUtf8 String.fromUTF8? at h
  split at h
  · have hbytes : s.toByteArray = bytes.toByteArray := by
      rw [← Option.some.inj h]
      rfl
    have hdata := congrArg (fun b => b.data.toList) ((toByteArray_utf8 s).trans hbytes)
    simpa only [List.toList_data_toByteArray] using hdata
  · simp at h

theorem utf8_injective {s t : String} (h : utf8 s = utf8 t) : s = t := by
  have hs := fromUtf8_utf8 s
  rw [h, fromUtf8_utf8] at hs
  exact (Option.some.inj hs).symm

/-- A text is no longer than the bytes it is decoded from. -/
theorem fromUtf8_length {bytes : List UInt8} {s : String} (h : fromUtf8 bytes = some s) :
    s.toList.length ≤ bytes.length := by
  rw [← utf8_of_fromUtf8 h]
  exact length_le_utf8 s

/-- An ASCII character is its own byte. -/
theorem utf8EncodeChar_ascii {c : Char} (h : c.toNat ≤ 127) :
    String.utf8EncodeChar c = [UInt8.ofNat c.toNat] := by
  have hv : c.val.toNat ≤ 0x7f := h
  unfold String.utf8EncodeChar
  simp only [hv, if_true]
  rfl

theorem utf8_ascii {s : String} (h : ∀ c ∈ s.toList, c.toNat ≤ 127) :
    utf8 s = s.toList.map fun c => UInt8.ofNat c.toNat := by
  unfold utf8
  generalize s.toList = l at h
  induction l with
  | nil => rfl
  | cons c l ih =>
    rw [List.flatMap_cons, utf8EncodeChar_ascii (h c List.mem_cons_self),
      ih fun d hd => h d (List.mem_cons_of_mem _ hd)]
    rfl

/-- The bytes of any other character are past ASCII. -/
theorem utf8EncodeChar_high {c : Char} (h : 127 < c.toNat) :
    ∀ b ∈ String.utf8EncodeChar c, 128 ≤ b.toNat := by
  have hv : ¬ c.val.toNat ≤ 0x7f := Nat.not_le_of_lt h
  have high (n k : Nat) (hk : 128 ≤ k) (hn : n + k < 256) : 128 ≤ (UInt8.ofNat (n + k)).toNat := by
    rw [UInt8.toNat_ofNat', Nat.mod_eq_of_lt hn]
    omega
  unfold String.utf8EncodeChar
  simp only [hv, if_false]
  intro b hb
  split at hb
  · simp only [List.mem_cons, List.not_mem_nil, or_false] at hb
    rcases hb with rfl | rfl
    · exact high _ _ (by decide) (by omega)
    · exact high _ _ (by decide) (by omega)
  · split at hb
    · simp only [List.mem_cons, List.not_mem_nil, or_false] at hb
      rcases hb with rfl | rfl | rfl
      · exact high _ _ (by decide) (by omega)
      · exact high _ _ (by decide) (by omega)
      · exact high _ _ (by decide) (by omega)
    · simp only [List.mem_cons, List.not_mem_nil, or_false] at hb
      rcases hb with rfl | rfl | rfl | rfl
      · exact high _ _ (by decide) (by omega)
      · exact high _ _ (by decide) (by omega)
      · exact high _ _ (by decide) (by omega)
      · exact high _ _ (by decide) (by omega)

/-- Any other character has a byte past ASCII. -/
theorem utf8EncodeChar_first {c : Char} (h : 127 < c.toNat) :
    ∃ b ∈ String.utf8EncodeChar c, 128 ≤ b.toNat := by
  obtain ⟨b, hb⟩ := List.exists_mem_of_ne_nil _ (String.utf8EncodeChar_ne_nil (c := c))
  exact ⟨b, hb, utf8EncodeChar_high h b hb⟩

/-- An ASCII byte is there for its own character. -/
theorem mem_utf8EncodeChar {b : UInt8} {c : Char} (hb : b.toNat < 128)
    (h : b ∈ String.utf8EncodeChar c) : c.toNat = b.toNat := by
  by_cases hascii : c.toNat ≤ 127
  · rw [utf8EncodeChar_ascii hascii] at h
    rw [List.mem_singleton.mp h, UInt8.toNat_ofNat']
    omega
  · have hhigh := utf8EncodeChar_high (Nat.lt_of_not_le hascii) b h
    omega

theorem mem_utf8 {b : UInt8} {s : String} (hb : b.toNat < 128) (h : b ∈ utf8 s) :
    ∃ c ∈ s.toList, c.toNat = b.toNat := by
  obtain ⟨c, hc, hmem⟩ := List.mem_flatMap.mp h
  exact ⟨c, hc, mem_utf8EncodeChar hb hmem⟩

theorem stripPrefix_eq_some {s p rest : String} :
    stripPrefix s p = some rest ↔ s.toList = p.toList ++ rest.toList := by
  unfold stripPrefix
  constructor
  · intro h
    obtain ⟨l, hl, rfl⟩ := Option.map_eq_some_iff.mp h
    obtain ⟨p', hs, hp⟩ := List.dropPrefix?_eq_some_iff.mp hl
    rw [hs, String.toList_ofList, eq_of_beq hp]
  · intro h
    rw [h, List.dropPrefix?_append_of_beq _ (beq_self_eq_true _), Option.map_some,
      String.ofList_toList]

theorem stripSuffix_eq_some {s p rest : String} :
    stripSuffix s p = some rest ↔ s.toList = rest.toList ++ p.toList := by
  unfold stripSuffix
  constructor
  · intro h
    obtain ⟨l, hl, rfl⟩ := Option.map_eq_some_iff.mp h
    obtain ⟨p', hs, hp⟩ := List.dropSuffix?_eq_some_iff.mp hl
    rw [hs, String.toList_ofList, eq_of_beq hp]
  · intro h
    have hl : s.toList.dropSuffix? p.toList = some rest.toList :=
      List.dropSuffix?_eq_some_iff.mpr ⟨p.toList, h, beq_self_eq_true _⟩
    rw [hl, Option.map_some, String.ofList_toList]

theorem asciiLowerChar_idem (c : Char) :
    asciiLowerChar (asciiLowerChar c) = asciiLowerChar c := by
  by_cases h : 'A' ≤ c ∧ c ≤ 'Z'
  · have hlow : 65 ≤ c.toNat := h.1
    have hhigh : c.toNat ≤ 90 := h.2
    have hall : ∀ n : Fin 26, ¬ ('A' ≤ Char.ofNat (n.val + 97) ∧ Char.ofNat (n.val + 97) ≤ 'Z') := by
      decide
    have hlower : asciiLowerChar c = .ofNat (c.toNat - 65 + 97) := by
      unfold asciiLowerChar
      rw [if_pos h]
      congr 1
      omega
    rw [hlower]
    exact if_neg (hall ⟨c.toNat - 65, by omega⟩)
  · have hself : asciiLowerChar c = c := if_neg h
    rw [hself, hself]

theorem asciiLower_idem (s : String) : asciiLower (asciiLower s) = asciiLower s := by
  unfold asciiLower
  rw [String.toList_ofList, List.map_map]
  congr 1
  exact List.map_congr_left fun c _ => asciiLowerChar_idem c

theorem toList_asciiLower (text : String) :
    (asciiLower text).toList = text.toList.map asciiLowerChar := String.toList_ofList

theorem asciiLowerChar_self {c : Char} (h : c.toNat < 65 ∨ 90 < c.toNat) : asciiLowerChar c = c := by
  unfold asciiLowerChar
  rw [if_neg]
  rintro ⟨hlow, hhigh⟩
  have hlow : 65 ≤ c.toNat := hlow
  have hhigh : c.toNat ≤ 90 := hhigh
  omega

/-- A character that is no letter is the lower case of itself only. -/
theorem eq_of_asciiLowerChar {c d : Char} (hd : d.toNat < 97) (h : asciiLowerChar c = d) :
    c = d := by
  unfold asciiLowerChar at h
  split at h
  · rename_i hupper
    have hlow : 65 ≤ c.toNat := hupper.1
    have hhigh : c.toNat ≤ 90 := hupper.2
    have hall : ∀ n : Fin 26, (Char.ofNat (n.val + 97)).toNat = n.val + 97 := by decide
    have hletter := hall ⟨c.toNat - 65, by omega⟩
    have hcode : c.toNat - 65 + 97 = c.toNat + 32 := by omega
    dsimp only at hletter
    rw [hcode, h] at hletter
    omega
  · exact h

/-- A text with no white space at its ends is trimmed already. -/
theorem trim_eq_self {s : String} (hfirst : ∀ c ∈ s.toList.head?, isWhitespace c = false)
    (hlast : ∀ c ∈ s.toList.getLast?, isWhitespace c = false) : trim s = s := by
  have hdrop : s.toList.dropWhile isWhitespace = s.toList := by
    cases hl : s.toList with
    | nil => rfl
    | cons c l =>
      rw [List.dropWhile_cons_of_neg]
      rw [hfirst c (by rw [hl]; rfl)]
      simp
  unfold trim
  rw [hdrop, List.rdropWhile_eq_self_iff.mpr, String.ofList_toList]
  intro hne
  rw [hlast _ (List.getLast?_eq_some_getLast hne)]
  simp

theorem trim_trim (s : String) : trim (trim s) = trim s := by
  have htrim : (trim s).toList = (s.toList.dropWhile isWhitespace).rdropWhile isWhitespace :=
    String.toList_ofList
  apply trim_eq_self
  · rw [htrim]
    intro c hc
    obtain ⟨rest, hrest⟩ := List.rdropWhile_prefix isWhitespace (s.toList.dropWhile isWhitespace)
    have hhead : (s.toList.dropWhile isWhitespace).head? = some c := by
      rw [← hrest, List.head?_append, hc]
      rfl
    have hnot := List.head?_dropWhile_not isWhitespace s.toList
    rw [hhead] at hnot
    exact hnot
  · rw [htrim]
    intro c hc
    obtain ⟨hne, hlast⟩ := List.mem_getLast?_eq_getLast hc
    rw [hlast]
    exact Bool.eq_false_iff.mpr (List.rdropWhile_last_not isWhitespace _ hne)

theorem contains_iff {s fragment : String} :
    contains s fragment = true ↔ fragment.toList <:+: s.toList := by
  unfold contains
  rw [List.any_eq_true, List.infix_iff_prefix_suffix]
  simp only [List.mem_tails, List.isPrefixOf_iff_prefix, and_comm]

/-- What occurs in a text occurs in it in lower case as well. -/
theorem contains_asciiLower {s fragment : String} (h : contains s fragment = true) :
    contains (asciiLower s) (asciiLower fragment) = true := by
  rw [contains_iff, toList_asciiLower, toList_asciiLower]
  exact (contains_iff.mp h).map asciiLowerChar

end Text
