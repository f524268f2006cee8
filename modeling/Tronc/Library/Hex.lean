import Mathlib.Data.Nat.Digits.Defs
import Mathlib.Data.String.Basic

namespace Hex

def byteChars (b : UInt8) : List Char := [(b.toNat / 16).digitChar, (b.toNat % 16).digitChar]

/-- `hex::encode`. -/
def encode (bytes : List UInt8) : String := .ofList (bytes.flatMap byteChars)

theorem byteChars_injective {a b : UInt8} (h : byteChars a = byteChars b) : a = b := by
  have hall : ∀ m n : Fin 16, m.val.digitChar = n.val.digitChar → m = n := by decide
  have ha := a.toNat_lt
  have hb := b.toNat_lt
  obtain ⟨hhigh, hrest⟩ := List.cons.inj h
  have hlow := (List.cons.inj hrest).1
  have hdiv := congrArg Fin.val (hall ⟨a.toNat / 16, by omega⟩ ⟨b.toNat / 16, by omega⟩ hhigh)
  have hmod := congrArg Fin.val (hall ⟨a.toNat % 16, by omega⟩ ⟨b.toNat % 16, by omega⟩ hlow)
  dsimp only at hdiv hmod
  apply UInt8.toNat_inj.mp
  omega

/-- Different bytes are written differently. -/
theorem encode_injective : Function.Injective encode := by
  intro bytes other h
  have hchars : bytes.flatMap byteChars = other.flatMap byteChars := by
    have htexts := congrArg String.toList h
    rwa [encode, encode, String.toList_ofList, String.toList_ofList] at htexts
  clear h
  induction bytes generalizing other with
  | nil =>
    cases other with
    | nil => rfl
    | cons b other => cases hchars
  | cons a bytes ih =>
    cases other with
    | nil => cases hchars
    | cons b other =>
      rw [List.flatMap_cons, List.flatMap_cons] at hchars
      obtain ⟨hfirst, hrest⟩ := List.append_inj hchars rfl
      rw [byteChars_injective hfirst, ih hrest]

/-- A number's digits, none of them a leading zero. -/
def digits (n : Nat) : List Char := Nat.toDigits 16 n

/-- The digits with zeros before them, up to a width. -/
def padded (width n : Nat) : List Char := (digits n).leftpad width '0'

def digitValue (c : Char) : Nat := if c.toNat < 97 then c.toNat - 48 else c.toNat - 87

def value (cs : List Char) : Nat := cs.foldl (fun n c => 16 * n + digitValue c) 0

theorem digits_of_lt {n : Nat} (h : n < 16) : digits n = [n.digitChar] := Nat.toDigits_of_lt_base h

theorem digits_of_le {n : Nat} (h : 16 ≤ n) : digits n = digits (n / 16) ++ [(n % 16).digitChar] :=
  Nat.toDigits_of_base_le (by decide) h

theorem digitValue_digitChar {n : Nat} (h : n < 16) : digitValue n.digitChar = n := by
  have all : ∀ m : Fin 16, digitValue m.val.digitChar = m.val := by decide
  exact all ⟨n, h⟩

theorem value_append (cs : List Char) (c : Char) : value (cs ++ [c]) = 16 * value cs + digitValue c := by
  unfold value
  rw [List.foldl_append, List.foldl_cons, List.foldl_nil]

/-- A number is read back from its digits. -/
theorem value_digits (n : Nat) : value (digits n) = n := by
  induction n using Nat.strongRecOn with
  | ind n ih =>
    by_cases h : n < 16
    · rw [digits_of_lt h, value, List.foldl_cons, List.foldl_nil, digitValue_digitChar h]
      omega
    · have low : n % 16 < 16 := Nat.mod_lt n (by decide)
      rw [digits_of_le (Nat.le_of_not_lt h), value_append, ih (n / 16) (by omega),
        digitValue_digitChar low]
      omega

theorem value_padded (width n : Nat) : value (padded width n) = n := by
  have zeros (k : Nat) (cs : List Char) : value (List.replicate k '0' ++ cs) = value cs := by
    induction k with
    | zero => rfl
    | succ k ih => exact ih
  unfold padded
  rw [List.leftpad, zeros, value_digits]

theorem mem_digits {n : Nat} {c : Char} (h : c ∈ digits n) : ∃ d < 16, c = d.digitChar := by
  induction n using Nat.strongRecOn with
  | ind n ih =>
    by_cases hn : n < 16
    · rw [digits_of_lt hn] at h
      exact ⟨n, hn, List.mem_singleton.mp h⟩
    · rw [digits_of_le (Nat.le_of_not_lt hn)] at h
      rcases List.mem_append.mp h with high | low
      · exact ih (n / 16) (by omega) high
      · exact ⟨n % 16, Nat.mod_lt n (by decide), List.mem_singleton.mp low⟩

theorem mem_padded {width n : Nat} {c : Char} (h : c ∈ padded width n) :
    ∃ d < 16, c = d.digitChar := by
  rcases List.mem_append.mp h with zeros | rest
  · exact ⟨0, by decide, List.eq_of_mem_replicate zeros⟩
  · exact mem_digits rest

theorem digits_length {n k : Nat} (hk : 0 < k) (h : n < 16 ^ k) : (digits n).length ≤ k :=
  (Nat.length_toDigits_le_iff (by decide) hk).mpr h

theorem padded_length {n k : Nat} (hk : 0 < k) (h : n < 16 ^ k) : (padded k n).length = k := by
  have short := digits_length hk h
  unfold padded
  rw [List.leftpad, List.length_append, List.length_replicate]
  exact Nat.sub_add_cancel short

end Hex
