import Mathlib.Data.BitVec
import Mathlib.Data.Nat.Log

/-- An IEEE 754 double, by its bit pattern: sign, eleven exponent bits, fifty-two fraction bits. -/
structure Binary64 where
  bits : BitVec 64
  deriving DecidableEq

namespace Binary64

def exponentBits (x : Binary64) : Nat := x.bits.toNat / 2^52 % 2^11

/-- Neither an infinity nor a NaN. -/
def isFinite (x : Binary64) : Bool := x.exponentBits != 2047

def isNegative (x : Binary64) : Bool := decide (2^63 ≤ x.bits.toNat)

/-- The pattern without its sign bit. -/
def magnitude (x : Binary64) : Nat := x.bits.toNat % 2^63

/-- The value of a magnitude, in units of 2^-1074: the least positive double is 1. -/
def units (m : Nat) : Nat :=
  if m / 2^52 = 0 then m else (2^52 + m % 2^52) * 2^(m / 2^52 - 1)

/-- The value of a finite double, in units of 2^-1074. -/
def scaled (x : Binary64) : Int := if x.isNegative then -(units x.magnitude) else units x.magnitude

def ofMagnitude (negative : Bool) (m : Nat) : Binary64 :=
  ⟨BitVec.ofNat 64 ((if negative then 2^63 else 0) + m)⟩

/-- The magnitude of the infinities. -/
def infinity : Nat := 2047 * 2^52

/-- `num / den` to the nearest integer, and to the even one of two. -/
def halfEven (num den : Nat) : Nat :=
  let q := num / den
  let r := num % den
  if 2 * r < den ∨ 2 * r = den ∧ q % 2 = 0 then q else q + 1

/-- The magnitude nearest to `num / den` units. -/
def roundMagnitude (num den : Nat) : Nat :=
  if num / den < 2^53 then halfEven num den
  else
    let shift := Nat.log2 (num / den) - 52
    min (shift * 2^52 + halfEven num (den * 2^shift)) infinity

/-- The exponent of a unit, negated. -/
def unitExponent : Nat := 1074

/-- An integer as a double, rounded to nearest. -/
def ofInt (i : Int) : Binary64 :=
  ofMagnitude (decide (i < 0)) (roundMagnitude (i.natAbs * 2^unitExponent) 1)

def digitsValue (digits : List Char) : Nat :=
  digits.foldl (fun n c => n * 10 + (c.toNat - '0'.toNat)) 0

/-- The exponent of a decimal number: nothing, or `e`, a sign and digits. -/
def parseExponent : List Char → Option Int
  | [] => some 0
  | e :: rest =>
    if e = 'e' ∨ e = 'E' then
      let (negative, digits) := match rest with
        | '-' :: digits => (true, digits)
        | '+' :: digits => (false, digits)
        | digits => (false, digits)
      if digits ≠ [] ∧ digits.all Char.isDigit then
        some (if negative then -(digitsValue digits) else digitsValue digits)
      else none
    else none

/-- A decimal number without its sign, as the magnitude of the double nearest to it. -/
def parseDecimal (text : List Char) : Option Nat :=
  let int := text.takeWhile Char.isDigit
  let (frac, rest) := match text.dropWhile Char.isDigit with
    | '.' :: rest => (rest.takeWhile Char.isDigit, rest.dropWhile Char.isDigit)
    | rest => ([], rest)
  if int = [] ∧ frac = [] then none
  else (parseExponent rest).map fun (exponent : Int) =>
    match exponent - frac.length with
    | Int.ofNat k => roundMagnitude (digitsValue (int ++ frac) * 10^k * 2^unitExponent) 1
    | Int.negSucc k => roundMagnitude (digitsValue (int ++ frac) * 2^unitExponent) (10^(k + 1))

/-- The names of what is not finite, in any case. -/
def parseSpecial (text : List Char) : Option Nat :=
  match String.ofList (text.map Char.toLower) with
  | "inf" | "infinity" => some infinity
  | "nan" => some (infinity + 2^51)
  | _ => none

/-- A decimal text as the double nearest to it. -/
def parse (text : String) : Option Binary64 :=
  let (negative, text) := match text.toList with
    | '-' :: text => (true, text)
    | '+' :: text => (false, text)
    | text => (false, text)
  ((parseDecimal text).or (parseSpecial text)).map (ofMagnitude negative)

variable {x y : Binary64} {m n : Nat}

theorem magnitude_lt (x : Binary64) : x.magnitude < 2^63 := Nat.mod_lt _ (by decide)

theorem exponentBits_eq (x : Binary64) : x.exponentBits = x.magnitude / 2^52 := by
  have hlt : x.bits.toNat < 2^64 := x.bits.isLt
  unfold exponentBits magnitude
  omega

theorem isFinite_iff : x.isFinite = true ↔ x.magnitude < infinity := by
  have hlt := x.magnitude_lt
  unfold isFinite infinity
  rw [exponentBits_eq, bne_iff_ne]
  omega

/-- A double is its sign and its magnitude. -/
theorem eq_of_parts (hs : x.isNegative = y.isNegative) (hm : x.magnitude = y.magnitude) :
    x = y := by
  have hx : x.bits.toNat < 2^64 := x.bits.isLt
  have hy : y.bits.toNat < 2^64 := y.bits.isLt
  have hbits : x.bits = y.bits := by
    apply BitVec.eq_of_toNat_eq
    unfold isNegative at hs
    unfold magnitude at hm
    rw [decide_eq_decide] at hs
    omega
  exact congrArg Binary64.mk hbits

theorem magnitude_ofMagnitude {negative : Bool} (h : m < 2^63) :
    (ofMagnitude negative m).magnitude = m := by
  unfold magnitude ofMagnitude
  rw [BitVec.toNat_ofNat]
  cases negative with
  | true =>
    rw [if_pos rfl]
    omega
  | false =>
    rw [if_neg (by decide)]
    omega

theorem isNegative_ofMagnitude {negative : Bool} (h : m < 2^63) :
    (ofMagnitude negative m).isNegative = negative := by
  unfold isNegative ofMagnitude
  rw [BitVec.toNat_ofNat]
  cases negative with
  | true =>
    rw [if_pos rfl, decide_eq_true_eq]
    omega
  | false =>
    rw [if_neg (by decide), decide_eq_false_iff_not]
    omega

/-- A larger magnitude is a larger value. -/
theorem units_strictMono : StrictMono units := by
  apply strictMono_nat_of_lt_succ
  intro m
  have hstep : m / 2^52 = (m + 1) / 2^52 ∧ (m + 1) % 2^52 = m % 2^52 + 1 ∨
      m / 2^52 + 1 = (m + 1) / 2^52 ∧ m % 2^52 = 2^52 - 1 ∧ (m + 1) % 2^52 = 0 := by omega
  unfold units
  rcases hstep with ⟨he, hf⟩ | ⟨he, hf, hf'⟩
  · rw [← he, hf]
    split
    · omega
    · exact Nat.mul_lt_mul_of_pos_right (by omega) (Nat.two_pow_pos _)
  · rw [← he, hf', hf, if_neg (Nat.succ_ne_zero (m / 2^52)), Nat.add_sub_cancel]
    split
    · rename_i hz
      rw [hz]
      omega
    · rename_i hz
      obtain ⟨e, he'⟩ := Nat.exists_eq_succ_of_ne_zero hz
      have hpos := Nat.two_pow_pos e
      rw [he', Nat.succ_eq_add_one, Nat.add_sub_cancel, Nat.pow_succ 2 e]
      omega

theorem units_zero : units 0 = 0 := rfl

/-- Two finite doubles are one number when they are one double, or both a zero. -/
theorem scaled_eq_iff : x.scaled = y.scaled ↔ x = y ∨ x.magnitude = 0 ∧ y.magnitude = 0 := by
  constructor
  · intro h
    by_cases hx : x.magnitude = 0
    · by_cases hy : y.magnitude = 0
      · exact .inr ⟨hx, hy⟩
      · have hpos : units 0 < units y.magnitude := units_strictMono (Nat.pos_of_ne_zero hy)
        unfold scaled at h
        rw [hx, units_zero] at h
        rw [units_zero] at hpos
        split at h <;> split at h <;> omega
    · have hpos : units 0 < units x.magnitude := units_strictMono (Nat.pos_of_ne_zero hx)
      rw [units_zero] at hpos
      left
      unfold scaled at h
      cases hsx : x.isNegative <;> cases hsy : y.isNegative
      all_goals
        simp only [hsx, hsy, Bool.false_eq_true, if_false, if_true] at h
      · refine eq_of_parts (hsx.trans hsy.symm) (units_strictMono.injective ?_)
        omega
      · omega
      · omega
      · refine eq_of_parts (hsx.trans hsy.symm) (units_strictMono.injective ?_)
        omega
  · rintro (rfl | ⟨hx, hy⟩)
    · rfl
    · unfold scaled
      rw [hx, hy, units_zero]
      simp

theorem halfEven_mul (k : Nat) {den : Nat} (h : 0 < den) : halfEven (k * den) den = k := by
  unfold halfEven
  rw [Nat.mul_div_cancel k h, Nat.mul_mod_left, if_pos (by omega)]

theorem le_halfEven (num den : Nat) : num / den ≤ halfEven num den := by
  unfold halfEven
  dsimp only
  split <;> omega

/-- A significand and an exponent as a magnitude. -/
theorem units_shift {shift r : Nat} (hlow : 2^52 ≤ r) (hhigh : r < 2^53) :
    units (shift * 2^52 + r) = r * 2^shift := by
  have he : (shift * 2^52 + r) / 2^52 = shift + 1 := by omega
  have hf : (shift * 2^52 + r) % 2^52 = r - 2^52 := by omega
  unfold units
  rw [he, hf, if_neg (by omega), Nat.add_sub_cancel, Nat.add_sub_cancel' hlow]

private theorem log2_scaled {n k : Nat} (h : n ≠ 0) : Nat.log2 (n * 2^k) = Nat.log2 n + k := by
  have hpos := Nat.two_pow_pos k
  rw [Nat.log2_eq_iff (Nat.mul_ne_zero h (by omega))]
  obtain ⟨hlow, hhigh⟩ := (Nat.log2_eq_iff h).mp rfl
  constructor
  · rw [Nat.pow_add]
    exact Nat.mul_le_mul_right _ hlow
  · rw [show n.log2 + k + 1 = n.log2 + 1 + k by omega, Nat.pow_add]
    exact Nat.mul_lt_mul_of_pos_right hhigh hpos

/-- Nothing rounds to more than an infinity. -/
theorem roundMagnitude_le (num den : Nat) : roundMagnitude num den ≤ infinity := by
  unfold roundMagnitude
  split
  · rename_i hsmall
    have hle : halfEven num den ≤ num / den + 1 := by
      unfold halfEven
      dsimp only
      split <;> omega
    unfold infinity
    omega
  · exact Nat.min_le_right _ _

theorem magnitude_ofInt (i : Int) :
    (ofInt i).magnitude = roundMagnitude (i.natAbs * 2^unitExponent) 1 := by
  refine magnitude_ofMagnitude (Nat.lt_of_le_of_lt (roundMagnitude_le _ _) ?_)
  decide

theorem isNegative_ofInt (i : Int) : (ofInt i).isNegative = decide (i < 0) := by
  refine isNegative_ofMagnitude (Nat.lt_of_le_of_lt (roundMagnitude_le _ _) ?_)
  decide

section Integers

variable {k : Nat} (hk : 53 ≤ k)
include hk

private theorem lt_scaled (hn : n ≠ 0) : ¬ n * 2^k / 1 < 2^53 := by
  rw [Nat.div_one, Nat.not_lt]
  calc 2^53 ≤ 2^k := Nat.pow_le_pow_right (by decide) hk
    _ ≤ n * 2^k := Nat.le_mul_of_pos_left _ (Nat.pos_of_ne_zero hn)

private theorem shift_scaled (hn : n ≠ 0) : Nat.log2 (n * 2^k / 1) - 52 = n.log2 + (k - 52) := by
  rw [Nat.div_one, log2_scaled hn]
  omega

/-- An integer of at most fifty-three bits is a double. -/
theorem units_roundMagnitude (hk' : k ≤ 2000) (h : n < 2^53) :
    roundMagnitude (n * 2^k) 1 < infinity ∧ units (roundMagnitude (n * 2^k) 1) = n * 2^k := by
  by_cases hn : n = 0
  · subst hn
    rw [Nat.zero_mul]
    exact ⟨by decide, by decide⟩
  · have hlog : n.log2 ≤ 52 := by
      have hlt := (Nat.log2_lt hn).mpr h
      omega
    obtain ⟨hlow, hhigh⟩ := (Nat.log2_eq_iff hn).mp rfl
    have hexact : n * 2^k = n * 2^(52 - n.log2) * (1 * 2^(n.log2 + (k - 52))) := by
      rw [Nat.one_mul, Nat.mul_assoc, ← Nat.pow_add]
      congr 2
      omega
    have hsig : halfEven (n * 2^k) (1 * 2^(n.log2 + (k - 52))) = n * 2^(52 - n.log2) := by
      rw [hexact]
      exact halfEven_mul _ (by rw [Nat.one_mul]; exact Nat.two_pow_pos _)
    have hfloor : 2^52 ≤ n * 2^(52 - n.log2) := by
      calc 2^52 = 2^n.log2 * 2^(52 - n.log2) := by
            rw [← Nat.pow_add, Nat.add_sub_cancel' hlog]
        _ ≤ n * 2^(52 - n.log2) := Nat.mul_le_mul_right _ hlow
    have hceil : n * 2^(52 - n.log2) < 2^53 := by
      calc n * 2^(52 - n.log2) < 2^(n.log2 + 1) * 2^(52 - n.log2) :=
            Nat.mul_lt_mul_of_pos_right hhigh (Nat.two_pow_pos _)
        _ = 2^53 := by
            rw [← Nat.pow_add, show n.log2 + 1 + (52 - n.log2) = 53 by omega]
    have hround : roundMagnitude (n * 2^k) 1 =
        (n.log2 + (k - 52)) * 2^52 + n * 2^(52 - n.log2) := by
      unfold roundMagnitude
      rw [if_neg (lt_scaled hk hn)]
      dsimp only
      rw [shift_scaled hk hn, hsig]
      unfold infinity
      omega
    rw [hround, units_shift hfloor hceil]
    refine ⟨by unfold infinity; omega, ?_⟩
    rw [Nat.mul_assoc, ← Nat.pow_add]
    congr 2
    omega

/-- A larger integer stays one. -/
theorem le_units_roundMagnitude (hk' : k ≤ 2000) (h : 2^53 ≤ n) :
    2^53 * 2^k ≤ units (roundMagnitude (n * 2^k) 1) := by
  have hn : n ≠ 0 := by omega
  have hlog : 53 ≤ n.log2 := (Nat.le_log2 hn).mpr h
  have hsig : 2^52 ≤ halfEven (n * 2^k) (1 * 2^(n.log2 + (k - 52))) := by
    refine Nat.le_trans ?_ (le_halfEven _ _)
    rw [Nat.one_mul, Nat.le_div_iff_mul_le (Nat.two_pow_pos _), ← Nat.pow_add,
      show 52 + (n.log2 + (k - 52)) = n.log2 + k by omega, Nat.pow_add]
    exact Nat.mul_le_mul_right _ (Nat.log2_self_le hn)
  have hfloor : (k + 1) * 2^52 + 2^52 ≤ roundMagnitude (n * 2^k) 1 := by
    unfold roundMagnitude
    rw [if_neg (lt_scaled hk hn)]
    dsimp only
    rw [shift_scaled hk hn]
    unfold infinity
    omega
  calc 2^53 * 2^k = 2^52 * 2^(k + 1) := by
        rw [← Nat.pow_add, ← Nat.pow_add]
        congr 1
        omega
    _ = units ((k + 1) * 2^52 + 2^52) := (units_shift (Nat.le_refl _) (by decide)).symm
    _ ≤ units (roundMagnitude (n * 2^k) 1) := units_strictMono.monotone hfloor

end Integers

/-- An integer of at most fifty-three bits keeps its value. -/
theorem scaled_ofInt {i : Int} (h : i.natAbs < 2^53) : (ofInt i).isFinite = true ∧
    units (ofInt i).magnitude = i.natAbs * 2^unitExponent ∧
    (ofInt i).scaled = i * 2^unitExponent := by
  obtain ⟨hfinite, hunits⟩ := units_roundMagnitude (k := unitExponent) (by decide) (by decide) h
  rw [← magnitude_ofInt i] at hfinite hunits
  refine ⟨isFinite_iff.mpr hfinite, hunits, ?_⟩
  unfold scaled
  rw [hunits, isNegative_ofInt]
  have hpow : ((i.natAbs * 2^unitExponent : Nat) : Int) = i.natAbs * 2^unitExponent := by
    push_cast
    rfl
  rw [hpow]
  by_cases hneg : i < 0
  · have hi : -(i.natAbs : Int) = i := by omega
    rw [decide_eq_true hneg, if_pos rfl, ← Int.neg_mul, hi]
  · have hi : (i.natAbs : Int) = i := by omega
    rw [decide_eq_false hneg, if_neg (by decide), hi]

/-- A larger integer stays larger than every integer of fifty-three bits. -/
theorem le_units_ofInt {i : Int} (h : 2^53 ≤ i.natAbs) :
    2^53 * 2^unitExponent ≤ units (ofInt i).magnitude := by
  have hle := le_units_roundMagnitude (k := unitExponent) (by decide) (by decide) h
  rw [magnitude_ofInt]
  exact hle

end Binary64
