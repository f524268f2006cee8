import Tronc.Mcp.Mirror

namespace Tronc

open Binary64 (unitExponent units)

namespace Number

/-- The exact value of a number, in the units of a double's. -/
def scaled : Number → Int
  | .posInt n => n.toNat * 2^unitExponent
  | .negInt i => i.1.toInt * 2^unitExponent
  | .float x => x.1.scaled

/-- Whether a number is at most 2^53 - 1, either side of zero. -/
def IsSafe (n : Number) : Prop := n.scaled.natAbs ≤ 9007199254740991 * 2^unitExponent

end Number

namespace Mcp

theorem natAbs_scaled (x : Binary64) : x.scaled.natAbs = units x.magnitude := by
  unfold Binary64.scaled
  split <;> omega

private theorem natAbs_mul_units (i : Int) :
    (i * 2^unitExponent).natAbs = i.natAbs * 2^unitExponent := by
  have htwo : (2 : Int).natAbs = 2 := by decide
  rw [Int.natAbs_mul, Int.natAbs_pow, htwo]

theorem units_maxSafe : units MAX_SAFE_INTEGER.magnitude = 9007199254740991 * 2^unitExponent := by
  obtain ⟨_, hunits, _⟩ := Binary64.scaled_ofInt (i := 9007199254740991) (by decide)
  have habs : (9007199254740991 : Int).natAbs = 9007199254740991 := by decide
  rw [habs] at hunits
  unfold MAX_SAFE_INTEGER
  rw [hunits]

theorem isUnsafe_eq_false {x : Binary64} : isUnsafe x = false ↔
    x.isFinite = true ∧ units x.magnitude ≤ 9007199254740991 * 2^unitExponent := by
  unfold isUnsafe
  rw [Bool.or_eq_false_iff, Bool.not_eq_false', decide_eq_false_iff_not, Nat.not_lt,
    ← Binary64.units_strictMono.le_iff_le, units_maxSafe]

theorem isUnsafe_ofInt {i : Int} : isUnsafe (.ofInt i) = false ↔
    i.natAbs * 2^unitExponent ≤ 9007199254740991 * 2^unitExponent := by
  have hpos := Nat.two_pow_pos unitExponent
  rw [isUnsafe_eq_false]
  by_cases hi : i.natAbs < 2^53
  · obtain ⟨hfinite, hunits, _⟩ := Binary64.scaled_ofInt hi
    rw [hunits]
    exact and_iff_right hfinite
  · have hle : 2^53 ≤ i.natAbs := Nat.le_of_not_lt hi
    refine iff_of_false (fun h => ?_) fun h => ?_
    · have hfloor := Nat.le_trans (Binary64.le_units_ofInt hle) h.2
      have hbad := Nat.le_of_mul_le_mul_right hfloor hpos
      omega
    · have hbad := Nat.le_of_mul_le_mul_right h hpos
      omega

/-- The range check on doubles is exact, though not every number is a double. -/
theorem isUnsafe_asF64 (n : Number) : isUnsafe n.asF64 = false ↔ n.IsSafe := by
  unfold Number.IsSafe
  cases n with
  | posInt n =>
    simp only [Number.asF64, Number.scaled, natAbs_mul_units]
    exact isUnsafe_ofInt
  | negInt i =>
    simp only [Number.asF64, Number.scaled, natAbs_mul_units]
    exact isUnsafe_ofInt
  | float x =>
    simp only [Number.asF64, Number.scaled, natAbs_scaled]
    rw [isUnsafe_eq_false]
    exact and_iff_right x.2

private theorem scaled_ofInt_safe {i : Int}
    (h : (i * 2^unitExponent).natAbs ≤ 9007199254740991 * 2^unitExponent) :
    (Binary64.ofInt i).scaled = i * 2^unitExponent := by
  rw [natAbs_mul_units] at h
  have hle := Nat.le_of_mul_le_mul_right h (Nat.two_pow_pos unitExponent)
  have hlt : i.natAbs < 2^53 := by omega
  exact (Binary64.scaled_ofInt hlt).2.2

/-- A safe number is a double. -/
theorem scaled_asF64 {n : Number} (h : n.IsSafe) : n.asF64.scaled = n.scaled := by
  cases n with
  | posInt n => exact scaled_ofInt_safe h
  | negInt i => exact scaled_ofInt_safe h
  | float x => rfl

end Mcp

end Tronc
