import Mathlib.Data.Nat.Bitwise

namespace Cidr

variable {w : Nat}

/-- The bits that a prefix compares: `MAX.checked_shl(w - length).unwrap_or(0)`. -/
def mask (w length : Nat) : BitVec w :=
  if w - length < w then BitVec.allOnes w <<< (w - length) else 0

structure Network (w : Nat) where
  address : BitVec w
  length : Nat
  deriving DecidableEq

def Network.contains (network : Network w) (ip : BitVec w) : Bool :=
  ip &&& mask w network.length == network.address &&& mask w network.length

theorem getLsbD_mask {length i : Nat} (hi : i < w) :
    (mask w length).getLsbD i = decide (w - length ≤ i) := by
  unfold mask
  split
  · rw [BitVec.getLsbD_shiftLeft, BitVec.getLsbD_allOnes]
    by_cases h : w - length ≤ i
    · have hlt : i - (w - length) < w := by omega
      simp [hi, h, hlt]
    · simp [h, Nat.lt_of_not_le h]
  · have h : ¬ w - length ≤ i := by omega
    simp [h]

/-- An address is in a range when it agrees with the network above the prefix. -/
theorem Network.contains_iff {network : Network w} {ip : BitVec w} :
    network.contains ip = true ↔
      ip.toNat / 2 ^ (w - network.length) = network.address.toNat / 2 ^ (w - network.length) := by
  unfold contains
  rw [beq_iff_eq, ← Nat.shiftRight_eq_div_pow, ← Nat.shiftRight_eq_div_pow,
    ← BitVec.toNat_ushiftRight, ← BitVec.toNat_ushiftRight, BitVec.toNat_inj]
  constructor
  · intro h
    refine BitVec.eq_of_getLsbD_eq fun i hi => ?_
    rw [BitVec.getLsbD_ushiftRight, BitVec.getLsbD_ushiftRight]
    by_cases hlt : w - network.length + i < w
    · have hbit := congrArg (fun v => v.getLsbD (w - network.length + i)) h
      simpa [BitVec.getLsbD_and, getLsbD_mask hlt] using hbit
    · rw [BitVec.getLsbD_of_ge _ _ (Nat.le_of_not_lt hlt),
        BitVec.getLsbD_of_ge _ _ (Nat.le_of_not_lt hlt)]
  · intro h
    refine BitVec.eq_of_getLsbD_eq fun i hi => ?_
    rw [BitVec.getLsbD_and, BitVec.getLsbD_and, getLsbD_mask hi]
    by_cases hle : w - network.length ≤ i
    · have hbit := congrArg (fun v => v.getLsbD (i - (w - network.length))) h
      simp only [BitVec.getLsbD_ushiftRight, Nat.add_sub_cancel' hle] at hbit
      rw [hbit]
    · simp [hle]

/-- The last address of a range whose network has no bit below its prefix. -/
def Network.last (network : Network w) : Nat :=
  network.address.toNat + (2 ^ (w - network.length) - 1)

/-- A range is the addresses from its first to its last. -/
theorem Network.contains_iff_between {network : Network w} {ip : BitVec w}
    (h : 2 ^ (w - network.length) ∣ network.address.toNat) :
    network.contains ip = true ↔
      network.address.toNat ≤ ip.toNat ∧ ip.toNat ≤ network.last := by
  obtain ⟨q, hq⟩ := h
  have hpos : 0 < 2 ^ (w - network.length) := Nat.two_pow_pos _
  rw [contains_iff, last, hq, Nat.mul_div_cancel_left q hpos, Nat.div_eq_iff hpos, Nat.mul_comm]
  omega

/-- What stands above the low bits. -/
theorem toNat_append_div {m n : Nat} (x : BitVec m) (y : BitVec n) :
    (x ++ y).toNat / 2 ^ n = x.toNat := by
  rw [BitVec.toNat_append, ← Nat.shiftLeft_add_eq_or_of_lt y.isLt, Nat.shiftLeft_eq, Nat.add_comm,
    Nat.add_mul_div_right _ _ (Nat.two_pow_pos n), Nat.div_eq_of_lt y.isLt, Nat.zero_add]

theorem toNat_append_mod {m n : Nat} (x : BitVec m) (y : BitVec n) :
    (x ++ y).toNat % 2 ^ n = y.toNat := by
  rw [BitVec.toNat_append, ← Nat.shiftLeft_add_eq_or_of_lt y.isLt, Nat.shiftLeft_eq,
    Nat.mul_add_mod_of_lt y.isLt]

end Cidr
