import Mathlib.Data.BitVec

/-!
# Words without a sign bit

Numbers below half of the range, as words: comparisons, shifts and differences are
those of the numbers.
-/

namespace SuperscalarProcessor.Foundation

variable {w a b : ℕ}

theorem toInt_ofNat_of_lt (h : 2 * a < 2 ^ w) : (BitVec.ofNat w a).toInt = a := by
  have hnat : (BitVec.ofNat w a).toNat = a := by
    rw [BitVec.toNat_ofNat, Nat.mod_eq_of_lt (by omega)]
  rw [BitVec.toInt_eq_toNat_of_lt (by rwa [hnat]), hnat]

theorem slt_ofNat (ha : 2 * a < 2 ^ w) (hb : 2 * b < 2 ^ w) :
    (BitVec.ofNat w a).slt (BitVec.ofNat w b) = decide (a < b) := by
  rw [BitVec.slt_eq_decide, toInt_ofNat_of_lt ha, toInt_ofNat_of_lt hb]
  simp

/-- A difference is negative if it goes below zero. -/
theorem slt_sub_ofNat (ha : 2 * a < 2 ^ w) (hb : 2 * b < 2 ^ w) :
    (BitVec.ofNat w a - BitVec.ofNat w b).slt 0#w = decide (a < b) := by
  have hsub : (BitVec.ofNat w a - BitVec.ofNat w b).toInt = (a : ℤ) - b := by
    rw [BitVec.toInt_sub, toInt_ofNat_of_lt ha, toInt_ofNat_of_lt hb]
    generalize 2 ^ w = p at ha hb
    exact Int.bmod_eq_of_le (by omega) (by omega)
  rw [BitVec.slt_eq_decide, hsub, BitVec.toInt_zero, decide_eq_decide]
  omega

theorem msb_ofNat_of_lt (ha : 2 * a < 2 ^ w) : (BitVec.ofNat w a).msb = false := by
  rw [BitVec.msb_eq_false_iff_two_mul_lt, BitVec.toNat_ofNat, Nat.mod_eq_of_lt (by omega)]
  exact ha

theorem shiftLeft_ofNat (n : ℕ) : BitVec.ofNat w a <<< n = BitVec.ofNat w (a * 2 ^ n) := by
  apply BitVec.eq_of_toNat_eq
  rw [BitVec.toNat_shiftLeft, BitVec.toNat_ofNat, BitVec.toNat_ofNat, Nat.shiftLeft_eq,
    Nat.mod_mul_mod]

theorem sshiftRight_ofNat (ha : 2 * a < 2 ^ w) (n : ℕ) :
    (BitVec.ofNat w a).sshiftRight n = BitVec.ofNat w (a / 2 ^ n) := by
  have hle := Nat.div_le_self a (2 ^ n)
  rw [BitVec.sshiftRight_eq_of_msb_false (msb_ofNat_of_lt ha)]
  apply BitVec.eq_of_toNat_eq
  rw [BitVec.toNat_ushiftRight, BitVec.toNat_ofNat, BitVec.toNat_ofNat,
    Nat.shiftRight_eq_div_pow, Nat.mod_eq_of_lt (Nat.lt_of_le_of_lt hle (by omega)),
    Nat.mod_eq_of_lt (show a < 2 ^ w by omega)]

theorem sub_ofNat (h : b ≤ a) :
    BitVec.ofNat w a - BitVec.ofNat w b = BitVec.ofNat w (a - b) := by
  rw [sub_eq_iff_eq_add, ← BitVec.ofNat_add, Nat.sub_add_cancel h]

end SuperscalarProcessor.Foundation
