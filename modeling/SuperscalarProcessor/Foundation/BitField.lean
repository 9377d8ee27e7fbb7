import Mathlib.Data.BitVec
import Mathlib.Tactic.Common
import Mathlib.Tactic.Zify

/-!
# Fields of a word

The field of `len` bits from position `lo` up, in a word of any width: reading
it out and writing it in with masks and shifts, described bit by bit. A signed
value that fits into `len` bits is determined by its lowest `len` bits.
-/

namespace SuperscalarProcessor.Foundation

variable {w : ℕ}

/-! ## Masks -/

/-- The lowest `len` bits set. -/
def lowMask (w len : ℕ) : BitVec w := BitVec.ofNat w (2 ^ len - 1)

/-- The mask as C programs compute it. -/
theorem shiftLeft_one_sub_one (w len : ℕ) :
    ((1#w <<< len) - 1#w : BitVec w) = lowMask w len := by
  have hone : (1#w <<< len : BitVec w) = BitVec.ofNat w (2 ^ len) := by
    apply BitVec.eq_of_toNat_eq
    rw [BitVec.toNat_shiftLeft, BitVec.toNat_ofNat, BitVec.toNat_ofNat,
      Nat.shiftLeft_eq, Nat.mod_mul_mod, Nat.one_mul]
  have hsucc : 2 ^ len = 2 ^ len - 1 + 1 :=
    (Nat.sub_add_cancel (Nat.two_pow_pos len)).symm
  rw [hone, lowMask, hsucc, BitVec.ofNat_add, BitVec.add_sub_cancel,
    Nat.add_sub_cancel]

@[simp] theorem getLsbD_lowMask (w len i : ℕ) :
    (lowMask w len).getLsbD i = (decide (i < w) && decide (i < len)) := by
  rw [lowMask, BitVec.getLsbD_ofNat, Nat.testBit_two_pow_sub_one]

/-- Masking keeps the value modulo a power of two. -/
theorem toNat_and_lowMask (x : BitVec w) (len : ℕ) :
    (x &&& lowMask w len).toNat = x.toNat % 2 ^ len := by
  apply Nat.eq_of_testBit_eq
  intro i
  rw [BitVec.testBit_toNat, Nat.testBit_mod_two_pow, BitVec.testBit_toNat,
    BitVec.getLsbD_and, getLsbD_lowMask]
  by_cases hi : i < w
  · simp [hi, Bool.and_comm]
  · rw [BitVec.getLsbD_of_ge x i (by omega)]
    simp

/-! ## Reading and writing -/

/-- The field moved to the bottom. -/
def readField (x : BitVec w) (lo len : ℕ) : BitVec w :=
  x.sshiftRight lo &&& lowMask w len

/-- The word with the lowest `len` bits of `d` in the field. -/
def writeField (x d : BitVec w) (lo len : ℕ) : BitVec w :=
  (x &&& ~~~(lowMask w len <<< lo)) ||| ((d <<< lo) &&& (lowMask w len <<< lo))

theorem getLsbD_readField {x : BitVec w} {lo len : ℕ} (h : lo + len ≤ w) (i : ℕ) :
    (readField x lo len).getLsbD i = (decide (i < len) && x.getLsbD (lo + i)) := by
  rw [readField, BitVec.getLsbD_and, BitVec.getLsbD_sshiftRight, getLsbD_lowMask]
  by_cases hi : i < len
  · have hw : ¬w ≤ i := by omega
    have hlo : lo + i < w := by omega
    have hiw : i < w := by omega
    simp [hi, hw, hlo, hiw]
  · simp [hi]

theorem getLsbD_writeField (x d : BitVec w) (lo len : ℕ) {i : ℕ} (hi : i < w) :
    (writeField x d lo len).getLsbD i =
      if lo ≤ i ∧ i < lo + len then d.getLsbD (i - lo) else x.getLsbD i := by
  have hmask : (lowMask w len <<< lo).getLsbD i =
      decide (lo ≤ i ∧ i < lo + len) := by
    rw [BitVec.getLsbD_shiftLeft, getLsbD_lowMask]
    grind
  rw [writeField, BitVec.getLsbD_or, BitVec.getLsbD_and, BitVec.getLsbD_and,
    BitVec.getLsbD_not, hmask, BitVec.getLsbD_shiftLeft]
  split_ifs with hin
  · have hlo : ¬i < lo := by omega
    simp [hi, hlo, hin]
  · simp [hi, hin]

/-- The lowest `len` bits moved up into the field. -/
theorem getLsbD_place (x : BitVec w) (lo len : ℕ) {i : ℕ} (hi : i < w) :
    ((x &&& lowMask w len) <<< lo).getLsbD i =
      (decide (lo ≤ i ∧ i < lo + len) && x.getLsbD (i - lo)) := by
  rw [BitVec.getLsbD_shiftLeft, BitVec.getLsbD_and, getLsbD_lowMask]
  grind

/-- Reading back what was written gives its lowest bits. -/
theorem readField_writeField (x d : BitVec w) {lo len : ℕ} (h : lo + len ≤ w) :
    readField (writeField x d lo len) lo len = d &&& lowMask w len := by
  apply BitVec.eq_of_getLsbD_eq
  intro i hi
  rw [getLsbD_readField h, BitVec.getLsbD_and, getLsbD_lowMask]
  by_cases hlen : i < len
  · rw [getLsbD_writeField x d lo len (by omega), if_pos (by omega)]
    simp [hlen, hi]
  · simp [hlen]

/-- Writing leaves every other bit alone. -/
theorem getLsbD_writeField_outside (x d : BitVec w) {lo len i : ℕ} (hi : i < w)
    (hout : ¬(lo ≤ i ∧ i < lo + len)) :
    (writeField x d lo len).getLsbD i = x.getLsbD i := by
  rw [getLsbD_writeField x d lo len hi, if_neg hout]

/-! ## Fields of their own width -/

/-- Shifting down and masking gives the bits of the field. -/
theorem shiftRight_and_lowMask (x : BitVec w) {lo len : ℕ} (h : lo + len ≤ w) :
    (x >>> lo &&& lowMask w len).setWidth len = x.extractLsb' lo len := by
  apply BitVec.eq_of_getLsbD_eq
  intro i hi
  have hw : i < w := by omega
  rw [BitVec.getLsbD_setWidth, BitVec.getLsbD_and, BitVec.getLsbD_ushiftRight,
    getLsbD_lowMask, BitVec.getLsbD_extractLsb']
  simp [hi, hw]

/-- A field is known when its bits are. -/
theorem extractLsb'_eq_setWidth {x y : BitVec w} {lo len : ℕ}
    (h : ∀ i, lo ≤ i → i < lo + len → y.getLsbD i = x.getLsbD (i - lo)) :
    y.extractLsb' lo len = x.setWidth len := by
  apply BitVec.eq_of_getLsbD_eq
  intro i hi
  rw [BitVec.getLsbD_extractLsb', BitVec.getLsbD_setWidth,
    h (lo + i) (by omega) (by omega), Nat.add_sub_cancel_left]

/-! ## Signed values -/

/-- The signed value fits into `len` bits. -/
def SignedRange (len : ℕ) (d : BitVec w) : Prop :=
  -2 ^ (len - 1) ≤ d.toInt ∧ d.toInt < 2 ^ (len - 1)

theorem toNat_of_neg {d : BitVec w} (hneg : d.toInt < 0) :
    (d.toNat : ℤ) = d.toInt + 2 ^ w := by
  rw [BitVec.toInt_eq_toNat_cond] at hneg ⊢
  split_ifs at hneg ⊢ with hsign
  · omega
  · push_cast
    omega

theorem SignedRange.toNat_lt {len : ℕ} {d : BitVec w} (h : SignedRange len d)
    (hpos : 0 ≤ d.toInt) : d.toNat < 2 ^ (len - 1) := by
  have hhigh := h.2
  rw [BitVec.toInt_eq_toNat_cond] at hhigh hpos
  have hd : (d.toNat : ℤ) < 2 ^ w := by exact_mod_cast d.isLt
  split_ifs at hhigh hpos with hsign
  · exact_mod_cast hhigh
  · push_cast at hpos
    omega

/-- A value that is not negative is its lowest bits. -/
theorem SignedRange.low_of_nonneg {len : ℕ} {d : BitVec w} (h : SignedRange len d)
    (hpos : 0 ≤ d.toInt) : d &&& lowMask w len = d := by
  apply BitVec.eq_of_toNat_eq
  have hlt := h.toNat_lt hpos
  have hpow : 2 ^ (len - 1) ≤ 2 ^ len := Nat.pow_le_pow_right (by decide) (by omega)
  rw [toNat_and_lowMask, Nat.mod_eq_of_lt (by omega)]

/-- A negative one lacks `2 ^ len` from its lowest bits. -/
theorem SignedRange.toNat_low_of_neg {len : ℕ} {d : BitVec w}
    (h : SignedRange len d) (hlen : len ≤ w) (hneg : d.toInt < 0) :
    ((d &&& lowMask w len).toNat : ℤ) = 2 ^ len + d.toInt := by
  have hdvd : (2 ^ len : ℤ) ∣ 2 ^ w := pow_dvd_pow 2 hlen
  have hpow : (2 ^ (len - 1) : ℤ) ≤ 2 ^ len := by
    exact_mod_cast Nat.pow_le_pow_right (by decide) (by omega)
  have hlow := h.1
  rw [toNat_and_lowMask]
  push_cast
  rw [toNat_of_neg hneg, Int.add_emod, Int.emod_eq_zero_of_dvd hdvd, Int.add_zero, Int.emod_emod,
    ← Int.add_emod_left, Int.emod_eq_of_lt (by omega) (by omega)]

/-- The bit below the top of the field is the sign. -/
theorem SignedRange.sign {len : ℕ} {d : BitVec w} (h : SignedRange len d)
    (hpos : 0 < len) (hlen : len ≤ w) :
    (d &&& lowMask w len).getLsbD (len - 1) = decide (d.toInt < 0) := by
  by_cases hneg : d.toInt < 0
  · have hlow := h.1
    have hsplit : (2 ^ len : ℤ) = 2 ^ (len - 1) + 2 ^ (len - 1) := by
      rw [← two_mul, ← pow_succ', Nat.sub_add_cancel hpos]
    have hnat := h.toNat_low_of_neg hlen hneg
    rw [decide_eq_true hneg, ← BitVec.testBit_toNat]
    apply Nat.testBit_of_two_pow_le_and_two_pow_add_one_gt
    · zify
      omega
    · rw [Nat.sub_add_cancel hpos, toNat_and_lowMask]
      exact Nat.mod_lt _ (Nat.two_pow_pos len)
  · rw [decide_eq_false hneg, h.low_of_nonneg (by omega), ← BitVec.testBit_toNat]
    exact Nat.testBit_lt_two_pow (h.toNat_lt (by omega))

/-- Without sign extension a negative value is lost. -/
theorem SignedRange.low_ne_of_neg {len : ℕ} {d : BitVec w} (h : SignedRange len d)
    (hlen : len < w) (hneg : d.toInt < 0) : d &&& lowMask w len ≠ d := by
  intro heq
  have hnat := h.toNat_low_of_neg (Nat.le_of_lt hlen) hneg
  have hpow : (2 ^ len : ℤ) < 2 ^ w := by
    exact_mod_cast Nat.pow_lt_pow_right (by decide) hlen
  rw [heq, toNat_of_neg hneg] at hnat
  omega

/-- Sign extension by subtraction. -/
theorem SignedRange.low_sub_of_neg {len : ℕ} {d : BitVec w} (h : SignedRange len d)
    (hlen : len < w) (hneg : d.toInt < 0) :
    (d &&& lowMask w len) - (1#w <<< len) = d := by
  have hnat := h.toNat_low_of_neg (Nat.le_of_lt hlen) hneg
  have hpow : 2 ^ len < 2 ^ w := Nat.pow_lt_pow_right (by decide) hlen
  have hd := toNat_of_neg hneg
  have hshift : (1#w <<< len : BitVec w).toNat = 2 ^ len := by
    rw [BitVec.toNat_shiftLeft, BitVec.toNat_ofNat, Nat.shiftLeft_eq,
      Nat.mod_mul_mod, Nat.one_mul, Nat.mod_eq_of_lt hpow]
  have hsum : d.toNat + 2 ^ len = (d &&& lowMask w len).toNat + 2 ^ w := by
    zify
    omega
  rw [BitVec.sub_eq_iff_eq_add]
  apply BitVec.eq_of_toNat_eq
  rw [BitVec.toNat_add, hshift, hsum, Nat.add_mod_right,
    Nat.mod_eq_of_lt (d &&& lowMask w len).isLt]

end SuperscalarProcessor.Foundation
