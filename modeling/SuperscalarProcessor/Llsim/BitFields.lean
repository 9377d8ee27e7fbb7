import Mathlib.Data.BitVec
import SuperscalarProcessor.Foundation.BitField

/-!
# Bit fields (`llsim.h`)

C's `int` is a 32-bit word in two's complement and `long long` a 64-bit one.
The bit positions the simulator passes are constants, so they are naturals
here; a field runs from `lsb` to `msb` inclusive.
-/

namespace SuperscalarProcessor.Llsim

open Foundation

/-- A C `int` or `unsigned int`; signed operations are chosen at the use. -/
abbrev Word := BitVec 32

/-- A C `long long`. -/
abbrev I64 := BitVec 64

def bitmask0 (bits : ℕ) : Word :=
  if bits = 32 then -1 else (1 <<< bits) - 1

def bitmask (msb lsb : ℕ) : Word :=
  bitmask0 (msb - lsb + 1) <<< lsb

def sbs (val : Word) (msb lsb : ℕ) : Word :=
  if msb = 31 ∧ lsb = 0 then val
  else val.sshiftRight lsb &&& bitmask0 (msb - lsb + 1)

def rbs (val data : Word) (msb lsb : ℕ) : Word :=
  (val &&& ~~~bitmask msb lsb) ||| ((data <<< lsb) &&& bitmask msb lsb)

def lbitmask0 (bits : ℕ) : I64 :=
  if bits = 64 then -1 else (1 <<< bits) - 1

def lbitmask (msb lsb : ℕ) : I64 :=
  lbitmask0 (msb - lsb + 1) <<< lsb

def lsbs (val : I64) (msb lsb : ℕ) : I64 :=
  if msb = 63 ∧ lsb = 0 then val
  else val.sshiftRight lsb &&& lbitmask0 (msb - lsb + 1)

/-- The new field is built from two `int`s, so it is sign-extended to 64 bits
before it is merged into `val`. -/
def lrbs (val : I64) (data : Word) (msb lsb : ℕ) : I64 :=
  (val &&& ~~~lbitmask msb lsb) |||
    ((data <<< lsb) &&& bitmask msb lsb).signExtend 64

/-! ## The masks and fields they are -/

theorem bitmask0_eq (bits : ℕ) : bitmask0 bits = lowMask 32 bits := by
  unfold bitmask0
  split_ifs with h
  · rw [h]
    decide
  · exact shiftLeft_one_sub_one 32 bits

theorem lbitmask0_eq (bits : ℕ) : lbitmask0 bits = lowMask 64 bits := by
  unfold lbitmask0
  split_ifs with h
  · rw [h]
    decide
  · exact shiftLeft_one_sub_one 64 bits

theorem sbs_eq (val : Word) (msb lsb : ℕ) :
    sbs val msb lsb = readField val lsb (msb - lsb + 1) := by
  unfold sbs
  split_ifs with h
  · obtain ⟨rfl, rfl⟩ := h
    have hmask : lowMask 32 (31 - 0 + 1) = BitVec.allOnes 32 := by decide
    rw [readField, hmask, BitVec.sshiftRight_zero, BitVec.and_allOnes]
  · rw [readField, bitmask0_eq]

theorem rbs_eq (val data : Word) (msb lsb : ℕ) :
    rbs val data msb lsb = writeField val data lsb (msb - lsb + 1) := by
  rw [rbs, bitmask, bitmask0_eq, writeField]

theorem lsbs_eq (val : I64) (msb lsb : ℕ) :
    lsbs val msb lsb = readField val lsb (msb - lsb + 1) := by
  unfold lsbs
  split_ifs with h
  · obtain ⟨rfl, rfl⟩ := h
    have hmask : lowMask 64 (63 - 0 + 1) = BitVec.allOnes 64 := by decide
    rw [readField, hmask, BitVec.sshiftRight_zero, BitVec.and_allOnes]
  · rw [readField, lbitmask0_eq]

/-! ## Whole-word fields -/

@[simp] theorem sbs_word (val : Word) : sbs val 31 0 = val := by
  simp [sbs]

@[simp] theorem rbs_word (val data : Word) : rbs val data 31 0 = data := by
  have hmask : bitmask 31 0 = BitVec.allOnes 32 := by decide
  unfold rbs
  rw [hmask, BitVec.shiftLeft_zero, BitVec.not_allOnes, BitVec.and_zero,
    BitVec.zero_or, BitVec.and_allOnes]

theorem lsbs_word (val : I64) :
    (lsbs val 31 0).setWidth 32 = val.setWidth 32 := by
  have hmask : (lbitmask0 (31 - 0 + 1)).setWidth 32 = BitVec.allOnes 32 := by
    decide
  unfold lsbs
  rw [if_neg (by decide), BitVec.sshiftRight_zero, BitVec.setWidth_and, hmask,
    BitVec.and_allOnes]

/-! ## Masks and shifts of whole words -/

theorem lowHalf_toNat (x : Word) : (x &&& 0xFFFF).toNat = x.toNat % 65536 := by
  rw [BitVec.toNat_and]
  exact Nat.and_two_pow_sub_one_eq_mod x.toNat 16

theorem lowHalf_of_lt {x : Word} (h : x.toNat < 65536) : x &&& 0xFFFF = x := by
  apply BitVec.eq_of_toNat_eq
  rw [lowHalf_toNat, Nat.mod_eq_of_lt h]

theorem lowHalf_eq_iff {x y : Word} :
    x &&& 0xFFFF = y &&& 0xFFFF ↔ x.toNat % 65536 = y.toNat % 65536 := by
  rw [← BitVec.toNat_inj, lowHalf_toNat, lowHalf_toNat]

theorem halves_toNat (high low : Word) :
    ((high <<< 16) ||| (low &&& 0xFFFF)).toNat =
      high.toNat % 65536 * 65536 + low.toNat % 65536 := by
  have hlow : low.toNat % 65536 < 2 ^ 16 := Nat.mod_lt _ (by decide)
  have hor := Nat.two_pow_add_eq_or_of_lt hlow (high.toNat % 65536)
  have hshift : high.toNat <<< 16 % 2 ^ 32 = 2 ^ 16 * (high.toNat % 65536) := by
    rw [Nat.shiftLeft_eq]
    omega
  rw [BitVec.toNat_or, BitVec.toNat_shiftLeft, lowHalf_toNat, hshift, ← hor]
  omega

/-- A word put together from two halves determines both. -/
theorem halves_eq_iff {a b x y : Word} :
    ((a <<< 16) ||| (x &&& 0xFFFF) : Word) = ((b <<< 16) ||| (y &&& 0xFFFF) : Word) ↔
      a &&& 0xFFFF = b &&& 0xFFFF ∧ x &&& 0xFFFF = y &&& 0xFFFF := by
  rw [← BitVec.toNat_inj, halves_toNat, halves_toNat, lowHalf_eq_iff,
    lowHalf_eq_iff]
  omega

/-- A field below the sign bit is the same in both right shifts. -/
theorem sshiftRight_field (x mask : Word) {n w : ℕ} (h : n + w ≤ 32) :
    (x.sshiftRight n &&& mask).setWidth w = (x >>> n &&& mask).setWidth w := by
  rw [BitVec.setWidth_and, BitVec.setWidth_and]
  congr 1
  ext i hi
  simp only [BitVec.getElem_setWidth, BitVec.getLsbD_sshiftRight,
    BitVec.getLsbD_ushiftRight]
  have hlow : ¬32 ≤ i := by omega
  have hin : n + i < 32 := by omega
  simp [hlow, hin]

end SuperscalarProcessor.Llsim
