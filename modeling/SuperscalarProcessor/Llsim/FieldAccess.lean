import SuperscalarProcessor.Llsim.Memory

/-!
# Field access to a memory (`llsim.c`)

`llsim_mem_inject` reads, changes and writes back the eight bytes from the one
in which the field starts. The new field is built in 32 bits and sign-extended:
a field that starts in the lowest byte and ends at bit 31 sets all bits of the
next entry when its own top bit is set.
-/

namespace SuperscalarProcessor.Llsim

open Foundation

/-! ## The eight bytes -/

/-- The three entries with the eight bytes at `bytePos` replaced. -/
def storeWindow (data : Mem) (addr bytePos : ℕ) (val : I64) : BitVec 96 :=
  let hole : BitVec 96 := (BitVec.allOnes 64).setWidth 96 <<< (8 * bytePos)
  (entries data addr &&& ~~~hole) ||| (val.setWidth 96 <<< (8 * bytePos))

theorem storeI64_eq (data : Mem) (addr bytePos : ℕ) (val : I64) :
    storeI64 data addr bytePos val =
      Function.update
        (Function.update
          (Function.update data addr
            ((storeWindow data addr bytePos val).setWidth 32))
          (addr + 1) ((storeWindow data addr bytePos val >>> 32).setWidth 32))
        (addr + 2) ((storeWindow data addr bytePos val >>> 64).setWidth 32) := rfl

/-- Bit `p` of the three entries. -/
theorem getLsbD_entries (data : Mem) (addr : ℕ) {k i : ℕ} (hk : k < 3) (hi : i < 32) :
    (entries data addr).getLsbD (32 * k + i) = (data (addr + k)).getLsbD i := by
  rw [entries, BitVec.getLsbD_append, BitVec.getLsbD_append]
  have hcases : k = 0 ∨ k = 1 ∨ k = 2 := by omega
  rcases hcases with rfl | rfl | rfl
  · simp [hi]
  · have hlow : 32 * 1 + i - 32 = i := by omega
    rw [if_neg (by omega), hlow, if_pos hi]
  · have hlow : 32 * 2 + i - 32 - 32 = i := by omega
    rw [if_neg (by omega), if_neg (by omega), hlow]

theorem getLsbD_storeWindow (data : Mem) (addr : ℕ) {bytePos p : ℕ} (val : I64)
    (hp : p < 96) : (storeWindow data addr bytePos val).getLsbD p =
      if 8 * bytePos ≤ p ∧ p < 8 * bytePos + 64 then val.getLsbD (p - 8 * bytePos)
      else (entries data addr).getLsbD p := by
  have hhole : ((BitVec.allOnes 64).setWidth 96 <<< (8 * bytePos)).getLsbD p =
      decide (8 * bytePos ≤ p ∧ p < 8 * bytePos + 64) := by
    rw [BitVec.getLsbD_shiftLeft, BitVec.getLsbD_setWidth, BitVec.getLsbD_allOnes]
    grind
  have hval : (val.setWidth 96 <<< (8 * bytePos)).getLsbD p =
      (decide (8 * bytePos ≤ p ∧ p < 8 * bytePos + 64) &&
        val.getLsbD (p - 8 * bytePos)) := by
    rw [BitVec.getLsbD_shiftLeft, BitVec.getLsbD_setWidth]
    grind
  rw [storeWindow, BitVec.getLsbD_or, BitVec.getLsbD_and, BitVec.getLsbD_not,
    hhole, hval]
  split_ifs with hin
  · simp [hin]
  · simp [hin, hp]

/-- The entries after a store, bit by bit. -/
theorem getLsbD_storeI64 (data : Mem) (addr : ℕ) {bytePos k i : ℕ} (val : I64)
    (hk : k < 3) (hi : i < 32) :
    (storeI64 data addr bytePos val (addr + k)).getLsbD i =
      if 8 * bytePos ≤ 32 * k + i ∧ 32 * k + i < 8 * bytePos + 64 then
        val.getLsbD (32 * k + i - 8 * bytePos)
      else (data (addr + k)).getLsbD i := by
  have hshift : storeI64 data addr bytePos val (addr + k) =
      (storeWindow data addr bytePos val >>> (32 * k)).setWidth 32 := by
    have hcases : k = 0 ∨ k = 1 ∨ k = 2 := by omega
    rw [storeI64_eq]
    rcases hcases with rfl | rfl | rfl <;> simp
  rw [hshift, BitVec.getLsbD_setWidth, BitVec.getLsbD_ushiftRight,
    getLsbD_storeWindow data addr val (by omega), getLsbD_entries data addr hk hi]
  simp [hi]

theorem storeI64_outside (data : Mem) (addr bytePos : ℕ) (val : I64) {j : ℕ}
    (hj : j < addr ∨ addr + 2 < j) : storeI64 data addr bytePos val j = data j := by
  rw [storeI64_eq, Function.update_of_ne (by omega), Function.update_of_ne (by omega),
    Function.update_of_ne (by omega)]

theorem getLsbD_loadI64 (data : Mem) (addr bytePos i : ℕ) (hi : i < 64) :
    (loadI64 data addr bytePos).getLsbD i =
      (entries data addr).getLsbD (8 * bytePos + i) := by
  rw [loadI64, BitVec.getLsbD_setWidth, BitVec.getLsbD_ushiftRight]
  simp [hi]

/-! ## The field in them -/

/-- The sign extension of the new field reaches the upper half. -/
theorem getLsbD_lrbs (val : I64) (data : Word) {msb lsb i : ℕ} (hfield : lsb ≤ msb)
    (hmsb : msb ≤ 31) (hi : i < 64) :
    (lrbs val data msb lsb).getLsbD i =
      if lsb ≤ i ∧ i ≤ msb then data.getLsbD (i - lsb)
      else val.getLsbD i || (decide (32 ≤ i ∧ msb = 31) && data.getLsbD (31 - lsb)) := by
  have hmask : (lbitmask msb lsb).getLsbD i = decide (lsb ≤ i ∧ i ≤ msb) := by
    rw [lbitmask, lbitmask0_eq, BitVec.getLsbD_shiftLeft, getLsbD_lowMask]
    grind
  have hfieldBit : ∀ j, j < 32 →
      ((data <<< lsb) &&& bitmask msb lsb).getLsbD j =
        (decide (lsb ≤ j ∧ j ≤ msb) && data.getLsbD (j - lsb)) := by
    intro j hj
    rw [bitmask, bitmask0_eq, BitVec.getLsbD_and, BitVec.getLsbD_shiftLeft,
      BitVec.getLsbD_shiftLeft, getLsbD_lowMask]
    grind
  rw [lrbs, BitVec.getLsbD_or, BitVec.getLsbD_and, BitVec.getLsbD_not, hmask,
    BitVec.getLsbD_signExtend, BitVec.msb_eq_getLsbD_last]
  by_cases hlow : i < 32
  · have hspill : ¬(32 ≤ i ∧ msb = 31) := by omega
    rw [if_pos hlow, hfieldBit i hlow]
    split_ifs with hin
    · simp [hin, hi]
    · simp [hin, hi, hspill]
  · have hout : ¬(lsb ≤ i ∧ i ≤ msb) := by omega
    have htop : (lsb ≤ 31 ∧ 31 ≤ msb) ↔ (32 ≤ i ∧ msb = 31) := by omega
    rw [if_neg hlow, hfieldBit (32 - 1) (by decide), if_neg hout]
    simp [hout, hi, htop]

/-- The new field has its top bit in bit 31 of the word it is built in. -/
def Spills (val : Word) (msb lsb : ℕ) : Prop :=
  msb = 31 ∧ lsb < 8 ∧ val.getLsbD (31 - lsb) = true

instance (val : Word) (msb lsb : ℕ) : Decidable (Spills val msb lsb) := by
  unfold Spills
  infer_instance

theorem getLsbD_genericInjectBits (data : Mem) (addr : ℕ) (val : Word)
    {msb lsb k i : ℕ} (hfield : lsb ≤ msb) (hmsb : msb ≤ 31) (hk : k < 3)
    (hi : i < 32) :
    (genericInjectBits data addr val msb lsb (addr + k)).getLsbD i =
      if lsb ≤ 32 * k + i ∧ 32 * k + i ≤ msb then val.getLsbD (32 * k + i - lsb)
      else (data (addr + k)).getLsbD i || decide (k = 1 ∧ Spills val msb lsb) := by
  have hbyte : 8 * (lsb / 8) ≤ lsb ∧ lsb < 8 * (lsb / 8) + 8 := by omega
  rw [genericInjectBits, getLsbD_storeI64 data addr _ hk hi]
  split_ifs with hwindow hin hin
  · rw [getLsbD_lrbs _ _ (by omega) (by omega) (by omega), if_pos (by omega)]
    congr 1
    omega
  · rw [getLsbD_lrbs _ _ (by omega) (by omega) (by omega), if_neg (by omega),
      getLsbD_loadI64 _ _ _ _ (by omega), Nat.add_sub_cancel' hwindow.1,
      getLsbD_entries data addr hk hi]
    congr 1
    -- only a field in the lowest byte can end at bit 31 of the eight bytes
    by_cases hlow : msb = 31 ∧ lsb < 8
    · have hzero : lsb / 8 = 0 := by omega
      have hnext : 32 ≤ 32 * k + i ↔ k = 1 := by omega
      simp [Spills, hlow, hzero, hnext]
    · have hno : ¬(32 ≤ 32 * k + i - 8 * (lsb / 8) ∧ msb - lsb / 8 * 8 = 31) := by
        omega
      have hspill : ¬Spills val msb lsb := fun h => hlow ⟨h.1, h.2.1⟩
      simp [hno, hspill]
  · omega
  · have hspill : ¬(k = 1 ∧ Spills val msb lsb) := by
      rintro ⟨rfl, -, hlow, -⟩
      omega
    simp [hspill]

/-- **What `generic_inject_bits` does.** It writes the field of its entry, and
fills the next entry with ones when the field spills. -/
theorem genericInjectBits_eq (data : Mem) (addr : ℕ) (val : Word) {msb lsb : ℕ}
    (hfield : lsb ≤ msb) (hmsb : msb ≤ 31) :
    genericInjectBits data addr val msb lsb =
      Function.update
        (Function.update data addr (rbs (data addr) val msb lsb)) (addr + 1)
        (if Spills val msb lsb then BitVec.allOnes 32 else data (addr + 1)) := by
  funext j
  by_cases hj : j < addr ∨ addr + 2 < j
  · rw [genericInjectBits, storeI64_outside _ _ _ _ hj,
      Function.update_of_ne (by omega), Function.update_of_ne (by omega)]
  · obtain ⟨k, hk, rfl⟩ : ∃ k, k < 3 ∧ j = addr + k := ⟨j - addr, by omega, by omega⟩
    apply BitVec.eq_of_getLsbD_eq
    intro i hi
    rw [getLsbD_genericInjectBits data addr val hfield hmsb hk hi]
    have hcases : k = 0 ∨ k = 1 ∨ k = 2 := by omega
    rcases hcases with rfl | rfl | rfl
    · have hin : lsb ≤ i ∧ i < lsb + (msb - lsb + 1) ↔ lsb ≤ i ∧ i ≤ msb := by omega
      rw [Function.update_of_ne (by omega), Nat.add_zero, Function.update_self, rbs_eq,
        getLsbD_writeField _ _ _ _ hi]
      simp [hin]
    · have hout : ¬(lsb ≤ 32 * 1 + i ∧ 32 * 1 + i ≤ msb) := by omega
      rw [if_neg hout, Function.update_self]
      split_ifs with hspill
      · rw [BitVec.getLsbD_allOnes]
        simp [hspill, hi]
      · simp [hspill]
    · have hout : ¬(lsb ≤ 32 * 2 + i ∧ 32 * 2 + i ≤ msb) := by omega
      rw [if_neg hout, Function.update_of_ne (by omega), Function.update_of_ne (by omega)]
      simp

/-- `generic_extract_bits` reads the field of its entry. -/
theorem genericExtractBits_eq (data : Mem) (addr : ℕ) {msb lsb : ℕ}
    (hfield : lsb ≤ msb) (hmsb : msb ≤ 31) :
    genericExtractBits data addr msb lsb = sbs (data addr) msb lsb := by
  apply BitVec.eq_of_getLsbD_eq
  intro i hi
  have hlen : msb - lsb / 8 * 8 - (lsb - lsb / 8 * 8) + 1 = msb - lsb + 1 := by omega
  rw [genericExtractBits, BitVec.getLsbD_setWidth, lsbs_eq, sbs_eq,
    getLsbD_readField (by omega), getLsbD_readField (by omega), hlen]
  by_cases hlow : i < msb - lsb + 1
  · have hentry := getLsbD_entries data addr (k := 0) (i := lsb + i) (by decide) (by omega)
    have hbit : 8 * (lsb / 8) + (lsb - lsb / 8 * 8 + i) = 32 * 0 + (lsb + i) := by omega
    rw [getLsbD_loadI64 _ _ _ _ (by omega), hbit, hentry]
    simp [hi]
  · simp [hlow]

/-! ## Updating a field of a memory -/

/-- The eight bytes lie in the array, which has one entry more than the memory. -/
def AccessInArray (addr : Word) (lsb : ℕ) : Prop :=
  4 * addr.toNat + lsb / 8 + 8 ≤ 4 * (spSramHeight + 1)

/-- The update stays inside the array, the field reads back as the value, and
nothing else in the memory changes. -/
structure FieldUpdate (memory : Memory) (addr val : Word) (msb lsb : Fin 32) :
    Prop where
  inArray : AccessInArray addr lsb
  readsBack :
    (llsimMemExtract (llsimMemInject memory addr val msb lsb) addr msb lsb).toNat =
      val.toNat % 2 ^ ((msb : ℕ) - lsb + 1)
  otherBits : ∀ i, i < 32 → ¬((lsb : ℕ) ≤ i ∧ i ≤ msb) →
    ((llsimMemInject memory addr val msb lsb).data addr.toNat).getLsbD i =
      (memory.data addr.toNat).getLsbD i
  otherEntries : ∀ j, j < spSramHeight → j ≠ addr.toNat →
    (llsimMemInject memory addr val msb lsb).data j = memory.data j

theorem accessInArray_iff {addr : Word} {lsb : ℕ} (h : InRange addr) (hlsb : lsb < 32) :
    AccessInArray addr lsb ↔ addr.toNat + 1 < spSramHeight ∨ lsb < 8 := by
  have haddr := inRange_iff.mp h
  unfold AccessInArray spSramHeight
  omega

theorem llsimMemInject_data (memory : Memory) (addr val : Word) {msb lsb : Fin 32}
    (hfield : lsb ≤ msb) :
    (llsimMemInject memory addr val msb lsb).data =
      Function.update
        (Function.update memory.data addr.toNat
          (rbs (memory.data addr.toNat) val msb lsb)) (addr.toNat + 1)
        (if Spills val msb lsb then BitVec.allOnes 32
          else memory.data (addr.toNat + 1)) :=
  genericInjectBits_eq _ _ _ hfield (Nat.le_of_lt_succ msb.isLt)

theorem llsimMemInject_self (memory : Memory) (addr val : Word) {msb lsb : Fin 32}
    (hfield : lsb ≤ msb) :
    (llsimMemInject memory addr val msb lsb).data addr.toNat =
      rbs (memory.data addr.toNat) val msb lsb := by
  rw [llsimMemInject_data _ _ _ hfield, Function.update_of_ne (by omega), Function.update_self]

theorem llsimMemInject_next (memory : Memory) (addr val : Word) {msb lsb : Fin 32}
    (hfield : lsb ≤ msb) :
    (llsimMemInject memory addr val msb lsb).data (addr.toNat + 1) =
      if Spills val msb lsb then BitVec.allOnes 32 else memory.data (addr.toNat + 1) := by
  rw [llsimMemInject_data _ _ _ hfield, Function.update_self]

theorem llsimMemInject_other (memory : Memory) (addr val : Word) {msb lsb : Fin 32}
    (hfield : lsb ≤ msb) {j : ℕ} (hself : j ≠ addr.toNat) (hnext : j ≠ addr.toNat + 1) :
    (llsimMemInject memory addr val msb lsb).data j = memory.data j := by
  rw [llsimMemInject_data _ _ _ hfield, Function.update_of_ne hnext, Function.update_of_ne hself]

theorem llsimMemExtract_eq (memory : Memory) (addr : Word) {msb lsb : Fin 32}
    (hfield : lsb ≤ msb) :
    llsimMemExtract memory addr msb lsb = sbs (memory.data addr.toNat) msb lsb :=
  genericExtractBits_eq _ _ hfield (Nat.le_of_lt_succ msb.isLt)

/-- A field reads back modulo its width. -/
theorem llsimMemExtract_inject (memory : Memory) (addr val : Word) {msb lsb : Fin 32}
    (hfield : lsb ≤ msb) :
    (llsimMemExtract (llsimMemInject memory addr val msb lsb) addr msb lsb).toNat =
      val.toNat % 2 ^ ((msb : ℕ) - lsb + 1) := by
  have hle : (lsb : ℕ) ≤ msb := hfield
  have hmsb := msb.isLt
  rw [llsimMemExtract_eq _ _ hfield, llsimMemInject_self _ _ _ hfield, rbs_eq, sbs_eq,
    readField_writeField _ _ (by omega), toNat_and_lowMask]

/-- **When a field update is one.** For every memory, address in range, value and
field: if and only if the eight bytes stay inside the array and a field that
spills finds ones in the next entry, or no next entry. -/
theorem fieldUpdate_iff (memory : Memory) {addr : Word} (val : Word)
    {msb lsb : Fin 32} (haddr : InRange addr) (hfield : lsb ≤ msb) :
    FieldUpdate memory addr val msb lsb ↔
      (addr.toNat + 1 < spSramHeight ∨ (lsb : ℕ) < 8) ∧
        (Spills val msb lsb → addr.toNat + 1 < spSramHeight →
          memory.data (addr.toNat + 1) = BitVec.allOnes 32) := by
  constructor
  · intro h
    refine ⟨(accessInArray_iff haddr lsb.isLt).mp h.inArray, ?_⟩
    intro hspill hin
    have hnext := h.otherEntries (addr.toNat + 1) hin (by omega)
    rw [llsimMemInject_next _ _ _ hfield, if_pos hspill] at hnext
    exact hnext.symm
  · rintro ⟨harray, hones⟩
    refine ⟨(accessInArray_iff haddr lsb.isLt).mpr harray,
      llsimMemExtract_inject memory addr val hfield, ?_, ?_⟩
    · intro i hi hout
      have hle : (lsb : ℕ) ≤ msb := hfield
      rw [llsimMemInject_self _ _ _ hfield, rbs_eq,
        getLsbD_writeField_outside _ _ hi (by omega)]
    · intro j hj hself
      by_cases hnext : j = addr.toNat + 1
      · subst hnext
        rw [llsimMemInject_next _ _ _ hfield]
        split_ifs with hspill
        · exact (hones hspill hj).symm
        · rfl
      · exact llsimMemInject_other _ _ _ hfield hself hnext

/-- Five bits in the middle of entry 5 of a cleared memory. -/
theorem fieldUpdate_iff_middle :
    FieldUpdate (llsimAllocateMemory .sramd fun _ => 0) 5 7 12 8 ↔
      ((5 : Word).toNat + 1 < spSramHeight ∨ ((8 : Fin 32) : ℕ) < 8) ∧
        (Spills 7 (12 : Fin 32) (8 : Fin 32) → (5 : Word).toNat + 1 < spSramHeight →
          (0 : Word) = BitVec.allOnes 32) :=
  fieldUpdate_iff _ 7 (by decide) (by decide)

/-- A whole word with bit 31 set overwrites the entry behind it. -/
theorem inject_spills :
    ¬∀ (memory : Memory) (addr val : Word) (msb lsb : Fin 32), InRange addr →
      lsb ≤ msb → FieldUpdate memory addr val msb lsb := by
  intro h
  have hnext := (h (llsimAllocateMemory .sramd fun _ => 0) 0 0x80000000 31 0
    (by decide) (by decide)).otherEntries 1 (by decide) (by decide)
  exact absurd hnext (by decide)

end SuperscalarProcessor.Llsim
