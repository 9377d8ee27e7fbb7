import SuperscalarProcessor.Llsim.Memory

/-!
# Signed fields (`llsim.h`)

`ssbs` reads a field as a signed number. It shifts the field down and then tests
the bit of its old top position, which is the sign only where the field starts
at bit 0.
-/

namespace SuperscalarProcessor.Llsim

open Foundation

def sb (val : Word) (bit : ℕ) : Word := val.sshiftRight bit &&& 1

def ssbs (val : Word) (msb lsb : ℕ) : Except Fault Word :=
  let val2 := sbs val msb lsb
  if sb val2 msb ≠ 0 then
    if msb + 1 < 32 then .ok (val2 - ((1 : Word) <<< (msb + 1)))
    else .error (.undefinedShift (BitVec.ofNat 32 (msb + 1)))
  else .ok val2

/-- Writing `d` to the field and reading it back gives `d`, and writing leaves
the bits outside the field alone. -/
structure SignedRoundTrip (val d : Word) (msb lsb : ℕ) : Prop where
  reads : ssbs (rbs val d msb lsb) msb lsb = .ok d
  frame : ∀ i, i < 32 → ¬(lsb ≤ i ∧ i ≤ msb) →
    (rbs val d msb lsb).getLsbD i = val.getLsbD i

theorem sb_ne_zero_iff {val : Word} {bit : ℕ} (h : bit < 32) :
    sb val bit ≠ 0 ↔ val.getLsbD bit = true := by
  have hone : (1 : Word) = lowMask 32 1 := rfl
  have hbit : (sb val bit).getLsbD 0 = val.getLsbD bit := by
    rw [sb, hone, ← readField, getLsbD_readField (by omega)]
    simp
  constructor
  · intro hne
    by_contra hclear
    apply hne
    apply BitVec.eq_of_getLsbD_eq
    intro i _
    rw [sb, hone, ← readField, getLsbD_readField (by omega)]
    rcases Nat.eq_zero_or_pos i with rfl | hi
    · simpa using hclear
    · have hone : ¬i < 1 := by omega
      simp [hone]
  · intro hset hzero
    rw [hzero, hset] at hbit
    cases hbit

/-- What `ssbs` reads back before it looks at the sign. -/
theorem sbs_rbs (val d : Word) {msb lsb : ℕ} (hfield : lsb ≤ msb) (hmsb : msb ≤ 31) :
    sbs (rbs val d msb lsb) msb lsb = d &&& lowMask 32 (msb - lsb + 1) := by
  rw [rbs_eq, sbs_eq, readField_writeField _ _ (by omega)]

theorem rbs_frame (val d : Word) {msb lsb i : ℕ} (hfield : lsb ≤ msb) (hi : i < 32)
    (hout : ¬(lsb ≤ i ∧ i ≤ msb)) :
    (rbs val d msb lsb).getLsbD i = val.getLsbD i := by
  rw [rbs_eq, getLsbD_writeField_outside _ _ hi (by omega)]

/-- Behind a field that starts above bit 0 no sign is found. -/
theorem getLsbD_low_msb (d : Word) {msb lsb : ℕ} (hfield : lsb ≤ msb)
    (hlsb : 0 < lsb) :
    (d &&& lowMask 32 (msb - lsb + 1)).getLsbD msb = false := by
  have hout : ¬msb < msb - lsb + 1 := by omega
  rw [BitVec.getLsbD_and, getLsbD_lowMask]
  simp [hout]

theorem ssbs_rbs {val d : Word} {msb lsb : ℕ} (hfield : lsb ≤ msb)
    (hmsb : msb ≤ 31) :
    ssbs (rbs val d msb lsb) msb lsb =
      if (d &&& lowMask 32 (msb - lsb + 1)).getLsbD msb then
        if msb < 31 then
          .ok ((d &&& lowMask 32 (msb - lsb + 1)) - ((1 : Word) <<< (msb + 1)))
        else .error (.undefinedShift (BitVec.ofNat 32 (msb + 1)))
      else .ok (d &&& lowMask 32 (msb - lsb + 1)) := by
  simp only [ssbs, sbs_rbs val d hfield hmsb, sb_ne_zero_iff (Nat.lt_succ_of_le hmsb),
    Nat.succ_lt_succ_iff]

/-- A value that is not negative has no bit at the top of the field. -/
theorem ssbs_rbs_of_nonneg {val d : Word} {msb lsb : ℕ} (hfield : lsb ≤ msb)
    (hmsb : msb ≤ 31) (hrange : SignedRange (msb - lsb + 1) d)
    (hpos : 0 ≤ d.toInt) : ssbs (rbs val d msb lsb) msb lsb = .ok d := by
  have hlt : d.toNat < 2 ^ (msb - lsb) := hrange.toNat_lt hpos
  have hpow : 2 ^ (msb - lsb) ≤ 2 ^ msb := Nat.pow_le_pow_right (by decide) (by omega)
  have hclear : d.getLsbD msb = false := by
    rw [← BitVec.testBit_toNat]
    exact Nat.testBit_lt_two_pow (by omega)
  rw [ssbs_rbs hfield hmsb, hrange.low_of_nonneg hpos, hclear]
  rfl

/-- In a field from bit 0 up the sign of a negative value is found. -/
theorem ssbs_rbs_of_neg {val d : Word} {msb : ℕ} (hmsb : msb ≤ 31)
    (hrange : SignedRange (msb + 1) d) (hneg : d.toInt < 0) :
    ssbs (rbs val d msb 0) msb 0 =
      if msb < 31 then .ok d
      else .error (.undefinedShift (BitVec.ofNat 32 (msb + 1))) := by
  have hset : (d &&& lowMask 32 (msb + 1)).getLsbD msb = true := by
    have hsign := hrange.sign (Nat.succ_pos _) (by omega)
    rwa [Nat.add_sub_cancel, decide_eq_true hneg] at hsign
  rw [ssbs_rbs (Nat.zero_le _) hmsb, Nat.sub_zero, if_pos hset]
  split_ifs with hlt
  · exact congrArg Except.ok (hrange.low_sub_of_neg (by omega) hneg)
  · rfl

/-- In any other field it is missed. -/
theorem ssbs_rbs_of_neg_high {val d : Word} {msb lsb : ℕ} (hfield : lsb ≤ msb)
    (hmsb : msb ≤ 31) (hrange : SignedRange (msb - lsb + 1) d)
    (hneg : d.toInt < 0) (hlsb : 0 < lsb) :
    ssbs (rbs val d msb lsb) msb lsb ≠ .ok d := by
  rw [ssbs_rbs hfield hmsb, getLsbD_low_msb d hfield hlsb, if_neg Bool.false_ne_true]
  intro heq
  exact hrange.low_ne_of_neg (by omega) hneg (Except.ok.inj heq)

/-- **When a signed field reads back.** For every word, every field and every
value in the field's signed range, the round trip succeeds if and only if the
value is not negative or the field starts at bit 0 and ends below bit 31. -/
theorem signedRoundTrip_iff {val d : Word} {msb lsb : ℕ} (hfield : lsb ≤ msb)
    (hmsb : msb ≤ 31) (hrange : SignedRange (msb - lsb + 1) d) :
    SignedRoundTrip val d msb lsb ↔ 0 ≤ d.toInt ∨ (lsb = 0 ∧ msb < 31) := by
  constructor
  · rintro ⟨hreads, -⟩
    by_cases hpos : 0 ≤ d.toInt
    · exact Or.inl hpos
    right
    have hneg : d.toInt < 0 := not_le.mp hpos
    rcases Nat.eq_zero_or_pos lsb with rfl | hlsb
    · refine ⟨rfl, ?_⟩
      by_contra htop
      rw [ssbs_rbs_of_neg hmsb hrange hneg, if_neg htop] at hreads
      cases hreads
    · exact absurd hreads (ssbs_rbs_of_neg_high hfield hmsb hrange hneg hlsb)
  · intro hcond
    refine ⟨?_, fun i hi hout => rbs_frame val d hfield hi hout⟩
    by_cases hpos : 0 ≤ d.toInt
    · exact ssbs_rbs_of_nonneg hfield hmsb hrange hpos
    · obtain ⟨rfl, hlt⟩ := hcond.resolve_left hpos
      rw [ssbs_rbs_of_neg hmsb hrange (not_le.mp hpos), if_pos hlt]

/-- The condition holds of -1 in the lowest four bits. -/
theorem signedRoundTrip_iff_nibble :
    SignedRoundTrip 0 (-1) 3 0 ↔ 0 ≤ (-1 : Word).toInt ∨ (0 = 0 ∧ 3 < 31) :=
  signedRoundTrip_iff (by decide) (by decide) ⟨by decide, by decide⟩

/-- -1 written to bits 4 to 7 comes back as 15. -/
theorem signed_field_reads_unsigned :
    ¬∀ val d : Word, ∀ msb lsb : ℕ, lsb ≤ msb → msb ≤ 31 →
      SignedRange (msb - lsb + 1) d → SignedRoundTrip val d msb lsb := by
  intro h
  have hreads := (h 0 (-1) 7 4 (by decide) (by decide) ⟨by decide, by decide⟩).reads
  exact absurd hreads (by decide)

end SuperscalarProcessor.Llsim
