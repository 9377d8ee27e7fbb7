import SuperscalarProcessor.Pipeline.Footprint
import SuperscalarProcessor.Programs.Addition
import SuperscalarProcessor.Programs.Followed

/-!
# The addition image (`lab2/add.bin`)

The later addition program keeps the signs in memory. Behind the difference of two
magnitudes it jumps one instruction short of the end and adds the first magnitude
to the result. On the pipeline it does not get to its operands: every address that
it sets up is read one write too early.
-/

namespace SuperscalarProcessor.Programs

open Llsim Foundation Iss

open MultiCycle (Followed)

open Pipeline (SameReads StoresTo bypassPath bypassTrace bypassClock)

/-- The words of the program. -/
def additionWords : List Word :=
  [0x0F418000, 0x01690000, 0x0F880000, 0x01B103E8, 0x10860000, 0x0F880000,
    0x01B103E9, 0x10C60000, 0x09950000, 0x010803EB, 0x12340000, 0x099D0000,
    0x010803EC, 0x12340000, 0x09950000, 0x091D0000, 0x03340000, 0x24200024,
    0x09150000, 0x24200015, 0x02950000, 0x091D0000, 0x24200018, 0x02DD0000,
    0x03130000, 0x2013001F, 0x03130000, 0x018803EB, 0x11860000, 0x01260000,
    0x24000026, 0x031A0000, 0x018803EC, 0x11860000, 0x01260000, 0x24000026,
    0x01130000, 0x08950000, 0x01220000, 0x0F880000, 0x01B103EA, 0x12260000,
    0x30000000]

/-- The image with any data behind the program; the operands are at 1000 and 1001. -/
def additionImage (data : Mem) : Mem := withData additionWords data

/-- The program as it is decoded. -/
def additionCode : List Fields :=
  [instr .LHI 5 0 1 0xFFFF8000,
   instr .ADD 5 5 1 0,
   instr .LHI 6 1 0 0,
   instr .ADD 6 6 1 1000,
   instr .LD 2 0 6 0,
   instr .LHI 6 1 0 0,
   instr .ADD 6 6 1 1001,
   instr .LD 3 0 6 0,
   -- the signs go to 1003 and 1004
   instr .AND 6 2 5 0,
   instr .ADD 4 1 0 1003,
   instr .ST 0 6 4 0,
   instr .AND 6 3 5 0,
   instr .ADD 4 1 0 1004,
   instr .ST 0 6 4 0,
   instr .AND 6 2 5 0,
   instr .AND 4 3 5 0,
   instr .SUB 4 6 4 0,
   instr .JEQ 0 4 0 36,
   -- the signs differ: 18
   instr .AND 4 2 5 0,
   instr .JEQ 0 4 0 21,
   instr .SUB 2 2 5 0,
   instr .AND 4 3 5 0,
   instr .JEQ 0 4 0 24,
   instr .SUB 3 3 5 0,
   instr .SUB 4 2 3 0,
   instr .JLT 0 2 3 31,
   instr .SUB 4 2 3 0,
   instr .ADD 6 1 0 1003,
   instr .LD 6 0 6 0,
   instr .ADD 4 4 6 0,
   instr .JEQ 0 0 0 38,
   instr .SUB 4 3 2 0,
   instr .ADD 6 1 0 1004,
   instr .LD 6 0 6 0,
   instr .ADD 4 4 6 0,
   instr .JEQ 0 0 0 38,
   -- the signs are equal: 36
   instr .ADD 4 2 3 0,
   instr .AND 2 2 5 0,
   -- both cases: 38
   instr .ADD 4 4 2 0,
   instr .LHI 6 1 0 0,
   instr .ADD 6 6 1 1002,
   instr .ST 0 4 6 0,
   instr .HLT 0 0 0 0]

theorem additionImage_standing (data : Mem) :
    Standing additionCode (additionImage data) where
  installed := withData_installed (by decide +kernel) (by decide) data
  room := by decide
  plain := by decide

/-- The word that the program stores. -/
def additionWord (a b : Word) : Word :=
  if a &&& signBit = b &&& signBit then a + b + (a &&& signBit)
  else difference a b + magnitudeWord a

/-- The memory with both signs stored. -/
def signsStored (data : Mem) : Mem :=
  Function.update (Function.update (additionImage data) 1003 (data 1000 &&& signBit)) 1004
    (data 1001 &&& signBit)

/-- The memory that it leaves. -/
def additionOutput (data : Mem) : Mem :=
  Function.update (signsStored data) 1002 (additionWord (data 1000) (data 1001))

theorem signsStored_standing (data : Mem) : Standing additionCode (signsStored data) :=
  ((additionImage_standing data).store (by decide) _).store (by decide) _

/-! ## Segments of the program -/

section Segments

variable (data : Mem)

/-- Both operands, the sign bit and the comparison of the signs are in registers. -/
structure SignsCompared (data : Mem) (reg : RegFile) : Prop where
  r2 : reg 2 = data 1000
  r3 : reg 3 = data 1001
  r4 : reg 4 = (data 1000 &&& signBit) - (data 1001 &&& signBit)
  r5 : reg 5 = signBit

theorem reaches_signsCompared : ∃ reg, SignsCompared data reg ∧
    Segment Iss.step Followed 17 (init (additionImage data))
      (live (signsStored data) reg 17) := by
  have code := additionImage_standing data
  have code₁ := code.store (show additionCode.length ≤ 1003 by decide)
    (data 1000 &&& signBit)
  have code₂ := signsStored_standing data
  have hfst : additionImage data 1000 = data 1000 := withData_of_le data (by decide)
  have hsnd : additionImage data 1001 = data 1001 := withData_of_le data (by decide)
  refine ⟨?reg, ?signs, ?run⟩
  case run =>
    refine code.cons_lhi 0 signBit rfl rfl ⟨rfl, rfl⟩ rfl ?_
    refine code.cons_result 1 signBit rfl rfl (by rfl) ?_
    refine code.cons_lhi 2 0 rfl rfl ⟨rfl, rfl⟩ rfl ?_
    refine code.cons_result 3 1000 rfl rfl (by rfl) ?_
    refine code.cons_load 4 1000 rfl rfl (by rfl) (by decide) ?_
    rw [hfst]
    refine code.cons_lhi 5 0 rfl rfl ?_ rfl ?_
    · show (0 : Word) &&& 0xFFFF = 0 ∧ (0 : Word) &&& 0xFFFF = 0 &&& 0xFFFF
      decide
    refine code.cons_result 6 1001 rfl rfl (by rfl) ?_
    refine code.cons_load 7 1001 rfl rfl (by rfl) (by decide) ?_
    rw [hsnd]
    refine code.cons_result 8 (data 1000 &&& signBit) rfl rfl (by rfl) ?_
    refine code.cons_result 9 1003 rfl rfl (by rfl) ?_
    refine code.cons_store 10 1003 rfl rfl (by rfl) (by decide) ?_
    refine code₁.cons_result 11 (data 1001 &&& signBit) rfl rfl (by rfl) ?_
    refine code₁.cons_result 12 1004 rfl rfl (by rfl) ?_
    refine code₁.cons_store 13 1004 rfl rfl (by rfl) (by decide) ?_
    refine code₂.cons_result 14 (data 1000 &&& signBit) rfl rfl (by rfl) ?_
    refine code₂.cons_result 15 (data 1001 &&& signBit) rfl rfl (by rfl) ?_
    refine code₂.cons_result 16 ((data 1000 &&& signBit) - (data 1001 &&& signBit)) rfl rfl
      (by rfl) ?_
    exact .refl _
  case signs => exact ⟨rfl, rfl, rfl, rfl⟩

/-- Register `s` loses its sign; r4 and r7 are written on the way. -/
theorem reaches_magnitudeWord {mem : Mem} {reg : RegFile}
    (code : Standing additionCode mem) (i : ℕ) {s : BitVec 3} {skip : Word}
    (hs : 2#3 ≤ s) (hfour : s ≠ 4) (hseven : s ≠ 7)
    (hsign : additionCode[i]? = some (instr .AND 4 s 5 0))
    (hjump : additionCode[i + 1]? = some (instr .JEQ 0 4 0 skip))
    (hsub : additionCode[i + 2]? = some (instr .SUB s s 5 0))
    (hskip : skip &&& 0xFFFF = BitVec.ofNat 32 (i + 3)) (h5 : reg 5 = signBit) :
    ∃ n reg', Segment Iss.step Followed n (live mem reg i) (live mem reg' (i + 3)) ∧
      reg' s = magnitudeWord (reg s) ∧
      ∀ t, t ≠ s → t ≠ 4 → t ≠ 7 → reg' t = reg t := by
  have hval : ∀ regs : RegFile, operand regs 0 s = regs s :=
    fun _ => operand_of_two_le hs
  have hand : result .AND (operand reg 0 s) (operand reg 0 5) =
      .ok (reg s &&& signBit) := by
    rw [hval, ← h5]
    rfl
  rw [magnitudeWord_eq]
  cases hneg : (reg s).msb with
  | false =>
      have hzero : reg s &&& signBit = 0 := (sign_eq_zero_iff _).mpr hneg
      rw [hzero] at hand
      refine ⟨2, ?reg, ?run, ?value, ?others⟩
      case run =>
        refine code.cons_result i 0 hsign rfl hand ?_
        refine code.cons_jump (i + 1) (i + 3) hjump rfl hskip ?_
        exact .refl _
      case value =>
        show Function.update (Function.update reg 4 0) 7 _ s = reg s
        rw [Function.update_of_ne hseven, Function.update_of_ne hfour]
      case others =>
        intro t _ h4 h7
        show Function.update (Function.update reg 4 0) 7 _ t = reg t
        rw [Function.update_of_ne h7, Function.update_of_ne h4]
  | true =>
      have hone : reg s &&& signBit = signBit := by rw [sign_eq, hneg, if_pos rfl]
      have hleft : Function.update reg 4 signBit s = reg s :=
        Function.update_of_ne hfour _ _
      have hfive : Function.update reg 4 signBit 5 = signBit := h5
      rw [hone] at hand
      refine ⟨3, ?reg', ?run', ?value', ?others'⟩
      case run' =>
        refine code.cons_result i signBit hsign rfl hand ?_
        refine code.cons_jump (i + 1) (i + 3) hjump rfl hskip ?_
        refine code.cons_result (i + 2) (reg s - signBit) hsub rfl ?_ ?_
        · show Except.ok (operand _ 0 s - Function.update reg 4 signBit 5) = _
          rw [hval, hfive]
          exact congrArg (fun w => Except.ok (w - signBit)) hleft
        exact .refl _
      case value' => exact Function.update_self _ _ _
      case others' =>
        intro t ht h4 _
        show Function.update (Function.update reg 4 signBit) s _ t = reg t
        rw [Function.update_of_ne ht, Function.update_of_ne h4]

/-- The difference of two registers gets the sign at `addr`. -/
theorem reaches_signed {mem : Mem} {reg : RegFile} (code : Standing additionCode mem)
    (i addr : ℕ) {x y : BitVec 3} (hx : 2#3 ≤ x) (hy : 2#3 ≤ y) (hlt : addr < 65536)
    (hsub : additionCode[i]? = some (instr .SUB 4 x y 0))
    (hload : additionCode[i + 1]? = some (instr .ADD 6 1 0 (BitVec.ofNat 32 addr)) ∧
      additionCode[i + 2]? = some (instr .LD 6 0 6 0))
    (hadd : additionCode[i + 3]? = some (instr .ADD 4 4 6 0) ∧
      additionCode[i + 4]? = some (instr .JEQ 0 0 0 38)) :
    ∃ reg', Segment Iss.step Followed 5 (live mem reg i) (live mem reg' 38) ∧
      reg' 4 = reg x - reg y + mem addr ∧ reg' 2 = reg 2 := by
  have hdiff : result .SUB (operand reg 0 x) (operand reg 0 y) =
      .ok (reg x - reg y) := by
    rw [operand_of_two_le hx, operand_of_two_le hy]
    rfl
  refine ⟨?reg, ?run, ?value, ?kept⟩
  case run =>
    refine code.cons_result i (reg x - reg y) hsub rfl hdiff ?_
    refine code.cons_result (i + 1) (BitVec.ofNat 32 addr) hload.1 rfl ?_ ?_
    · exact congrArg Except.ok (BitVec.add_zero _)
    refine code.cons_load (i + 2) addr hload.2 rfl (by rfl) hlt ?_
    refine code.cons_result (i + 3) (reg x - reg y + mem addr) hadd.1 rfl (by rfl) ?_
    refine code.cons_jump (i + 4) 38 hadd.2 rfl rfl ?_
    exact .refl _
  case value => rfl
  case kept => rfl

/-- Operands of different signs lose them. -/
theorem reaches_unsigned {reg : RegFile} (h : SignsCompared data reg)
    (hsigns : data 1000 &&& signBit ≠ data 1001 &&& signBit) :
    ∃ n reg', Segment Iss.step Followed n (live (signsStored data) reg 17)
      (live (signsStored data) reg' 24) ∧
      reg' 2 = magnitudeWord (data 1000) ∧ reg' 3 = magnitudeWord (data 1001) := by
  have code := signsStored_standing data
  have hne : (reg 4 == 0) = false := by
    rw [h.r4, beq_eq_false_iff_ne, ne_eq, sub_eq_zero]
    exact hsigns
  have hon : Segment Iss.step Followed 1 (live (signsStored data) reg 17)
      (live (signsStored data) reg 18) := by
    refine code.cons_jump 17 36 rfl rfl rfl ?_
    show Segment _ _ 0 (if (reg 4 == 0) then _ else _) _
    rw [hne]
    exact .refl _
  obtain ⟨n₁, reg₁, hfst, h2, hkept₁⟩ := @reaches_magnitudeWord _ reg code 18 2 _
    (by decide) (by decide) (by decide) rfl rfl rfl rfl h.r5
  obtain ⟨n₂, reg₂, hsnd, h3, hkept₂⟩ := @reaches_magnitudeWord _ reg₁ code 21 3 _
    (by decide) (by decide) (by decide) rfl rfl rfl rfl
    ((hkept₁ 5 (by decide) (by decide) (by decide)).trans h.r5)
  refine ⟨_, reg₂, hon.trans (hfst.trans hsnd), ?_, ?_⟩
  · rw [hkept₂ 2 (by decide) (by decide) (by decide), h2, h.r2]
  · rw [h3, hkept₁ 3 (by decide) (by decide) (by decide), h.r3]

/-- The magnitudes are subtracted; the first one is still in r2 behind the jump. -/
theorem reaches_joined {reg : RegFile} (h2 : reg 2 = magnitudeWord (data 1000))
    (h3 : reg 3 = magnitudeWord (data 1001)) :
    ∃ reg', Segment Iss.step Followed 7 (live (signsStored data) reg 24)
      (live (signsStored data) reg' 38) ∧
      reg' 4 + reg' 2 =
        difference (data 1000) (data 1001) + magnitudeWord (data 1000) := by
  have code := signsStored_standing data
  have hcompare : ∀ {s}, Segment Iss.step Followed 5
        (if (reg 2).slt (reg 3) then
          live (signsStored data) (Function.update
            (Function.update reg 4 (reg 2 - reg 3)) 7 (BitVec.ofNat 32 26)) 31
        else live (signsStored data) (Function.update reg 4 (reg 2 - reg 3)) 26) s →
      Segment Iss.step Followed 7 (live (signsStored data) reg 24) s := by
    intro s hrest
    refine code.cons_result 24 (reg 2 - reg 3) rfl rfl (by rfl) ?_
    exact code.cons_jump 25 31 rfl rfl rfl hrest
  cases hless : (reg 2).slt (reg 3) with
  | true =>
      rw [hless] at hcompare
      obtain ⟨reg', hrun, h4, h2'⟩ := @reaches_signed _ (Function.update
          (Function.update reg 4 (reg 2 - reg 3)) 7 (BitVec.ofNat 32 26)) code 31 1004
        3 2 (by decide) (by decide) (by decide) rfl ⟨rfl, rfl⟩ ⟨rfl, rfl⟩
      refine ⟨reg', hcompare hrun, ?_⟩
      rw [h2, h3] at hless
      rw [h4, h2', difference, if_pos hless, ← h2, ← h3]
      rfl
  | false =>
      rw [hless] at hcompare
      obtain ⟨reg', hrun, h4, h2'⟩ := @reaches_signed _
        (Function.update reg 4 (reg 2 - reg 3)) code 26 1003
        2 3 (by decide) (by decide) (by decide) rfl ⟨rfl, rfl⟩ ⟨rfl, rfl⟩
      refine ⟨reg', hcompare hrun, ?_⟩
      rw [h2, h3, ← Bool.not_eq_true] at hless
      rw [h4, h2', difference, if_neg hless, ← h2, ← h3]
      rfl

theorem joined_of_signs_ne {reg : RegFile} (h : SignsCompared data reg)
    (hsigns : data 1000 &&& signBit ≠ data 1001 &&& signBit) :
    ∃ n reg', Segment Iss.step Followed n (live (signsStored data) reg 17)
      (live (signsStored data) reg' 38) ∧
      reg' 4 + reg' 2 = additionWord (data 1000) (data 1001) := by
  obtain ⟨n, reg₁, hstart, h2, h3⟩ := reaches_unsigned data h hsigns
  obtain ⟨reg', hrun, hword⟩ := reaches_joined data h2 h3
  rw [additionWord, if_neg hsigns]
  exact ⟨_, reg', hstart.trans hrun, hword⟩

/-- Operands of one sign: the words are added, and the sign of the first. -/
theorem joined_of_signs_eq {reg : RegFile} (h : SignsCompared data reg)
    (hsigns : data 1000 &&& signBit = data 1001 &&& signBit) :
    ∃ n reg', Segment Iss.step Followed n (live (signsStored data) reg 17)
      (live (signsStored data) reg' 38) ∧
      reg' 4 + reg' 2 = additionWord (data 1000) (data 1001) := by
  have code := signsStored_standing data
  have heq : (reg 4 == 0) = true := by
    rw [h.r4, beq_iff_eq, sub_eq_zero]
    exact hsigns
  refine ⟨3, ?reg, ?run, ?sum⟩
  case run =>
    refine code.cons_jump 17 36 rfl rfl rfl ?_
    show Segment _ _ _ (if (reg 4 == 0) then _ else _) _
    rw [heq]
    refine code.cons_result 36 (reg 2 + reg 3) rfl rfl (by rfl) ?_
    refine code.cons_result 37 (reg 2 &&& reg 5) rfl rfl (by rfl) ?_
    exact .refl _
  case sum =>
    rw [additionWord, if_pos hsigns, ← h.r2, ← h.r3, ← h.r5]
    rfl

/-- The result is stored. -/
theorem reaches_stored {reg : RegFile}
    (h : reg 4 + reg 2 = additionWord (data 1000) (data 1001)) :
    ∃ reg', Segment Iss.step Followed 4 (live (signsStored data) reg 38)
      (live (additionOutput data) reg' 42) := by
  have code := signsStored_standing data
  refine ⟨?reg, ?run⟩
  case run =>
    refine code.cons_result 38 (reg 4 + reg 2) rfl rfl (by rfl) ?_
    refine code.cons_lhi 39 0 rfl rfl ?_ rfl ?_
    · show (0 : Word) &&& 0xFFFF = 0 ∧ (0 : Word) &&& 0xFFFF = 0 &&& 0xFFFF
      decide
    refine code.cons_result 40 1002 rfl rfl (by rfl) ?_
    refine code.cons_store 41 1002 rfl rfl (by rfl) (by decide) ?_
    rw [additionOutput, ← h]
    exact .refl _

end Segments

/-! ## The answer -/

theorem sign_eq_iff (a b : Word) : a &&& signBit = b &&& signBit ↔ a.msb = b.msb := by
  rw [sign_eq, sign_eq]
  cases a.msb <;> cases b.msb <;> decide

theorem value_eq (w : Word) : value w = if w.toNat < 2 ^ 31 then (w.toNat : ℤ)
    else 2 ^ 31 - w.toNat := by
  split_ifs with h
  · exact value_of_lt h
  · exact value_of_ge (not_lt.mp h)

theorem magnitude_eq (w : Word) : magnitude w = if w.toNat < 2 ^ 31 then w.toNat
    else w.toNat - 2 ^ 31 := by
  have hlt := w.isLt
  unfold magnitude
  split_ifs <;> omega

theorem msb_eq (w : Word) : w.msb = decide (2 ^ 31 ≤ w.toNat) := BitVec.msb_eq_decide w

/-- Words of one sign add up as long as their magnitudes do. -/
theorem value_additionWord_of_eq {a b : Word} (h : a.msb = b.msb) :
    value (additionWord a b) = value a + value b ↔ magnitude a + magnitude b < 2 ^ 31 := by
  have ha := a.isLt
  have hb := b.isLt
  have hsum : (additionWord a b).toNat =
      (a.toNat + b.toNat + if a.msb then 2 ^ 31 else 0) % 2 ^ 32 := by
    rw [additionWord, if_pos ((sign_eq_iff a b).mpr h), sign_eq, BitVec.toNat_add,
      BitVec.toNat_add, Nat.mod_add_mod]
    cases a.msb <;> rfl
  rw [value_eq, value_eq a, value_eq b, magnitude_eq, magnitude_eq, hsum]
  rw [msb_eq, msb_eq, decide_eq_decide] at h
  by_cases hneg : 2 ^ 31 ≤ a.toNat
  · have hneg' := h.mp hneg
    rw [msb_eq, decide_eq_true hneg, if_pos rfl, if_neg (not_lt.mpr hneg),
      if_neg (not_lt.mpr hneg'), if_neg (not_lt.mpr hneg), if_neg (not_lt.mpr hneg')]
    split_ifs <;> omega
  · have hneg' := mt h.mpr hneg
    rw [msb_eq, decide_eq_false hneg, if_neg Bool.false_ne_true, if_pos (not_le.mp hneg),
      if_pos (not_le.mp hneg'), if_pos (not_le.mp hneg), if_pos (not_le.mp hneg')]
    split_ifs <;> omega

theorem sign_toNat (w : Word) : (w &&& signBit).toNat = if w.msb then 2 ^ 31 else 0 := by
  rw [sign_eq]
  cases w.msb <;> rfl

theorem value_eq_zero_iff (w : Word) : value w = 0 ↔ magnitude w = 0 := by
  unfold value
  split_ifs <;> omega

section Different

variable {a b : Word}

/-- The magnitude that has been subtracted is added again. -/
theorem additionWord_of_lt (h : a.msb ≠ b.msb) (hless : magnitude a < magnitude b) :
    additionWord a b = b := by
  have hb := b.isLt
  have hmag : magnitude b + (if b.msb then 2 ^ 31 else 0) = b.toNat := by
    rw [magnitude, msb_eq]
    simp only [decide_eq_true_eq]
    split_ifs <;> omega
  rw [additionWord, if_neg (mt (sign_eq_iff a b).mp h), difference,
    if_pos ((magnitudeWord_slt_iff a b).mpr hless)]
  apply BitVec.eq_of_toNat_eq
  rw [BitVec.toNat_add, BitVec.toNat_add, magnitudeWord_toNat,
    @toNat_magnitude_sub b a (Nat.le_of_lt hless), sign_toNat]
  omega

/-- The first magnitude is added twice; it may run over into the sign. -/
theorem additionWord_toNat_of_le (h : a.msb ≠ b.msb) (hle : magnitude b ≤ magnitude a) :
    (additionWord a b).toNat =
      if a.msb && 2 ^ 31 + magnitude b ≤ 2 * magnitude a then
        2 * magnitude a - magnitude b - 2 ^ 31
      else 2 * magnitude a - magnitude b + if a.msb then 2 ^ 31 else 0 := by
  have ha := magnitude_lt a
  rw [additionWord, if_neg (mt (sign_eq_iff a b).mp h), difference,
    if_neg (mt (magnitudeWord_slt_iff a b).mp (not_lt.mpr hle)), BitVec.toNat_add,
    BitVec.toNat_add, magnitudeWord_toNat, toNat_magnitude_sub hle, sign_toNat]
  cases a.msb with
  | false =>
      simp only [Bool.false_and, Bool.false_eq_true, if_false]
      omega
  | true =>
      simp only [Bool.true_and, decide_eq_true_eq, if_true]
      split_ifs <;> omega

/-- Words of different signs add up only if the first is a zero. -/
theorem value_additionWord_of_ne (h : a.msb ≠ b.msb) :
    value (additionWord a b) = value a + value b ↔ magnitude a = 0 := by
  have ha := magnitude_lt a
  rcases Nat.lt_or_ge (magnitude a) (magnitude b) with hless | hle
  · rw [additionWord_of_lt h hless, ← value_eq_zero_iff]
    exact eq_comm.trans add_eq_right
  · have hsign : b.msb = !a.msb := Bool.eq_not.mpr h.symm
    rw [value_eq, additionWord_toNat_of_le h hle, value, value, hsign]
    cases a.msb with
    | false =>
        simp only [Bool.not_false, Bool.false_and, Bool.false_eq_true, if_true, if_false]
        split_ifs <;> omega
    | true =>
        simp only [Bool.not_true, Bool.true_and, decide_eq_true_eq, Bool.false_eq_true,
          if_true, if_false]
        split_ifs <;> omega

end Different

/-- **The addition program on the simulators it was written for.** The later ISS and the
multi-cycle processor store the signs in 1003 and 1004 and a word in 1002, and change
nothing else. The word has the value of the sum if and only if the signs are equal and
the magnitudes small enough, or the first operand is a zero. -/
theorem addition_sequential (data : Mem) :
    (∃ n, DumpsAfter Iss.step (additionImage data) (n + 1)
        (memoryDump (additionOutput data)) ∧
      MultiCycle.DumpsAt (additionImage data) (6 + 6 * n)
        (memoryDump (additionOutput data))) ∧
    (value (additionOutput data 1002) = value (data 1000) + value (data 1001) ↔
      if (data 1000).msb = (data 1001).msb then
        magnitude (data 1000) + magnitude (data 1001) < 2 ^ 31
      else magnitude (data 1000) = 0) := by
  constructor
  · obtain ⟨reg, hsigns, hstart⟩ := reaches_signsCompared data
    obtain ⟨n, reg', hjoin, hword⟩ : ∃ n reg', Segment Iss.step Followed n
        (live (signsStored data) reg 17) (live (signsStored data) reg' 38) ∧
        reg' 4 + reg' 2 = additionWord (data 1000) (data 1001) := by
      by_cases hsame : data 1000 &&& signBit = data 1001 &&& signBit
      · exact joined_of_signs_eq data hsigns hsame
      · exact joined_of_signs_ne data hsigns hsame
    obtain ⟨reg'', hstore⟩ := reaches_stored data hword
    have code : Standing additionCode (additionOutput data) :=
      (signsStored_standing data).store (by decide) _
    exact ⟨_, code.dumps rfl rfl (hstart.trans (hjoin.trans hstore))⟩
  · rw [additionOutput, Function.update_self]
    split_ifs with hsame
    · exact value_additionWord_of_eq hsame
    · exact value_additionWord_of_ne hsame

/-! ## The pipeline -/

/-- The image with nothing behind the program. -/
def bareImage : Mem := additionImage fun _ => 0

/-- The pipeline never looks behind the program. -/
theorem sameReads_additionImage (data : Mem) :
    SameReads (bypassPath bareImage bareImage 25) bareImage bareImage
      (additionImage data) (additionImage data) := by
  have hprogram : ∀ e ∈ bypassPath bareImage bareImage 25,
      e.pc.toNat < 43 ∧ (e.fields.op = .LD → e.alu1.toNat < 43) := by decide +kernel
  have hword : ∀ i < 43, additionImage data i = bareImage i := by
    intro i hi
    have hlen : i < additionWords.length := hi
    rw [bareImage, additionImage, additionImage, withData, withData,
      List.getElem?_eq_getElem hlen]
    rfl
  constructor
  · exact fun e he => hword _ (hprogram e he).1
  · rintro before e after hpath hop
    have he : e ∈ bypassPath bareImage bareImage 25 := by
      rw [hpath]
      exact List.mem_append_right _ (List.mem_cons_self ..)
    exact Or.inr (hword _ ((hprogram e he).2 hop))

/-- Its run without data: 24 instructions before HLT. -/
theorem bypassRuns_bareImage :
    Pipeline.BypassRuns bareImage bareImage 24 (bypassTrace bareImage bareImage 24) ∧
      (bypassTrace bareImage bareImage 24).halted bareImage = true := by
  have hsteps : ∀ k < 24, (bypassTrace bareImage bareImage k).halted bareImage = false := by
    decide +kernel
  have hfits : ∀ k < 25, (bypassTrace bareImage bareImage k).arch.pc.toNat < 43 ∧
      (((bypassTrace bareImage bareImage k).issue bareImage).accesses = true →
        ((bypassTrace bareImage bareImage k).issue bareImage).alu1.toNat < 1005) ∧
      (((bypassTrace bareImage bareImage k).issue bareImage).fields.op = .LD →
        ((bypassTrace bareImage bareImage k).arch.r
          ((bypassTrace bareImage bareImage k).issue bareImage).fields.src1).toNat <
            1005) := by
    decide +kernel
  refine ⟨⟨Pipeline.bypassState_iff.mpr ⟨hsteps, rfl⟩, ?_⟩, by decide +kernel⟩
  intro k hk
  obtain ⟨hpc, hdata, htraced⟩ := hfits k (Nat.lt_succ_of_le hk)
  refine ⟨Nat.lt_trans (Nat.add_lt_add_right hpc 4) (by decide), ?_, ?_⟩
  · exact fun haccess => inRange_iff.mpr (Nat.lt_trans (hdata haccess) (by decide))
  · exact fun hload => inRange_iff.mpr (Nat.lt_trans (htraced hload) (by decide))

/-- What the program leaves on the pipeline: both signs are read as zero, and the
result goes to address 0. -/
def additionSpoiled (data : Mem) : Mem :=
  Function.update (Function.update (Function.update (additionImage data) 1003 0) 1004 0)
    0 0x1E830000

theorem overlay_additionImage (data : Mem) :
    Pipeline.overlay (bypassPath bareImage bareImage 24)
      (bypassTrace bareImage bareImage 24).arch.mem (additionImage data) =
      additionSpoiled data := by
  have hstores : ((bypassPath bareImage bareImage 24).filter
      fun e => e.fields.op == .ST).map (fun e => e.alu1.toNat) = [1003, 1004, 0] := by
    decide +kernel
  have hwords : (bypassTrace bareImage bareImage 24).arch.mem 1003 = 0 ∧
      (bypassTrace bareImage bareImage 24).arch.mem 1004 = 0 ∧
      (bypassTrace bareImage bareImage 24).arch.mem 0 = 0x1E830000 := by decide +kernel
  funext i
  rw [Pipeline.overlay, additionSpoiled]
  simp only [Pipeline.storesTo_iff, hstores]
  rcases eq_or_ne i 0 with rfl | hzero
  · rw [if_pos (by decide), Function.update_self, hwords.2.2]
  rw [Function.update_of_ne hzero]
  rcases eq_or_ne i 1004 with rfl | hsnd
  · rw [if_pos (by decide), Function.update_self, hwords.2.1]
  rw [Function.update_of_ne hsnd]
  rcases eq_or_ne i 1003 with rfl | hfst
  · rw [if_pos (by decide), Function.update_self, hwords.1]
  rw [Function.update_of_ne hfst, if_neg (by simp [hzero, hsnd, hfst])]

/-- **The addition program on the pipeline.** Whatever the operands are, it stores
nothing in 1002, clears the signs and overwrites its first instruction. -/
theorem addition_pipeline (data : Mem) :
    Pipeline.DumpsAt (additionImage data) (additionImage data) 34
      (memoryDump (additionSpoiled data)) := by
  obtain ⟨hruns, hhalted⟩ := bypassRuns_bareImage
  have hclock : bypassClock bareImage bareImage 24 = 34 := by decide +kernel
  have hdump := hruns.over_dumpsAt hhalted (sameReads_additionImage data)
  rwa [hclock, overlay_additionImage] at hdump

end SuperscalarProcessor.Programs
