import SuperscalarProcessor.Programs.Machine

/-!
# The sign-magnitude addition program (`lab #1/add_asm.c`)

Operands of different signs are subtracted, the smaller magnitude from the
larger one, and operands of one sign are added. Before the sign is set in the
second case the program tests a register that no longer holds it: when the
first magnitude is zero the second one is added twice.
-/

namespace SuperscalarProcessor.Programs

open Llsim Foundation Iss StateTransition

/-- `assemble_program`. -/
def addProgram : StateM Assembler Unit := do
  asmCmd .LHI 5 1 0 0x8000
  asmCmd .ADD 5 5 1 0
  asmCmd .LHI 6 1 0 0
  asmCmd .ADD 6 6 1 1000
  asmCmd .LD 2 0 6 0
  asmCmd .LHI 6 1 0 0
  asmCmd .ADD 6 0 1 1001
  asmCmd .LD 3 0 6 0
  asmCmd .AND 6 2 5 0
  asmCmd .AND 7 3 5 0
  asmCmd .SUB 4 6 7 0
  asmCmd .JEQ 0 4 0 ((← pc) + 19)
  asmCmd .JEQ 0 6 0 ((← pc) + 3)
  asmCmd .SUB 6 2 5 0
  asmCmd .JEQ 0 0 0 ((← pc) + 2)
  asmCmd .ADD 6 2 1 0
  asmCmd .JEQ 0 7 0 ((← pc) + 3)
  asmCmd .SUB 7 3 5 0
  asmCmd .JEQ 0 0 0 ((← pc) + 2)
  asmCmd .ADD 7 3 1 0
  asmCmd .SUB 4 4 0 0
  asmCmd .JLT 0 6 7 ((← pc) + 5)
  asmCmd .SUB 4 6 7 0
  asmCmd .AND 5 2 5 0
  asmCmd .ADD 4 4 5 0
  asmCmd .JEQ 0 0 0 ((← pc) + 17)
  asmCmd .SUB 4 7 6 0
  asmCmd .AND 5 3 5 0
  asmCmd .ADD 4 4 5 0
  asmCmd .JEQ 0 0 0 ((← pc) + 13)
  asmCmd .JEQ 0 6 0 ((← pc) + 3)
  asmCmd .SUB 6 2 5 0
  asmCmd .JEQ 0 0 0 ((← pc) + 2)
  asmCmd .ADD 6 2 1 0
  asmCmd .JEQ 0 7 0 ((← pc) + 3)
  asmCmd .SUB 7 3 5 0
  asmCmd .JEQ 0 0 0 ((← pc) + 2)
  asmCmd .ADD 7 3 1 0
  asmCmd .ADD 4 6 7 0
  asmCmd .JEQ 0 6 0 ((← pc) + 2)
  asmCmd .AND 7 2 5 0
  asmCmd .ADD 4 4 7 0
  asmCmd .LHI 6 0 0 0
  asmCmd .ADD 6 0 1 1002
  asmCmd .ST 0 4 6 0
  asmCmd .HLT 0 0 0 0

/-- The image with `a` and `b` in place of the sample operands. -/
def addImage (a b : Word) : Mem := imageWith addProgram a b

/-- The program as it is decoded, with its jump targets. -/
def addCode : List Fields :=
  [instr .LHI 5 1 0 0xFFFF8000,
   instr .ADD 5 5 1 0,
   instr .LHI 6 1 0 0,
   instr .ADD 6 6 1 1000,
   instr .LD 2 0 6 0,
   instr .LHI 6 1 0 0,
   instr .ADD 6 0 1 1001,
   instr .LD 3 0 6 0,
   instr .AND 6 2 5 0,
   instr .AND 7 3 5 0,
   instr .SUB 4 6 7 0,
   instr .JEQ 0 4 0 0x1E,
   -- the signs differ: 0x0C
   instr .JEQ 0 6 0 0x0F,
   instr .SUB 6 2 5 0,
   instr .JEQ 0 0 0 0x10,
   instr .ADD 6 2 1 0,
   instr .JEQ 0 7 0 0x13,
   instr .SUB 7 3 5 0,
   instr .JEQ 0 0 0 0x14,
   instr .ADD 7 3 1 0,
   instr .SUB 4 4 0 0,
   instr .JLT 0 6 7 0x1A,
   instr .SUB 4 6 7 0,
   instr .AND 5 2 5 0,
   instr .ADD 4 4 5 0,
   instr .JEQ 0 0 0 0x2A,
   instr .SUB 4 7 6 0,
   instr .AND 5 3 5 0,
   instr .ADD 4 4 5 0,
   instr .JEQ 0 0 0 0x2A,
   -- the signs are equal: 0x1E
   instr .JEQ 0 6 0 0x21,
   instr .SUB 6 2 5 0,
   instr .JEQ 0 0 0 0x22,
   instr .ADD 6 2 1 0,
   instr .JEQ 0 7 0 0x25,
   instr .SUB 7 3 5 0,
   instr .JEQ 0 0 0 0x26,
   instr .ADD 7 3 1 0,
   instr .ADD 4 6 7 0,
   instr .JEQ 0 6 0 0x29,
   instr .AND 7 2 5 0,
   instr .ADD 4 4 7 0,
   -- store the result: 0x2A
   instr .LHI 6 0 0 0,
   instr .ADD 6 0 1 1002,
   instr .ST 0 4 6 0,
   instr .HLT 0 0 0 0]

theorem addImage_installed (a b : Word) : Installed addCode (addImage a b) :=
  imageWith_installed (installed_of_decode (by decide) (by decide +kernel)) (by decide) a b

/-! ## Signs and magnitudes -/

def signBit : Word := 0x80000000

/-- The word with its sign cleared. -/
def magnitudeWord (w : Word) : Word := w &&& 0x7FFFFFFF

def magnitude (w : Word) : ℕ := w.toNat % 2 ^ 31

/-- The value of a sign-magnitude word; it has two zeros. -/
def value (w : Word) : ℤ := if w.msb then -(magnitude w : ℤ) else magnitude w

theorem magnitudeWord_toNat (w : Word) : (magnitudeWord w).toNat = magnitude w := by
  rw [magnitudeWord, BitVec.toNat_and]
  exact Nat.and_two_pow_sub_one_eq_mod w.toNat 31

theorem sign_eq (w : Word) : w &&& signBit = if w.msb then signBit else 0 := by
  have hbit : signBit = BitVec.twoPow 32 31 := rfl
  rw [hbit, BitVec.and_twoPow, BitVec.msb_eq_getLsbD_last]
  rfl

theorem sign_eq_zero_iff (w : Word) : w &&& signBit = 0 ↔ w.msb = false := by
  rw [sign_eq]
  cases w.msb <;> decide

/-- A word without a sign is its magnitude, and one with a sign is it after the
sign bit is taken away. -/
theorem magnitudeWord_eq (w : Word) :
    magnitudeWord w = if w.msb then w - signBit else w := by
  have hlt := w.isLt
  have hmsb : w.msb = decide (2 ^ 31 ≤ w.toNat) := BitVec.msb_eq_decide w
  apply BitVec.eq_of_toNat_eq
  rw [magnitudeWord_toNat, magnitude, hmsb]
  by_cases hneg : 2 ^ 31 ≤ w.toNat
  · rw [decide_eq_true hneg, if_pos rfl, BitVec.toNat_sub]
    show _ = (2 ^ 32 - 2 ^ 31 + w.toNat) % 2 ^ 32
    omega
  · rw [decide_eq_false hneg, if_neg Bool.false_ne_true]
    omega

/-! ## The blocks of the program -/

section Blocks

variable {mem : Mem} {reg : RegFile}

/-- A magnitude block: register `d`, which holds the sign of `s`, gets its
magnitude. The program has two for each operand. -/
theorem reaches_magnitude (code : Installed addCode mem) (i : ℕ)
    {d s : BitVec 3} {skip next : Word} (hd : 2#3 ≤ d) (hs : 2#3 ≤ s)
    (hjump : addCode[i]? = some (instr .JEQ 0 d 0 skip))
    (hsub : addCode[i + 1]? = some (instr .SUB d s 5 0))
    (hend : addCode[i + 2]? = some (instr .JEQ 0 0 0 next))
    (hcopy : addCode[i + 3]? = some (instr .ADD d s 1 0))
    (hskip : skip &&& 0xFFFF = BitVec.ofNat 32 (i + 3))
    (hnext : next &&& 0xFFFF = BitVec.ofNat 32 (i + 4))
    (hsign : reg d = reg s &&& signBit) (h5 : reg 5 = signBit) :
    Reaches step (live mem reg i)
      (live mem (Function.update reg d (magnitudeWord (reg s))) (i + 4)) := by
  have hds : operand reg skip d = reg d := operand_of_two_le hd
  have hss : ∀ imm, operand reg imm s = reg s := fun _ => operand_of_two_le hs
  rw [magnitudeWord_eq]
  cases hneg : (reg s).msb with
  | false =>
      -- the sign is clear: one copy
      have hzero : operand reg skip d = operand reg skip 0 := by
        rw [hds, hsign, (sign_eq_zero_iff _).mpr hneg]
        rfl
      have hexec : exec (instr .ADD d s 1 0) (live mem reg (i + 3)) = .ok
          ⟨mem, Function.update reg d (operand reg 0 s + 0#32),
            (live mem reg (i + 3)).pc + 1, false⟩ := rfl
      rw [hss, BitVec.add_zero] at hexec
      exact ((code.jeq i (i + 3) hjump hskip).1 hzero).trans
        (code.writes (i + 3) hcopy hexec)
  | true =>
      have hone : operand reg skip d ≠ operand reg skip 0 := by
        rw [hds, hsign, sign_eq, hneg]
        show signBit ≠ 0
        decide
      have hexec : exec (instr .SUB d s 5 0) (live mem reg (i + 1)) = .ok
          ⟨mem, Function.update reg d (operand reg 0 s - reg 5),
            (live mem reg (i + 1)).pc + 1, false⟩ := rfl
      rw [hss, h5] at hexec
      refine ((code.jeq i (i + 3) hjump hskip).2 hone).trans ?_
      refine (code.writes (i + 1) hsub hexec).trans ?_
      exact (code.jeq (i + 2) (i + 4) hend hnext).1 rfl

/-- Both operands, their signs and the sign bit are in registers. -/
structure SignsLoaded (a b : Word) (reg : RegFile) : Prop where
  r2 : reg 2 = a
  r3 : reg 3 = b
  r5 : reg 5 = signBit
  r6 : reg 6 = a &&& signBit
  r7 : reg 7 = b &&& signBit

theorem reaches_signsLoaded (a b : Word) : ∃ reg, SignsLoaded a b reg ∧
    Reaches step (init (addImage a b)) (live (addImage a b) reg 0x0A) := by
  have code := addImage_installed a b
  have ha : addImage a b 1000 = a := imageWith_fst addProgram a b
  have hb : addImage a b 1001 = b := imageWith_snd addProgram a b
  refine ⟨?reg, ?signs, ?run⟩
  case run =>
    refine (code.lhi 0x00 signBit rfl rfl ?_).trans ?_
    · decide
    refine (code.alu 0x01 signBit rfl rfl ?_).trans ?_
    · exact congrArg Except.ok (by decide)
    refine (code.lhi 0x02 0 rfl rfl ?_).trans ?_
    · decide
    refine (code.alu 0x03 1000 rfl rfl ?_).trans ?_
    · rfl
    refine (code.load 0x04 1000 a rfl rfl ?_ ha).trans ?_
    · show (1000#32 &&& 0xFFFF).toNat = 1000
      decide
    refine (code.lhi 0x05 1000 rfl rfl ?_).trans ?_
    · show (0#32 <<< 16) ||| (1000#32 &&& 0xFFFF) = 1000
      decide
    refine (code.alu 0x06 1001 rfl rfl ?_).trans ?_
    · rfl
    refine (code.load 0x07 1001 b rfl rfl ?_ hb).trans ?_
    · show (1001#32 &&& 0xFFFF).toNat = 1001
      decide
    refine (code.alu 0x08 (a &&& signBit) rfl rfl ?_).trans ?_
    · rfl
    refine code.alu 0x09 (b &&& signBit) rfl rfl ?_
    rfl
  case signs => exact ⟨rfl, rfl, rfl, rfl, rfl⟩

/-- The registers once both magnitudes have replaced the signs. -/
def magnitudeRegs (a b : Word) (reg : RegFile) : RegFile :=
  Function.update (Function.update reg 6 (magnitudeWord a)) 7 (magnitudeWord b)

/-- The magnitude blocks of both operands, one after the other. -/
theorem reaches_magnitudes (code : Installed addCode mem) {a b : Word}
    (h : SignsLoaded a b reg) (i : ℕ) (hi : i = 0x0C ∨ i = 0x1E) :
    Reaches step (live mem reg i) (live mem (magnitudeRegs a b reg) (i + 4 + 4)) := by
  have hfirst : reg 6 = reg 2 &&& signBit := by rw [h.r6, h.r2]
  have h7 : Function.update reg 6 (magnitudeWord (reg 2)) 7 = reg 7 := rfl
  have h3 : Function.update reg 6 (magnitudeWord (reg 2)) 3 = reg 3 := rfl
  have h5 : Function.update reg 6 (magnitudeWord (reg 2)) 5 = reg 5 := rfl
  have hsecond : Function.update reg 6 (magnitudeWord (reg 2)) 7 =
      Function.update reg 6 (magnitudeWord (reg 2)) 3 &&& signBit := by
    rw [h7, h3, h.r7, h.r3]
  rw [magnitudeRegs, ← h.r2, ← h.r3]
  rcases hi with rfl | rfl
  · have hblock₁ := reaches_magnitude code 0x0C (by decide) (by decide) rfl rfl rfl
      rfl rfl rfl hfirst h.r5
    have hblock₂ := reaches_magnitude code 0x10 (by decide) (by decide) rfl rfl rfl
      rfl rfl rfl hsecond (h5.trans h.r5)
    exact hblock₁.trans hblock₂
  · have hblock₁ := reaches_magnitude code 0x1E (by decide) (by decide) rfl rfl rfl
      rfl rfl rfl hfirst h.r5
    have hblock₂ := reaches_magnitude code 0x22 (by decide) (by decide) rfl rfl rfl
      rfl rfl rfl hsecond (h5.trans h.r5)
    exact hblock₁.trans hblock₂

/-- What the program computes from operands of different signs. -/
def difference (a b : Word) : Word :=
  if (magnitudeWord a).slt (magnitudeWord b) then
    magnitudeWord b - magnitudeWord a + (b &&& signBit)
  else magnitudeWord a - magnitudeWord b + (a &&& signBit)

/-- What the program computes from operands of one sign. -/
def sum (a b : Word) : Word :=
  if magnitudeWord a = 0 then magnitudeWord a + magnitudeWord b + magnitudeWord b
  else magnitudeWord a + magnitudeWord b + (a &&& signBit)

theorem reaches_difference (code : Installed addCode mem) {a b : Word}
    (h : SignsLoaded a b reg) : ∃ reg', reg' 4 = difference a b ∧
      Reaches step (live mem reg 0x0C) (live mem reg' 0x2A) := by
  have hstart := reaches_magnitudes code h 0x0C (Or.inl rfl)
  have hcompare : Reaches step (live mem (magnitudeRegs a b reg) 0x14)
      (live mem (Function.update (magnitudeRegs a b reg) 4 (reg 4 - 0)) 0x15) :=
    code.alu 0x14 (reg 4 - 0) rfl rfl rfl
  unfold difference
  cases hless : (magnitudeWord a).slt (magnitudeWord b) with
  | true =>
      refine ⟨?reg, ?value, hstart.trans (hcompare.trans ?run)⟩
      case run =>
        refine ((code.branch 0x15 rfl rfl).1 ?_).trans ?_
        · exact hless
        refine (code.alu 0x1A (magnitudeWord b - magnitudeWord a) rfl rfl ?_).trans ?_
        · rfl
        refine (code.alu 0x1B (b &&& signBit) rfl rfl ?_).trans ?_
        · show Except.ok (reg 3 &&& reg 5) = _
          rw [h.r3, h.r5]
        refine (code.alu 0x1C (magnitudeWord b - magnitudeWord a + (b &&& signBit))
          rfl rfl ?_).trans ?_
        · rfl
        exact (code.jeq 0x1D 0x2A rfl rfl).1 rfl
      case value => rfl
  | false =>
      refine ⟨?reg', ?value', hstart.trans (hcompare.trans ?run')⟩
      case run' =>
        refine ((code.branch 0x15 rfl rfl).2 ?_).trans ?_
        · exact hless
        refine (code.alu 0x16 (magnitudeWord a - magnitudeWord b) rfl rfl ?_).trans ?_
        · rfl
        refine (code.alu 0x17 (a &&& signBit) rfl rfl ?_).trans ?_
        · show Except.ok (reg 2 &&& reg 5) = _
          rw [h.r2, h.r5]
        refine (code.alu 0x18 (magnitudeWord a - magnitudeWord b + (a &&& signBit))
          rfl rfl ?_).trans ?_
        · rfl
        exact (code.jeq 0x19 0x2A rfl rfl).1 rfl
      case value' => rfl

/-- At 0x27 r6 holds a magnitude, and r7 the other one: skipping the next
instruction leaves it there, to be added as if it were the sign. -/
theorem reaches_sum (code : Installed addCode mem) {a b : Word}
    (h : SignsLoaded a b reg) : ∃ reg', reg' 4 = sum a b ∧
      Reaches step (live mem reg 0x1E) (live mem reg' 0x2A) := by
  have hstart := reaches_magnitudes code h 0x1E (Or.inr rfl)
  have hadd : Reaches step (live mem (magnitudeRegs a b reg) 0x26)
      (live mem (Function.update (magnitudeRegs a b reg) 4
        (magnitudeWord a + magnitudeWord b)) 0x27) :=
    code.alu 0x26 (magnitudeWord a + magnitudeWord b) rfl rfl rfl
  unfold sum
  by_cases hzero : magnitudeWord a = 0
  · rw [if_pos hzero]
    refine ⟨?reg, ?value, hstart.trans (hadd.trans ?run)⟩
    case run =>
      refine ((code.jeq 0x27 0x29 rfl rfl).1 ?_).trans ?_
      · exact hzero
      refine code.alu 0x29
        (magnitudeWord a + magnitudeWord b + magnitudeWord b) rfl rfl ?_
      rfl
    case value => rfl
  · rw [if_neg hzero]
    refine ⟨?reg', ?value', hstart.trans (hadd.trans ?run')⟩
    case run' =>
      refine ((code.jeq 0x27 0x29 rfl rfl).2 ?_).trans ?_
      · exact hzero
      refine (code.alu 0x28 (a &&& signBit) rfl rfl ?_).trans ?_
      · show Except.ok (reg 2 &&& reg 5) = _
        rw [h.r2, h.r5]
      refine code.alu 0x29
        (magnitudeWord a + magnitudeWord b + (a &&& signBit)) rfl rfl ?_
      rfl
    case value' => rfl

/-- The result is stored and the program halts. -/
theorem reaches_finish (code : Installed addCode mem) : ∃ reg',
    Reaches step (live mem reg 0x2A)
      ⟨Function.update mem 1002 (reg 4), reg', 0x2E, true⟩ := by
  have haddr : (1002#32 &&& 0xFFFF).toNat = 1002 := by decide
  have hstore : ∀ reg : RegFile, reg 6 = 1002#32 →
      exec (instr .ST 0 4 6 0) (live mem reg 0x2C) =
        .ok (live (Function.update mem 1002 (reg 4)) reg 0x2D) := by
    intro reg h6
    have hexec : exec (instr .ST 0 4 6 0) (live mem reg 0x2C) = .ok (live
        (Function.update mem (reg 6 &&& 0xFFFF).toNat (reg 4)) reg 0x2D) := rfl
    rwa [h6, haddr] at hexec
  have stored : Installed addCode (Function.update mem 1002 (reg 4)) :=
    code.store (by decide) (reg 4)
  have halt : ∀ reg', Reaches step
      (live (Function.update mem 1002 (reg 4)) reg' 0x2D)
      ⟨Function.update mem 1002 (reg 4), reg', 0x2E, true⟩ :=
    fun reg' => stored.reaches 0x2D rfl rfl
  refine ⟨?reg, ?run⟩
  case run =>
    refine (code.lhi 0x2A _ rfl rfl rfl).trans ?_
    refine (code.alu 0x2B 1002 rfl rfl ?_).trans ?_
    · rfl
    refine (code.reaches 0x2C rfl (hstore _ rfl)).trans ?_
    exact halt _

end Blocks

/-! ## The answer -/

/-- The word that the program stores. -/
def addResult (a b : Word) : Word :=
  if a &&& signBit = b &&& signBit then sum a b else difference a b

/-- The program halts on every input. -/
theorem add_halts (a b : Word) : ∃ s ∈ eval step (init (addImage a b)),
    s.halted = true ∧ s.mem 1002 = addResult a b := by
  have code := addImage_installed a b
  obtain ⟨reg, hsigns, hload⟩ := reaches_signsLoaded a b
  have hsub : Reaches step (live (addImage a b) reg 0x0A)
      (live (addImage a b)
        (Function.update reg 4 ((a &&& signBit) - (b &&& signBit))) 0x0B) := by
    refine code.alu 0x0A _ rfl rfl ?_
    show Except.ok (reg 6 - reg 7) = _
    rw [hsigns.r6, hsigns.r7]
  have hsigns' : SignsLoaded a b
      (Function.update reg 4 ((a &&& signBit) - (b &&& signBit))) :=
    ⟨hsigns.r2, hsigns.r3, hsigns.r5, hsigns.r6, hsigns.r7⟩
  have hjump := @Installed.jeq addCode (addImage a b)
    (Function.update reg 4 ((a &&& signBit) - (b &&& signBit))) code 0x0B 0x1E
    0 4 0 0x1E rfl rfl
  have hequal : (a &&& signBit) - (b &&& signBit) = 0 ↔
      a &&& signBit = b &&& signBit := sub_eq_zero
  obtain ⟨reg', h4, hblock⟩ : ∃ reg', reg' 4 = addResult a b ∧
      Reaches step (live (addImage a b) reg 0x0A) (live (addImage a b) reg' 0x2A) := by
    unfold addResult
    by_cases hsame : a &&& signBit = b &&& signBit
    · rw [if_pos hsame]
      obtain ⟨reg', h4, hrun⟩ := reaches_sum code hsigns'
      exact ⟨reg', h4, hsub.trans ((hjump.1 (hequal.mpr hsame)).trans hrun)⟩
    · rw [if_neg hsame]
      obtain ⟨reg', h4, hrun⟩ := reaches_difference code hsigns'
      exact ⟨reg', h4, hsub.trans ((hjump.2 (mt hequal.mp hsame)).trans hrun)⟩
  obtain ⟨reg'', hfinish⟩ := @reaches_finish (addImage a b) reg' code
  refine ⟨_, mem_eval_of_halted ((hload.trans hblock).trans hfinish) rfl, rfl, ?_⟩
  show Function.update (addImage a b) 1002 (reg' 4) 1002 = addResult a b
  rw [Function.update_self, h4]

theorem value_of_lt {w : Word} (h : w.toNat < 2 ^ 31) : value w = w.toNat := by
  have hmsb : w.msb = false := by
    rw [BitVec.msb_eq_decide]
    exact decide_eq_false (by omega)
  rw [value, hmsb, if_neg Bool.false_ne_true, magnitude]
  omega

theorem value_of_ge {w : Word} (h : 2 ^ 31 ≤ w.toNat) :
    value w = 2 ^ 31 - (w.toNat : ℤ) := by
  have hlt := w.isLt
  have hmsb : w.msb = true := by
    rw [BitVec.msb_eq_decide]
    exact decide_eq_true (by omega)
  rw [value, hmsb, if_pos rfl, magnitude]
  omega

theorem magnitude_lt (w : Word) : magnitude w < 2 ^ 31 := Nat.mod_lt _ (by decide)

/-- A magnitude with a sign added to it. -/
theorem value_add_sign {m : Word} (neg : Bool) (h : m.toNat < 2 ^ 31) :
    value (m + if neg then signBit else 0) = if neg then -(m.toNat : ℤ) else m.toNat := by
  have hadd : (m + if neg then signBit else 0).toNat =
      m.toNat + if neg then 2 ^ 31 else 0 := by
    rw [BitVec.toNat_add]
    cases neg with
    | false =>
        show (m.toNat + 0) % 2 ^ 32 = m.toNat + 0
        omega
    | true =>
        have hbit : signBit.toNat = 2 ^ 31 := by decide
        rw [if_pos rfl, if_pos rfl, hbit]
        omega
  cases neg with
  | false =>
      have hlow : (m + if false then signBit else 0).toNat = m.toNat := hadd
      rw [value_of_lt (by omega), hlow, if_neg Bool.false_ne_true]
  | true =>
      have hhigh : (m + if true then signBit else 0).toNat = m.toNat + 2 ^ 31 := hadd
      rw [value_of_ge (by omega), hhigh, if_pos rfl]
      omega

theorem magnitudeWord_slt_iff (a b : Word) :
    (magnitudeWord a).slt (magnitudeWord b) = true ↔ magnitude a < magnitude b := by
  have ha := magnitude_lt a
  have hb := magnitude_lt b
  rw [BitVec.slt_iff_toInt_lt, BitVec.toInt_eq_toNat_of_lt, BitVec.toInt_eq_toNat_of_lt,
    magnitudeWord_toNat, magnitudeWord_toNat, Int.ofNat_lt]
  · rw [magnitudeWord_toNat]
    omega
  · rw [magnitudeWord_toNat]
    omega

/-- The magnitude that is left of the larger one. -/
theorem toNat_magnitude_sub {a b : Word} (h : magnitude b ≤ magnitude a) :
    (magnitudeWord a - magnitudeWord b).toNat = magnitude a - magnitude b := by
  have ha := magnitude_lt a
  rw [BitVec.toNat_sub, magnitudeWord_toNat, magnitudeWord_toNat]
  omega

theorem value_difference {a b : Word} (hsign : a.msb ≠ b.msb) :
    value (difference a b) = value a + value b := by
  have ha := magnitude_lt a
  have hb := magnitude_lt b
  unfold difference
  by_cases hless : magnitude a < magnitude b
  · have hsub := @toNat_magnitude_sub b a (Nat.le_of_lt hless)
    rw [if_pos ((magnitudeWord_slt_iff a b).mpr hless), sign_eq,
      value_add_sign _ (by omega), hsub, value, value]
    revert hsign
    cases a.msb <;> cases b.msb <;> simp <;> omega
  · have hsub := @toNat_magnitude_sub a b (by omega)
    rw [if_neg (mt (magnitudeWord_slt_iff a b).mp hless), sign_eq,
      value_add_sign _ (by omega), hsub, value, value]
    revert hsign
    cases a.msb <;> cases b.msb <;> simp <;> omega

/-- With a magnitude to add to, the sum is right. -/
theorem value_sum {a b : Word} (hsign : a.msb = b.msb) (hmag : magnitude a ≠ 0)
    (hlt : magnitude a + magnitude b < 2 ^ 31) :
    value (sum a b) = value a + value b := by
  have hne : magnitudeWord a ≠ 0 := by
    intro hzero
    rw [← magnitudeWord_toNat, hzero] at hmag
    exact hmag rfl
  have hadd : (magnitudeWord a + magnitudeWord b).toNat =
      magnitude a + magnitude b := by
    rw [BitVec.toNat_add, magnitudeWord_toNat, magnitudeWord_toNat]
    omega
  rw [sum, if_neg hne, sign_eq, value_add_sign _ (by omega), hadd, value, value,
    ← hsign]
  cases a.msb <;> simp
  omega

/-- Without one, the second magnitude is added twice, and no word that this can
produce has the right value unless that magnitude is zero too. -/
theorem value_sum_zero {a b : Word} (hmag : magnitude a = 0) :
    value (sum a b) = value a + value b ↔ magnitude b = 0 := by
  have hb := magnitude_lt b
  have hzero : magnitudeWord a = 0 := by
    apply BitVec.eq_of_toNat_eq
    rw [magnitudeWord_toNat, hmag]
    rfl
  have htwice : (sum a b).toNat = 2 * magnitude b := by
    rw [sum, if_pos hzero, hzero, BitVec.toNat_add, BitVec.toNat_add,
      magnitudeWord_toNat]
    show ((0 + magnitude b) % 2 ^ 32 + magnitude b) % 2 ^ 32 = _
    omega
  have hvalue : value a = 0 := by
    rw [value, hmag]
    cases a.msb <;> rfl
  rw [hvalue, zero_add]
  rcases Nat.lt_or_ge (2 * magnitude b) (2 ^ 31) with hsmall | hlarge
  · have hsum : value (sum a b) = 2 * magnitude b := by
      rw [value_of_lt (by omega), htwice]
      omega
    rw [hsum]
    unfold value
    split_ifs <;> omega
  · have hsum : value (sum a b) = 2 ^ 31 - 2 * magnitude b := by
      rw [value_of_ge (by omega), htwice]
      omega
    rw [hsum]
    unfold value
    split_ifs <;> omega

/-- The run reaches HLT with the sum of the operands in 1002. -/
def AddCorrect (a b : Word) : Prop :=
  ∃ s ∈ eval step (init (addImage a b)), s.halted = true ∧
    value (s.mem 1002) = value a + value b

theorem addCorrect_iff_value (a b : Word) :
    AddCorrect a b ↔ value (addResult a b) = value a + value b := by
  obtain ⟨s, hs, hhalt, hmem⟩ := add_halts a b
  constructor
  · rintro ⟨s', hs', -, hvalue⟩
    obtain rfl := Part.mem_unique hs hs'
    rwa [hmem] at hvalue
  · intro hvalue
    refine ⟨s, hs, hhalt, ?_⟩
    rwa [hmem]

/-- **When the addition program is right.** The sum is stored unless the signs
are equal, the first magnitude is zero and the second one is not. -/
theorem addCorrect_iff {a b : Word} (h : magnitude a + magnitude b < 2 ^ 31) :
    AddCorrect a b ↔ a.msb ≠ b.msb ∨ magnitude a ≠ 0 ∨ magnitude b = 0 := by
  have hsigns : a &&& signBit = b &&& signBit ↔ a.msb = b.msb := by
    rw [sign_eq, sign_eq]
    cases a.msb <;> cases b.msb <;> decide
  rw [addCorrect_iff_value, addResult]
  by_cases hsame : a.msb = b.msb
  · rw [if_pos (hsigns.mpr hsame)]
    rcases Nat.eq_zero_or_pos (magnitude a) with hzero | hpos
    · rw [value_sum_zero hzero]
      simp [hsame, hzero]
    · have hne : magnitude a ≠ 0 := Nat.ne_of_gt hpos
      exact iff_of_true (value_sum hsame hne h) (Or.inr (Or.inl hne))
  · rw [if_neg (mt hsigns.mp hsame)]
    exact iff_of_true (value_difference hsame) (Or.inl hsame)

/-- The sample operands. -/
theorem addCorrect_iff_sample :
    AddCorrect 0x00000120 0x80000140 ↔
      (0x00000120 : Word).msb ≠ (0x80000140 : Word).msb ∨
        magnitude 0x00000120 ≠ 0 ∨ magnitude 0x80000140 = 0 :=
  addCorrect_iff (by decide)

/-- 0 + 5 is 10. -/
theorem zero_add_five_fails : ¬AddCorrect 0 5 := by
  rw [addCorrect_iff_value]
  decide

end SuperscalarProcessor.Programs
