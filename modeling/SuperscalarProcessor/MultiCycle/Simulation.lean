import SuperscalarProcessor.Iss
import SuperscalarProcessor.MultiCycle.Instruction

/-!
# The multi-cycle processor implements the ISS

Six clocks for one iteration. The relation leaves out r0, r1 and r7: the
processor never writes r0, operands never name r0 or r1, and the two sides save
different return addresses in r7.
-/

namespace SuperscalarProcessor.MultiCycle

open Llsim Foundation

/-! ## Programs within the common subset -/

/-- The opcode reads its first source. -/
def usesSrc0 : Opcode → Bool
  | .LD | .HLT | .U => false
  | _ => true

/-- The opcode reads its second source. -/
def usesSrc1 : Opcode → Bool
  | .HLT | .U => false
  | _ => true

/-- What is asked of the instruction that the ISS executes next. Shift amounts
need no clause: from a shift by 32 or more the ISS has no next state. -/
structure Supported (s : Iss.State) : Prop where
  op : s.fields.op ≠ .LHI ∧ s.fields.op ≠ .JIN ∧ s.fields.op ≠ .DMA_START ∧
    s.fields.op ≠ .DMA_STATUS
  src0 : usesSrc0 s.fields.op = true → s.fields.src0 ≠ 7
  src1 : usesSrc1 s.fields.op = true → s.fields.src1 ≠ 7
  storeSrc : s.fields.op = .ST → 2#3 ≤ s.fields.src0
  addr : s.fields.op = .LD ∨ s.fields.op = .ST → s.val1.toNat < 65536
  fallThrough : s.pc.toNat = 65535 → s.fields.op = .HLT ∨
    s.fields.op.condHolds s.val0 s.val1 = true

instance (s : Iss.State) : Decidable (Supported s) :=
  decidable_of_iff
    ((s.fields.op ≠ .LHI ∧ s.fields.op ≠ .JIN ∧ s.fields.op ≠ .DMA_START ∧
        s.fields.op ≠ .DMA_STATUS) ∧
      (usesSrc0 s.fields.op = true → s.fields.src0 ≠ 7) ∧
      (usesSrc1 s.fields.op = true → s.fields.src1 ≠ 7) ∧
      (s.fields.op = .ST → 2#3 ≤ s.fields.src0) ∧
      (s.fields.op = .LD ∨ s.fields.op = .ST → s.val1.toNat < 65536) ∧
      (s.pc.toNat = 65535 → s.fields.op = .HLT ∨
        s.fields.op.condHolds s.val0 s.val1 = true))
    ⟨fun ⟨h₁, h₂, h₃, h₄, h₅, h₆⟩ => ⟨h₁, h₂, h₃, h₄, h₅, h₆⟩,
      fun h => ⟨h.op, h.src0, h.src1, h.storeSrc, h.addr, h.fallThrough⟩⟩

/-! ## The simulation relation -/

structure Agrees (s : Iss.State) (sp : Sp) : Prop where
  ready : Ready sp
  pc : sp.spro.pc = s.pc
  regs : ∀ i, 2#3 ≤ i → i ≠ 7 → sp.spro.r i = s.reg i
  mem : sp.sram.data = s.mem

theorem decodeFields_eq_decode (inst : Word) :
    decodeFields inst = Iss.decode inst := by
  have hfield : ∀ n w mask, n + w ≤ 32 →
      (inst.sshiftRight n &&& mask).setWidth w = (inst >>> n &&& mask).setWidth w :=
    fun _ _ mask h => sshiftRight_field inst mask h
  have himm := decodeFields_immediate inst
  unfold decodeFields at himm ⊢
  rw [Iss.decode, Fields.mk.injEq]
  exact ⟨hfield 25 5 _ (by decide), hfield 22 3 _ (by decide),
    hfield 19 3 _ (by decide), hfield 16 3 _ (by decide), himm⟩

theorem Agrees.fields {s : Iss.State} {sp : Sp} (h : Agrees s sp) :
    sp.fields = s.fields := by
  rw [Sp.fields, Sp.word, h.mem, h.pc, decodeFields_eq_decode]
  rfl

theorem Agrees.operand {s : Iss.State} {sp : Sp} (h : Agrees s sp)
    {src : BitVec 3} (hsrc : src ≠ 7) :
    operand sp.spro.r s.fields.immediate src =
      operand s.reg s.fields.immediate src :=
  operand_congr fun htwo => h.regs src htwo hsrc

theorem Agrees.alu0 {s : Iss.State} {sp : Sp} (h : Agrees s sp)
    (hs : Supported s) (huse : usesSrc0 s.fields.op = true) :
    sp.alu0 = s.val0 := by
  rw [Sp.alu0, decOperands, h.fields, if_neg hs.op.1]
  exact h.operand (hs.src0 huse)

theorem Agrees.alu1 {s : Iss.State} {sp : Sp} (h : Agrees s sp)
    (hs : Supported s) (huse : usesSrc1 s.fields.op = true) :
    sp.alu1 = s.val1 := by
  rw [Sp.alu1, decOperands, h.fields, if_neg hs.op.1]
  exact h.operand (hs.src1 huse)

/-! ## The write-back of EXEC1 -/

/-- Falling through the ALU cases writes the same value again. -/
theorem writeAluout_iterate (s : SpRegisters) (r : RegFile) (n : ℕ) :
    (writeAluout s)^[n + 1] r = writeAluout s r := by
  induction n with
  | zero => rfl
  | succ n ih =>
      rw [Function.iterate_succ_apply', ih]
      unfold writeAluout
      split_ifs with hdst
      · exact Function.update_idem _ _ _
      · rfl

/-- EXEC1 for the opcodes ADD to LHI. -/
theorem ctlExec1_alu {s : SpRegisters} (h : s.fields.isAlu = true) (d : Word) :
    ctlExec1 s d = .ok
      { s with r := writeAluout s s.r, pc := s.pcPlusOne, ctlState := .FETCH0 } := by
  unfold Fields.isAlu at h
  unfold ctlExec1
  cases hop : s.fields.op <;> simp only [hop, Bool.false_eq_true] at h ⊢ <;>
    rw [aluCases, writeAluout_iterate]

/-- The register files agree after the write-back. -/
theorem Agrees.writeAluout {s : Iss.State} {sp : Sp} (h : Agrees s sp)
    (value : Word) {i : BitVec 3} (htwo : 2#3 ≤ i) (hseven : i ≠ 7) :
    MultiCycle.writeAluout (sp.atExec1 value) sp.spro.r i =
      Function.update s.reg s.fields.dst value i := by
  unfold MultiCycle.writeAluout
  show (if sp.fields.dst ≠ 0 then Function.update sp.spro.r sp.fields.dst value
    else sp.spro.r) i = _
  rw [h.fields]
  by_cases hi : i = s.fields.dst
  · subst hi
    have hne : s.fields.dst ≠ 0 := ((two_le_iff _).mp htwo).1
    rw [if_pos hne, Function.update_self, Function.update_self]
  · rw [Function.update_of_ne hi]
    split_ifs
    · rw [Function.update_of_ne hi]
      exact h.regs i htwo hseven
    · exact h.regs i htwo hseven

theorem pcPlusOne_eq {pc : Word} (h : pc.toNat < 65535) :
    (pc + 1) &&& 0xFFFF = pc + 1 := by
  refine lowHalf_of_lt ?_
  rw [BitVec.toNat_add]
  show (pc.toNat + 1) % 2 ^ 32 < 65536
  omega

/-! ## One iteration -/

/-- Six clocks whose EXEC1 leaves what the ISS computes. -/
theorem Agrees.clocks {s s' : Iss.State} {sp : Sp} {aluout : Word}
    {s₆ : SpRegisters} (h : Agrees s sp) (hpc : s.pc.toNat < 65536)
    (halu : exec0Aluout s.fields.op sp.alu0 sp.alu1 = .ok aluout)
    (haddr : s.fields.op = .LD ∨ s.fields.op = .ST → InRange sp.alu1)
    (hrun : s.fields.op ≠ .HLT)
    (hexec1 : ctlExec1 (sp.atExec1 aluout) (sp.sram.data sp.alu1.toNat) = .ok s₆)
    (hpc' : s₆.pc = s'.pc)
    (hregs : ∀ i, 2#3 ≤ i → i ≠ 7 → s₆.r i = s'.reg i)
    (hmem : sp.dataAfter = s'.mem) :
    ∃ sp', runFor tick 6 sp = some sp' ∧ Agrees s' sp' := by
  rw [← h.fields] at halu haddr hrun
  have hin : InRange sp.spro.pc := by
    rw [h.pc]
    exact inRange_iff.mpr hpc
  obtain ⟨sp', hclocks, hready, hr, hpc₆, hdata⟩ :=
    six_clocks h.ready hin halu haddr hrun hexec1
  refine ⟨sp', hclocks, hready, hpc₆.trans hpc', ?_, hdata.trans hmem⟩
  intro i htwo hseven
  rw [hr]
  exact hregs i htwo hseven

theorem exec0Aluout_eq_result {op : Opcode} {f : Fields} (hf : f.op = op)
    (h : f.isAlu = true) (a b : Word) :
    exec0Aluout op a b = Iss.result op a b := by
  subst hf
  unfold Fields.isAlu at h
  unfold exec0Aluout Iss.result
  cases hop : f.op <;> simp only [hop, Bool.false_eq_true] at h ⊢

/-- What does not store leaves the memory alone. -/
theorem Agrees.dataAfter {s : Iss.State} {sp : Sp} (h : Agrees s sp)
    (hop : s.fields.op ≠ .ST) : sp.dataAfter = s.mem := by
  rw [Sp.dataAfter, h.fields, if_neg hop, h.mem]

theorem Agrees.next_alu {s s' : Iss.State} {sp : Sp} (h : Agrees s sp)
    (hs : Supported s) (halu : s.fields.isAlu = true) (hpc : s.pc.toNat < 65535)
    (hit : Iss.iteration s = .ok s') :
    ∃ sp', runFor tick 6 sp = some sp' ∧ Agrees s' sp' := by
  obtain ⟨hld, hst, hhlt⟩ := Fields.op_of_isAlu halu
  have huse : usesSrc0 s.fields.op = true ∧ usesSrc1 s.fields.op = true := by
    unfold Fields.isAlu at halu
    cases hop : s.fields.op <;> simp [hop, usesSrc0, usesSrc1] at halu ⊢
  rw [Iss.iteration_alu halu] at hit
  cases hres : Iss.result s.fields.op s.val0 s.val1 with
  | error f => rw [hres] at hit; cases hit
  | ok value =>
      rw [hres] at hit
      obtain rfl := Except.ok.inj hit
      have hfields : (sp.atExec1 value).fields.isAlu = true := by
        show sp.fields.isAlu = true
        rw [h.fields]
        exact halu
      refine h.clocks (by omega) ?_ ?_ hhlt (ctlExec1_alu hfields _) ?_ ?_ ?_
      · rw [h.alu0 hs huse.1, h.alu1 hs huse.2, exec0Aluout_eq_result rfl halu,
          hres]
      · rintro (hop | hop)
        · exact absurd hop hld
        · exact absurd hop hst
      · show (sp.spro.pc + 1) &&& 0xFFFF = s.pc + 1
        rw [h.pc, pcPlusOne_eq hpc]
      · exact fun i htwo hseven => h.writeAluout value htwo hseven
      · exact h.dataAfter hst

theorem Agrees.next_load {s s' : Iss.State} {sp : Sp} (h : Agrees s sp)
    (hs : Supported s) (hop : s.fields.op = .LD) (hpc : s.pc.toNat < 65535)
    (hit : Iss.iteration s = .ok s') :
    ∃ sp', runFor tick 6 sp = some sp' ∧ Agrees s' sp' := by
  have haddr := hs.addr (Or.inl hop)
  have halu1 : sp.alu1 = s.val1 := h.alu1 hs (by rw [hop]; rfl)
  unfold Iss.iteration at hit
  simp only [hop] at hit
  obtain rfl := Except.ok.inj hit
  have hopAt : (sp.atExec1 0).fields.op = .LD := by
    show sp.fields.op = .LD
    rw [h.fields, hop]
  refine @Agrees.clocks _ _ _ 0 _ h (by omega) (by rw [hop]; rfl) ?_
    (by rw [hop]; decide) (by unfold ctlExec1; simp only [hopAt]; rfl) ?_ ?_ ?_
  · intro _
    rw [halu1]
    exact inRange_iff.mpr haddr
  · show (sp.spro.pc + 1) &&& 0xFFFF = s.pc + 1
    rw [h.pc, pcPlusOne_eq hpc]
  · intro i htwo hseven
    show Function.update sp.spro.r sp.fields.dst (sp.sram.data sp.alu1.toNat) i =
      Function.update s.reg s.fields.dst (s.mem (s.val1 &&& 0xFFFF).toNat) i
    rw [h.fields, h.mem, halu1, lowHalf_of_lt haddr]
    by_cases hi : i = s.fields.dst
    · rw [hi, Function.update_self, Function.update_self]
    · rw [Function.update_of_ne hi, Function.update_of_ne hi]
      exact h.regs i htwo hseven
  · exact h.dataAfter (by rw [hop]; decide)

theorem Agrees.next_store {s s' : Iss.State} {sp : Sp} (h : Agrees s sp)
    (hs : Supported s) (hop : s.fields.op = .ST) (hpc : s.pc.toNat < 65535)
    (hit : Iss.iteration s = .ok s') :
    ∃ sp', runFor tick 6 sp = some sp' ∧ Agrees s' sp' := by
  have haddr := hs.addr (Or.inr hop)
  have halu1 : sp.alu1 = s.val1 := h.alu1 hs (by rw [hop]; rfl)
  have halu0 : sp.alu0 = s.reg s.fields.src0 := by
    rw [h.alu0 hs (by rw [hop]; rfl), Iss.State.val0,
      operand_of_two_le (hs.storeSrc hop)]
  unfold Iss.iteration at hit
  simp only [hop] at hit
  obtain rfl := Except.ok.inj hit
  have hopAt : (sp.atExec1 sp.alu1).fields.op = .ST := by
    show sp.fields.op = .ST
    rw [h.fields, hop]
  refine @Agrees.clocks _ _ _ sp.alu1 _ h (by omega) (by rw [hop]; rfl) ?_
    (by rw [hop]; decide) (by unfold ctlExec1; simp only [hopAt]; rfl) ?_ ?_ ?_
  · intro _
    rw [halu1]
    exact inRange_iff.mpr haddr
  · show (sp.spro.pc + 1) &&& 0xFFFF = s.pc + 1
    rw [h.pc, pcPlusOne_eq hpc]
  · exact h.regs
  · rw [Sp.dataAfter, h.fields, if_pos hop, h.mem, halu1, halu0,
      lowHalf_of_lt haddr]

/-- The opcodes JLT, JLE, JEQ and JNE. -/
def isCondJump : Opcode → Bool
  | .JLT | .JLE | .JEQ | .JNE => true
  | _ => false

theorem op_of_isCondJump {op : Opcode} (h : isCondJump op = true) :
    op ≠ .LHI ∧ op ≠ .LD ∧ op ≠ .ST ∧ op ≠ .HLT ∧
      usesSrc0 op = true ∧ usesSrc1 op = true := by
  unfold isCondJump at h
  cases op <;> simp [usesSrc0, usesSrc1] at h ⊢

theorem exec0Aluout_jump {op : Opcode} (h : isCondJump op = true) (a b : Word) :
    exec0Aluout op a b = .ok (if op.condHolds a b then 1 else 0) := by
  unfold isCondJump at h
  unfold exec0Aluout
  cases op <;> simp only [Bool.false_eq_true] at h ⊢

theorem ctlExec1_jump {s : SpRegisters} (h : isCondJump s.fields.op = true)
    (d : Word) : ctlExec1 s d = .ok
      (if s.aluout = 1 then
        { s with
          r := Function.update s.r 7 s.pc
          pc := s.fields.immediate &&& 0xFFFF
          ctlState := .FETCH0 }
      else { s with pc := s.pcPlusOne, ctlState := .FETCH0 }) := by
  unfold isCondJump at h
  unfold ctlExec1
  cases hop : s.fields.op <;> simp only [hop, Bool.false_eq_true] at h ⊢

theorem iteration_jump {s : Iss.State} (h : isCondJump s.fields.op = true) :
    Iss.iteration s = .ok
      (if s.fields.op.condHolds s.val0 s.val1 then
        { s with
          reg := Function.update s.reg 7 (s.pc + 1)
          pc := s.fields.immediate &&& 0xFFFF }
      else { s with pc := s.pc + 1 }) := by
  unfold isCondJump at h
  unfold Iss.iteration
  cases hop : s.fields.op <;> simp only [hop, Bool.false_eq_true] at h ⊢

theorem Agrees.next_jump {s s' : Iss.State} {sp : Sp} (h : Agrees s sp)
    (hs : Supported s) (hjump : isCondJump s.fields.op = true)
    (hpc : s.pc.toNat < 65536) (hit : Iss.iteration s = .ok s') :
    ∃ sp', runFor tick 6 sp = some sp' ∧ Agrees s' sp' := by
  obtain ⟨-, hld, hst, hhlt, huse0, huse1⟩ := op_of_isCondJump hjump
  rw [iteration_jump hjump] at hit
  obtain rfl := Except.ok.inj hit
  have halu : exec0Aluout s.fields.op sp.alu0 sp.alu1 =
      .ok (if s.fields.op.condHolds s.val0 s.val1 then 1 else 0) := by
    rw [exec0Aluout_jump hjump, h.alu0 hs huse0, h.alu1 hs huse1]
  have hjumpAt : ∀ aluout, isCondJump (sp.atExec1 aluout).fields.op = true := by
    intro aluout
    show isCondJump sp.fields.op = true
    rw [h.fields]
    exact hjump
  have haddr : s.fields.op = .LD ∨ s.fields.op = .ST → InRange sp.alu1 := by
    rintro (hop | hop)
    · exact absurd hop hld
    · exact absurd hop hst
  cases hcond : s.fields.op.condHolds s.val0 s.val1 with
  | true =>
      rw [hcond] at halu
      refine h.clocks hpc halu haddr hhlt (ctlExec1_jump (hjumpAt _) _) ?_ ?_ ?_
      · show sp.fields.immediate &&& 0xFFFF = s.fields.immediate &&& 0xFFFF
        rw [h.fields]
      · intro i htwo hseven
        show Function.update sp.spro.r 7 sp.spro.pc i =
          Function.update s.reg 7 (s.pc + 1) i
        rw [Function.update_of_ne hseven, Function.update_of_ne hseven]
        exact h.regs i htwo hseven
      · exact h.dataAfter hst
  | false =>
      have hlow : s.pc.toNat < 65535 := by
        by_contra hhigh
        rcases hs.fallThrough (by omega) with hop | htaken
        · exact hhlt hop
        · exact Bool.noConfusion (hcond.symm.trans htaken)
      rw [hcond] at halu
      refine h.clocks hpc halu haddr hhlt (ctlExec1_jump (hjumpAt _) _) ?_ ?_ ?_
      · show (sp.spro.pc + 1) &&& 0xFFFF = s.pc + 1
        rw [h.pc, pcPlusOne_eq hlow]
      · exact h.regs
      · exact h.dataAfter hst

theorem Agrees.next_undefined {s s' : Iss.State} {sp : Sp} (h : Agrees s sp)
    (hop : s.fields.op = .U) (hpc : s.pc.toNat < 65535)
    (hit : Iss.iteration s = .ok s') :
    ∃ sp', runFor tick 6 sp = some sp' ∧ Agrees s' sp' := by
  unfold Iss.iteration at hit
  simp only [hop] at hit
  obtain rfl := Except.ok.inj hit
  have hopAt : (sp.atExec1 0).fields.op = .U := by
    show sp.fields.op = .U
    rw [h.fields, hop]
  refine @Agrees.clocks _ _ _ 0 _ h (by omega) (by rw [hop]; rfl) (by simp [hop])
    (by rw [hop]; decide) (by unfold ctlExec1; simp only [hopAt]; rfl) ?_ ?_ ?_
  · show (sp.spro.pc + 1) &&& 0xFFFF = s.pc + 1
    rw [h.pc, pcPlusOne_eq hpc]
  · exact h.regs
  · exact h.dataAfter (by rw [hop]; decide)

/-- **Six clocks follow one iteration.** -/
theorem Agrees.next {s s' : Iss.State} {sp : Sp} (h : Agrees s sp)
    (hs : Supported s) (hstep : Iss.step s = some s') (hlive : s'.halted = false) :
    ∃ sp', runFor tick 6 sp = some sp' ∧ Agrees s' sp' := by
  obtain ⟨-, hpc, hit⟩ := Iss.step_eq_some hstep
  have hhlt : s.fields.op ≠ .HLT := by
    intro hop
    exact Bool.noConfusion (hlive.symm.trans ((Iss.halted_iff hstep).mpr hop))
  by_cases hjump : isCondJump s.fields.op = true
  · exact h.next_jump hs hjump hpc hit
  have hlow : s.pc.toNat < 65535 := by
    by_contra hhigh
    rcases hs.fallThrough (by omega) with hop | htaken
    · exact hhlt hop
    · refine hjump ?_
      cases hop : s.fields.op <;> simp [hop, Opcode.condHolds, isCondJump] at htaken ⊢
  by_cases halu : s.fields.isAlu = true
  · exact h.next_alu hs halu hlow hit
  cases hop : s.fields.op
  case LD => exact h.next_load hs hop hlow hit
  case ST => exact h.next_store hs hop hlow hit
  case U => exact h.next_undefined hop hlow hit
  case HLT => exact absurd hop hhlt
  case JIN => exact absurd hop hs.op.2.1
  case DMA_START => exact absurd hop hs.op.2.2.1
  case DMA_STATUS => exact absurd hop hs.op.2.2.2
  all_goals simp [hop, isCondJump, Fields.isAlu] at hjump halu

/-! ## Whole runs -/

theorem Agrees.init (image : Mem) :
    ∃ sp, clockState image 1 = some sp ∧ Agrees (Iss.init image) sp := by
  obtain ⟨sp, ht, hregs, hdata, hstop⟩ := @tick_silent (resetState image)
    { ctlIdle true zeroRegisters with cycleCounter := zeroRegisters.cycleCounter + 1 }
    rfl rfl rfl rfl rfl rfl
  refine ⟨sp, ht, ⟨?_, ?_, hstop⟩, ?_, ?_, hdata⟩
  · rw [hregs]
    rfl
  · rw [hregs]
    rfl
  · rw [hregs]
    rfl
  · intro i _ _
    rw [hregs]
    rfl

/-- **The processor implements the ISS.** Behind `n` iterations of supported
instructions the processor stands in FETCH0 of clock `1 + 6 n` with the same pc,
registers r2 to r6 and memory; if the next iteration is HLT's, it dumps the
memory of the ISS in clock `6 + 6 n`. -/
theorem processor_simulates_iss {image : Mem} {n : ℕ} {s : Iss.State}
    (hs : ∀ k a, k < n → Iss.stateAfter image k = some a → Supported a)
    (h : Iss.stateAfter image n = some s) (hlive : s.halted = false) :
    (∃ sp, clockState image (1 + 6 * n) = some sp ∧
      sp.spro.cycleCounter = BitVec.ofNat 32 (1 + 6 * n) ∧ Agrees s sp) ∧
    ∀ s', Iss.step s = some s' → s'.halted = true →
      ∃ sp₅ sp₆, clockState image (6 + 6 * n) = some sp₅ ∧
        spRun false sp₅ = .ok sp₆ ∧ sp₆.stopSim = true ∧
        sp₆.sramOut = some (memoryDump s'.mem) := by
  obtain ⟨sp₁, h₁, hinit⟩ := Agrees.init image
  have hsim : ∃ sp, runFor tick (6 * n) sp₁ = some sp ∧ Agrees s sp := by
    refine runFor_simulation hinit ?_ h
    intro m a a' sp hm ha hstep hagree
    refine hagree.next (hs m a hm ha) hstep ?_
    exact Iss.live_of_le h hlive hm ((runFor_succ_of_eq ha).trans hstep)
  obtain ⟨sp, hrun, hagree⟩ := hsim
  have hclock : clockState image (1 + 6 * n) = some sp :=
    (runFor_add_of_eq h₁).trans hrun
  refine ⟨⟨sp, hclock, (invariant_of_clockState hclock).cycleCounter, hagree⟩, ?_⟩
  intro s' hstep hhalt
  have hop := (Iss.halted_iff hstep).mp hhalt
  obtain ⟨-, hpc, hit⟩ := Iss.step_eq_some hstep
  have hin : InRange sp.spro.pc := by
    rw [hagree.pc]
    exact inRange_iff.mpr hpc
  obtain ⟨sp₅, sp₆, hrun₅, hrun₆, hstop, hdump, -⟩ :=
    halt_clocks hagree.ready hin (by rw [hagree.fields, hop])
  have hmem : s'.mem = s.mem := by
    unfold Iss.iteration at hit
    simp only [hop] at hit
    obtain rfl := Except.ok.inj hit
    rfl
  refine ⟨sp₅, sp₆, ?_, hrun₆, hstop, ?_⟩
  · rw [show 6 + 6 * n = 1 + 6 * n + 5 by omega]
    exact (runFor_add_of_eq hclock).trans hrun₅
  · rw [hdump, hagree.mem, hmem]

/-- `ADD r2, r2, 1; ST r2, [16]; JLT 0, r2, 4; (skipped); HLT`. -/
def storeJumpImage : Mem :=
  imageOf [0x00910001, 0x12110010, 0x20020004, 0xFFFFFFFF, 0x30000000]

theorem processor_simulates_iss_storeJump :
    ∃ s, Iss.stateAfter storeJumpImage 3 = some s ∧
      (∃ sp, clockState storeJumpImage (1 + 6 * 3) = some sp ∧
        sp.spro.cycleCounter = BitVec.ofNat 32 (1 + 6 * 3) ∧ Agrees s sp) ∧
      ∀ s', Iss.step s = some s' → s'.halted = true →
        ∃ sp₅ sp₆, clockState storeJumpImage (6 + 6 * 3) = some sp₅ ∧
          spRun false sp₅ = .ok sp₆ ∧ sp₆.stopSim = true ∧
          sp₆.sramOut = some (memoryDump s'.mem) := by
  have hsupported : ∀ k < 3, (Iss.stateAfter storeJumpImage k).all
      (fun a => decide (Supported a)) := by decide +kernel
  have hlive : (Iss.stateAfter storeJumpImage 3).any (fun a => !a.halted) := by
    decide +kernel
  obtain ⟨s, hs, hrun⟩ := (Option.any_eq_true _ _).mp hlive
  refine ⟨s, hs, processor_simulates_iss ?_ hs (by simpa using hrun)⟩
  intro k a hk ha
  have hall := hsupported k hk
  rw [ha] at hall
  exact of_decide_eq_true hall

end SuperscalarProcessor.MultiCycle
