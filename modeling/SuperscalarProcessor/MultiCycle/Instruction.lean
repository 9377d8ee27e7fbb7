import SuperscalarProcessor.MultiCycle.Step

/-!
# One instruction in six clocks

From FETCH0 with the DMA engine idle, five clocks bring the instruction to
EXEC1 with its fields, operands and ALU output latched; the sixth executes it.
-/

namespace SuperscalarProcessor.MultiCycle

open Llsim Foundation

/-- A state in which an instruction starts. -/
structure Ready (sp : Sp) : Prop where
  ctlState : sp.spro.ctlState = .FETCH0
  dma : sp.spro.dmaState = .IDLE
  stopSim : sp.stopSim = false

/-- The instruction word that is about to be fetched. -/
def Sp.word (sp : Sp) : Word := sp.sram.data sp.spro.pc.toNat

/-- Its fields and operands. -/
def Sp.fields (sp : Sp) : Fields := decodeFields sp.word

def Sp.alu0 (sp : Sp) : Word := (decOperands sp.fields sp.spro.r).1

def Sp.alu1 (sp : Sp) : Word := (decOperands sp.fields sp.spro.r).2

/-- The registers in which EXEC0 starts. -/
def Sp.atExec0 (sp : Sp) : SpRegisters :=
  { sp.spro with
    inst := sp.word
    fields := sp.fields
    alu0 := sp.alu0
    alu1 := sp.alu1
    cycleCounter := sp.spro.cycleCounter + 1 + 1 + 1 + 1
    ctlState := .EXEC0 }

/-- The registers in which EXEC1 starts. -/
def Sp.atExec1 (sp : Sp) (aluout : Word) : SpRegisters :=
  { sp.atExec0 with
    aluout := aluout
    cycleCounter := sp.spro.cycleCounter + 1 + 1 + 1 + 1 + 1
    ctlState := .EXEC1 }

/-! ## Decoding -/

theorem signBit_iff (x : Word) : x &&& 0x8000 ≠ 0 ↔ x.getLsbD 15 = true := by
  have hbit : (0x8000 : Word) = BitVec.twoPow 32 15 := rfl
  rw [hbit, BitVec.and_twoPow]
  cases x.getLsbD 15 <;> decide

/-- The sign extension by hand is the usual one. -/
theorem signExtend_eq {x : Word} (hx : x.toNat < 65536) :
    signExtend x = (x.setWidth 16).signExtend 32 := by
  have hmsb : (x.setWidth 16).msb = x.getLsbD 15 := by
    rw [BitVec.msb_eq_getLsbD_last, BitVec.getLsbD_setWidth]
    rfl
  have hlow : ((x.setWidth 16).setWidth 32).toNat = x.toNat := by
    rw [BitVec.toNat_setWidth, BitVec.toNat_setWidth]
    omega
  apply BitVec.eq_of_toNat_eq
  rw [BitVec.toNat_signExtend, hmsb, hlow]
  unfold signExtend
  by_cases hs : x.getLsbD 15 = true
  · have hor := Nat.two_pow_add_eq_or_of_lt (show x.toNat < 2 ^ 16 from hx) 65535
    rw [if_pos ((signBit_iff x).mpr hs), if_pos hs, BitVec.toNat_or, Nat.or_comm,
      Nat.add_comm]
    exact hor.symm
  · rw [if_neg (mt (signBit_iff x).mp hs), if_neg hs]
    rfl

theorem decodeFields_immediate (inst : Word) : (decodeFields inst).immediate =
    ((inst &&& 0xFFFF).setWidth 16).signExtend 32 := by
  refine signExtend_eq ?_
  rw [lowHalf_toNat]
  exact Nat.mod_lt _ (by decide)

/-! ## The first five clocks -/

theorem inBounds_of_none {s : SpRegisters} (hr : s.readAddr = none)
    (hw : s.writeAddr = none) : InBounds s := by
  constructor
  · intro a ha
    cases hr.symm.trans ha
  · intro a ha
    cases hw.symm.trans ha

/-- A clock of a control state that makes no request. -/
theorem tick_silent {sp : Sp} {s' : SpRegisters} (hdma : sp.spro.dmaState = .IDLE)
    (hstop : sp.stopSim = false) (hrun : sp.spro.halts = false)
    (hregs : nextRegisters sp.start sp.spro sp.sram.dataout = .ok s')
    (hr : sp.spro.readAddr = none) (hw : sp.spro.writeAddr = none) :
    ∃ sp', tick sp = some sp' ∧ sp'.spro = carryDma sp.spro s' ∧
      sp'.sram.data = sp.sram.data ∧ sp'.stopSim = false := by
  obtain ⟨sp', ht, hs⟩ := tick_ticks hdma hstop hrun hregs (inBounds_of_none hr hw)
  refine ⟨sp', ht, hs.regs, ?_, hs.stopSim⟩
  rw [hs.data, memoryAfter, hw]

/-- Fetch and decode. -/
theorem four_clocks {sp : Sp} (h : Ready sp) (hpc : InRange sp.spro.pc) :
    ∃ sp₄, runFor tick 4 sp = some sp₄ ∧ sp₄.spro = sp.atExec0 ∧
      sp₄.sram.data = sp.sram.data ∧ sp₄.stopSim = false := by
  have hctl := h.ctlState
  -- FETCH0
  obtain ⟨sp₁, ht₁, hs₁⟩ := @tick_ticks sp
    { ctlFetch0 sp.spro with cycleCounter := sp.spro.cycleCounter + 1 }
    h.dma h.stopSim (by simp [SpRegisters.halts, hctl])
    (by rw [nextRegisters, switchCtlState, hctl]; rfl)
    ⟨by simp [SpRegisters.readAddr, hctl, hpc],
      by simp [SpRegisters.writeAddr, hctl]⟩
  have hdata₁ : sp₁.sram.data = sp.sram.data := by
    rw [hs₁.data]
    simp [memoryAfter, SpRegisters.writeAddr, hctl]
  have hout₁ : sp₁.sram.dataout = sp.word := by
    rw [hs₁.loaded sp.spro.pc (by simp [SpRegisters.readAddr, hctl])]
    rfl
  have hspro₁ : sp₁.spro = { sp.spro with
      cycleCounter := sp.spro.cycleCounter + 1, ctlState := .FETCH1 } := by
    rw [hs₁.regs]
    rfl
  -- FETCH1
  obtain ⟨sp₂, ht₂, hregs₂, hdata₂, hstop₂⟩ := @tick_silent sp₁
    { ctlFetch1 sp₁.spro sp.word with cycleCounter := sp₁.spro.cycleCounter + 1 }
    (by rw [hspro₁]; exact h.dma) hs₁.stopSim (by rw [hspro₁]; rfl)
    (by rw [nextRegisters, switchCtlState, hout₁, hspro₁]; rfl)
    (by rw [hspro₁]; rfl) (by rw [hspro₁]; rfl)
  have hspro₂ : sp₂.spro = { sp.spro with
      inst := sp.word, cycleCounter := sp.spro.cycleCounter + 1 + 1
      ctlState := .DEC0 } := by
    rw [hregs₂, hspro₁]
    rfl
  -- DEC0
  obtain ⟨sp₃, ht₃, hregs₃, hdata₃, hstop₃⟩ := @tick_silent sp₂
    { ctlDec0 sp₂.spro with cycleCounter := sp₂.spro.cycleCounter + 1 }
    (by rw [hspro₂]; exact h.dma) hstop₂ (by rw [hspro₂]; rfl)
    (by rw [nextRegisters, switchCtlState, hspro₂]; rfl)
    (by rw [hspro₂]; rfl) (by rw [hspro₂]; rfl)
  have hspro₃ : sp₃.spro = { sp.spro with
      inst := sp.word, fields := sp.fields
      cycleCounter := sp.spro.cycleCounter + 1 + 1 + 1, ctlState := .DEC1 } := by
    rw [hregs₃, hspro₂]
    rfl
  -- DEC1
  obtain ⟨sp₄, ht₄, hregs₄, hdata₄, hstop₄⟩ := @tick_silent sp₃
    { ctlDec1 sp₃.spro with cycleCounter := sp₃.spro.cycleCounter + 1 }
    (by rw [hspro₃]; exact h.dma) hstop₃ (by rw [hspro₃]; rfl)
    (by rw [nextRegisters, switchCtlState, hspro₃]; rfl)
    (by rw [hspro₃]; rfl) (by rw [hspro₃]; rfl)
  refine ⟨sp₄, ?_, ?_, ?_, hstop₄⟩
  · simp only [runFor, Option.bind_some, ht₁, ht₂, ht₃, ht₄]
  · rw [hregs₄, hspro₃]
    rfl
  · rw [hdata₄, hdata₃, hdata₂, hdata₁]

/-- EXEC0: the ALU output and the request of a load. -/
theorem five_clocks {sp : Sp} {aluout : Word} (h : Ready sp)
    (hpc : InRange sp.spro.pc)
    (halu : exec0Aluout sp.fields.op sp.alu0 sp.alu1 = .ok aluout)
    (hload : sp.fields.op = .LD → InRange sp.alu1) :
    ∃ sp₅, runFor tick 5 sp = some sp₅ ∧ sp₅.spro = sp.atExec1 aluout ∧
      sp₅.sram.data = sp.sram.data ∧ sp₅.stopSim = false ∧
      (sp.fields.op = .LD → sp₅.sram.dataout = sp.sram.data sp.alu1.toNat) := by
  obtain ⟨sp₄, hrun, hspro, hdata, hstop⟩ := four_clocks h hpc
  have hread : sp₄.spro.readAddr =
      if sp.fields.op = .LD then some sp.alu1 else none := by
    rw [hspro]
    rfl
  have hwrite : sp₄.spro.writeAddr = none := by rw [hspro]; rfl
  have hregs : nextRegisters sp₄.start sp₄.spro sp₄.sram.dataout =
      .ok (sp.atExec1 aluout) := by
    have hctl : sp₄.spro.ctlState = .EXEC0 := by rw [hspro]; rfl
    have halu₄ : exec0Aluout sp.atExec0.fields.op sp.atExec0.alu0
        sp.atExec0.alu1 = .ok aluout := halu
    rw [nextRegisters, switchCtlState, hctl, hspro]
    simp only [ctlExec0, halu₄, Except.map]
    rfl
  have hin : InBounds sp₄.spro := by
    constructor
    · intro a ha
      rw [hread] at ha
      split_ifs at ha with hop
      obtain rfl := Option.some.inj ha
      exact hload hop
    · intro a ha
      cases hwrite.symm.trans ha
  obtain ⟨sp₅, ht, hs⟩ := tick_ticks (by rw [hspro]; exact h.dma) hstop
    (by rw [hspro]; rfl) hregs hin
  refine ⟨sp₅, (runFor_succ_of_eq hrun).trans ht, ?_, ?_, hs.stopSim, ?_⟩
  · rw [hs.regs, hspro]
    rfl
  · rw [hs.data, memoryAfter, hwrite, hdata]
  · intro hop
    rw [hs.loaded sp.alu1 (by rw [hread, if_pos hop]), hdata]

/-! ## The sixth clock -/

/-- Only LD samples the memory's output. -/
theorem ctlExec1_congr {s : SpRegisters} (h : s.fields.op ≠ .LD) (d d' : Word) :
    ctlExec1 s d = ctlExec1 s d' := by
  unfold ctlExec1
  cases hop : s.fields.op
  case LD => exact absurd hop h
  all_goals rfl

/-- JIN reads a register by number. -/
theorem ctlExec1_jin {s : SpRegisters} (h : s.fields.op = .JIN) (d : Word) :
    ctlExec1 s d = (readReg s.r s.alu0).map fun target =>
      { s with
        r := Function.update s.r 7 s.pc
        pc := target &&& 0xFFFF
        ctlState := .FETCH0 } := by
  unfold ctlExec1
  simp only [h]

/-- Every instruction but HLT goes back to FETCH0. -/
theorem ctlExec1_ctlState {s s' : SpRegisters} {d : Word}
    (hop : s.fields.op ≠ .HLT) (h : ctlExec1 s d = .ok s') :
    s'.ctlState = .FETCH0 := by
  unfold ctlExec1 at h
  cases hcase : s.fields.op <;> simp only [hcase] at h
  case HLT => exact absurd hcase hop
  case JIN =>
    cases hread : readReg s.r s.alu0 with
    | error f => simp [hread, Except.map] at h
    | ok target =>
        simp only [hread, Except.map, Except.ok.injEq] at h
        rw [← h]
  all_goals
    simp only [Except.ok.injEq] at h
    rw [← h]
  all_goals split_ifs <;> rfl

/-- What a store does to the memory. -/
def Sp.dataAfter (sp : Sp) : Mem :=
  if sp.fields.op = .ST then
    Function.update sp.sram.data sp.alu1.toNat sp.alu0
  else sp.sram.data

/-- EXEC1 writes for a store, to the address operand that EXEC0 passed on. -/
theorem Sp.atExec1_writeAddr {sp : Sp} {aluout : Word}
    (halu : exec0Aluout sp.fields.op sp.alu0 sp.alu1 = .ok aluout) :
    (sp.atExec1 aluout).writeAddr =
      if sp.fields.op = .ST then some sp.alu1 else none := by
  show (if CtlState.EXEC1 = .EXEC1 ∧ sp.fields.op = .ST then some aluout else none) = _
  by_cases hop : sp.fields.op = .ST
  · rw [hop] at halu
    obtain rfl := Except.ok.inj halu
    rw [if_pos ⟨rfl, hop⟩, if_pos hop]
  · rw [if_neg fun hc => hop hc.2, if_neg hop]

/-- **Six clocks, one instruction.** -/
theorem six_clocks {sp : Sp} {aluout : Word} {s₆ : SpRegisters} (h : Ready sp)
    (hpc : InRange sp.spro.pc)
    (halu : exec0Aluout sp.fields.op sp.alu0 sp.alu1 = .ok aluout)
    (haddr : sp.fields.op = .LD ∨ sp.fields.op = .ST → InRange sp.alu1)
    (hrun : sp.fields.op ≠ .HLT)
    (hexec1 : ctlExec1 (sp.atExec1 aluout) (sp.sram.data sp.alu1.toNat) = .ok s₆) :
    ∃ sp₆, runFor tick 6 sp = some sp₆ ∧ Ready sp₆ ∧ sp₆.spro.r = s₆.r ∧
      sp₆.spro.pc = s₆.pc ∧ sp₆.sram.data = sp.dataAfter := by
  obtain ⟨sp₅, hrun₅, hspro, hdata, hstop, hout⟩ :=
    five_clocks h hpc halu (fun hop => haddr (Or.inl hop))
  have hctl : sp₅.spro.ctlState = .EXEC1 := by rw [hspro]; rfl
  have hdma : sp₅.spro.dmaState = .IDLE := by rw [hspro]; exact h.dma
  have hhalts : sp₅.spro.halts = false := by
    rw [hspro]
    show (true && sp.fields.op == .HLT) = false
    simpa using hrun
  have hread : sp₅.spro.readAddr = none := by rw [hspro]; rfl
  have hwrite : sp₅.spro.writeAddr =
      if sp.fields.op = .ST then some sp.alu1 else none := by
    rw [hspro]
    exact Sp.atExec1_writeAddr halu
  have hexec1' : ctlExec1 sp₅.spro sp₅.sram.dataout = .ok s₆ := by
    rw [hspro, ← hexec1]
    by_cases hop : sp.fields.op = .LD
    · rw [hout hop]
    · exact ctlExec1_congr hop _ _
  have hin : InBounds sp₅.spro := by
    constructor
    · intro a ha
      cases hread.symm.trans ha
    · intro a ha
      rw [hwrite] at ha
      split_ifs at ha with hop
      obtain rfl := Option.some.inj ha
      exact haddr (Or.inr hop)
  obtain ⟨sp₆, ht, hs⟩ := tick_ticks hdma hstop hhalts
    (by rw [nextRegisters, switchCtlState, hctl, hexec1']; rfl) hin
  have hctl₆ := ctlExec1_ctlState hrun hexec1
  refine ⟨sp₆, (runFor_succ_of_eq hrun₅).trans ht, ⟨?_, ?_, hs.stopSim⟩, ?_, ?_, ?_⟩
  · rw [hs.regs]
    exact hctl₆
  · rw [hs.regs]
    exact hdma
  · rw [hs.regs]
    rfl
  · rw [hs.regs]
    rfl
  · rw [hs.data, memoryAfter, hwrite, Sp.dataAfter, hdata]
    split_ifs with hop
    · rw [hspro]
      rfl
    · rfl

/-- An instruction that faults in EXEC1 ends the run in its sixth clock. -/
theorem six_clocks_error {sp : Sp} {aluout : Word} {f : Fault} (h : Ready sp)
    (hpc : InRange sp.spro.pc)
    (halu : exec0Aluout sp.fields.op sp.alu0 sp.alu1 = .ok aluout)
    (hop : sp.fields.op ≠ .LD)
    (hexec1 : ctlExec1 (sp.atExec1 aluout) (sp.sram.data sp.alu1.toNat) =
      .error f) :
    ∃ sp₅, runFor tick 5 sp = some sp₅ ∧ llsimRunClock false sp₅ = .error f := by
  obtain ⟨sp₅, hrun₅, hspro, -, -, -⟩ :=
    five_clocks h hpc halu (fun hld => absurd hld hop)
  have hctl : sp₅.spro.ctlState = .EXEC1 := by rw [hspro]; rfl
  have hexec1' : ctlExec1 sp₅.spro sp₅.sram.dataout = .error f := by
    rw [hspro, ← hexec1]
    exact ctlExec1_congr hop _ _
  refine ⟨sp₅, hrun₅, llsimRunClock_error ?_⟩
  rw [nextRegisters, switchCtlState, hctl, hexec1']
  rfl

/-- HLT stops the simulation in its sixth clock. -/
theorem halt_clocks {sp : Sp} (h : Ready sp) (hpc : InRange sp.spro.pc)
    (hop : sp.fields.op = .HLT) :
    ∃ sp₅ sp₆, runFor tick 5 sp = some sp₅ ∧ spRun false sp₅ = .ok sp₆ ∧
      sp₆.stopSim = true ∧ sp₆.sramOut = some (memoryDump sp.sram.data) ∧
      ∃ sp₆', llsimRunClock false sp₅ = .ok sp₆' ∧ sp₆'.stopSim = true ∧
        sp₆'.spro.r = sp.spro.r ∧ sp₆'.sram.data = sp.sram.data := by
  have halu : exec0Aluout sp.fields.op sp.alu0 sp.alu1 = .ok 0 := by rw [hop]; rfl
  obtain ⟨sp₅, hrun₅, hspro, hdata, -, -⟩ :=
    five_clocks h hpc halu (fun hld => absurd (hop.symm.trans hld) (by decide))
  have hhalts : sp₅.spro.halts = true := by
    rw [hspro]
    show (true && sp.fields.op == .HLT) = true
    rw [hop]
    rfl
  have hdma : sp₅.spro.dmaState = .IDLE := by
    rw [hspro]
    exact h.dma
  obtain ⟨sp₆, hrun₆, hstop, hout, -, -⟩ := spRun_of_halts hdma hhalts
  obtain ⟨sp₆', hclock, hstop', hr, hsram⟩ := clock_of_halts hdma hhalts
  refine ⟨sp₅, sp₆, hrun₅, hrun₆, hstop, hdata ▸ hout, sp₆', hclock, hstop', ?_,
    hsram.trans hdata⟩
  rw [hr, hspro]
  rfl

end SuperscalarProcessor.MultiCycle
