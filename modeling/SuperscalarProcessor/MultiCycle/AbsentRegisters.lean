import SuperscalarProcessor.MultiCycle.Simulation

/-!
# The registers that do not exist

The register file has eight entries for the registers r2 to r7. EXEC1 keeps
results out of r0 except for LD's, and out of r1 not at all.
-/

namespace SuperscalarProcessor.MultiCycle

open Llsim Foundation

/-- The entries without a register hold 0. -/
def AbsentZero (r : RegFile) : Prop := r 0 = 0 ∧ r 1 = 0

/-- They do in every state reached, the one behind HLT included. -/
structure RegistersAbsent (image : Mem) : Prop where
  running : ∀ t sp, clockState image t = some sp → AbsentZero sp.spro.r
  stopped : ∀ t sp sp', clockState image t = some sp → sp.spro.halts = true →
    llsimRunClock false sp = .ok sp' → AbsentZero sp'.spro.r

/-- An ALU instruction in EXEC1 that names r1 has the result 0, and a load that
names r0 or r1 has loaded 0. -/
structure WriteHarmless (sp : Sp) : Prop where
  alu : sp.spro.fields.isAlu = true → sp.spro.fields.dst = 1 → sp.spro.aluout = 0
  load : sp.spro.fields.op = .LD →
    sp.spro.fields.dst = 0 ∨ sp.spro.fields.dst = 1 → sp.sram.dataout = 0

/-! ## What EXEC1 writes back -/

/-- The register that an instruction in EXEC1 writes, with the value. -/
def writtenBack (s : SpRegisters) (dataout : Word) : Option (BitVec 3 × Word) :=
  match s.fields.op with
  | .ADD | .SUB | .LSF | .RSF | .AND | .OR | .XOR | .LHI =>
      if s.fields.dst ≠ 0 then some (s.fields.dst, s.aluout) else none
  | .DMA_STATUS =>
      if s.fields.dst ≠ 0 then
        some (s.fields.dst, if s.dmaState ≠ .IDLE then 1 else 0)
      else none
  | .LD => some (s.fields.dst, dataout)
  | .JLT | .JLE | .JEQ | .JNE => if s.aluout = 1 then some (7, s.pc) else none
  | .JIN => some (7, s.pc)
  | .DMA_START | .ST | .HLT | .U => none

/-- A register file after an optional write. -/
def regsAfter (r : RegFile) : Option (BitVec 3 × Word) → RegFile
  | some (i, v) => Function.update r i v
  | none => r

@[simp] theorem regsAfter_self (r : RegFile) (i : BitVec 3) (v : Word) :
    regsAfter r (some (i, v)) i = v := Function.update_self _ _ _

/-- Every case of EXEC1 writes that register and no other. -/
theorem ctlExec1_r {s s' : SpRegisters} {dataout : Word}
    (h : ctlExec1 s dataout = .ok s') :
    s'.r = regsAfter s.r (writtenBack s dataout) := by
  unfold ctlExec1 at h
  unfold writtenBack
  cases hop : s.fields.op <;> simp only [hop] at h ⊢
  case JIN =>
    cases hread : readReg s.r s.alu0 with
    | error f => simp [hread, Except.map] at h
    | ok target =>
        simp only [hread, Except.map, Except.ok.injEq] at h
        rw [← h]
        rfl
  case JLT | JLE | JEQ | JNE =>
    obtain rfl := Except.ok.inj h
    split_ifs <;> rfl
  case ADD | SUB | LSF | RSF | AND | OR | XOR | LHI =>
    obtain rfl := Except.ok.inj h
    rw [aluCases, writeAluout_iterate, writeAluout]
    split_ifs <;> rfl
  case DMA_STATUS =>
    obtain rfl := Except.ok.inj h
    split_ifs <;> rfl
  all_goals
    obtain rfl := Except.ok.inj h
    rfl

/-- No other control state writes a register. -/
theorem nextRegisters_r {start : Bool} {s s' : SpRegisters} {dataout : Word}
    (hctl : s.ctlState ≠ .EXEC1) (h : nextRegisters start s dataout = .ok s') :
    s'.r = s.r := by
  unfold nextRegisters switchCtlState at h
  cases hcase : s.ctlState <;> simp only [hcase, Except.map, Except.ok.injEq] at h
  case EXEC1 => exact absurd hcase hctl
  case EXEC0 =>
    unfold ctlExec0 at h
    cases halu : exec0Aluout s.fields.op s.alu0 s.alu1 with
    | error f => simp [halu, Except.map] at h
    | ok aluout =>
        simp only [halu, Except.map, Except.ok.injEq] at h
        rw [← h]
  all_goals rw [← h]; rfl

/-- The registers after a clock in EXEC1. -/
theorem nextRegisters_exec1_r {start : Bool} {s s' : SpRegisters} {dataout : Word}
    (hctl : s.ctlState = .EXEC1) (h : nextRegisters start s dataout = .ok s') :
    s'.r = regsAfter s.r (writtenBack s dataout) := by
  rw [nextRegisters, switchCtlState, hctl] at h
  cases hexec1 : ctlExec1 s dataout with
  | error f => simp [hexec1, Except.map] at h
  | ok s₁ =>
      simp only [hexec1, Except.map, Except.ok.injEq] at h
      rw [← h]
      show s₁.r = _
      exact ctlExec1_r hexec1

/-! ## The invariant -/

theorem AbsentZero.after {r : RegFile} (h : AbsentZero r)
    {write : Option (BitVec 3 × Word)}
    (hwrite : ∀ i v, write = some (i, v) → i = 0 ∨ i = 1 → v = 0) :
    AbsentZero (regsAfter r write) := by
  cases write with
  | none => exact h
  | some w =>
      obtain ⟨i, v⟩ := w
      have hv := hwrite i v rfl
      constructor
      · show Function.update r i v 0 = 0
        rw [Function.update_apply]
        split_ifs with hi
        · exact hv (Or.inl hi.symm)
        · exact h.1
      · show Function.update r i v 1 = 0
        rw [Function.update_apply]
        split_ifs with hi
        · exact hv (Or.inr hi.symm)
        · exact h.2

/-- While the DMA engine is idle only the two cases of the condition can write
something else than 0. -/
theorem WriteHarmless.writtenBack_zero {sp : Sp} (h : WriteHarmless sp)
    (hdma : sp.spro.dmaState = .IDLE) {i : BitVec 3} {v : Word}
    (hwrite : writtenBack sp.spro sp.sram.dataout = some (i, v))
    (hi : i = 0 ∨ i = 1) : v = 0 := by
  have halu := h.alu
  unfold Fields.isAlu at halu
  unfold writtenBack at hwrite
  cases hop : sp.spro.fields.op <;> simp only [hop] at hwrite halu
  case LD =>
    obtain ⟨rfl, rfl⟩ := Prod.mk.inj (Option.some.inj hwrite)
    exact h.load hop hi
  case ADD | SUB | LSF | RSF | AND | OR | XOR | LHI =>
    split_ifs at hwrite with hdst
    obtain ⟨rfl, rfl⟩ := Prod.mk.inj (Option.some.inj hwrite)
    exact halu trivial (hi.resolve_left hdst)
  case DMA_STATUS =>
    split_ifs at hwrite with hdst hbusy
    · exact absurd hdma hbusy
    · obtain ⟨rfl, rfl⟩ := Prod.mk.inj (Option.some.inj hwrite)
      rfl
  case JLT | JLE | JEQ | JNE =>
    split_ifs at hwrite
    obtain ⟨rfl, rfl⟩ := Prod.mk.inj (Option.some.inj hwrite)
    rcases hi with hi | hi <;> cases hi
  case JIN =>
    obtain ⟨rfl, rfl⟩ := Prod.mk.inj (Option.some.inj hwrite)
    rcases hi with hi | hi <;> cases hi
  all_goals cases hwrite

theorem AbsentZero.next {image : Mem} {t : ℕ} {sp sp' : Sp}
    (hsp : clockState image t = some sp) (h : AbsentZero sp.spro.r)
    (hharmless : sp.spro.ctlState = .EXEC1 → WriteHarmless sp)
    (ht : tick sp = some sp') : AbsentZero sp'.spro.r := by
  have hdma := (invariant_of_clockState hsp).dma
  obtain ⟨-, s', hregs, hspro⟩ := regs_of_tick hdma ht
  rw [hspro]
  show AbsentZero s'.r
  by_cases hctl : sp.spro.ctlState = .EXEC1
  · rw [nextRegisters_exec1_r hctl hregs]
    exact h.after fun i v hwrite hi =>
      (hharmless hctl).writtenBack_zero hdma hwrite hi
  · rw [nextRegisters_r hctl hregs]
    exact h

/-! ## When the registers stay absent -/

/-- The clock that writes a register completes. -/
theorem written_clock {image : Mem} {t : ℕ} {sp : Sp}
    (hsp : clockState image t = some sp) (hctl : sp.spro.ctlState = .EXEC1)
    (hop : sp.spro.fields.isAlu = true ∨ sp.spro.fields.op = .LD) :
    ∃ sp', clockState image (t + 1) = some sp' ∧
      sp'.spro.r = regsAfter sp.spro.r (writtenBack sp.spro sp.sram.dataout) := by
  have hinv := invariant_of_clockState hsp
  have hother : sp.spro.fields.op ≠ .ST ∧ sp.spro.fields.op ≠ .HLT := by
    rcases hop with halu | hload
    · exact (Fields.op_of_isAlu halu).2
    · simp [hload]
  have hexec1 : ∃ s₁, ctlExec1 sp.spro sp.sram.dataout = .ok s₁ := by
    unfold Fields.isAlu at hop
    unfold ctlExec1
    cases hcase : sp.spro.fields.op <;> simp [hcase] at hop ⊢
  obtain ⟨s₁, hs₁⟩ := hexec1
  have hregs : nextRegisters sp.start sp.spro sp.sram.dataout =
      .ok { s₁ with cycleCounter := sp.spro.cycleCounter + 1 } := by
    rw [nextRegisters, switchCtlState, hctl]
    simp only [hs₁, Except.map]
  obtain ⟨sp', ht, hspro, -⟩ := tick_silent hinv.dma hinv.stopSim
    (by simp [SpRegisters.halts, hother.2]) hregs
    (by simp [SpRegisters.readAddr, hctl])
    (by simp [SpRegisters.writeAddr, hother.1])
  refine ⟨sp', (runFor_succ_of_eq hsp).trans ht, ?_⟩
  rw [hspro, ← nextRegisters_exec1_r hctl hregs]
  rfl

/-- **When r0 and r1 do not exist.** They hold 0 throughout a run if and only if
every ALU instruction that names r1 as its destination has the result 0 and
every load that names r0 or r1 loads 0. -/
theorem registersAbsent_iff (image : Mem) :
    RegistersAbsent image ↔ ∀ t sp, clockState image t = some sp →
      sp.spro.ctlState = .EXEC1 → WriteHarmless sp := by
  constructor
  · intro h t sp hsp hctl
    -- the value written is seen in the state behind the clock
    have hzero : ∀ {i : BitVec 3} {v : Word},
        sp.spro.fields.isAlu = true ∨ sp.spro.fields.op = .LD → i = 0 ∨ i = 1 →
        writtenBack sp.spro sp.sram.dataout = some (i, v) → v = 0 := by
      intro i v hop hi hwrite
      obtain ⟨sp', hsp', hr⟩ := written_clock hsp hctl hop
      have habsent := h.running _ _ hsp'
      rw [hr, hwrite] at habsent
      rcases hi with rfl | rfl
      · exact (regsAfter_self _ _ _).symm.trans habsent.1
      · exact (regsAfter_self _ _ _).symm.trans habsent.2
    constructor
    · intro halu hdst
      refine hzero (Or.inl halu) (Or.inr rfl) ?_
      unfold Fields.isAlu at halu
      unfold writtenBack
      cases hop : sp.spro.fields.op <;> simp [hop, hdst] at halu ⊢
    · intro hop hdst
      refine hzero (Or.inr hop) hdst ?_
      rw [writtenBack, hop]
  · intro h
    have running : ∀ t sp, clockState image t = some sp → AbsentZero sp.spro.r := by
      intro t
      induction t with
      | zero =>
          intro sp hsp
          obtain rfl := Option.some.inj hsp
          exact ⟨rfl, rfl⟩
      | succ t ih =>
          intro sp hsp
          obtain ⟨sp₀, h₀, ht⟩ := runFor_pred hsp
          exact AbsentZero.next h₀ (ih sp₀ h₀) (h t sp₀ h₀) ht
    refine ⟨running, ?_⟩
    intro t sp sp' hsp hhalt hclock
    -- the halting clock leaves the registers alone
    obtain ⟨sp₁, hclock₁, -, hr, -⟩ :=
      clock_of_halts (invariant_of_clockState hsp).dma hhalt
    obtain rfl := Except.ok.inj (hclock.symm.trans hclock₁)
    rw [hr]
    exact running t sp hsp

/-- `ADD r1, imm 5, 0; HLT`. -/
def writeOneImage : Mem := imageOf [0x00480005, 0x30000000]

/-- The addition leaves 5 in r1. -/
theorem one_is_written : ¬RegistersAbsent writeOneImage := by
  intro h
  have hsp : ∃ sp, clockState writeOneImage 7 = some sp ∧ sp.spro.r 1 = 5 :=
    ⟨_, Option.eq_some_of_isSome (by decide +kernel), by decide +kernel⟩
  obtain ⟨sp, hsp, hfive⟩ := hsp
  have hzero := (h.running 7 sp hsp).2
  rw [hfive] at hzero
  exact absurd hzero (by decide)

end SuperscalarProcessor.MultiCycle
