import SuperscalarProcessor.MultiCycle.Instruction

/-!
# The indices of the register file

Every index is a three-bit field but one: JIN applies the operand that DEC1
latched, a whole word, where it means the register that the operand came from.
-/

namespace SuperscalarProcessor.MultiCycle

open Llsim Foundation

/-- The registers that the trace of every clock prints. -/
def tracedRegisters : List Word := [2, 3, 4, 5, 6, 7]

/-- The index of a register field that is only applied under a condition. -/
def fieldIndex (applied : Bool) (i : BitVec 3) : List Word :=
  if applied then [i.setWidth 32] else []

/-- The sources 0 and 1 select a constant. -/
def sourceIndex (src : BitVec 3) : List Word := fieldIndex (2#3 ≤ src) src

/-- The destination 0 discards the value. -/
def destIndex (dst : BitVec 3) : List Word := fieldIndex (dst ≠ 0) dst

/-- The indices that EXEC1 applies to `r`. -/
def exec1Indices (s : SpRegisters) : List Word :=
  match s.fields.op with
  | .DMA_START => [s.fields.src0.setWidth 32, s.fields.src1.setWidth 32]
  | .DMA_STATUS | .ADD | .SUB | .LSF | .RSF | .AND | .OR | .XOR | .LHI =>
      destIndex s.fields.dst
  | .LD => [s.fields.dst.setWidth 32]
  | .JLT | .JLE | .JEQ | .JNE => if s.aluout = 1 then [7] else []
  | .JIN => [7, s.alu0]
  | .ST | .HLT | .U => []

/-- Every index that `sp_ctl` applies to `r` in one clock. -/
def SpRegisters.registerIndices (s : SpRegisters) : List Word :=
  tracedRegisters ++
    match s.ctlState with
    | .DEC1 => sourceIndex s.fields.src0 ++ sourceIndex s.fields.src1
    | .EXEC1 => exec1Indices s
    | _ => []

/-- A JIN in EXEC1. -/
structure JumpsIndirect (s : SpRegisters) : Prop where
  ctlState : s.ctlState = .EXEC1
  op : s.fields.op = .JIN

/-- In every reachable state the indices are in 0..7, and a JIN from a register
goes to the register's value. -/
structure IndicesContract (image : Mem) : Prop where
  inRange : ∀ t sp, clockState image t = some sp →
    ∀ i ∈ sp.spro.registerIndices, 0 ≤ i.toInt ∧ i.toInt ≤ 7
  target : ∀ t sp sp', clockState image t = some sp →
    JumpsIndirect sp.spro → 2#3 ≤ sp.spro.fields.src0 →
    clockState image (t + 1) = some sp' →
    sp'.spro.pc = sp.spro.r sp.spro.fields.src0 &&& 0xFFFF

/-- The operand of the JIN is the number of a register, and when it comes from a
register, that number is also what the register it names holds. -/
structure JinHarmless (s : SpRegisters) : Prop where
  number : (operand s.r s.fields.immediate s.fields.src0).toNat < 8
  named : 2#3 ≤ s.fields.src0 →
    s.r ((s.r s.fields.src0).setWidth 3) &&& 0xFFFF =
      s.r s.fields.src0 &&& 0xFFFF

theorem toInt_le_seven_iff {i : Word} :
    (0 ≤ i.toInt ∧ i.toInt ≤ 7) ↔ i.toNat < 8 := by
  have h := i.isLt
  rw [BitVec.toInt_eq_toNat_cond]
  split_ifs <;> omega

theorem field_lt (i : BitVec 3) : (i.setWidth 32 : Word).toNat < 8 := by
  have h := i.isLt
  rw [BitVec.toNat_setWidth]
  omega

theorem fieldIndex_lt {applied : Bool} {field : BitVec 3} {i : Word}
    (h : i ∈ fieldIndex applied field) : i.toNat < 8 := by
  unfold fieldIndex at h
  split_ifs at h
  · rw [List.mem_singleton.mp h]
    exact field_lt field
  · cases h

/-- The only index that can leave the array is the operand of JIN. -/
theorem registerIndices_lt {s : SpRegisters} {i : Word}
    (h : i ∈ s.registerIndices) : i.toNat < 8 ∨ JumpsIndirect s ∧ i = s.alu0 := by
  rcases List.mem_append.mp h with htraced | h
  · simp only [tracedRegisters, List.mem_cons, List.not_mem_nil, or_false] at htraced
    rcases htraced with rfl | rfl | rfl | rfl | rfl | rfl <;> exact Or.inl (by decide)
  · cases hctl : s.ctlState <;> simp only [hctl] at h
    case DEC1 =>
      rcases List.mem_append.mp h with h | h <;> exact Or.inl (fieldIndex_lt h)
    case EXEC1 =>
      unfold exec1Indices at h
      cases hop : s.fields.op <;> simp only [hop] at h
      case JIN =>
        simp only [List.mem_cons, List.not_mem_nil, or_false] at h
        rcases h with rfl | rfl
        · exact Or.inl (by decide)
        · exact Or.inr ⟨⟨hctl, hop⟩, rfl⟩
      case LD =>
        rw [List.mem_singleton.mp h]
        exact Or.inl (field_lt _)
      case DMA_START =>
        simp only [List.mem_cons, List.not_mem_nil, or_false] at h
        rcases h with rfl | rfl <;> exact Or.inl (field_lt _)
      case JLT | JLE | JEQ | JNE =>
        split_ifs at h
        · rw [List.mem_singleton.mp h]
          exact Or.inl (by decide)
        · cases h
      case ST | HLT | U => cases h
      all_goals exact Or.inl (fieldIndex_lt h)
    all_goals cases h

/-! ## The latched operand -/

/-- From DEC1 to EXEC1 `alu0` is the operand that the fields select. -/
def OperandLatched (s : SpRegisters) : Prop :=
  s.ctlState = .EXEC0 ∨ s.ctlState = .EXEC1 →
    s.alu0 = (decOperands s.fields s.r).1

theorem OperandLatched.next {start : Bool} {s s' : SpRegisters} {dataout : Word}
    (h : OperandLatched s) (hrun : s.halts = false)
    (hnext : nextRegisters start s dataout = .ok s') : OperandLatched s' := by
  unfold nextRegisters switchCtlState at hnext
  cases hctl : s.ctlState <;> simp only [hctl, Except.map, Except.ok.injEq] at hnext
  case DEC1 =>
    rw [← hnext]
    intro _
    rfl
  case EXEC0 =>
    unfold ctlExec0 at hnext
    cases halu : exec0Aluout s.fields.op s.alu0 s.alu1 with
    | error f => simp [halu, Except.map] at hnext
    | ok aluout =>
        simp only [halu, Except.map, Except.ok.injEq] at hnext
        rw [← hnext]
        intro _
        exact h (Or.inl hctl)
  case EXEC1 =>
    have hop : s.fields.op ≠ .HLT := by
      simpa [SpRegisters.halts, hctl] using hrun
    cases hexec1 : ctlExec1 s dataout with
    | error f => simp [hexec1] at hnext
    | ok s₁ =>
        simp only [hexec1, Except.ok.injEq] at hnext
        rw [← hnext]
        intro hctl'
        change s₁.ctlState = .EXEC0 ∨ s₁.ctlState = .EXEC1 at hctl'
        rw [ctlExec1_ctlState hop hexec1] at hctl'
        rcases hctl' with hctl' | hctl' <;> cases hctl'
  case IDLE =>
    rw [← hnext]
    intro hctl'
    change (if start = true then CtlState.FETCH0 else s.ctlState) = _ ∨
      (if start = true then CtlState.FETCH0 else s.ctlState) = _ at hctl'
    rw [hctl] at hctl'
    split_ifs at hctl' <;> rcases hctl' with hctl' | hctl' <;> cases hctl'
  all_goals
    rw [← hnext]
    rintro (hctl' | hctl') <;> cases hctl'

theorem operandLatched_of_clockState {image : Mem} {t : ℕ} {sp : Sp}
    (h : clockState image t = some sp) : OperandLatched sp.spro := by
  have init : OperandLatched (resetState image).spro := by
    rintro (hctl | hctl) <;> cases hctl
  induction t generalizing sp with
  | zero =>
      rw [clockState_eq] at h
      obtain rfl := Option.some.inj h
      exact init
  | succ t ih =>
      rw [clockState_eq] at h
      obtain ⟨sp₀, h₀, ht⟩ := runFor_pred h
      have hdma := (invariant_of_clockState h₀).dma
      obtain ⟨hrun, s', hregs, hspro⟩ := regs_of_tick hdma ht
      have hnext : OperandLatched s' := (ih h₀).next hrun hregs
      rw [hspro]
      exact hnext

/-- JIN applies the operand that its fields select. -/
theorem JumpsIndirect.alu0_eq {image : Mem} {t : ℕ} {sp : Sp}
    (h : clockState image t = some sp) (hjin : JumpsIndirect sp.spro) :
    sp.spro.alu0 =
      operand sp.spro.r sp.spro.fields.immediate sp.spro.fields.src0 := by
  rw [operandLatched_of_clockState h (Or.inr hjin.ctlState), decOperands, if_neg]
  rw [hjin.op]
  decide

/-- A JIN whose operand is the number of a register completes. -/
theorem JumpsIndirect.completes {image : Mem} {t : ℕ} {sp : Sp}
    (h : clockState image t = some sp) (hjin : JumpsIndirect sp.spro)
    (hnum : sp.spro.alu0.toNat < 8) :
    ∃ sp', clockState image (t + 1) = some sp' ∧
      sp'.spro.pc = sp.spro.r (sp.spro.alu0.setWidth 3) &&& 0xFFFF := by
  have hinv := invariant_of_clockState h
  have hregs : nextRegisters sp.start sp.spro sp.sram.dataout = .ok
      { sp.spro with
        r := Function.update sp.spro.r 7 sp.spro.pc
        pc := sp.spro.r (sp.spro.alu0.setWidth 3) &&& 0xFFFF
        ctlState := .FETCH0
        cycleCounter := sp.spro.cycleCounter + 1 } := by
    rw [nextRegisters, switchCtlState, hjin.ctlState]
    simp only [ctlExec1_jin hjin.op, readReg, if_pos hnum, Except.map]
  obtain ⟨sp', ht, hspro, -⟩ := tick_silent hinv.dma hinv.stopSim
    (by simp [SpRegisters.halts, hjin.op]) hregs
    (by simp [SpRegisters.readAddr, hjin.ctlState])
    (by simp [SpRegisters.writeAddr, hjin.op])
  refine ⟨sp', (runFor_succ_of_eq h).trans ht, ?_⟩
  rw [hspro]
  rfl

/-- **When JIN is what it should be.** The indices stay in range and JIN goes to
the register's value exactly when every JIN reached is harmless. -/
theorem indicesContract_iff (image : Mem) :
    IndicesContract image ↔ ∀ t sp, clockState image t = some sp →
      JumpsIndirect sp.spro → JinHarmless sp.spro := by
  constructor
  · intro h t sp hsp hjin
    have hindex : sp.spro.alu0 ∈ sp.spro.registerIndices := by
      simp [SpRegisters.registerIndices, exec1Indices, hjin.ctlState, hjin.op]
    have hnum := toInt_le_seven_iff.mp (h.inRange t sp hsp _ hindex)
    have halu0 := hjin.alu0_eq hsp
    refine ⟨halu0 ▸ hnum, ?_⟩
    intro hsrc
    obtain ⟨sp', hsp', hpc⟩ := hjin.completes hsp hnum
    rw [operand_of_two_le hsrc] at halu0
    rw [← h.target t sp sp' hsp hjin hsrc hsp', hpc, halu0]
  · intro h
    constructor
    · intro t sp hsp i hi
      rw [toInt_le_seven_iff]
      rcases registerIndices_lt hi with hlt | ⟨hjin, rfl⟩
      · exact hlt
      · rw [hjin.alu0_eq hsp]
        exact (h t sp hsp hjin).number
    · intro t sp sp' hsp hjin hsrc hsp'
      have hharmless := h t sp hsp hjin
      have halu0 := hjin.alu0_eq hsp
      obtain ⟨sp₁, hsp₁, hpc⟩ := hjin.completes hsp (halu0 ▸ hharmless.number)
      obtain rfl : sp₁ = sp' := Option.some.inj (hsp₁.symm.trans hsp')
      rw [operand_of_two_le hsrc] at halu0
      rw [hpc, halu0, hharmless.named hsrc]

/-- `ADD r2, imm 9, 0; JIN r2`. -/
def jinImage : Mem := imageOf [0x00880009, 0x28100000]

/-- The JIN of clock 12 applies index 9 to the eight registers. -/
theorem jin_index_out : ¬IndicesContract jinImage := by
  intro h
  have hsp : ∃ sp, clockState jinImage 12 = some sp ∧ JumpsIndirect sp.spro ∧
      sp.spro.alu0 = 9 :=
    ⟨_, Option.eq_some_of_isSome (by decide +kernel),
      ⟨by decide +kernel, by decide +kernel⟩, by decide +kernel⟩
  obtain ⟨sp, hsp, hjin, hnine⟩ := hsp
  have hindex : sp.spro.alu0 ∈ sp.spro.registerIndices := by
    simp [SpRegisters.registerIndices, exec1Indices, hjin.ctlState, hjin.op]
  have hnum := toInt_le_seven_iff.mp (h.inRange 12 sp hsp _ hindex)
  rw [hnine] at hnum
  exact absurd hnum (by decide)

end SuperscalarProcessor.MultiCycle
