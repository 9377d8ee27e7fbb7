import SuperscalarProcessor.Bounds
import SuperscalarProcessor.Comparison

/-!
# The instruction level of the multi-cycle processor

What a program of `lab2` can observe, for every program: one instruction in six
clocks, and the clock in which a step fails an assertion, or is one that C leaves
undefined and that the model does not carry on from. Programs that rewrite
themselves are included, and so are the DMA opcodes, which do next to nothing.
-/

namespace SuperscalarProcessor.MultiCycle

open Llsim Foundation

open Pipeline (Arch)

/-! ## The instruction-level machine -/

/-- The fields of the instruction at `pc`. -/
def fieldsAt (a : Arch) : Fields := decodeFields (a.mem a.pc.toNat)

def alu0At (a : Arch) : Word := (decOperands (fieldsAt a) a.r).1

def alu1At (a : Arch) : Word := (decOperands (fieldsAt a) a.r).2

/-- The results of ADD to LHI. -/
def aluValue (op : Opcode) (alu0 alu1 : Word) : Word :=
  match op with
  | .ADD => alu0 + alu1
  | .SUB => alu0 - alu1
  | .LSF => alu0 <<< alu1.toNat
  | .RSF => alu0.sshiftRight alu1.toNat
  | .AND => alu0 &&& alu1
  | .OR => alu0 ||| alu1
  | .XOR => alu0 ^^^ alu1
  | .LHI => (alu1 <<< 16) ||| (alu0 &&& 0xFFFF)
  | _ => 0

/-- A write to any register but r0. -/
def writeReg (r : RegFile) (dst : BitVec 3) (value : Word) : RegFile :=
  if dst ≠ 0 then Function.update r dst value else r

/-- What an instruction without a fault leaves that is not HLT. -/
def nextArch (a : Arch) : Arch :=
  match (fieldsAt a).op with
  | .ADD | .SUB | .LSF | .RSF | .AND | .OR | .XOR | .LHI =>
      { a with
        pc := (a.pc + 1) &&& 0xFFFF
        r := writeReg a.r (fieldsAt a).dst
          (aluValue (fieldsAt a).op (alu0At a) (alu1At a)) }
  | .LD =>
      { a with
        pc := (a.pc + 1) &&& 0xFFFF
        r := Function.update a.r (fieldsAt a).dst (a.mem (alu1At a).toNat) }
  | .ST =>
      { a with
        pc := (a.pc + 1) &&& 0xFFFF
        mem := Function.update a.mem (alu1At a).toNat (alu0At a) }
  | .JLT | .JLE | .JEQ | .JNE =>
      if (fieldsAt a).op.condHolds (alu0At a) (alu1At a) then
        { a with
          pc := (fieldsAt a).immediate &&& 0xFFFF
          r := Function.update a.r 7 a.pc }
      else { a with pc := (a.pc + 1) &&& 0xFFFF }
  | .JIN =>
      { a with
        pc := a.r ((alu0At a).setWidth 3) &&& 0xFFFF
        r := Function.update a.r 7 a.pc }
  -- the engine is idle whenever the program looks
  | .DMA_STATUS =>
      { a with
        pc := (a.pc + 1) &&& 0xFFFF
        r := writeReg a.r (fieldsAt a).dst 0 }
  | .DMA_START | .HLT | .U => { a with pc := (a.pc + 1) &&& 0xFFFF }

/-- Why an access to `addr` is not made: `failed` is the assertion, a negative address
passes it and leaves the array. -/
def addressFault (failed : MemName → Word → Fault) (addr : Word) : Option Fault :=
  if ¬addr.toInt < spSramHeight then some (failed .sram addr)
  else if addr.toInt < 0 then some (.outOfBounds addr)
  else none

/-- In which of its clocks, counted from FETCH0, an instruction fails an assertion or
gets to an access or shift that C leaves undefined, and which. -/
def faultAt (a : Arch) : Option (ℕ × Fault) :=
  match (fieldsAt a).op with
  | .LSF | .RSF =>
      if (alu1At a).toNat < 32 then none
      else some (4, .undefinedShift (alu1At a))
  | .LD => (addressFault .readOutOfRange (alu1At a)).map fun f => (4, f)
  | .ST => (addressFault .writeOutOfRange (alu1At a)).map fun f => (5, f)
  | .JIN =>
      if (alu0At a).toNat < 8 then none else some (5, .outOfBounds (alu0At a))
  | _ => none

def haltsAt (a : Arch) : Bool := (fieldsAt a).op == .HLT

def archStep (a : Arch) : Option Arch :=
  if haltsAt a then none
  else if (faultAt a).isSome then none
  else some (nextArch a)

def archInit (image : Mem) : Arch := ⟨0, fun _ => 0, image⟩

/-- The state before instruction `n`, if the machine gets there. -/
def archState (image : Mem) (n : ℕ) : Option Arch :=
  runFor archStep n (archInit image)

/-! ## An instruction that completes -/

theorem addressFault_eq_none_iff {failed : MemName → Word → Fault} {addr : Word} :
    addressFault failed addr = none ↔ InRange addr := by
  unfold addressFault InRange
  split_ifs with hhigh hlow
  · simp [hlow]
  · simp [hhigh, not_lt.mp hlow]
  · simp [hhigh]

/-- What keeps an instruction from its faults. -/
structure Faultless (a : Arch) : Prop where
  addr : (fieldsAt a).op = .LD ∨ (fieldsAt a).op = .ST → InRange (alu1At a)
  shift : (fieldsAt a).op = .LSF ∨ (fieldsAt a).op = .RSF →
    (alu1At a).toNat < 32
  index : (fieldsAt a).op = .JIN → (alu0At a).toNat < 8

theorem faultAt_eq_none_iff {a : Arch} : faultAt a = none ↔ Faultless a := by
  have hbounds : Faultless a ↔
      ((fieldsAt a).op = .LD ∨ (fieldsAt a).op = .ST → InRange (alu1At a)) ∧
      ((fieldsAt a).op = .LSF ∨ (fieldsAt a).op = .RSF →
        (alu1At a).toNat < 32) ∧
      ((fieldsAt a).op = .JIN → (alu0At a).toNat < 8) :=
    ⟨fun ⟨h₁, h₂, h₃⟩ => ⟨h₁, h₂, h₃⟩, fun ⟨h₁, h₂, h₃⟩ => ⟨h₁, h₂, h₃⟩⟩
  rw [hbounds]
  unfold faultAt
  cases hop : (fieldsAt a).op <;> simp [addressFault_eq_none_iff]

section Instructions

variable {sp : Sp}

theorem exec0Aluout_aluValue (halu : sp.fields.isAlu = true)
    (hok : Faultless sp.arch) :
    exec0Aluout sp.fields.op sp.alu0 sp.alu1 =
      .ok (aluValue sp.fields.op sp.alu0 sp.alu1) := by
  have hshift : sp.fields.op = .LSF ∨ sp.fields.op = .RSF →
      sp.alu1.toNat < 32 := hok.shift
  unfold Fields.isAlu at halu
  unfold exec0Aluout aluValue shiftAmount
  cases hop : sp.fields.op <;> simp only [hop, Bool.false_eq_true] at halu hshift ⊢
  case LSF => rw [if_pos (hshift (Or.inl trivial))]; rfl
  case RSF => rw [if_pos (hshift (Or.inr trivial))]; rfl

theorem dataAfter_of_ne (hop : sp.fields.op ≠ .ST) : sp.dataAfter = sp.sram.data :=
  if_neg hop

/-- Six clocks whose EXEC1 leaves the next state of the instruction level. -/
theorem completes_of_clocks {aluout : Word} {s₆ : SpRegisters} (h : Ready sp)
    (hpc : InRange sp.spro.pc)
    (halu : exec0Aluout sp.fields.op sp.alu0 sp.alu1 = .ok aluout)
    (haddr : sp.fields.op = .LD ∨ sp.fields.op = .ST → InRange sp.alu1)
    (hrun : sp.fields.op ≠ .HLT)
    (hexec1 : ctlExec1 (sp.atExec1 aluout) (sp.sram.data sp.alu1.toNat) = .ok s₆)
    (hnext : nextArch sp.arch = ⟨s₆.pc, s₆.r, sp.dataAfter⟩) :
    ∃ sp', runFor tick 6 sp = some sp' ∧ Ready sp' ∧ sp'.arch = nextArch sp.arch := by
  obtain ⟨sp', hclocks, hready, hr, hpc', hdata⟩ :=
    six_clocks h hpc halu haddr hrun hexec1
  refine ⟨sp', hclocks, hready, ?_⟩
  rw [Sp.arch, hr, hpc', hdata, hnext]

theorem completes_alu (h : Ready sp) (hpc : InRange sp.spro.pc)
    (halu : sp.fields.isAlu = true) (hok : Faultless sp.arch) :
    ∃ sp', runFor tick 6 sp = some sp' ∧ Ready sp' ∧ sp'.arch = nextArch sp.arch := by
  obtain ⟨hld, hst, hhlt⟩ := Fields.op_of_isAlu halu
  refine completes_of_clocks h hpc (exec0Aluout_aluValue halu hok)
    (by simp [hld, hst]) hhlt (ctlExec1_alu halu _) ?_
  rw [dataAfter_of_ne hst]
  have hfields : (fieldsAt sp.arch).op = sp.fields.op := rfl
  unfold Fields.isAlu at halu
  unfold nextArch
  rw [hfields]
  cases hop : sp.fields.op <;> simp only [hop, Bool.false_eq_true] at halu ⊢ <;> rfl

theorem completes_jump (h : Ready sp) (hpc : InRange sp.spro.pc)
    (hjump : isCondJump sp.fields.op = true) :
    ∃ sp', runFor tick 6 sp = some sp' ∧ Ready sp' ∧ sp'.arch = nextArch sp.arch := by
  obtain ⟨-, hld, hst, hhlt, -, -⟩ := op_of_isCondJump hjump
  refine completes_of_clocks h hpc (exec0Aluout_jump hjump _ _)
    (by simp [hld, hst]) hhlt (ctlExec1_jump hjump _) ?_
  have hfields : (fieldsAt sp.arch).op = sp.fields.op := rfl
  have hnext : nextArch sp.arch =
      if sp.fields.op.condHolds sp.alu0 sp.alu1 then
        { sp.arch with
          pc := sp.fields.immediate &&& 0xFFFF
          r := Function.update sp.spro.r 7 sp.spro.pc }
      else { sp.arch with pc := (sp.spro.pc + 1) &&& 0xFFFF } := by
    unfold isCondJump at hjump
    unfold nextArch
    rw [hfields]
    cases hop : sp.fields.op <;> simp only [hop, Bool.false_eq_true] at hjump ⊢ <;>
      rfl
  rw [hnext, dataAfter_of_ne hst]
  cases sp.fields.op.condHolds sp.alu0 sp.alu1 <;> rfl

theorem completes_jin (h : Ready sp) (hpc : InRange sp.spro.pc)
    (hop : sp.fields.op = .JIN) (hok : Faultless sp.arch) :
    ∃ sp', runFor tick 6 sp = some sp' ∧ Ready sp' ∧ sp'.arch = nextArch sp.arch := by
  have hfields : (fieldsAt sp.arch).op = .JIN := hop
  have hindex : sp.alu0.toNat < 8 := hok.index hop
  have hexec1 : ctlExec1 (sp.atExec1 0) (sp.sram.data sp.alu1.toNat) = .ok
      { sp.atExec1 0 with
        r := Function.update sp.spro.r 7 sp.spro.pc
        pc := sp.spro.r (sp.alu0.setWidth 3) &&& 0xFFFF
        ctlState := .FETCH0 } := by
    rw [ctlExec1_jin hop, readReg]
    exact congrArg (Except.map _) (if_pos hindex)
  refine completes_of_clocks h hpc (by rw [hop]; rfl) (by simp [hop])
    (by simp [hop]) hexec1 ?_
  rw [dataAfter_of_ne (by simp [hop])]
  unfold nextArch
  simp only [hfields]
  rfl

/-- **One instruction in six clocks**, whatever it is. -/
theorem completes (h : Ready sp) (hpc : InRange sp.spro.pc)
    (hrun : haltsAt sp.arch = false) (hok : Faultless sp.arch) :
    ∃ sp', runFor tick 6 sp = some sp' ∧ Ready sp' ∧ sp'.arch = nextArch sp.arch := by
  have hhlt : sp.fields.op ≠ .HLT := beq_eq_false_iff_ne.mp hrun
  have hfields : (fieldsAt sp.arch).op = sp.fields.op := rfl
  cases hop : sp.fields.op
  case HLT => exact absurd hop hhlt
  case JIN => exact completes_jin h hpc hop hok
  case JLT | JLE | JEQ | JNE => exact completes_jump h hpc (by rw [hop]; rfl)
  case LD =>
    have haddr : InRange sp.alu1 := hok.addr (Or.inl hop)
    have hopAt : (sp.atExec1 0).fields.op = .LD := hop
    refine @completes_of_clocks _ 0 _ h hpc (by rw [hop]; rfl) (fun _ => haddr)
      hhlt (by unfold ctlExec1; simp only [hopAt]; rfl) ?_
    rw [dataAfter_of_ne (by simp [hop])]
    unfold nextArch
    simp only [hfields, hop]
    rfl
  case ST =>
    have haddr : InRange sp.alu1 := hok.addr (Or.inr hop)
    have hopAt : (sp.atExec1 sp.alu1).fields.op = .ST := hop
    refine @completes_of_clocks _ sp.alu1 _ h hpc (by rw [hop]; rfl)
      (fun _ => haddr) hhlt (by unfold ctlExec1; simp only [hopAt]; rfl) ?_
    rw [Sp.dataAfter, if_pos hop]
    unfold nextArch
    simp only [hfields, hop]
    rfl
  case DMA_STATUS =>
    have hopAt : (sp.atExec1 0).fields.op = .DMA_STATUS := hop
    refine @completes_of_clocks _ 0 _ h hpc (by rw [hop]; rfl) (by simp [hop])
      hhlt (by unfold ctlExec1; simp only [hopAt]; rfl) ?_
    have hidle : (sp.atExec1 0).dmaState = .IDLE := h.dma
    rw [dataAfter_of_ne (by simp [hop]), hidle]
    unfold nextArch
    simp only [hfields, hop]
    rfl
  case DMA_START | U =>
    have hopAt : (sp.atExec1 0).fields.op = _ := hop
    refine @completes_of_clocks _ 0 _ h hpc (by rw [hop]; rfl) (by simp [hop])
      hhlt (by unfold ctlExec1; simp only [hopAt]; rfl) ?_
    rw [dataAfter_of_ne (by simp [hop])]
    unfold nextArch
    simp only [hfields, hop]
    rfl
  all_goals exact completes_alu h hpc (by rw [Fields.isAlu, hop]) hok

end Instructions

/-! ## An instruction with a fault -/

theorem request_name {s : SpRegisters} {m m₁ : Memory}
    (h : request s (quiet m) = .ok m₁) : m₁.name = m.name := by
  cases hr : s.readAddr with
  | some a =>
      rw [request_read hr] at h
      obtain rfl := Except.ok.inj h
      rfl
  | none =>
      cases hw : s.writeAddr with
      | some a =>
          rw [request_write hw] at h
          obtain rfl := Except.ok.inj h
          rfl
      | none =>
          rw [request_none hr hw] at h
          obtain rfl := Except.ok.inj h
          rfl

section Faults

variable {sp sp' : Sp} {s' : SpRegisters} {m : Memory} {f : Fault}

/-- A clock that `sp_ctl` completes is decided by the memory's turn. -/
theorem llsimRunClock_of_request (hdma : sp.spro.dmaState = .IDLE)
    (hregs : nextRegisters sp.start sp.spro sp.sram.dataout = .ok s')
    (hreq : request sp.spro (quiet sp.sram) = .ok m) :
    llsimRunClock false sp = (memPhase m).map fun sram =>
      { sp with
        sram := sram
        spro := carryDma sp.spro s'
        sprn := carryDma sp.spro s'
        stopSim := sp.stopSim || sp.spro.halts
        sramOut :=
          if sp.spro.halts then some (dumpSram (quiet sp.sram))
          else sp.sramOut } := by
  unfold llsimRunClock
  rw [spRun_idle_dma hdma hregs hreq]
  simp only [bind, Except.bind, pure, Except.pure]
  cases memPhase m <;> rfl

/-- The memory keeps its name. -/
theorem name_of_tick (hdma : sp.spro.dmaState = .IDLE) (h : tick sp = some sp') :
    sp'.sram.name = sp.sram.name := by
  obtain ⟨-, s', hregs, -⟩ := regs_of_tick hdma h
  obtain ⟨m, hreq⟩ := request_total sp.spro sp.sram
  have hclock := (llsimRunClock_of_tick h).1
  rw [llsimRunClock_of_request hdma hregs hreq] at hclock
  cases hphase : memPhase m with
  | error f => rw [hphase] at hclock; cases hclock
  | ok m' =>
      rw [hphase] at hclock
      obtain rfl := Except.ok.inj hclock
      exact (memPhase_name hphase).trans (request_name hreq)

theorem name_of_clockState {image : Mem} {t : ℕ} {sp : Sp}
    (h : clockState image t = some sp) : sp.sram.name = .sram := by
  induction t generalizing sp with
  | zero =>
      obtain rfl := Option.some.inj h
      rfl
  | succ t ih =>
      obtain ⟨sp₀, h₀, ht⟩ := runFor_pred h
      rw [name_of_tick (invariant_of_clockState h₀).dma ht]
      exact ih h₀

/-- The assertion, or a negative address behind it. -/
theorem addressFault_eq_some_iff {failed : MemName → Word → Fault} {a : Word} :
    addressFault failed a = some f ↔
      (¬a.toInt < spSramHeight ∧ f = failed .sram a) ∨
        (a.toInt < spSramHeight ∧ a.toInt < 0 ∧ f = .outOfBounds a) := by
  unfold addressFault
  by_cases hhigh : a.toInt < spSramHeight <;>
    by_cases hlow : a.toInt < 0 <;> simp [hhigh, hlow, eq_comm]

theorem memPhase_read_error {a : Word} (hname : m.name = .sram)
    (hf : addressFault .readOutOfRange a = some f) :
    memPhase { quiet m with read := true, readAddr := a } = .error f := by
  rcases addressFault_eq_some_iff.mp hf with ⟨hhigh, rfl⟩ | ⟨hhigh, hlow, rfl⟩
  · rw [← hname]
    simp [memPhase, serveRead, hhigh, bind, Except.bind]
    rfl
  · simp [memPhase, serveRead, hhigh, hlow, bind, Except.bind]

theorem memPhase_write_error {a d : Word} (hname : m.name = .sram)
    (hf : addressFault .writeOutOfRange a = some f) :
    memPhase { quiet m with datain := d, write := true, writeAddr := a } =
      .error f := by
  rcases addressFault_eq_some_iff.mp hf with ⟨hhigh, rfl⟩ | ⟨hhigh, hlow, rfl⟩
  · rw [← hname]
    simp [memPhase, serveRead, serveWrite, hhigh, bind, Except.bind]
    rfl
  · simp [memPhase, serveRead, serveWrite, hhigh, hlow, bind, Except.bind]

/-- A clock whose request is served in vain. -/
theorem llsimRunClock_of_memPhase_error (hdma : sp.spro.dmaState = .IDLE)
    (hregs : nextRegisters sp.start sp.spro sp.sram.dataout = .ok s')
    (hreq : request sp.spro (quiet sp.sram) = .ok m) (hphase : memPhase m = .error f) :
    llsimRunClock false sp = .error f := by
  rw [llsimRunClock_of_request hdma hregs hreq, hphase]
  rfl

theorem fails_shift (h : Ready sp) (hpc : InRange sp.spro.pc)
    (hop : sp.fields.op = .LSF ∨ sp.fields.op = .RSF)
    (hshift : ¬sp.alu1.toNat < 32) :
    ∃ sp₄, runFor tick 4 sp = some sp₄ ∧
      llsimRunClock false sp₄ = .error (.undefinedShift sp.alu1) := by
  obtain ⟨sp₄, hrun, hspro, -, -⟩ := four_clocks h hpc
  have halu : exec0Aluout sp.fields.op sp.alu0 sp.alu1 =
      .error (.undefinedShift sp.alu1) := by
    rcases hop with hop | hop <;> rw [hop] <;>
      simp only [exec0Aluout, shiftAmount, if_neg hshift] <;> rfl
  have hctl : sp₄.spro.ctlState = .EXEC0 := by rw [hspro]; rfl
  refine ⟨sp₄, hrun, llsimRunClock_error ?_⟩
  have halu₄ : exec0Aluout sp.atExec0.fields.op sp.atExec0.alu0
      sp.atExec0.alu1 = .error (.undefinedShift sp.alu1) := halu
  rw [nextRegisters, switchCtlState, hctl, hspro]
  simp only [ctlExec0, halu₄, Except.map]

theorem fails_load {image : Mem} {t : ℕ} (hsp : clockState image t = some sp)
    (h : Ready sp) (hpc : InRange sp.spro.pc) (hop : sp.fields.op = .LD)
    (hf : addressFault .readOutOfRange sp.alu1 = some f) :
    ∃ sp₄, runFor tick 4 sp = some sp₄ ∧ llsimRunClock false sp₄ = .error f := by
  obtain ⟨sp₄, hrun, hspro, -, -⟩ := four_clocks h hpc
  have hsp₄ : clockState image (t + 4) = some sp₄ :=
    (runFor_add_of_eq hsp).trans hrun
  have hctl : sp₄.spro.ctlState = .EXEC0 := by rw [hspro]; rfl
  have hopAt : sp.atExec0.fields.op = .LD := hop
  have halu₄ : exec0Aluout sp.atExec0.fields.op sp.atExec0.alu0
      sp.atExec0.alu1 = .ok 0 := by rw [hopAt]; rfl
  have hread : sp₄.spro.readAddr = some sp.alu1 := by
    rw [hspro]
    exact if_pos hop
  refine ⟨sp₄, hrun, @llsimRunClock_of_memPhase_error _ (sp.atExec1 0) _ _
    (by rw [hspro]; exact h.dma) ?_ (request_read hread _)
    (memPhase_read_error (name_of_clockState hsp₄) hf)⟩
  rw [nextRegisters, switchCtlState, hctl, hspro]
  simp only [ctlExec0, halu₄, Except.map]
  rfl

theorem fails_store {image : Mem} {t : ℕ} (hsp : clockState image t = some sp)
    (h : Ready sp) (hpc : InRange sp.spro.pc) (hop : sp.fields.op = .ST)
    (hf : addressFault .writeOutOfRange sp.alu1 = some f) :
    ∃ sp₅, runFor tick 5 sp = some sp₅ ∧ llsimRunClock false sp₅ = .error f := by
  have halu : exec0Aluout sp.fields.op sp.alu0 sp.alu1 = .ok sp.alu1 := by
    rw [hop]
    rfl
  obtain ⟨sp₅, hrun, hspro, -, -, -⟩ :=
    five_clocks h hpc halu (by simp [hop])
  have hsp₅ : clockState image (t + 5) = some sp₅ :=
    (runFor_add_of_eq hsp).trans hrun
  have hctl : sp₅.spro.ctlState = .EXEC1 := by rw [hspro]; rfl
  have hopAt : (sp.atExec1 sp.alu1).fields.op = .ST := hop
  have hwrite : sp₅.spro.writeAddr = some sp.alu1 := by
    rw [hspro, Sp.atExec1_writeAddr halu, if_pos hop]
  have hexec1 : ∃ s₆, ctlExec1 sp₅.spro sp₅.sram.dataout = .ok s₆ := by
    rw [hspro]
    unfold ctlExec1
    simp only [hopAt]
    exact ⟨_, rfl⟩
  obtain ⟨s₆, hexec1⟩ := hexec1
  refine ⟨sp₅, hrun, @llsimRunClock_of_memPhase_error _
    { s₆ with cycleCounter := sp₅.spro.cycleCounter + 1 } _ _
    (by rw [hspro]; exact h.dma) ?_ (request_write hwrite _)
    (memPhase_write_error (name_of_clockState hsp₅) hf)⟩
  rw [nextRegisters, switchCtlState, hctl, hexec1]
  rfl

/-- **The fault of an instruction, and its clock.** -/
theorem fails {image : Mem} {t j : ℕ} (hsp : clockState image t = some sp)
    (h : Ready sp) (hpc : InRange sp.spro.pc)
    (hf : faultAt sp.arch = some (j, f)) :
    ∃ spj, runFor tick j sp = some spj ∧ llsimRunClock false spj = .error f := by
  have hfields : (fieldsAt sp.arch).op = sp.fields.op := rfl
  have halu0 : alu0At sp.arch = sp.alu0 := rfl
  have halu1 : alu1At sp.arch = sp.alu1 := rfl
  unfold faultAt at hf
  rw [hfields, halu0, halu1] at hf
  cases hop : sp.fields.op <;> simp only [hop] at hf
  case LSF | RSF =>
    split_ifs at hf with hshift
    obtain ⟨rfl, rfl⟩ := Prod.mk.inj (Option.some.inj hf)
    exact fails_shift h hpc (by simp [hop]) hshift
  case LD =>
    obtain ⟨f', hf', heq⟩ := Option.map_eq_some_iff.mp hf
    obtain ⟨rfl, rfl⟩ := Prod.mk.inj heq
    exact fails_load hsp h hpc hop hf'
  case ST =>
    obtain ⟨f', hf', heq⟩ := Option.map_eq_some_iff.mp hf
    obtain ⟨rfl, rfl⟩ := Prod.mk.inj heq
    exact fails_store hsp h hpc hop hf'
  case JIN =>
    split_ifs at hf with hindex
    obtain ⟨rfl, rfl⟩ := Prod.mk.inj (Option.some.inj hf)
    refine six_clocks_error h hpc (by rw [hop]; rfl) (by simp [hop]) ?_
    rw [ctlExec1_jin hop, readReg]
    exact congrArg (Except.map _) (if_neg hindex)
  all_goals cases hf

end Faults

/-! ## Every run of every image -/

/-- The processor is about to fetch the next instruction of the instruction
level, on its state. -/
structure Stands (a : Arch) (sp : Sp) : Prop where
  ready : Ready sp
  arch : sp.arch = a
  pc : a.pc.toNat < 65536

theorem pcMasked_lt (x : Word) : (x &&& 0xFFFF).toNat < 65536 := by
  rw [lowHalf_toNat]
  exact Nat.mod_lt _ (by decide)

/-- Every new pc is masked, so no fetch fails. -/
theorem nextArch_pc_lt (a : Arch) : (nextArch a).pc.toNat < 65536 := by
  unfold nextArch
  cases (fieldsAt a).op
  case JLT | JLE | JEQ | JNE =>
    simp only
    split_ifs <;> exact pcMasked_lt _
  all_goals exact pcMasked_lt _

theorem Stands.inRange {a : Arch} {sp : Sp} (h : Stands a sp) :
    InRange sp.spro.pc := by
  have hpc := h.pc
  rw [← h.arch] at hpc
  exact inRange_iff.mpr hpc

theorem stands_init (image : Mem) :
    ∃ sp, clockState image 1 = some sp ∧ Stands (archInit image) sp := by
  obtain ⟨sp, ht, hregs, hdata, hstop⟩ := @tick_silent (resetState image)
    { ctlIdle true zeroRegisters with cycleCounter := zeroRegisters.cycleCounter + 1 }
    rfl rfl rfl rfl rfl rfl
  refine ⟨sp, ht, ⟨?_, ?_, hstop⟩, ?_, ?_⟩
  · rw [hregs]
    rfl
  · rw [hregs]
    rfl
  · rw [Sp.arch, hregs, hdata]
    rfl
  · show (0 : Word).toNat < 65536
    decide

theorem faultAt_lt {a : Arch} {j : ℕ} {f : Fault} (h : faultAt a = some (j, f)) :
    j < 6 := by
  unfold faultAt at h
  cases hop : (fieldsAt a).op <;> simp only [hop] at h
  case LSF | RSF | JIN =>
    split_ifs at h
    obtain ⟨rfl, -⟩ := Prod.mk.inj (Option.some.inj h)
    decide
  case LD | ST =>
    obtain ⟨_, _, heq⟩ := Option.map_eq_some_iff.mp h
    obtain ⟨rfl, -⟩ := Prod.mk.inj heq
    decide
  all_goals cases h

section Runs

variable {image : Mem} {t : ℕ} {a : Arch} {sp : Sp}

/-- HLT stops the run in its sixth clock. -/
theorem Stands.halts (h : Stands a sp) (hhalt : haltsAt a = true) :
    ∃ sp₅ sp₆ sp₆', runFor tick 5 sp = some sp₅ ∧ sp₅.spro.halts = true ∧
      spRun false sp₅ = .ok sp₆ ∧ sp₆.sramOut = some (memoryDump a.mem) ∧
      llsimRunClock false sp₅ = .ok sp₆' ∧ tick sp₅ = none := by
  have harch := h.arch
  rw [← harch] at hhalt
  have hop : sp.fields.op = .HLT := beq_iff_eq.mp hhalt
  obtain ⟨sp₅, sp₆, hrun, hspRun, -, hout, sp₆', hclock, hstop, -, -⟩ :=
    halt_clocks h.ready h.inRange hop
  obtain ⟨sp₅', hrun', hspro, -, -, -⟩ := @five_clocks _ 0 h.ready h.inRange
    (by rw [hop]; rfl) (by simp [hop])
  obtain rfl := Option.some.inj (hrun.symm.trans hrun')
  have hmem : sp.sram.data = a.mem := congrArg Arch.mem harch
  refine ⟨sp₅, sp₆, sp₆', hrun, ?_, hspRun, hmem ▸ hout, hclock, ?_⟩
  · rw [hspro]
    show (true && sp.fields.op == .HLT) = true
    rw [hop]
    rfl
  · rw [tick, hclock]
    exact if_pos hstop

theorem Stands.next (hsp : clockState image t = some sp) (h : Stands a sp) :
    Option.Rel Stands (archStep a) (runFor tick 6 sp) := by
  have harch := h.arch
  unfold archStep
  cases hhalt : haltsAt a with
  | true =>
      obtain ⟨sp₅, -, -, hrun, -, -, -, -, hstop⟩ := h.halts hhalt
      rw [runFor_succ_of_eq hrun, hstop]
      exact .none
  | false =>
      cases hfault : faultAt a with
      | some p =>
          obtain ⟨j, f⟩ := p
          rw [← harch] at hfault
          obtain ⟨spj, hrun, herr⟩ := fails hsp h.ready h.inRange hfault
          have hend : runFor tick (j + 1) sp = none := by
            rw [runFor_succ_of_eq hrun]
            exact tick_of_error herr
          rw [runFor_none_of_le (faultAt_lt hfault) hend]
          exact .none
      | none =>
          rw [← harch] at hhalt hfault
          obtain ⟨sp', hrun, hready, hnext⟩ :=
            completes h.ready h.inRange hhalt (faultAt_eq_none_iff.mp hfault)
          rw [hrun]
          refine .some ⟨hready, ?_, nextArch_pc_lt a⟩
          rw [hnext, harch]

/-- The two machines side by side, from FETCH0 of clock 1. -/
theorem Stands.runs {sp₁ : Sp} (h₁ : clockState image 1 = some sp₁)
    (hstands : Stands (archInit image) sp₁) (n : ℕ) :
    Option.Rel Stands (archState image n) (runFor tick (6 * n) sp₁) := by
  refine runFor_bisimulation hstands ?_ n
  intro m a sp hsp hs
  have hclock : clockState image (1 + 6 * m) = some sp :=
    (runFor_add_of_eq h₁).trans hsp
  exact hs.next hclock

theorem stands_of_archState {n : ℕ} (h : archState image n = some a) :
    ∃ sp, clockState image (1 + 6 * n) = some sp ∧ Stands a sp := by
  obtain ⟨sp₁, h₁, hinit⟩ := stands_init image
  obtain ⟨sp, hsp, hstands⟩ := exists_right_of_rel (hinit.runs h₁ n) h
  exact ⟨sp, (runFor_add_of_eq h₁).trans hsp, hstands⟩

theorem archState_of_clockState {n : ℕ}
    (h : clockState image (1 + 6 * n) = some sp) :
    ∃ a, archState image n = some a ∧ Stands a sp := by
  obtain ⟨sp₁, h₁, hinit⟩ := stands_init image
  exact exists_left_of_rel (hinit.runs h₁ n) ((runFor_add_of_eq h₁).symm.trans h)

end Runs

/-- **The processor and the instruction level run alike.** For every image and
every `n`, either both get to instruction `n`, the processor in FETCH0 of clock
`1 + 6 n` on the same pc, registers and memory, or neither does. -/
theorem processor_bisimulates (image : Mem) (n : ℕ) :
    Option.Rel Stands (archState image n) (clockState image (1 + 6 * n)) := by
  cases ha : archState image n with
  | some a =>
      obtain ⟨sp, hsp, hstands⟩ := stands_of_archState ha
      rw [hsp]
      exact .some hstands
  | none =>
      cases hsp : clockState image (1 + 6 * n) with
      | none => exact .none
      | some sp =>
          obtain ⟨a, ha', -⟩ := archState_of_clockState hsp
          cases ha.symm.trans ha'

/-! ## The fate of a run -/

/-- HLT is in EXEC1 in clock `t` and writes `out` to the output file. -/
def DumpsAt (image : Mem) (t : ℕ) (out : Dump) : Prop :=
  ∃ sp sp', clockState image t = some sp ∧ sp.spro.halts = true ∧
    spRun false sp = .ok sp' ∧ sp'.sramOut = some out

/-- Clock `t` is reached, and `f` is the assertion that fails in it or the step that
C leaves undefined there. -/
def FailsAt (image : Mem) (t : ℕ) (f : Fault) : Prop :=
  ∃ sp, clockState image t = some sp ∧ llsimRunClock false sp = .error f

section Fate

variable {image : Mem} {t n j : ℕ} {sp : Sp}

/-- A clock after the first belongs to an instruction of the instruction level. -/
theorem instruction_of_clock (h : clockState image (t + 1) = some sp) :
    ∃ a sp₀, archState image (t / 6) = some a ∧
      clockState image (1 + 6 * (t / 6)) = some sp₀ ∧ Stands a sp₀ ∧
      runFor tick (t % 6) sp₀ = some sp := by
  have hsplit : 1 + 6 * (t / 6) + t % 6 = t + 1 := by omega
  obtain ⟨sp₀, h₀⟩ := runFor_isSome_of_le (show 1 + 6 * (t / 6) ≤ t + 1 by omega) h
  have h₀ : clockState image (1 + 6 * (t / 6)) = some sp₀ := h₀
  obtain ⟨a, ha, hstands⟩ := archState_of_clockState h₀
  refine ⟨a, sp₀, ha, h₀, hstands, ?_⟩
  rw [← hsplit] at h
  exact (runFor_add_of_eq h₀).symm.trans h

theorem tick_of_later {sp₀ sp' : Sp} {m : ℕ} (hrun : runFor tick j sp₀ = some sp)
    (hlater : runFor tick m sp₀ = some sp') (hj : j < m) :
    ∃ sp'', tick sp = some sp'' := by
  obtain ⟨sp'', h⟩ := runFor_isSome_of_le (Nat.succ_le_of_lt hj) hlater
  rw [runFor_succ_of_eq hrun] at h
  exact ⟨sp'', h⟩

/-- A run ends inside an instruction only at HLT or at its fault. -/
theorem Stands.ends {a : Arch} {sp₀ : Sp} (hsp₀ : clockState image t = some sp₀)
    (h : Stands a sp₀) (hrun : runFor tick j sp₀ = some sp) (hj : j < 6)
    (hend : tick sp = none) :
    (haltsAt a = true ∧ j = 5 ∧ sp.spro.halts = true ∧
      (∃ sp', spRun false sp = .ok sp' ∧
        sp'.sramOut = some (memoryDump a.mem)) ∧
      ∃ sp', llsimRunClock false sp = .ok sp') ∨
    ∃ f, faultAt a = some (j, f) ∧ llsimRunClock false sp = .error f := by
  have goesOn : ∀ {m sp'}, runFor tick m sp₀ = some sp' → ¬j < m := by
    intro m sp' hlater hlt
    obtain ⟨sp'', h''⟩ := tick_of_later hrun hlater hlt
    rw [hend] at h''
    cases h''
  cases hhalt : haltsAt a with
  | true =>
      left
      obtain ⟨sp₅, sp₆, sp₆', hrun₅, hhalts, hspRun, hout, hclock, -⟩ :=
        h.halts hhalt
      have hfive := goesOn hrun₅
      obtain rfl : j = 5 := by omega
      obtain rfl := Option.some.inj (hrun.symm.trans hrun₅)
      exact ⟨rfl, rfl, hhalts, ⟨sp₆, hspRun, hout⟩, sp₆', hclock⟩
  | false =>
      right
      cases hfault : faultAt a with
      | none =>
          rw [← h.arch] at hhalt hfault
          obtain ⟨sp', hrun₆, -⟩ :=
            completes h.ready h.inRange hhalt (faultAt_eq_none_iff.mp hfault)
          exact absurd hj (goesOn hrun₆)
      | some p =>
          obtain ⟨i, f⟩ := p
          have hfault' := hfault
          rw [← h.arch] at hfault'
          obtain ⟨spi, hruni, herr⟩ := fails hsp₀ h.ready h.inRange hfault'
          have hlate := goesOn hruni
          have hearly : ¬i < j := by
            intro hlt
            obtain ⟨sp'', h''⟩ := tick_of_later hruni hrun hlt
            rw [tick_of_error herr] at h''
            cases h''
          obtain rfl : j = i := by omega
          obtain rfl := Option.some.inj (hrun.symm.trans hruni)
          exact ⟨f, rfl, herr⟩

end Fate

theorem archState_of_dumpsAt {image : Mem} {t : ℕ} {out : Dump}
    (h : DumpsAt image t out) : ∃ n a, archState image n = some a ∧
      haltsAt a = true ∧ t = 6 + 6 * n ∧ out = memoryDump a.mem := by
  obtain ⟨sp, sp', h, hhalt, hspRun, hout⟩ := h
  cases t with
  | zero =>
      obtain rfl := Option.some.inj h
      cases hhalt
  | succ t =>
      obtain ⟨a, sp₀, ha, h₀, hstands, hrun⟩ := instruction_of_clock h
      have hend : tick sp = none := by
        cases ht : tick sp with
        | none => rfl
        | some sp'' =>
            have hno := (regs_of_tick (invariant_of_clockState h).dma ht).1
            rw [hhalt] at hno
            cases hno
      rcases hstands.ends h₀ hrun (Nat.mod_lt t (by decide)) hend with
        ⟨hhalts, hfive, -, ⟨sp₁, hspRun₁, hdump⟩, -⟩ | ⟨f, -, herr⟩
      · obtain rfl := Except.ok.inj (hspRun.symm.trans hspRun₁)
        refine ⟨t / 6, a, ha, hhalts, by omega, ?_⟩
        exact Option.some.inj (hout.symm.trans hdump)
      · obtain ⟨sp'', hok, -⟩ :=
          clock_of_halts (invariant_of_clockState h).dma hhalt
        cases hok.symm.trans herr

theorem dumpsAt_of_haltsAt {image : Mem} {n : ℕ} {a : Arch}
    (ha : archState image n = some a) (hhalt : haltsAt a = true) :
    DumpsAt image (6 + 6 * n) (memoryDump a.mem) := by
  obtain ⟨sp₀, h₀, hstands⟩ := stands_of_archState ha
  obtain ⟨sp₅, sp₆, -, hrun, hhalts, hspRun, hout, -, -⟩ := hstands.halts hhalt
  refine ⟨sp₅, sp₆, ?_, hhalts, hspRun, hout⟩
  rw [show 6 + 6 * n = 1 + 6 * n + 5 by omega]
  exact (runFor_add_of_eq h₀).trans hrun

/-- **Which runs end in a dump, when and with what.** -/
theorem processor_dumpsAt_iff (image : Mem) (t : ℕ) (out : Dump) :
    DumpsAt image t out ↔ ∃ n a, archState image n = some a ∧
      haltsAt a = true ∧ t = 6 + 6 * n ∧ out = memoryDump a.mem := by
  refine ⟨archState_of_dumpsAt, ?_⟩
  rintro ⟨n, a, ha, hhalt, rfl, rfl⟩
  exact dumpsAt_of_haltsAt ha hhalt

/-- **Which runs come to a fault, when and to which.** The range assertion fails at a
data address from 65536; a negative one passes it, and with that access, a shift by 32
or more and a JIN to a register that does not exist the processor takes a step that C
leaves undefined. Neither port assertion nor the fetch's ever fails. -/
theorem processor_failsAt_iff (image : Mem) (t : ℕ) (f : Fault) :
    FailsAt image t f ↔ ∃ n a j, archState image n = some a ∧
      faultAt a = some (j, f) ∧ t = 1 + 6 * n + j := by
  constructor
  · rintro ⟨sp, h, herr⟩
    cases t with
    | zero =>
        obtain ⟨sp', h', -⟩ := stands_init image
        obtain ⟨sp₀, h₀, ht⟩ := @runFor_pred _ tick 0 (resetState image) _ h'
        obtain rfl := Option.some.inj (h₀.symm.trans h)
        rw [tick_of_error herr] at ht
        cases ht
    | succ t =>
        obtain ⟨a, sp₀, ha, h₀, hstands, hrun⟩ := instruction_of_clock h
        rcases hstands.ends h₀ hrun (Nat.mod_lt t (by decide)) (tick_of_error herr)
          with ⟨-, -, -, -, sp'', hok⟩ | ⟨f', hfault, herr'⟩
        · cases hok.symm.trans herr
        · obtain rfl := Except.error.inj (herr.symm.trans herr')
          exact ⟨t / 6, a, t % 6, ha, hfault, by omega⟩
  · rintro ⟨n, a, j, ha, hfault, rfl⟩
    obtain ⟨sp₀, h₀, hstands⟩ := stands_of_archState ha
    rw [← hstands.arch] at hfault
    obtain ⟨spj, hrun, herr⟩ := fails h₀ hstands.ready hstands.inRange hfault
    exact ⟨spj, (runFor_add_of_eq h₀).trans hrun, herr⟩

end SuperscalarProcessor.MultiCycle
