import SuperscalarProcessor.Foundation.StepRuns
import SuperscalarProcessor.Isa
import SuperscalarProcessor.Llsim.Memory

/-!
# The multi-cycle processor (`lab2/sp.c`)

One instruction at a time passes through the control states FETCH0 to EXEC1,
one clock each. Each `ctl` function computes what `sp_ctl` assigns to `sprn` in
one control state; between clocks the two copies of the registers are equal, so
a register that a state leaves alone keeps its `spro` value. The DMA engine runs
after `sp_ctl` on the same `sprn`.
-/

namespace SuperscalarProcessor.MultiCycle

open Llsim Foundation

/-! ## Registers -/

inductive CtlState where
  | IDLE
  | FETCH0
  | FETCH1
  | DEC0
  | DEC1
  | EXEC0
  | EXEC1
deriving DecidableEq, Repr

/-- `dma_state`: 0, 1 and 2. -/
inductive DmaState where
  | IDLE
  | READ
  | WRITE
deriving DecidableEq, Repr

structure SpRegisters where
  r : RegFile
  pc : Word
  inst : Word
  -- opcode, dst, src0, src1 and immediate
  fields : Fields
  alu0 : Word
  alu1 : Word
  aluout : Word
  cycleCounter : Word
  ctlState : CtlState
  dmaState : DmaState
  dmaSrc : Word
  dmaDst : Word
  dmaLen : Word
  dmaCount : Word

/-! ## The control states -/

def ctlIdle (start : Bool) (s : SpRegisters) : SpRegisters :=
  { s with pc := 0, ctlState := if start then .FETCH0 else s.ctlState }

def ctlFetch0 (s : SpRegisters) : SpRegisters := { s with ctlState := .FETCH1 }

def ctlFetch1 (s : SpRegisters) (dataout : Word) : SpRegisters :=
  { s with inst := dataout, ctlState := .DEC0 }

/-- The 16-bit immediate, sign-extended by hand. -/
def signExtend (imm : Word) : Word :=
  if imm &&& 0x8000 ≠ 0 then imm ||| 0xFFFF0000 else imm

/-- DEC0's field extraction from the `int` `inst`. -/
def decodeFields (inst : Word) : Fields where
  opcode := (inst.sshiftRight 25 &&& 0x1F).setWidth 5
  dst := (inst.sshiftRight 22 &&& 0x7).setWidth 3
  src0 := (inst.sshiftRight 19 &&& 0x7).setWidth 3
  src1 := (inst.sshiftRight 16 &&& 0x7).setWidth 3
  immediate := signExtend (inst &&& 0xFFFF)

def ctlDec0 (s : SpRegisters) : SpRegisters :=
  { s with fields := decodeFields s.inst, ctlState := .DEC1 }

/-- The operands of DEC1; LHI replaces both selected ones. -/
def decOperands (f : Fields) (r : RegFile) : Word × Word :=
  if f.op = .LHI then (0, f.immediate)
  else (operand r f.immediate f.src0, operand r f.immediate f.src1)

def ctlDec1 (s : SpRegisters) : SpRegisters :=
  { s with
    alu0 := (decOperands s.fields s.r).1
    alu1 := (decOperands s.fields s.r).2
    ctlState := .EXEC0 }

/-- The `aluout` of EXEC0; jumps leave their condition in it. -/
def exec0Aluout (op : Opcode) (alu0 alu1 : Word) : Except Fault Word :=
  match op with
  | .ADD => .ok (alu0 + alu1)
  | .SUB => .ok (alu0 - alu1)
  | .LSF => (shiftAmount alu1).map fun n => alu0 <<< n
  | .RSF => (shiftAmount alu1).map fun n => alu0.sshiftRight n
  | .AND => .ok (alu0 &&& alu1)
  | .OR => .ok (alu0 ||| alu1)
  | .XOR => .ok (alu0 ^^^ alu1)
  | .LHI => .ok ((alu1 <<< 16) ||| (alu0 &&& 0xFFFF))
  | .JLT | .JLE | .JEQ | .JNE => .ok (if op.condHolds alu0 alu1 then 1 else 0)
  | .ST => .ok alu1
  | _ => .ok 0

def ctlExec0 (s : SpRegisters) : Except Fault SpRegisters :=
  (exec0Aluout s.fields.op s.alu0 s.alu1).map fun aluout =>
    { s with aluout := aluout, ctlState := .EXEC1 }

/-- The body that the cases ADD to LHI of EXEC1 share. -/
def writeAluout (s : SpRegisters) (r : RegFile) : RegFile :=
  if s.fields.dst ≠ 0 then Function.update r s.fields.dst s.aluout else r

/-- How many of these cases run: only LHI's ends in a `break`. -/
def aluCases : Opcode → ℕ
  | .ADD => 8
  | .SUB => 7
  | .LSF => 6
  | .RSF => 5
  | .AND => 4
  | .OR => 3
  | .XOR => 2
  | .LHI => 1
  | _ => 0

/-- `r[i]` for an `int` index. -/
def readReg (r : RegFile) (i : Word) : Except Fault Word :=
  if i.toNat < 8 then .ok (r (i.setWidth 3)) else .error (.outOfBounds i)

/-- The `pc` of the instruction that follows in memory. -/
def SpRegisters.pcPlusOne (s : SpRegisters) : Word := (s.pc + 1) &&& 0xFFFF

def ctlExec1 (s : SpRegisters) (dataout : Word) : Except Fault SpRegisters :=
  match s.fields.op with
  | .DMA_START => .ok
      { s with
        dmaSrc := s.r s.fields.src0
        dmaDst := s.r s.fields.src1
        dmaLen := s.fields.immediate
        dmaCount := 0
        dmaState := .READ
        pc := s.pcPlusOne
        ctlState := .FETCH0 }
  | .DMA_STATUS => .ok
      { s with
        r := if s.fields.dst ≠ 0 then
            Function.update s.r s.fields.dst (if s.dmaState ≠ .IDLE then 1 else 0)
          else s.r
        pc := s.pcPlusOne
        ctlState := .FETCH0 }
  | .ADD | .SUB | .LSF | .RSF | .AND | .OR | .XOR | .LHI => .ok
      { s with
        r := (writeAluout s)^[aluCases s.fields.op] s.r
        pc := s.pcPlusOne
        ctlState := .FETCH0 }
  | .LD => .ok
      { s with
        r := Function.update s.r s.fields.dst dataout
        pc := s.pcPlusOne
        ctlState := .FETCH0 }
  | .JLT | .JLE | .JEQ | .JNE => .ok
      (if s.aluout = 1 then
        { s with
          r := Function.update s.r 7 s.pc
          pc := s.fields.immediate &&& 0xFFFF
          ctlState := .FETCH0 }
      else { s with pc := s.pcPlusOne, ctlState := .FETCH0 })
  | .JIN =>
      -- the operand is used as the number of the register to jump to
      (readReg s.r s.alu0).map fun target =>
        { s with
          r := Function.update s.r 7 s.pc
          pc := target &&& 0xFFFF
          ctlState := .FETCH0 }
  | .HLT => .ok { s with ctlState := .IDLE }
  | .ST | .U => .ok { s with pc := s.pcPlusOne, ctlState := .FETCH0 }

/-! ## One clock -/

/-- `sp_t`, with the stop flag and the output file. -/
structure Sp where
  sram : Memory
  spro : SpRegisters
  sprn : SpRegisters
  start : Bool
  stopSim : Bool
  sramOut : Option Dump

/-- HLT in EXEC1. -/
def SpRegisters.halts (s : SpRegisters) : Bool :=
  s.ctlState == .EXEC1 && s.fields.op == .HLT

/-- The `switch` over the control states. -/
def switchCtlState (start : Bool) (s : SpRegisters) (dataout : Word) :
    Except Fault SpRegisters :=
  match s.ctlState with
  | .IDLE => .ok (ctlIdle start s)
  | .FETCH0 => .ok (ctlFetch0 s)
  | .FETCH1 => .ok (ctlFetch1 s dataout)
  | .DEC0 => .ok (ctlDec0 s)
  | .DEC1 => .ok (ctlDec1 s)
  | .EXEC0 => ctlExec0 s
  | .EXEC1 => ctlExec1 s dataout

/-- `sprn` after `sp_ctl`; no control state touches the cycle counter. -/
def nextRegisters (start : Bool) (s : SpRegisters) (dataout : Word) :
    Except Fault SpRegisters :=
  (switchCtlState start s dataout).map fun sprn =>
    { sprn with cycleCounter := s.cycleCounter + 1 }

/-- The memory requests of `sp_ctl`. -/
def request (s : SpRegisters) (sram : Memory) : Except Fault Memory :=
  match s.ctlState with
  | .FETCH0 => llsimMemRead sram s.pc
  | .EXEC0 => if s.fields.op = .LD then llsimMemRead sram s.alu1 else .ok sram
  | .EXEC1 =>
      if s.fields.op = .ST then
        llsimMemWrite (llsimMemSetDatain sram s.alu0 31 0) s.aluout
      else .ok sram
  | _ => .ok sram

def spCtl (sp : Sp) : Except Fault Sp := do
  let sprn ← nextRegisters sp.start sp.spro (llsimMemExtractDataout sp.sram 31 0)
  let sram ← request sp.spro sp.sram
  let halts := sp.spro.halts
  pure
    { sp with
      sram := sram
      sprn := sprn
      stopSim := sp.stopSim || halts
      sramOut := if halts then some (dumpSram sp.sram) else sp.sramOut }

/-- "Carry over registers": the DMA registers of `sprn` are overwritten. -/
def carryDma (spro sprn : SpRegisters) : SpRegisters :=
  { sprn with
    dmaState := spro.dmaState
    dmaSrc := spro.dmaSrc
    dmaDst := spro.dmaDst
    dmaLen := spro.dmaLen
    dmaCount := spro.dmaCount }

/-- The DMA part of `sp_run`. -/
def dmaFsm (sp : Sp) : Except Fault Sp :=
  let sprn := carryDma sp.spro sp.sprn
  match sp.spro.dmaState with
  | .IDLE => .ok { sp with sprn := sprn }
  | .READ =>
      (llsimMemRead sp.sram (sp.spro.dmaSrc + sp.spro.dmaCount)).map fun sram =>
        { sp with sram := sram, sprn := { sprn with dmaState := .WRITE } }
  | .WRITE =>
      let w := llsimMemExtractDataout sp.sram 31 0
      (llsimMemWrite (llsimMemSetDatain sp.sram w 31 0)
        (sp.spro.dmaDst + sp.spro.dmaCount)).map fun sram =>
          { sp with
            sram := sram
            sprn := { sprn with
              dmaCount := sp.spro.dmaCount + 1
              dmaState :=
                if (sp.spro.dmaCount + 1).slt sp.spro.dmaLen then .READ
                else .IDLE } }

/-- `memset(sprn, 0, sizeof(*sprn))`. -/
def zeroRegisters : SpRegisters where
  r := fun _ => 0
  pc := 0
  inst := 0
  fields := ⟨0, 0, 0, 0, 0⟩
  alu0 := 0
  alu1 := 0
  aluout := 0
  cycleCounter := 0
  ctlState := .IDLE
  dmaState := .IDLE
  dmaSrc := 0
  dmaDst := 0
  dmaLen := 0
  dmaCount := 0

def spReset (sp : Sp) : Sp := { sp with sprn := zeroRegisters }

def spRun (reset : Bool) (sp : Sp) : Except Fault Sp :=
  if reset then .ok (spReset sp)
  else do
    let sp ← spCtl { sp with sram := quiet sp.sram }
    dmaFsm sp

def llsimRunClock (reset : Bool) (sp : Sp) : Except Fault Sp := do
  let sp ← spRun reset sp
  let sram ← memPhase sp.sram
  pure { sp with sram := sram, spro := sp.sprn }

/-- `sp_init` once the image is loaded. -/
def spInit (image : Mem) : Sp where
  sram := llsimAllocateMemory .sram image
  spro := zeroRegisters
  sprn := zeroRegisters
  start := true
  stopSim := false
  sramOut := none

/-- The five reset clocks of `main`. -/
def resetClocks : ℕ → Sp → Option Sp :=
  runFor fun sp => (llsimRunClock true sp).toOption

/-- One turn of the main loop. -/
def tick (sp : Sp) : Option Sp :=
  match llsimRunClock false sp with
  | .ok sp' => if sp'.stopSim then none else some sp'
  | .error _ => none

/-- The state in which clock `t` after reset starts, if the run gets there. -/
def clockState (image : Mem) (t : ℕ) : Option Sp :=
  (resetClocks 5 (spInit image)).bind (runFor tick t)

/-- The state the reset clocks leave. -/
def resetState (image : Mem) : Sp :=
  { spInit image with
    sram := { llsimAllocateMemory .sram image with dataout := idleDataout } }

theorem clockState_eq (image : Mem) (t : ℕ) :
    clockState image t = runFor tick t (resetState image) := rfl

end SuperscalarProcessor.MultiCycle
