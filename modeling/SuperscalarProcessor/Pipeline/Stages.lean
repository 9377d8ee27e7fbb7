import SuperscalarProcessor.Isa
import SuperscalarProcessor.Llsim.Memory

/-!
# The pipelined processor: state and stages (`lab3_A/sp.c`)

`sp_registers_t` with one record for each stage: the field `exec0_pc` is
`exec0.pc`. Bit widths are those the source writes beside the fields. Every
stage function computes what `sp_ctl` assigns to one part of `sprn` from
`spro`; between clocks the two copies are equal, so a register that a branch
leaves alone keeps its `spro` value.
-/

namespace SuperscalarProcessor.Pipeline

open Llsim

/-! ## Registers -/

structure Fetch0 where
  active : Bool
  pc : Word
deriving DecidableEq

/-- The latches of FETCH1 and DEC0. -/
structure FetchLatch where
  active : Bool
  pc : Word
  inst : Word
deriving DecidableEq

structure Dec1 where
  active : Bool
  pc : Word
  inst : Word
  fields : Fields
  alu0 : Word
  alu1 : Word
deriving DecidableEq

/-- The latches of EXEC0 and EXEC1. -/
structure ExecLatch where
  active : Bool
  pc : Word
  inst : Word
  fields : Fields
  alu0 : Word
  alu1 : Word
  aluout : Word
deriving DecidableEq

/-- The DMA registers; `dma_start` is never read. -/
structure DmaRegs where
  len : Word
  busy : Word
  done : Word
  srcAddr : Word
  dstAddr : Word
  counter : Word
deriving DecidableEq

structure SpRegisters where
  r : RegFile
  cycleCounter : Word
  fetch0 : Fetch0
  fetch1 : FetchLatch
  dec0 : FetchLatch
  dec1 : Dec1
  exec0 : ExecLatch
  exec1 : ExecLatch
  dma : DmaRegs

/-! ## Decoding and the ALU -/

/-- DEC0's field extraction from the `int` `dec0_inst`. -/
def decodeFields (inst : Word) : Fields where
  opcode := (inst.sshiftRight 25 &&& 0x1F).setWidth 5
  dst := (inst.sshiftRight 22 &&& 0x07).setWidth 3
  src0 := (inst.sshiftRight 19 &&& 0x07).setWidth 3
  src1 := (inst.sshiftRight 16 &&& 0x07).setWidth 3
  immediate := ((inst &&& 0xFFFF).setWidth 16).signExtend 32

/-- The switch over the ALU opcodes, which `detect_hazards` and EXEC0 repeat;
`none` in the `default` case. -/
def aluResult (f : Fields) (alu0 alu1 : Word) : Option Word :=
  match f.op with
  | .ADD => some (alu0 + alu1)
  | .SUB => some (alu0 - alu1)
  | .LSF => some (alu0 <<< (alu1 &&& 31).toNat)
  | .RSF => some (alu0 >>> (alu1 &&& 31).toNat)
  | .AND => some (alu0 &&& alu1)
  | .OR => some (alu0 ||| alu1)
  | .XOR => some (alu0 ^^^ alu1)
  | .LHI => some (((f.immediate &&& 0xFFFF) <<< 16) ||| (alu0 &&& 0xFFFF))
  | _ => none

/-- `branch_taken` and `branch_target` for an instruction and its latched
operands. -/
def branchOf (f : Fields) (alu0 alu1 : Word) : Option Word :=
  match f.op with
  | .JLT | .JLE | .JEQ | .JNE =>
      if f.op.condHolds alu0 alu1 then some (f.immediate &&& 0xFFFF) else none
  | .JIN => some alu0
  | _ => none

/-! ## Hazard detection -/

/-- The hazard and forwarding signals of `sp_t`; a `forward_alu` flag and its
value are one option, and so are `branch_taken` and `branch_target`. -/
structure Hazards where
  stall : Bool
  flush : Bool
  branch : Option Word
  forwardAlu0 : Option Word
  forwardAlu1 : Option Word

/-- Priority 1: forward from EXEC1 to the source field `src` of DEC1. -/
def forwardExec1 (s : SpRegisters) (dataout : Word) (src : BitVec 3) :
    Option Word :=
  if s.exec1.active && 2#3 ≤ s.exec1.fields.dst && s.exec1.fields.dst == src then
    some (if s.exec1.fields.op = .LD then dataout else s.exec1.aluout)
  else none

/-- Priority 2: forward an ALU result recomputed from EXEC0. -/
def forwardExec0 (s : SpRegisters) (src : BitVec 3) : Option Word :=
  if s.exec0.active && 2#3 ≤ s.exec0.fields.dst && s.exec0.fields.dst == src then
    aluResult s.exec0.fields s.exec0.alu0 s.exec0.alu1
  else none

def forward (s : SpRegisters) (dataout : Word) (src : BitVec 3) : Option Word :=
  if s.dec1.active then (forwardExec1 s dataout src).or (forwardExec0 s src)
  else none

/-- A load in EXEC0 whose destination DEC1 names as a source. -/
def loadUseStall (s : SpRegisters) : Bool :=
  s.dec1.active && s.exec0.active && s.exec0.fields.op == .LD &&
    2#3 ≤ s.exec0.fields.dst &&
    (s.exec0.fields.dst == s.dec1.fields.src0 ||
      s.exec0.fields.dst == s.dec1.fields.src1)

def detectHazards (s : SpRegisters) (dataout : Word) : Hazards :=
  let branch :=
    if s.exec0.active then branchOf s.exec0.fields s.exec0.alu0 s.exec0.alu1
    else none
  { stall := loadUseStall s
    flush := branch.isSome
    branch := branch
    forwardAlu0 := forward s dataout s.dec1.fields.src0
    forwardAlu1 := forward s dataout s.dec1.fields.src1 }

/-! ## Stages -/

/-- EXEC1's write-back into the register file. -/
def writeBack (e : ExecLatch) (dataout : Word) (r : RegFile) : RegFile :=
  if e.active then
    match e.fields.op with
    | .ADD | .SUB | .LSF | .RSF | .AND | .OR | .XOR | .LHI =>
        if 2#3 ≤ e.fields.dst then Function.update r e.fields.dst e.aluout else r
    | .LD => if 2#3 ≤ e.fields.dst then Function.update r e.fields.dst dataout else r
    | .JLT | .JLE | .JEQ | .JNE =>
        -- the address of the jump itself is saved
        if e.fields.op.condHolds e.alu0 e.alu1 then Function.update r 7 e.pc else r
    | .JIN => Function.update r 7 e.pc
    | _ => r
  else r

/-- EXEC0 moves to EXEC1 in every clock, a stall included. -/
def promoteExec0 (e : ExecLatch) : ExecLatch :=
  { e with
    aluout :=
      if e.active then (aluResult e.fields e.alu0 e.alu1).getD e.aluout
      else e.aluout }

/-- EXEC0's request to the data memory. -/
def issueMemory (e : ExecLatch) (sramd : Memory) : Except Fault Memory :=
  if e.active then
    match e.fields.op with
    | .LD => llsimMemRead sramd e.alu1
    | .ST => llsimMemWrite (llsimMemSetDatain sramd e.alu0 31 0) e.alu1
    | _ => .ok sramd
  else .ok sramd

/-- DEC1: fresh operands from the register file, overridden by forwarding. -/
def stageDec1 (s : SpRegisters) (hz : Hazards) : ExecLatch :=
  if hz.stall then { s.exec0 with active := false }
  else if hz.flush then { s.exec0 with active := false }
  else
    { active := s.dec1.active
      pc := s.dec1.pc
      inst := s.dec1.inst
      fields := s.dec1.fields
      alu0 := hz.forwardAlu0.getD
        (operand s.r s.dec1.fields.immediate s.dec1.fields.src0)
      alu1 := hz.forwardAlu1.getD
        (operand s.r s.dec1.fields.immediate s.dec1.fields.src1)
      aluout := s.exec0.aluout }

/-- The operands DEC0 prepares; DEC1 reads them again from the registers. -/
def prepareOperands (r : RegFile) (f : Fields) : Word × Word :=
  match f.op with
  | .LD => (0, r f.src1)
  | .ST => (r f.src0, r f.src1)
  | .JLT | .JLE | .JEQ | .JNE => (r f.src0, r f.src1)
  | .JIN => (r f.dst, 0)
  | _ => (operand r f.immediate f.src0, operand r f.immediate f.src1)

def stageDec0 (s : SpRegisters) (hz : Hazards) : Dec1 :=
  if hz.stall then s.dec1
  else if hz.flush then { s.dec1 with active := false }
  else if s.dec0.active then
    let f := decodeFields s.dec0.inst
    { active := true
      pc := s.dec0.pc
      inst := s.dec0.inst
      fields := f
      alu0 := (prepareOperands s.r f).1
      alu1 := (prepareOperands s.r f).2 }
  else { s.dec1 with active := false, pc := s.dec0.pc, inst := s.dec0.inst }

def stageFetch1 (s : SpRegisters) (hz : Hazards) : FetchLatch :=
  if hz.stall then s.dec0
  else if hz.flush then { s.dec0 with active := false }
  else s.fetch1

def stageFetch0 (s : SpRegisters) (hz : Hazards) (srami : Memory) : FetchLatch :=
  if hz.stall then s.fetch1
  else if hz.flush then { s.fetch1 with active := false }
  else
    { active := s.fetch0.active
      pc := s.fetch0.pc
      inst :=
        if s.fetch0.active then llsimMemExtract srami s.fetch0.pc 31 0
        else s.fetch1.inst }

def nextFetch0 (s : SpRegisters) (hz : Hazards) : Fetch0 :=
  if hz.stall then s.fetch0
  else
    { active := true
      pc := if s.fetch0.active then hz.branch.getD (s.fetch0.pc + 1) else 0 }

/-- FETCH0's request to the instruction memory: the address fetched in this
clock, not the next one. -/
def issueFetch (s : SpRegisters) (hz : Hazards) (srami : Memory) : Memory :=
  if hz.stall then srami
  else
    { srami with
      read := s.fetch0.active
      readAddr :=
        if s.fetch0.active then s.fetch0.pc else (nextFetch0 s hz).pc }

/-- The DMA block copies inside the data memory, past its port. -/
def stageDma (d : DmaRegs) (sramd : Memory) : DmaRegs × Memory :=
  if d.busy ≠ 0 ∧ d.done = 0 then
    if d.counter.slt d.len then
      let data := llsimMemExtract sramd (d.srcAddr + d.counter) 31 0
      ({ d with counter := d.counter + 1 },
        llsimMemInject sramd (d.dstAddr + d.counter) data 31 0)
    else ({ d with done := 1, busy := 0 }, sramd)
  else (d, sramd)

end SuperscalarProcessor.Pipeline
