import SuperscalarProcessor.Foundation.StepRuns
import SuperscalarProcessor.Pipeline.Stages

/-!
# The pipelined processor: one clock and the main loop

`sp_ctl`, `sp_run`, `llsim_run_clock` and the loops of `main`. `tick` is one
turn of `while (!stop_sim)`: it yields the state in which the next clock starts,
or nothing when the simulation has been stopped or has ended in a fault.
-/

namespace SuperscalarProcessor.Pipeline

open Llsim Foundation

/-- `sp_t` with what the simulator keeps beside it: the stop flag and the two
output files. -/
structure Sp where
  srami : Memory
  sramd : Memory
  spro : SpRegisters
  sprn : SpRegisters
  stopSim : Bool
  sramiOut : Option Dump
  sramdOut : Option Dump

/-- HLT in EXEC1 of the present clock. -/
def SpRegisters.halts (s : SpRegisters) : Bool :=
  s.exec1.active && s.exec1.fields.op == .HLT

theorem SpRegisters.halts_iff (s : SpRegisters) :
    s.halts = true ↔ s.exec1.active = true ∧ s.exec1.fields.op = .HLT := by
  simp [SpRegisters.halts]

/-- `sprn` after `sp_ctl`; `dma` is what the DMA block leaves. -/
def nextRegisters (s : SpRegisters) (dataout : Word) (srami : Memory)
    (dma : DmaRegs) : SpRegisters :=
  let hz := detectHazards s dataout
  { r := writeBack s.exec1 dataout s.r
    cycleCounter := s.cycleCounter + 1
    fetch0 := nextFetch0 s hz
    fetch1 := stageFetch0 s hz srami
    dec0 := stageFetch1 s hz
    dec1 := stageDec0 s hz
    exec0 := stageDec1 s hz
    exec1 := promoteExec0 s.exec0
    dma := dma }

/-- `sp_ctl` without its printing. The trace that EXEC1 prints reads `sramd` too:
`tracedClock` is a clock with that read. -/
def spCtl (sp : Sp) : Except Fault Sp := do
  let dataout := llsimMemExtractDataout sp.sramd 31 0
  -- EXEC1: HLT dumps both memories before this clock's requests are served
  let halts := sp.spro.halts
  let sramiOut := if halts then some (dumpSram sp.srami) else sp.sramiOut
  let sramdOut := if halts then some (dumpSram sp.sramd) else sp.sramdOut
  -- EXEC0
  let sramd ← issueMemory sp.spro.exec0 sp.sramd
  -- FETCH0 and the DMA block
  let srami := issueFetch sp.spro (detectHazards sp.spro dataout) sp.srami
  let (dma, sramd) := stageDma sp.spro.dma sramd
  pure
    { srami := srami
      sramd := sramd
      spro := sp.spro
      sprn := nextRegisters sp.spro dataout sp.srami dma
      stopSim := sp.stopSim || halts
      sramiOut := sramiOut
      sramdOut := sramdOut }

def zeroExecLatch : ExecLatch where
  active := false
  pc := 0
  inst := 0
  fields := ⟨0, 0, 0, 0, 0⟩
  alu0 := 0
  alu1 := 0
  aluout := 0

/-- `memset(sprn, 0, sizeof(*sprn))`. -/
def zeroRegisters : SpRegisters where
  r := fun _ => 0
  cycleCounter := 0
  fetch0 := ⟨false, 0⟩
  fetch1 := ⟨false, 0, 0⟩
  dec0 := ⟨false, 0, 0⟩
  dec1 := ⟨false, 0, 0, ⟨0, 0, 0, 0, 0⟩, 0, 0⟩
  exec0 := zeroExecLatch
  exec1 := zeroExecLatch
  dma := ⟨0, 0, 0, 0, 0, 0⟩

def spReset (sp : Sp) : Sp := { sp with sprn := zeroRegisters }

def spRun (reset : Bool) (sp : Sp) : Except Fault Sp :=
  if reset then .ok (spReset sp)
  else
    spCtl { sp with
      srami := { sp.srami with read := false, write := false }
      sramd := { sp.sramd with read := false, write := false } }

/-- The unit runs, its memories are served (`sramd` heads the list), and the new
registers become the old ones. -/
def llsimRunClock (reset : Bool) (sp : Sp) : Except Fault Sp := do
  let sp ← spRun reset sp
  let sramd ← memPhase sp.sramd
  let srami ← memPhase sp.srami
  pure { sp with sramd := sramd, srami := srami, spro := sp.sprn }

/-- `sp_init` once the images are loaded: all registers clear. -/
def spInit (imem dmem : Mem) : Sp where
  srami := llsimAllocateMemory .srami imem
  sramd := llsimAllocateMemory .sramd dmem
  spro := zeroRegisters
  sprn := zeroRegisters
  stopSim := false
  sramiOut := none
  sramdOut := none

/-- The five reset clocks of `main`. -/
def resetClocks : ℕ → Sp → Option Sp :=
  runFor fun sp => (llsimRunClock true sp).toOption

/-- One turn of the main loop. -/
def tick (sp : Sp) : Option Sp :=
  match llsimRunClock false sp with
  | .ok sp' => if sp'.stopSim then none else some sp'
  | .error _ => none

/-- The state in which clock `t` after reset starts, if the run gets there. -/
def clockState (imem dmem : Mem) (t : ℕ) : Option Sp :=
  (resetClocks 5 (spInit imem dmem)).bind (runFor tick t)

/-! ## Reset -/

/-- The state the reset clocks leave. -/
def resetState (imem dmem : Mem) : Sp :=
  { spInit imem dmem with
    srami := { llsimAllocateMemory .srami imem with dataout := idleDataout }
    sramd := { llsimAllocateMemory .sramd dmem with dataout := idleDataout } }

theorem resetClocks_eq (imem dmem : Mem) :
    resetClocks 5 (spInit imem dmem) = some (resetState imem dmem) := rfl

theorem clockState_eq (imem dmem : Mem) (t : ℕ) :
    clockState imem dmem t = runFor tick t (resetState imem dmem) := by
  rw [clockState, resetClocks_eq]
  rfl

/-- The state at clock `t` of a run known to get there. -/
def stateAt (imem dmem : Mem) (t : ℕ) : Sp :=
  (clockState imem dmem t).getD (resetState imem dmem)

theorem clockState_eq_stateAt {imem dmem : Mem} {t : ℕ}
    (h : (clockState imem dmem t).isSome) :
    clockState imem dmem t = some (stateAt imem dmem t) := by
  obtain ⟨sp, hsp⟩ := Option.isSome_iff_exists.mp h
  rw [stateAt, hsp]
  rfl

/-- A run that ends by clock `n` has a property throughout if it has it in the
clocks before. -/
theorem clockState_forall {imem dmem : Mem} {p : Sp → Bool} (n : ℕ)
    (hend : (clockState imem dmem n).isNone)
    (hall : ∀ t < n, (clockState imem dmem t).all p) {t : ℕ} {sp : Sp}
    (h : clockState imem dmem t = some sp) : p sp = true :=
  runFor_forall n hend hall h

end SuperscalarProcessor.Pipeline
