import SuperscalarProcessor.Pipeline.Footprint
import SuperscalarProcessor.Pipeline.TraceFile
import SuperscalarProcessor.ProgramRuns

/-!
# The trace files

Both versions of the instruction set simulator write a line for each instruction
once it is executed, the pipeline writes one before. On a program that all
simulators run alike the files tell the same run: the same instructions, and with
the next one of the pipeline the registers that the simulators print with this one.
-/

namespace SuperscalarProcessor

open Llsim Foundation

open Pipeline (Arch TraceEntry bypassTrace bypassClock bypassEntries)

/-! ## `trace_instruction` of the instruction set simulators -/

/-- What the first line for an instruction shows, in all trace files. The pc is printed
in hexadecimal by the instruction set simulators (`PC: %04x`) and in decimal by the
pipeline (`pc = %04d`). -/
structure TraceHeading where
  pc : Word
  inst : Word
  opStr : String
  opcode : BitVec 5
  dst : BitVec 3
  src0 : BitVec 3
  src1 : BitVec 3
  immediate : BitVec 16
  deriving DecidableEq

/-- What one call prints. -/
structure Iss.TraceLine where
  heading : TraceHeading
  reg : RegFile

def Iss.traceInstruction (inst currentPc : Word) (reg : RegFile) : Iss.TraceLine :=
  let f := Iss.decode inst
  { heading :=
      { pc := currentPc
        inst := inst
        opStr := Pipeline.opStr f.op
        opcode := f.opcode
        dst := f.dst
        src0 := f.src0
        src1 := f.src1
        immediate := (inst &&& 0xFFFF).setWidth 16 }
    reg := reg }

/-- `trace.txt` behind `n` turns of the loop. The instruction is the one before the
turn, the registers are those behind it. -/
def Iss.traceFile (step : Iss.State → Option Iss.State) (image : Mem) :
    ℕ → List Iss.TraceLine
  | 0 => []
  | n + 1 =>
      match runFor step n (Iss.init image), runFor step (n + 1) (Iss.init image) with
      | some s, some s' =>
          Iss.traceFile step image n ++
            [Iss.traceInstruction (s.mem s.pc.toNat) s.pc s'.reg]
      | _, _ => Iss.traceFile step image n

def Pipeline.TraceEntry.heading (e : TraceEntry) : TraceHeading :=
  { pc := e.pc
    inst := e.inst
    opStr := e.opStr
    opcode := e.fields.opcode
    dst := e.fields.dst
    src0 := e.fields.src0
    src1 := e.fields.src1
    immediate := e.imm16 }

/-- The printed registers that are no operand and no return address. -/
def printed (reg : RegFile) : List Word := [reg 2, reg 3, reg 4, reg 5, reg 6]

/-! ## One instruction -/

/-- The pipeline is before the instruction that the simulator is before. -/
structure Mirrors (image : Mem) (s : Iss.State) (a : Arch) : Prop where
  pc : a.pc = s.pc
  word : s.mem s.pc.toNat = image s.pc.toNat
  regs : ∀ i, 2#3 ≤ i → i ≠ 7 → a.r i = s.reg i

section Instruction

variable {image : Mem} {s : Iss.State} {k : ℕ}

theorem Mirrors.heading (h : Mirrors image s (bypassTrace image image k).arch)
    (reg : RegFile) :
    ((bypassTrace image image k).entry image k).heading =
      (Iss.traceInstruction (s.mem s.pc.toNat) s.pc reg).heading := by
  rw [h.word, ← h.pc]
  rfl

/-- Only r1 is replaced for printing. -/
theorem regsForPrint_of_ne (f : Fields) (regs : RegFile) {i : BitVec 3} (hi : i ≠ 1) :
    Pipeline.regsForPrint f regs i = regs i := by
  unfold Pipeline.regsForPrint
  split_ifs
  · exact Function.update_of_ne hi _ _
  · rfl

theorem Mirrors.printed (h : Mirrors image s (bypassTrace image image k).arch) :
    printed ((bypassTrace image image k).entry image k).regsForPrint = printed s.reg := by
  have hreg : ∀ i, 2#3 ≤ i → i ≠ 1 → i ≠ 7 →
      ((bypassTrace image image k).entry image k).regsForPrint i = s.reg i :=
    fun i htwo hone hseven => (regsForPrint_of_ne _ _ hone).trans (h.regs i htwo hseven)
  unfold SuperscalarProcessor.printed
  rw [hreg 2, hreg 3, hreg 4, hreg 5, hreg 6] <;> decide

end Instruction

/-! ## Whole runs -/

section Runs

variable {image : Mem} {step : Iss.State → Option Iss.State} {n : ℕ} {s s' : Iss.State}

/-- Another turn writes another line. -/
theorem traceFile_succ_eq (hs : runFor step n (Iss.init image) = some s)
    (hs' : runFor step (n + 1) (Iss.init image) = some s') :
    Iss.traceFile step image (n + 1) = Iss.traceFile step image n ++
      [Iss.traceInstruction (s.mem s.pc.toNat) s.pc s'.reg] := by
  rw [Iss.traceFile, hs, hs']

/-- The states before the first `n` instructions and HLT mirror each other. -/
structure MirroredRun (step : Iss.State → Option Iss.State) (image : Mem) (n : ℕ) :
    Prop where
  mirrors : ∀ k ≤ n, ∃ s, runFor step k (Iss.init image) = some s ∧
    Mirrors image s (bypassTrace image image k).arch
  last : ∃ s, runFor step (n + 1) (Iss.init image) = some s

theorem MirroredRun.state (h : MirroredRun step image n) {k : ℕ} (hk : k ≤ n + 1) :
    ∃ s, runFor step k (Iss.init image) = some s := by
  obtain ⟨s, hs⟩ := h.last
  exact runFor_isSome_of_le hk hs

/-- The same instructions. -/
theorem MirroredRun.headings (h : MirroredRun step image n) {k : ℕ} (hk : k ≤ n + 1) :
    (Iss.traceFile step image k).map (fun line => line.heading) =
      (bypassEntries image image k).map (fun entry => entry.heading) := by
  induction k with
  | zero => rfl
  | succ k ih =>
      obtain ⟨s, hs, hmirrors⟩ := h.mirrors k (Nat.le_of_succ_le_succ hk)
      obtain ⟨s', hs'⟩ := h.state hk
      rw [traceFile_succ_eq hs hs', Pipeline.bypassEntries_succ, List.map_append,
        List.map_append, ih (Nat.le_of_succ_le hk)]
      exact congrArg (_ ++ [·]) (hmirrors.heading s'.reg).symm

theorem tail_bypassEntries_succ (image : Mem) (k : ℕ) :
    (bypassEntries image image (k + 2)).tail = (bypassEntries image image (k + 1)).tail ++
      [(bypassTrace image image (k + 1)).entry image (k + 1)] := by
  rw [Pipeline.bypassEntries_succ]
  refine List.tail_append_of_ne_nil ?_
  simp [bypassEntries]

/-- The registers behind an instruction are those before the next. -/
theorem MirroredRun.registers (h : MirroredRun step image n) {k : ℕ} (hk : k ≤ n) :
    (Iss.traceFile step image k).map (fun line => printed line.reg) =
      (bypassEntries image image (k + 1)).tail.map
        (fun entry => printed entry.regsForPrint) := by
  induction k with
  | zero => rfl
  | succ k ih =>
      obtain ⟨s, hs⟩ := h.state (Nat.le_succ_of_le (Nat.le_of_succ_le hk))
      obtain ⟨s', hs', hmirrors⟩ := h.mirrors (k + 1) hk
      rw [traceFile_succ_eq hs hs', tail_bypassEntries_succ, List.map_append,
        List.map_append, ih (Nat.le_of_succ_le hk)]
      exact congrArg (_ ++ [·]) hmirrors.printed.symm

end Runs

section Supported

variable {image : Mem} {n k : ℕ} {s s' t : Iss.State}

/-- The states of the later version mirror the bypass machine's. -/
theorem mirrors_of_later (h : SupportedRun image n s s')
    (hsuits : ∀ k a, k ≤ n → Programs.stateAfter image k = some a →
      SuitsPipeline image a)
    (hfresh : ∀ i, i + 2 ≤ n → ¬Pipeline.StaleRead image image i)
    (hk : k ≤ n) (ht : Iss.stateAfter image k = some t) :
    Mirrors image t (bypassTrace image image k).arch := by
  obtain ⟨a, hrun, -⟩ := h.commonRun hsuits hfresh
  obtain ⟨u, -, hu, hlive, -⟩ := h.later_last
  obtain ⟨sp, hsp, hagree⟩ := agrees_of_iss (fun j b hj hb => h.later_supported (by omega) hb)
    ht (Iss.live_of_le hu hlive hk ht)
  have htwin := hrun.twin hk hsp
  have hword := (hrun.common k sp.arch hk hsp).word
  have hpc : sp.arch.pc = t.pc := hagree.pc
  have hmem : sp.arch.mem = t.mem := hagree.mem
  rw [(hrun.bypassTrace_eq hk).1]
  rw [hpc, hmem] at hword
  exact ⟨htwin.pc.trans hpc, hword,
    fun i htwo hseven => (htwin.r i htwo).trans (hagree.regs i htwo hseven)⟩

theorem Mirrors.earlier {a : Arch} (h : Mirrors image t a)
    (hs : Programs.SameButLink s t) : Mirrors image s a := by
  refine ⟨h.pc.trans hs.pc.symm, ?_, ?_⟩
  · rw [hs.mem, hs.pc]
    exact h.word
  · exact fun i htwo hseven => (h.regs i htwo hseven).trans (hs.reg i hseven).symm

theorem mirroredRun_of_supported (h : SupportedRun image n s s')
    (hsuits : ∀ k a, k ≤ n → Programs.stateAfter image k = some a →
      SuitsPipeline image a)
    (hfresh : ∀ i, i + 2 ≤ n → ¬Pipeline.StaleRead image image i) :
    MirroredRun Programs.step image n ∧ MirroredRun Iss.step image n := by
  have hstates : ∀ k ≤ n, ∃ a b, Programs.stateAfter image k = some a ∧
      Iss.stateAfter image k = some b ∧ Programs.SameButLink a b := by
    intro k hk
    obtain ⟨a, ha⟩ := runFor_isSome_of_le hk h.reaches
    obtain ⟨b, hb, hab⟩ := exists_right_of_rel (h.later k hk) ha
    exact ⟨a, b, ha, hb, hab⟩
  obtain ⟨u, u', hu, -, hstep, -⟩ := h.later_last
  refine ⟨⟨?_, s', (runFor_succ_of_eq h.reaches).trans h.last⟩,
    ⟨?_, u', (runFor_succ_of_eq hu).trans hstep⟩⟩
  · intro k hk
    obtain ⟨a, b, ha, hb, hab⟩ := hstates k hk
    exact ⟨a, ha, (mirrors_of_later h hsuits hfresh hk hb).earlier hab⟩
  · intro k hk
    obtain ⟨a, b, -, hb, -⟩ := hstates k hk
    exact ⟨b, hb, mirrors_of_later h hsuits hfresh hk hb⟩

end Supported

/-- The file of a run up to HLT. -/
theorem Pipeline.BypassRuns.traceFile_eq {imem dmem : Mem} {n : ℕ} {b : Pipeline.Bypass}
    (h : Pipeline.BypassRuns imem dmem n b) (hhalted : b.halted imem = true) :
    Pipeline.traceFile imem dmem (bypassClock imem dmem n + 1) =
      (bypassEntries imem dmem (n + 1), BitVec.ofNat 32 (n + 2)) := by
  obtain ⟨sp, -, htraced, hhalt, -⟩ := h.dumpsAt hhalted
  have hinside := Pipeline.traceInside_of_halts
    (Pipeline.clockState_of_tracedState htraced) hhalt
  rw [Pipeline.traceFile_succ htraced hinside
      (Pipeline.traceFile_eq_of_tracedState htraced),
    h.retired_eq, Pipeline.bypassPath_length, hhalt]
  rfl

/-- **The trace files tell the same run.** On a program of supported instructions that
suits the pipeline and reads no stale word, both versions of the instruction set
simulator and the pipeline list the same instructions up to HLT, and each next entry
of the pipeline shows the registers r2 to r6 that the simulators print with the
instruction. The pipeline counts HLT twice. -/
theorem traces_agree {image : Mem} {n : ℕ} {s s' : Iss.State}
    (h : SupportedRun image n s s')
    (hsuits : ∀ k a, k ≤ n → Programs.stateAfter image k = some a →
      SuitsPipeline image a)
    (hfresh : ∀ i, i + 2 ≤ n → ¬Pipeline.StaleRead image image i) :
    ∃ entries, Pipeline.traceFile image image (bypassClock image image n + 1) =
        (entries, BitVec.ofNat 32 (n + 2)) ∧
      ∀ step, step = Programs.step ∨ step = Iss.step →
        (Iss.traceFile step image (n + 1)).map (fun line => line.heading) =
            entries.map (fun entry => entry.heading) ∧
          (Iss.traceFile step image n).map (fun line => printed line.reg) =
            entries.tail.map (fun entry => printed entry.regsForPrint) := by
  obtain ⟨hearlier, hlater⟩ := mirroredRun_of_supported h hsuits hfresh
  obtain ⟨a, hrun, -⟩ := h.commonRun hsuits hfresh
  refine ⟨_, hrun.bypassRuns.traceFile_eq hrun.halted, ?_⟩
  rintro step (rfl | rfl)
  · exact ⟨hearlier.headings le_rfl, hearlier.registers le_rfl⟩
  · exact ⟨hlater.headings le_rfl, hlater.registers le_rfl⟩

theorem traces_agree_storeJump :
    ∃ entries, Pipeline.traceFile MultiCycle.storeJumpImage MultiCycle.storeJumpImage
        (bypassClock MultiCycle.storeJumpImage MultiCycle.storeJumpImage 3 + 1) =
        (entries, BitVec.ofNat 32 (3 + 2)) ∧
      ∀ step, step = Programs.step ∨ step = Iss.step →
        (Iss.traceFile step MultiCycle.storeJumpImage (3 + 1)).map
            (fun line => line.heading) = entries.map (fun entry => entry.heading) ∧
          (Iss.traceFile step MultiCycle.storeJumpImage 3).map
            (fun line => printed line.reg) =
              entries.tail.map (fun entry => printed entry.regsForPrint) := by
  obtain ⟨s, s', hrun, hsuits⟩ := supportedRun_storeJump
  exact @traces_agree _ 3 s s' hrun hsuits fresh_storeJump

end SuperscalarProcessor
