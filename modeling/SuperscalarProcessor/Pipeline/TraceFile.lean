import SuperscalarProcessor.Pipeline.TracedRuns

/-!
# The trace file

`inst_trace.txt` over a whole traced run. The entries are those of the
instructions that have retired, numbered from 0 in program order, each made from
the registers and the memory that its instruction found.
-/

namespace SuperscalarProcessor.Pipeline

open Llsim Foundation

/-- The entries completed in the first `t` clocks, and `nr_simulated_instructions`
behind them. -/
def traceFile (imem dmem : Mem) : ℕ → List TraceEntry × Word
  | 0 => ([], 0)
  | t + 1 =>
      match (tracedState imem dmem t).bind
        (guarded Sp.TraceInside (traceExec1 (traceFile imem dmem t).2)) with
      | none => traceFile imem dmem t
      | some (entry, nr) => ((traceFile imem dmem t).1 ++ [entry], nr)

/-- What `trace_instruction` prints for instruction `k` of the bypass machine,
with its registers, its memory and, for ADD to XOR, its operands. -/
def Bypass.entry (imem : Mem) (k : ℕ) (b : Bypass) : TraceEntry :=
  (traceInstruction (llsimAllocateMemory .sramd b.arch.mem) (BitVec.ofNat 32 k)
    (imem b.arch.pc.toNat) b.arch.pc b.arch.r (execOverrides (b.issue imem))).1

/-- The entries of the first `n` instructions. -/
def bypassEntries (imem dmem : Mem) (n : ℕ) : List TraceEntry :=
  (List.range n).map fun k => (bypassTrace imem dmem k).entry imem k

theorem bypassEntries_succ (imem dmem : Mem) (n : ℕ) :
    bypassEntries imem dmem (n + 1) = bypassEntries imem dmem n ++
      [(bypassTrace imem dmem n).entry imem n] := by
  simp [bypassEntries, List.range_succ]

/-- Only the line of a load looks at the memory. -/
theorem traceInstruction_congr {m m' : Memory} {nr inst pc : Word} {regs : RegFile}
    {exec : Option (Word × Word)}
    (h : (traceFields inst).op = .LD → m.data = m'.data) :
    traceInstruction m nr inst pc regs exec =
      traceInstruction m' nr inst pc regs exec := by
  have hline : execLine m nr inst pc regs exec = execLine m' nr inst pc regs exec := by
    unfold execLine
    cases hop : (traceFields inst).op <;> simp only [hop]
    case LD => rw [llsimMemExtract, llsimMemExtract, h hop]
  unfold traceInstruction
  rw [hline]

section Entries

variable {imem dmem : Mem} {t : ℕ} {sp : Sp}

/-- The call that clock `t` makes. -/
theorem traceExec1_eq_entry (h : clockState imem dmem t = some sp)
    (hact : sp.spro.exec1.active = true) :
    traceExec1 (BitVec.ofNat 32 (retired imem dmem t).length) sp =
      some ((bypassTrace imem dmem (retired imem dmem t).length).entry imem
          (retired imem dmem t).length,
        BitVec.ofNat 32 ((retired imem dmem t).length +
          if sp.spro.halts then 2 else 1)) := by
  obtain ⟨hexec1, hr⟩ := exec1_issue h hact
  have hmem := (tracks h).mem
  rw [retired_succ_of_active h hact, List.length_append, List.length_singleton,
    bypassTrace_succ] at hmem
  generalize bypassTrace imem dmem (retired imem dmem t).length = b at hexec1 hr hmem ⊢
  have hfields : (traceFields sp.spro.exec1.inst) = sp.spro.exec1.fields := by
    rw [hexec1]
    exact traceFields_eq _
  have hop : sp.spro.halts = true ↔ (traceFields sp.spro.exec1.inst).op = .HLT := by
    rw [SpRegisters.halts_iff, hfields]
    simp [hact]
  -- a load has left the memory alone
  have hdata : (traceFields sp.spro.exec1.inst).op = .LD →
      sp.sramd.data = (llsimAllocateMemory .sramd b.arch.mem).data := by
    intro hload
    rw [hfields, hexec1] at hload
    rw [hmem]
    show memoryAfter (b.issue imem) b.arch.mem = b.arch.mem
    have hload' : (b.issue imem).fields.op = .LD := hload
    simp [memoryAfter, hload']
  rw [traceExec1, if_pos hact, traceInstruction_congr hdata]
  refine congrArg some (Prod.ext ?_ ?_)
  · rw [Bypass.entry, hexec1, hr]
    rfl
  · show (if (traceFields sp.spro.exec1.inst).op = .HLT then _ else _) = _
    by_cases hhalt : sp.spro.halts = true
    · rw [if_pos (hop.mp hhalt), if_pos hhalt, BitVec.ofNat_add, BitVec.add_assoc]
      rfl
    · rw [if_neg (hop.not.mp hhalt), if_neg hhalt, BitVec.ofNat_add]
      rfl

/-- What clock `t` adds to the file. -/
theorem traceFile_succ (h : tracedState imem dmem t = some sp)
    (hinside : sp.TraceInside)
    (before : traceFile imem dmem t =
      (bypassEntries imem dmem (retired imem dmem t).length,
        BitVec.ofNat 32 (retired imem dmem t).length)) :
    traceFile imem dmem (t + 1) =
      (bypassEntries imem dmem (retired imem dmem (t + 1)).length,
        BitVec.ofNat 32 ((retired imem dmem (t + 1)).length +
          sp.spro.halts.toNat)) := by
  have hclock := clockState_of_tracedState h
  rw [traceFile, h, before, Option.bind_some, guarded_of_pos hinside]
  cases hact : sp.spro.exec1.active with
  | false =>
      have hhalt : sp.spro.halts = false := by simp [SpRegisters.halts, hact]
      rw [traceExec1, hact, if_neg Bool.false_ne_true, retired_succ_of_bubble hclock hact,
        hhalt]
      rfl
  | true =>
      rw [traceExec1_eq_entry hclock hact, retired_succ_of_active hclock hact,
        List.length_append, List.length_singleton, bypassEntries_succ]
      cases sp.spro.halts <;> rfl

/-- A clock that starts is behind completed ones, without HLT. -/
theorem traceFile_eq_of_tracedState (h : tracedState imem dmem t = some sp) :
    traceFile imem dmem t =
      (bypassEntries imem dmem (retired imem dmem t).length,
        BitVec.ofNat 32 (retired imem dmem t).length) := by
  induction t generalizing sp with
  | zero => rfl
  | succ t ih =>
      obtain ⟨sp₀, h₀, hinside, ht⟩ := tracedState_pred h
      have hrun := ((invariant_of_clockState
        (clockState_of_tracedState h₀)).ticks ht).running
      rw [traceFile_succ h₀ hinside (ih h₀), hrun]
      rfl

end Entries

/-- **The trace file is the bypass machine's log.** In every clock of every traced
run of every image the file lists the instructions retired before it, in program
order, numbered from 0, none missing and none repeated, each with the registers and
the memory before it; so it does behind the clock, if the trace of this one stays
inside the array. The count is their number, but HLT counts twice. -/
theorem traceFile_eq_bypass {imem dmem : Mem} {t : ℕ} {sp : Sp}
    (h : tracedState imem dmem t = some sp) :
    traceFile imem dmem t =
        (bypassEntries imem dmem (retired imem dmem t).length,
          BitVec.ofNat 32 (retired imem dmem t).length) ∧
      (sp.TraceInside → traceFile imem dmem (t + 1) =
        (bypassEntries imem dmem (retired imem dmem (t + 1)).length,
          BitVec.ofNat 32 ((retired imem dmem (t + 1)).length +
            sp.spro.halts.toNat))) :=
  ⟨traceFile_eq_of_tracedState h,
    fun hinside => traceFile_succ h hinside (traceFile_eq_of_tracedState h)⟩

/-- In clock 12 HLT is in EXEC1, the third instruction that retires. -/
theorem traceFile_eq_bypass_skip :
    ∃ sp, tracedState skipImage skipImage 12 = some sp ∧
      traceFile skipImage skipImage 12 =
          (bypassEntries skipImage skipImage (retired skipImage skipImage 12).length,
            BitVec.ofNat 32 (retired skipImage skipImage 12).length) ∧
        (sp.TraceInside → traceFile skipImage skipImage 13 =
          (bypassEntries skipImage skipImage (retired skipImage skipImage 13).length,
            BitVec.ofNat 32 ((retired skipImage skipImage 13).length +
              sp.spro.halts.toNat))) := by
  have hclock := @clockState_eq_stateAt skipImage skipImage 12 (by decide +kernel)
  have htraced := tracedState_of_forall hclock (by decide +kernel)
  exact ⟨_, htraced, @traceFile_eq_bypass skipImage skipImage 12 _ htraced⟩

end SuperscalarProcessor.Pipeline
