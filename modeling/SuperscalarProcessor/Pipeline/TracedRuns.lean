import SuperscalarProcessor.Pipeline.Bypass
import SuperscalarProcessor.Pipeline.Trace

/-!
# Runs with their trace

For a load in EXEC1 `trace_instruction` reads `sramd` itself, at the register
that the field `src1` names, and neither it nor llsim checks that address: the
load may have requested another one. Outside the array C leaves the read
undefined, and the run with it. A traced run is a run that has not got there.

The other read that sp_ctl makes on its own, FETCH0's of `srami`, ends no run
that the clock does not end: FETCH0 requests the same address in the same clock,
so that a clock that completes has read inside the array (`Served.fetch_inRange`),
and in HLT's clock the dump comes first.
-/

namespace SuperscalarProcessor.Pipeline

open Llsim Foundation

/-! ## The clock with its trace -/

/-- Where the trace of the clock reads `sramd`, if it does. -/
def Sp.traceAddr (sp : Sp) : Option Word :=
  let f := traceFields sp.spro.exec1.inst
  if sp.spro.exec1.active ∧ f.op = .LD then some (sp.spro.r f.src1) else none

def Sp.TraceInside (sp : Sp) : Prop := ∀ addr ∈ sp.traceAddr, InRange addr

-- by the one address, not by all words
instance : DecidablePred Sp.TraceInside := fun sp =>
  decidable_of_iff (sp.traceAddr.all fun addr => decide (InRange addr)) (by
    cases h : sp.traceAddr <;> simp [Sp.TraceInside, h])

/-- `llsim_run_clock`, undefined when the trace leaves the array; the trace comes
before every other access of the clock. -/
def tracedClock (sp : Sp) : Except Fault Sp :=
  match sp.traceAddr with
  | none => llsimRunClock false sp
  | some addr =>
      if InRange addr then llsimRunClock false sp else .error (.outOfBounds addr)

/-- One turn of the main loop. -/
def tracedTick (sp : Sp) : Option Sp :=
  match tracedClock sp with
  | .ok sp' => if sp'.stopSim then none else some sp'
  | .error _ => none

/-- The state in which clock `t` after reset starts, if the run gets there. -/
def tracedState (imem dmem : Mem) (t : ℕ) : Option Sp :=
  (resetClocks 5 (spInit imem dmem)).bind (runFor tracedTick t)

theorem tracedState_eq (imem dmem : Mem) (t : ℕ) :
    tracedState imem dmem t = runFor tracedTick t (resetState imem dmem) := by
  rw [tracedState, resetClocks_eq]
  rfl

theorem tracedState_succ {imem dmem : Mem} {t : ℕ} {sp : Sp}
    (h : tracedState imem dmem t = some sp) :
    tracedState imem dmem (t + 1) = tracedTick sp := by
  rw [tracedState_eq] at h ⊢
  exact runFor_succ_of_eq h

section Clock

variable {sp : Sp}

theorem tracedClock_of_inside (h : sp.TraceInside) :
    tracedClock sp = llsimRunClock false sp := by
  unfold tracedClock
  cases haddr : sp.traceAddr with
  | none => rfl
  | some addr => exact if_pos (h addr haddr)

theorem tracedClock_of_outside (h : ¬sp.TraceInside) :
    ∃ addr, tracedClock sp = .error (.outOfBounds addr) := by
  simp only [Sp.TraceInside, not_forall] at h
  obtain ⟨addr, haddr, hout⟩ := h
  refine ⟨addr, ?_⟩
  rw [tracedClock, Option.mem_def.mp haddr]
  exact if_neg hout

theorem tracedTick_eq : tracedTick = guarded Sp.TraceInside tick := by
  funext sp
  by_cases h : sp.TraceInside
  · rw [guarded_of_pos h, tracedTick, tracedClock_of_inside h]
    rfl
  · obtain ⟨addr, hclock⟩ := tracedClock_of_outside h
    rw [tracedTick, hclock, guarded, if_neg h]

/-- A bubble in EXEC1 is not traced. -/
theorem traceInside_of_bubble (h : sp.spro.exec1.active = false) : sp.TraceInside := by
  simp [Sp.TraceInside, Sp.traceAddr, h]

end Clock

/-! ## Traced runs among the runs -/

section Runs

variable {imem dmem : Mem} {t : ℕ} {sp : Sp}

/-- **A traced run is a run whose traces have read inside the array.** -/
theorem tracedState_iff : tracedState imem dmem t = some sp ↔
    clockState imem dmem t = some sp ∧
      ∀ u < t, ∀ su, clockState imem dmem u = some su → su.TraceInside := by
  simp only [tracedState_eq, tracedTick_eq, clockState_eq]
  exact runFor_guarded_iff

theorem tracedState_pred (h : tracedState imem dmem (t + 1) = some sp) :
    ∃ sp₀, tracedState imem dmem t = some sp₀ ∧ sp₀.TraceInside ∧
      tick sp₀ = some sp := by
  rw [tracedState_eq] at h
  obtain ⟨sp₀, h₀, htick⟩ := runFor_pred h
  rw [tracedTick_eq, guarded] at htick
  split_ifs at htick with hinside
  exact ⟨sp₀, (tracedState_eq imem dmem t).trans h₀, hinside, htick⟩

theorem clockState_of_tracedState (h : tracedState imem dmem t = some sp) :
    clockState imem dmem t = some sp :=
  (tracedState_iff.mp h).1

theorem tracedState_of_forall (h : clockState imem dmem t = some sp)
    (hall : ∀ u < t, (clockState imem dmem u).all fun su => decide su.TraceInside) :
    tracedState imem dmem t = some sp := by
  refine tracedState_iff.mpr ⟨h, fun u hu su hsu => ?_⟩
  have hinside := hall u hu
  rw [hsu] at hinside
  exact of_decide_eq_true hinside

/-- No trace of the run leaves the array. -/
def TracesInside (imem dmem : Mem) : Prop :=
  ∀ t sp, clockState imem dmem t = some sp → sp.TraceInside

/-- The instruction at `pc` is traced inside the array: for a load the register of
the field `src1` is an index, whatever address the load has latched. -/
def Bypass.TraceInside (imem : Mem) (b : Bypass) : Prop :=
  (b.issue imem).fields.op = .LD → InRange (b.arch.r (b.issue imem).fields.src1)

/-- The instruction in EXEC1 is traced with the registers that it found. -/
theorem traceInside_iff (h : clockState imem dmem t = some sp)
    (hact : sp.spro.exec1.active = true) {k : ℕ}
    (hk : (retired imem dmem t).length = k) :
    sp.TraceInside ↔ (bypassTrace imem dmem k).TraceInside imem := by
  obtain ⟨hexec1, hr⟩ := exec1_issue h hact
  rw [hk] at hexec1 hr
  have hfields : traceFields sp.spro.exec1.inst =
      ((bypassTrace imem dmem k).issue imem).fields := by
    rw [(invariant_of_clockState h).traceFields hact, hexec1]
    rfl
  simp [Sp.TraceInside, Sp.traceAddr, Bypass.TraceInside, hact, hfields, hr]

/-- Two writes to r3 and `LD r2, MEM[r3]`. -/
def staleLoadImage : Mem := imageOf [0x00C80064, 0x0ED87FFF, 0x10830000, 0x30000000]

-- the load has latched the first value, 100, and is traced at the second one
example : (tracedState staleLoadImage staleLoadImage 8).isSome ∧
    (tracedState staleLoadImage staleLoadImage 9).isNone ∧
    (clockState staleLoadImage staleLoadImage 9).isSome := by decide +kernel

/-- HLT reads nothing. -/
theorem traceInside_of_halts (h : clockState imem dmem t = some sp)
    (hhalt : sp.spro.halts = true) : sp.TraceInside := by
  obtain ⟨hact, hop⟩ := (SpRegisters.halts_iff _).mp hhalt
  simp [Sp.TraceInside, Sp.traceAddr,
    (invariant_of_clockState h).traceFields hact, hop]

end Runs

/-! ## Loads on fresh operands -/

section Fresh

variable {imem dmem : Mem}

theorem bypassTrace_low (k : ℕ) {i : BitVec 3} (hi : ¬2#3 ≤ i) :
    (bypassTrace imem dmem k).arch.r i = 0 := by
  induction k with
  | zero => rfl
  | succ k ih =>
      rw [bypassTrace_succ]
      exact (ExecLatch.apply_low _ _ _ hi).trans ih

/-- A load that has latched a fresh address is traced at that address, or at 0. -/
theorem traceInside_of_fetch {k : ℕ}
    (hissue : (bypassTrace imem dmem k).issue imem =
      (bypassTrace imem dmem k).arch.fetch imem)
    (hdata : ((bypassTrace imem dmem k).issue imem).accesses = true →
      InRange ((bypassTrace imem dmem k).issue imem).alu1) :
    (bypassTrace imem dmem k).TraceInside imem := by
  intro hop
  have hact : ((bypassTrace imem dmem k).issue imem).active = true := rfl
  have haddr := hdata (by simp [ExecLatch.accesses, hact, hop])
  rw [hissue] at haddr ⊢
  by_cases hsrc : 2#3 ≤ ((bypassTrace imem dmem k).arch.fetch imem).fields.src1
  · have halu1 : ((bypassTrace imem dmem k).arch.fetch imem).alu1 =
        (bypassTrace imem dmem k).arch.r
          ((bypassTrace imem dmem k).arch.fetch imem).fields.src1 :=
      operand_of_two_le hsrc
    exact halu1 ▸ haddr
  · rw [bypassTrace_low k hsrc]
    decide

end Fresh

end SuperscalarProcessor.Pipeline
