import SuperscalarProcessor.Pipeline.SpeculativeFetch
import SuperscalarProcessor.Pipeline.TracedRuns

/-!
# Which programs the pipeline completes

The traced run of an image ends in a dump if and only if the bypass machine
reaches HLT with every data address in range, traced ones included, and no pc
among the last four; the clock and the dumped words follow from the bypass machine
alone. The run goes on for ever if and only if the bypass machine does so under the
same conditions. Every other run ends in a failed range assertion or in an access
that C leaves undefined.
-/

namespace SuperscalarProcessor.Pipeline

open Llsim Foundation

/-! ## The contract -/

/-- The instruction at `pc` has four words behind it, and its data address and the
address of its trace are inside the memory. -/
structure Bypass.Fits (imem : Mem) (b : Bypass) : Prop where
  room : b.arch.pc.toNat + 4 < spSramHeight
  data : (b.issue imem).accesses = true → InRange (b.issue imem).alu1
  traced : b.TraceInside imem

/-- The bypass machine reaches step `n`, and its instructions fit. -/
structure BypassRuns (imem dmem : Mem) (n : ℕ) (b : Bypass) : Prop where
  reaches : bypassState imem dmem n = some b
  fits : ∀ k ≤ n, (bypassTrace imem dmem k).Fits imem

/-- HLT is in EXEC1 in clock `t` of the traced run and writes `out` to
`sramd_out.txt`. -/
def DumpsAt (imem dmem : Mem) (t : ℕ) (out : Dump) : Prop :=
  ∃ sp sp', tracedState imem dmem t = some sp ∧ sp.spro.halts = true ∧
    spRun false sp = .ok sp' ∧ sp'.sramdOut = some out

/-- The clock in which instruction `n` of the bypass machine is in EXEC1. -/
def bypassClock (imem dmem : Mem) (n : ℕ) : ℕ :=
  6 + n + loadUses (bypassPath imem dmem (n + 1)) +
    4 * takenJumps (bypassPath imem dmem n)

/-- No instruction costs more than a taken jump does. -/
theorem cost_le (e : ExecLatch) (g : Fields) :
    (loadUse e.fields g).toNat + 4 * e.branch.isSome.toNat ≤ 4 := by
  cases hbranch : e.branch.isSome with
  | true => rw [loadUse_of_branch g hbranch]; decide
  | false =>
      have huse := Bool.toNat_le (loadUse e.fields g)
      simp only [Bool.toNat_false]
      omega

/-- A path whose last instruction is followed by one with the fields `g`. -/
theorem path_cost_le (path : List ExecLatch) (g : Fields) :
    loadUses path + pending (fun e => loadUse e.fields g) path +
      4 * takenJumps path ≤ 4 * path.length :=
  countAdjacent_add_countP_le (fun a b => cost_le a b.fields)
    (fun a => cost_le a g) path

section Clocks

variable {imem dmem : Mem} {t : ℕ} {sp : Sp}

theorem clock_of_retiring (h : clockState imem dmem t = some sp)
    (hact : sp.spro.exec1.active = true) :
    t = 6 + (retired imem dmem t).length + loadUses (retired imem dmem (t + 1)) +
      4 * takenJumps (retired imem dmem t) := by
  have hinv := logInvariant h
  have hcost := handover_cost hinv.state.frontEnd hact
  have hcount := hinv.count
  rw [clockCount, retired_succ_of_active h hact, pending_concat,
    takenJumps_concat, List.length_append, List.length_singleton] at hcount
  rw [retired_succ_of_active h hact]
  omega

/-- An instruction retires at least every five clocks. -/
theorem clock_le_of_retired (h : clockState imem dmem t = some sp) :
    t ≤ 5 * (retired imem dmem (t + 1)).length + 5 := by
  have hcount := (logInvariant h).count
  have hdepth := sp.spro.depth_le
  have hbound := path_cost_le (retired imem dmem (t + 1)) (headFields imem sp.spro)
  rw [clockCount] at hcount
  omega

theorem retired_eq_path (h : clockState imem dmem t = some sp)
    (hact : sp.spro.exec1.active = true) :
    retired imem dmem t = bypassPath imem dmem (retired imem dmem t).length ∧
      retired imem dmem (t + 1) =
        bypassPath imem dmem ((retired imem dmem t).length + 1) := by
  have hupto := retired_eq_bypassPath h
  rw [retired_succ_of_active h hact, List.length_append,
    List.length_singleton] at hupto
  rw [retired_succ_of_active h hact]
  refine ⟨?_, hupto⟩
  rw [bypassPath_succ] at hupto
  exact List.append_inj_left' hupto rfl

theorem clock_of_path (h : clockState imem dmem t = some sp)
    (hact : sp.spro.exec1.active = true) {n : ℕ}
    (hn : (retired imem dmem t).length = n) : t = bypassClock imem dmem n := by
  have hclock := clock_of_retiring h hact
  obtain ⟨hbefore, hupto⟩ := retired_eq_path h hact
  rw [hupto, hbefore, bypassPath_length, hn] at hclock
  exact hclock

/-- The state in which the instruction in EXEC1 was in EXEC0. -/
theorem exec0_issue (h : clockState imem dmem t = some sp)
    (hact : sp.spro.exec1.active = true) {k : ℕ}
    (hk : (retired imem dmem t).length = k) :
    ∃ u sp₀, clockState imem dmem u = some sp₀ ∧ tick sp₀ = some sp ∧
      u + 1 = t ∧ sp₀.spro.exec0 = (bypassTrace imem dmem k).issue imem := by
  cases t with
  | zero =>
      obtain rfl := Option.some.inj h
      cases hact
  | succ u =>
      obtain ⟨sp₀, h₀, ht⟩ := clockState_pred h
      have hact₀ : sp₀.spro.exec0.active = true := by
        rw [((invariant_of_clockState h₀).ticks ht).regs] at hact
        exact hact
      refine ⟨u, sp₀, h₀, ht, rfl, ?_⟩
      rw [((tracks h₀).exec0 hact₀).1, hk]

end Clocks

/-! ## What a run that goes on has passed -/

section Passed

variable {imem dmem : Mem} {t : ℕ} {sp : Sp}

/-- A fetch out of range would have ended the run. -/
theorem tick_of_later {u : ℕ} {su : Sp} (h : clockState imem dmem t = some sp)
    (hu : u < t) (hsu : clockState imem dmem u = some su) :
    ∃ su', llsimRunClock false su = .ok su' := by
  obtain ⟨su', hsu'⟩ : ∃ su', clockState imem dmem (u + 1) = some su' :=
    runFor_isSome_of_le hu h
  rw [clockState_succ hsu] at hsu'
  exact ⟨su', (clock_of_tick hsu').1⟩

/-- HLT's clock is the last one. -/
theorem le_of_halts {u : ℕ} {su : Sp} (h : clockState imem dmem t = some sp)
    (hhalt : sp.spro.halts = true) (hsu : clockState imem dmem u = some su) : u ≤ t := by
  have hlast : clockState imem dmem (t + 1) = none := by
    rw [clockState_succ h]
    exact tick_of_halts (invariant_of_clockState h).dma hhalt
  by_contra hgt
  obtain ⟨s', hs'⟩ := runFor_isSome_of_le (Nat.succ_le_of_lt (not_le.mp hgt)) hsu
  cases hlast.symm.trans hs'

/-- Up to HLT's clock no fetch has failed. -/
theorem fetchHarmless_of_halts (h : clockState imem dmem t = some sp)
    (hhalt : sp.spro.halts = true) : FetchHarmless imem dmem := by
  intro u su a hsu hrun herr
  rcases Nat.lt_or_eq_of_le (le_of_halts h hhalt hsu) with hlt | rfl
  · obtain ⟨su', hok⟩ := tick_of_later h hlt hsu
    cases hok.symm.trans herr
  · obtain rfl := Option.some.inj (h.symm.trans hsu)
    cases hhalt.symm.trans hrun

/-- Nor has a trace left the array. -/
theorem tracesInside_of_halts (h : tracedState imem dmem t = some sp)
    (hhalt : sp.spro.halts = true) : TracesInside imem dmem := by
  obtain ⟨hclock, hall⟩ := tracedState_iff.mp h
  intro u su hsu
  rcases Nat.lt_or_eq_of_le (le_of_halts hclock hhalt hsu) with hlt | rfl
  · exact hall u hlt su hsu
  · obtain rfl := Option.some.inj (hclock.symm.trans hsu)
    exact traceInside_of_halts hclock hhalt

/-- An entry of the log was in EXEC1 in one clock. -/
theorem retires_in {n k : ℕ} (hk : k < (retired imem dmem n).length) :
    ∃ u su, clockState imem dmem u = some su ∧ su.spro.exec1.active = true ∧
      (retired imem dmem u).length = k := by
  have he := List.getElem?_eq_getElem hk
  obtain ⟨u, su, -, hsu, hobs, htake⟩ := exists_step_of_observed he
  have hbefore : retired imem dmem u = (retired imem dmem n).take k := htake
  refine ⟨u, su, hsu, ?_, ?_⟩
  · by_contra hno
    simp [Sp.retiring, hno] at hobs
  · rw [hbefore, List.length_take]
    omega

/-- Before that it was in EXEC0 in a clock that completed. -/
theorem passed_exec0 {n k : ℕ} (hk : k < (retired imem dmem n).length) :
    ∃ u su, clockState imem dmem u = some su ∧ su.spro.halts = false ∧
      su.spro.exec0 = (bypassTrace imem dmem k).issue imem ∧
      (su.spro.exec0.accesses = true → InRange su.spro.exec0.alu1) := by
  obtain ⟨u, su, hsu, hact, hlen⟩ := retires_in hk
  obtain ⟨v, sv, hsv, ht, -, hexec0⟩ := exec0_issue hsu hact hlen
  have hticks := (invariant_of_clockState hsv).ticks ht
  exact ⟨v, sv, hsv, hticks.running, hexec0, hticks.dataAddr⟩

/-- So it fits, if the fetch ahead and the traces have done no harm. -/
theorem fits_of_retired (hsafe : FetchHarmless imem dmem)
    (htraces : TracesInside imem dmem) {n k : ℕ}
    (hk : k < (retired imem dmem n).length) :
    (bypassTrace imem dmem k).Fits imem := by
  obtain ⟨v, sv, hsv, hact₁, hlen⟩ := retires_in hk
  have htraced := (traceInside_iff hsv hact₁ hlen).mp (htraces v sv hsv)
  obtain ⟨u, su, hsu, hrun, hexec0, hdata⟩ := passed_exec0 hk
  have hact : su.spro.exec0.active = true := by rw [hexec0]; rfl
  have hpc := (hsafe.runHasRoom u su hsu hrun hact hdata).pc
  have hin := (fetched_of_clockState hsu).exec0 hact
  rw [hin.toInt_eq] at hpc
  rw [hexec0] at hpc hdata
  exact ⟨by exact_mod_cast hpc, hdata, htraced⟩

end Passed

/-! ## The pipeline gets there -/

section Runs

variable {imem dmem : Mem} {n t : ℕ} {b : Bypass} {sp : Sp}

theorem BypassRuns.running (h : BypassRuns imem dmem n b)
    (hsp : clockState imem dmem t = some sp)
    (hlen : (retired imem dmem (t + 1)).length ≤ n) : sp.spro.halts = false := by
  by_contra hhalt
  rw [Bool.not_eq_false, SpRegisters.halts_iff] at hhalt
  obtain ⟨k, hk, hexec1, -⟩ := (tracks hsp).exec1 hhalt.1
  have hno := (bypassState_iff.mp h.reaches).1 k (by omega)
  refine beq_eq_false_iff_ne.mp hno ?_
  rw [← hhalt.2, hexec1]
  rfl

/-- The fetch is at most four words ahead of an instruction with room behind it. -/
theorem BypassRuns.fetch_inRange (h : BypassRuns imem dmem n b)
    (hsp : clockState imem dmem t = some sp)
    (hlen : (retired imem dmem (t + 1)).length ≤ n)
    (hact : sp.spro.fetch0.active = true) : InRange sp.spro.fetch0.pc := by
  have hroom := (h.fits _ hlen).room
  rw [← (tracks hsp).headPc] at hroom
  have hdepth := sp.spro.depth_le
  have hsize : spSramHeight = 65536 := rfl
  rw [(invariant_of_clockState hsp).frontEnd.fetch0_pc hact,
    inRange_add_iff (by omega)]
  omega

theorem BypassRuns.tick_isSome (h : BypassRuns imem dmem n b)
    (hsp : clockState imem dmem t = some sp)
    (hlen : (retired imem dmem (t + 1)).length ≤ n) : (tick sp).isSome := by
  refine (invariant_of_clockState hsp).tick_isSome (h.running hsp hlen) ⟨?_, ?_⟩
  · intro hacc
    have hact : sp.spro.exec0.active = true := by
      by_contra hno
      simp [ExecLatch.accesses, hno] at hacc
    rw [((tracks hsp).exec0 hact).1] at hacc ⊢
    exact (h.fits _ hlen).data hacc
  · exact h.fetch_inRange hsp hlen

theorem BypassRuns.next_retires (h : BypassRuns imem dmem n b)
    (hsp : clockState imem dmem t = some sp)
    (hlen : (retired imem dmem (t + 1)).length ≤ n) :
    ∃ t' sp', clockState imem dmem t' = some sp' ∧
      sp'.spro.exec1.active = true ∧
      retired imem dmem t' = retired imem dmem (t + 1) := by
  obtain ⟨t', sp', h', hact, -, hret⟩ := head_retires hsp
    fun u su _ hsu heq => h.tick_isSome hsu (by rw [heq]; exact hlen)
  exact ⟨t', sp', h', hact, hret⟩

/-- Every instruction up to the last one retires. -/
theorem BypassRuns.retires (h : BypassRuns imem dmem n b) {k : ℕ} (hk : k ≤ n) :
    ∃ t sp, clockState imem dmem t = some sp ∧ sp.spro.exec1.active = true ∧
      (retired imem dmem t).length = k := by
  induction k with
  | zero =>
      obtain ⟨t', sp', h', hact, hret⟩ :=
        @BypassRuns.next_retires _ _ _ 0 _ (resetState imem dmem) h rfl
          (Nat.zero_le n)
      exact ⟨t', sp', h', hact, by rw [hret]; rfl⟩
  | succ k ih =>
      obtain ⟨t, sp, hsp, hact, hlen⟩ := ih (by omega)
      have hlog : (retired imem dmem (t + 1)).length = k + 1 := by
        rw [retired_succ_of_active hsp hact, List.length_append, hlen]
        rfl
      obtain ⟨t', sp', h', hact', hret⟩ := h.next_retires hsp (hlog ▸ hk)
      exact ⟨t', sp', h', hact', by rw [hret, hlog]⟩

/-- The traces of these instructions stay inside the array. -/
theorem BypassRuns.traceInside (h : BypassRuns imem dmem n b)
    (hsp : clockState imem dmem t = some sp)
    (hlen : (retired imem dmem t).length ≤ n) : sp.TraceInside := by
  cases hact : sp.spro.exec1.active with
  | false => exact traceInside_of_bubble hact
  | true => exact (traceInside_iff hsp hact rfl).mpr (h.fits _ hlen).traced

theorem BypassRuns.traced (h : BypassRuns imem dmem n b)
    (hsp : clockState imem dmem t = some sp)
    (hlen : (retired imem dmem t).length ≤ n) :
    tracedState imem dmem t = some sp := by
  refine tracedState_iff.mpr ⟨hsp, fun u hu su hsu => h.traceInside hsu ?_⟩
  exact (observed_length_le (Nat.le_of_lt hu) _).trans hlen

/-- The last one is in EXEC1 in its clock. -/
theorem BypassRuns.issues (h : BypassRuns imem dmem n b) :
    ∃ sp, tracedState imem dmem (bypassClock imem dmem n) = some sp ∧
      Issues imem b sp := by
  obtain ⟨t, sp, hsp, hact, hlen⟩ := h.retires le_rfl
  obtain ⟨b', hb', hissues⟩ := issues_of_active hsp hact
  rw [hlen] at hb'
  obtain rfl := Option.some.inj (hb'.symm.trans h.reaches)
  refine ⟨sp, ?_, hissues⟩
  rw [← clock_of_path hsp hact hlen]
  exact h.traced hsp hlen.le

end Runs

/-! ## The fate of a run -/

theorem bypassRuns_of_dumpsAt {imem dmem : Mem} {t : ℕ} {out : Dump}
    (h : DumpsAt imem dmem t out) : ∃ n b, BypassRuns imem dmem n b ∧
      b.halted imem = true ∧ t = bypassClock imem dmem n ∧
      out = memoryDump b.arch.mem := by
  obtain ⟨sp, sp', htraced, hhalt, hrun, hout⟩ := h
  have h := clockState_of_tracedState htraced
  obtain ⟨hact, hop⟩ := (SpRegisters.halts_iff _).mp hhalt
  obtain ⟨b, hb, hissues⟩ := issues_of_active h hact
  have hhalted : b.halted imem = true := by
    rw [hissues.exec1] at hop
    exact beq_iff_eq.mpr hop
  refine ⟨_, b, ⟨hb, ?_⟩, hhalted, clock_of_path h hact rfl, ?_⟩
  · intro k hk
    refine @fits_of_retired _ _ (fetchHarmless_of_halts h hhalt)
      (tracesInside_of_halts htraced hhalt) (t + 1) k ?_
    rw [retired_succ_of_active h hact, List.length_append, List.length_singleton]
    omega
  · obtain ⟨sp₁, hrun₁, hdump⟩ := hissues.dump hhalted
    obtain rfl := Except.ok.inj (hrun.symm.trans hrun₁)
    exact Option.some.inj (hout.symm.trans hdump)

theorem BypassRuns.dumpsAt {imem dmem : Mem} {n : ℕ} {b : Bypass}
    (hruns : BypassRuns imem dmem n b) (hhalted : b.halted imem = true) :
    DumpsAt imem dmem (bypassClock imem dmem n) (memoryDump b.arch.mem) := by
  obtain ⟨sp, h, hissues⟩ := hruns.issues
  obtain ⟨sp', hrun, hdump⟩ := hissues.dump hhalted
  refine ⟨sp, sp', h, ?_, hrun, hdump⟩
  rw [SpRegisters.halts_iff, hissues.exec1]
  exact ⟨rfl, beq_iff_eq.mp hhalted⟩

/-- **Which runs end in a dump, when and with what.** For every image the
pipeline dumps `out` in clock `t` if and only if the bypass machine reaches HLT
on instructions that fit, `t` is HLT's clock and `out` the memory by then. -/
theorem pipeline_dumpsAt_iff (imem dmem : Mem) (t : ℕ) (out : Dump) :
    DumpsAt imem dmem t out ↔ ∃ n b, BypassRuns imem dmem n b ∧
      b.halted imem = true ∧ t = bypassClock imem dmem n ∧
      out = memoryDump b.arch.mem := by
  refine ⟨bypassRuns_of_dumpsAt, ?_⟩
  rintro ⟨n, b, hruns, hhalted, rfl, rfl⟩
  exact hruns.dumpsAt hhalted

theorem tracesInside_of_neverEnds {imem dmem : Mem}
    (hever : ∀ t, ∃ sp, tracedState imem dmem t = some sp) :
    TracesInside imem dmem := by
  intro u su hsu
  obtain ⟨sp, hsp⟩ := hever (u + 1)
  exact (tracedState_iff.mp hsp).2 u (Nat.lt_succ_self u) su hsu

theorem fetchHarmless_of_neverEnds {imem dmem : Mem}
    (hever : ∀ t, ∃ sp, tracedState imem dmem t = some sp) :
    FetchHarmless imem dmem := by
  intro u su a hsu _ herr
  obtain ⟨sp, hsp⟩ := hever (u + 1)
  obtain ⟨su', hok⟩ :=
    tick_of_later (clockState_of_tracedState hsp) (Nat.lt_succ_self u) hsu
  cases hok.symm.trans herr

theorem bypassRuns_of_neverEnds {imem dmem : Mem}
    (hever : ∀ t, ∃ sp, tracedState imem dmem t = some sp) (n : ℕ) :
    ∃ b, BypassRuns imem dmem n b := by
  -- by clock `5 n + 6` more than `n` instructions have retired
  obtain ⟨sp, hsp⟩ := hever (5 * n + 6)
  have hlen : n < (retired imem dmem (5 * n + 6 + 1)).length := by
    have := clock_le_of_retired (clockState_of_tracedState hsp)
    omega
  obtain ⟨u, su, hsu, hact, hn⟩ := retires_in hlen
  obtain ⟨b, hb, -⟩ := issues_of_active hsu hact
  rw [hn] at hb
  refine ⟨b, hb, fun k hk => ?_⟩
  exact fits_of_retired (fetchHarmless_of_neverEnds hever)
    (tracesInside_of_neverEnds hever) (lt_of_le_of_lt hk hlen)

/-- Instruction `n` is in EXEC1 in clock `n` or later, so the run gets there. -/
theorem BypassRuns.tracedState_isSome {imem dmem : Mem} {n : ℕ} {b : Bypass}
    (h : BypassRuns imem dmem n b) : ∃ sp, tracedState imem dmem n = some sp := by
  obtain ⟨sp, hsp, -⟩ := h.issues
  refine runFor_isSome_of_le ?_ hsp
  unfold bypassClock
  omega

/-- **Which runs never end.** Every clock of an image completes if and only if
the bypass machine never reaches HLT and all its instructions fit. As in every
run, instruction `n` is then in EXEC1 in its clock. -/
theorem pipeline_neverEnds_iff (imem dmem : Mem) :
    ((∀ t, ∃ sp, tracedState imem dmem t = some sp) ↔
        ∀ n, ∃ b, BypassRuns imem dmem n b) ∧
      ∀ n b, BypassRuns imem dmem n b →
        ∃ sp, tracedState imem dmem (bypassClock imem dmem n) = some sp ∧
          Issues imem b sp := by
  refine ⟨⟨bypassRuns_of_neverEnds, ?_⟩, fun n b hruns => hruns.issues⟩
  intro hruns t
  obtain ⟨b, hb⟩ := hruns t
  exact hb.tracedState_isSome

/-- A run that stops without a fault stops at HLT. -/
theorem neverEnds_or_dumps {imem dmem : Mem}
    (hok : ∀ t sp f, tracedState imem dmem t = some sp → sp.spro.halts = false →
      tracedClock sp ≠ .error f) :
    (∀ t, ∃ sp, tracedState imem dmem t = some sp) ∨
      ∃ t out, DumpsAt imem dmem t out := by
  by_cases hever : ∀ t sp, tracedState imem dmem t = some sp →
      sp.spro.halts = false
  · left
    intro t
    induction t with
    | zero => exact ⟨_, rfl⟩
    | succ t ih =>
        obtain ⟨sp, hsp⟩ := ih
        have hrun := hever t sp hsp
        have hinv := invariant_of_clockState (clockState_of_tracedState hsp)
        have hinside : sp.TraceInside := by
          by_contra hno
          obtain ⟨addr, hclock⟩ := tracedClock_of_outside hno
          exact hok t sp _ hsp hrun hclock
        rw [tracedState_succ hsp, tracedTick]
        cases hclock : tracedClock sp with
        | error f => exact absurd hclock (hok t sp f hsp hrun)
        | ok sp' =>
            rw [tracedClock_of_inside hinside] at hclock
            have hstop := (served_of_clock hinv.dma hclock).stopSim
            rw [hinv.stopSim, hrun] at hstop
            exact ⟨sp', by simp [hstop]⟩
  · right
    simp only [not_forall, Bool.not_eq_false] at hever
    obtain ⟨t, sp, hsp, hhalt⟩ := hever
    obtain ⟨sp', hrun, hdump⟩ :=
      (invariant_of_clockState (clockState_of_tracedState hsp)).dump_of_halts hhalt
    exact ⟨t, _, sp, sp', hsp, hhalt, hrun, hdump⟩

/-- **Which runs break off.** A clock before HLT's ends in a failed assertion, or in
an access that C leaves undefined, if and only if the bypass machine gets to an
instruction that does not fit. -/
theorem pipeline_faults_iff (imem dmem : Mem) :
    (∃ t sp f, tracedState imem dmem t = some sp ∧ sp.spro.halts = false ∧
        tracedClock sp = .error f) ↔
      ∃ n b, bypassState imem dmem n = some b ∧ ¬b.Fits imem := by
  constructor
  · rintro ⟨t, sp, f, htraced, hrun, herr⟩
    have h := clockState_of_tracedState htraced
    by_contra hfit
    simp only [not_exists, not_and, not_not] at hfit
    have hreach := bypassState_of_running h hrun
    have hruns : BypassRuns imem dmem (retired imem dmem (t + 1)).length _ :=
      ⟨hreach, fun k hk => hfit k _ (bypassState_iff.mpr
        ⟨fun j hj => (bypassState_iff.mp hreach).1 j (by omega), rfl⟩)⟩
    have hinside := hruns.traceInside h (observed_length_le (Nat.le_succ t) _)
    rw [tracedClock_of_inside hinside] at herr
    obtain ⟨sp', ht⟩ := Option.isSome_iff_exists.mp (hruns.tick_isSome h le_rfl)
    cases (clock_of_tick ht).1.symm.trans herr
  · rintro ⟨n, b, hb, hfit⟩
    by_contra hok
    simp only [not_exists, not_and] at hok
    rw [bypassState_eq_trace hb] at hfit
    rcases neverEnds_or_dumps hok with hever | ⟨t, out, hdump⟩
    · obtain ⟨_, hruns⟩ := bypassRuns_of_neverEnds hever n
      exact hfit (hruns.fits n le_rfl)
    · obtain ⟨m, c, hruns, hhalted, -⟩ := bypassRuns_of_dumpsAt hdump
      rw [bypassState_eq_trace hruns.reaches] at hhalted
      exact hfit (hruns.fits n (le_of_runFor_of_halted hb hhalted))

end SuperscalarProcessor.Pipeline
