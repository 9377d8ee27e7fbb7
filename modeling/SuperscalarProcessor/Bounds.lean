import SuperscalarProcessor.MultiCycle.Step
import SuperscalarProcessor.Pipeline.Runs

/-!
# Which addresses index the memories

`llsim_run_clock` compares a requested address with the height of the memory
and indexes the array if it is smaller. Addresses are signed and come from
registers unmasked: the comparison lets the negative ones through.
-/

namespace SuperscalarProcessor

open Llsim Foundation

namespace Pipeline

/-! ## The pipeline -/

/-- For the requests that `llsim_run_clock` serves no clock of the run indexes an array
outside its bounds: every address is in range or an assertion ends the simulation
before. What sp_ctl indexes itself, in FETCH0 and in the trace, is no request. -/
def BoundsChecked (imem dmem : Mem) : Prop :=
  ∀ t sp a, clockState imem dmem t = some sp →
    llsimRunClock false sp ≠ .error (.outOfBounds a)

/-- No address requested in this clock is negative. -/
structure NonNegative (s : SpRegisters) : Prop where
  data : s.exec0.accesses = true → 0 ≤ s.exec0.alu1.toInt
  fetch : s.fetch0.active = true → 0 ≤ s.fetch0.pc.toInt

/-- EXEC0's request goes out of bounds for a negative address. -/
theorem data_outOfBounds_iff {e : ExecLatch} {m m₁ : Memory}
    (hissue : issueMemory e (quiet m) = .ok m₁) :
    (∃ a, memPhase m₁ = .error (.outOfBounds a)) ↔
      e.accesses = true ∧ e.alu1.toInt < 0 := by
  rw [issueMemory_quiet] at hissue
  obtain rfl := Except.ok.inj hissue
  unfold ExecLatch.accesses
  split_ifs with hld hst
  · rw [memPhase_outOfBounds_iff (Or.inr rfl)]
    simp only [Bool.and_eq_true, beq_iff_eq] at hld
    simp [hld.1, hld.2]
  · rw [memPhase_outOfBounds_iff (Or.inl rfl)]
    simp only [Bool.and_eq_true, beq_iff_eq] at hst
    simp [hst.1, hst.2]
  · rw [memPhase_outOfBounds_iff (Or.inl rfl)]
    simp only [Bool.and_eq_true, beq_iff_eq, not_and] at hld hst
    have hacc : ¬(e.active && (e.fields.op == .LD || e.fields.op == .ST)) = true := by
      simp only [Bool.and_eq_true, Bool.or_eq_true, beq_iff_eq, not_and, not_or]
      exact fun hact => ⟨hld hact, hst hact⟩
    simp [hacc]

theorem fetch_outOfBounds_iff (s : SpRegisters) (hz : Hazards) (m : Memory) :
    (∃ a, memPhase (issueFetch s hz (quiet m)) = .error (.outOfBounds a)) ↔
      hz.stall = false ∧ s.fetch0.active = true ∧ s.fetch0.pc.toInt < 0 := by
  obtain ⟨hread, hwrite, haddr⟩ := issueFetch_port s hz m
  rw [memPhase_outOfBounds_iff (Or.inr hwrite), hwrite, hread]
  constructor
  · rintro (⟨hport, hneg⟩ | ⟨hno, -⟩)
    · simp only [Bool.and_eq_true, Bool.not_eq_true'] at hport
      rw [haddr hport.1 hport.2] at hneg
      exact ⟨hport.1, hport.2, hneg⟩
    · cases hno
  · rintro ⟨hstall, hact, hneg⟩
    refine Or.inl ⟨by rw [hstall, hact]; rfl, ?_⟩
    rw [haddr hstall hact]
    exact hneg

/-- One clock: the data memory is served first, and a request of its own that an
assertion stops hides the fetch. -/
theorem Invariant.outOfBounds_iff {imem : Mem} {sp : Sp} (h : Invariant imem sp) :
    (∃ a, llsimRunClock false sp = .error (.outOfBounds a)) ↔
      (sp.spro.exec0.accesses = true ∧ sp.spro.exec0.alu1.toInt < 0) ∨
        ((sp.spro.exec0.accesses = true → InRange sp.spro.exec0.alu1) ∧
          loadUseStall sp.spro = false ∧ sp.spro.fetch0.active = true ∧
          sp.spro.fetch0.pc.toInt < 0) := by
  obtain ⟨m, hissue⟩ := issueMemory_total sp.spro.exec0 sp.sramd
  have hdata := data_outOfBounds_iff hissue
  have hfetch := fetch_outOfBounds_iff sp.spro
    (detectHazards sp.spro sp.sramd.dataout) sp.srami
  rw [detectHazards_stall] at hfetch
  simp only [clock_error_iff h.dma hissue, exists_or, exists_and_left, hdata, hfetch]

/-- A pc below zero comes from a taken jump, which has emptied EXEC0. -/
def FetchBehind (s : SpRegisters) : Prop :=
  s.exec0.active = true → 0 ≤ s.fetch0.pc.toInt

theorem toInt_succ_nonneg {pc : Word} (h : InRange pc) : 0 ≤ (pc + 1).toInt := by
  have hlt := inRange_iff.mp h
  have hnat := @toNat_add_ofNat pc 1 (by omega)
  refine toInt_nonneg ?_
  show (pc + BitVec.ofNat 32 1).toNat < _
  omega

theorem FetchBehind.next {imem : Mem} {sp sp' : Sp} (h : Invariant imem sp)
    (ht : tick sp = some sp') : FetchBehind sp'.spro := by
  have hserved := h.served ht
  intro hact
  rw [hserved.regs] at hact ⊢
  rcases clockKind sp.spro sp.sramd.dataout with ⟨hstall, hbranch⟩ |
    ⟨target, hexec0, htaken⟩ | ⟨hexec0, hdec, huse⟩
  · obtain ⟨hf0, -⟩ := @next_advance sp.spro sp.sramd.dataout sp.srami
      sp.spro.dma hstall hbranch
    rw [hf0]
    cases hfetch : sp.spro.fetch0.active with
    | false =>
        show 0 ≤ (0 : Word).toInt
        decide
    | true =>
        exact toInt_succ_nonneg (hserved.fetch_inRange hstall hfetch)
  · obtain ⟨-, -, -, -, hno⟩ := @next_flush sp.spro sp.sramd.dataout sp.srami
      sp.spro.dma target hexec0 htaken (h.frontEnd.fetch0_of_exec0 hexec0)
    rw [hno] at hact
    cases hact
  · obtain ⟨-, -, -, -, hno⟩ := @next_stall sp.spro sp.sramd.dataout sp.srami
      sp.spro.dma (loadUseStall_of_use hexec0 hdec huse)
    rw [hno] at hact
    cases hact

theorem fetchBehind_of_clockState {imem dmem : Mem} {t : ℕ} {sp : Sp}
    (h : clockState imem dmem t = some sp) : FetchBehind sp.spro := by
  cases t with
  | zero =>
      obtain rfl := Option.some.inj h
      intro hact
      cases hact
  | succ t =>
      obtain ⟨sp₀, h₀, ht⟩ := clockState_pred h
      exact FetchBehind.next (invariant_of_clockState h₀) ht

theorem boundsChecked_iff_nonNegative (imem dmem : Mem) :
    BoundsChecked imem dmem ↔
      ∀ t sp, clockState imem dmem t = some sp → NonNegative sp.spro := by
  constructor
  · intro hchecked t sp h
    have hclock := (invariant_of_clockState h).outOfBounds_iff
    have hno : ¬∃ a, llsimRunClock false sp = .error (.outOfBounds a) := by
      rintro ⟨a, ha⟩
      exact hchecked t sp a h ha
    rw [hclock, not_or] at hno
    constructor
    · intro hacc
      by_contra hneg
      exact hno.1 ⟨hacc, not_le.mp hneg⟩
    · intro hfetch
      by_contra hneg
      -- a negative pc finds EXEC0 empty: no data request, no stall
      have hbubble : sp.spro.exec0.active = false := by
        by_contra hact
        exact hneg (fetchBehind_of_clockState h (Bool.not_eq_false _ ▸ hact))
      refine hno.2 ⟨?_, ?_, hfetch, not_le.mp hneg⟩
      · intro hacc
        rw [accesses_of_bubble hbubble] at hacc
        cases hacc
      · exact loadUseStall_of_bubble hbubble
  · rintro hnonneg t sp a h hfault
    obtain ⟨hdata, hfetch⟩ := hnonneg t sp h
    rcases (invariant_of_clockState h).outOfBounds_iff.mp ⟨a, hfault⟩ with
      ⟨hacc, hneg⟩ | ⟨-, -, hact, hneg⟩
    · exact absurd hneg (not_lt.mpr (hdata hacc))
    · exact absurd hneg (not_lt.mpr (hfetch hact))

end Pipeline

namespace MultiCycle

/-! ## The multi-cycle processor -/

/-- No clock of the run indexes the array outside its bounds for a request; a
register index out of bounds ends `sp_run` before. -/
def BoundsChecked (image : Mem) : Prop :=
  ∀ t sp sp' a, clockState image t = some sp → spRun false sp = .ok sp' →
    memPhase sp'.sram ≠ .error (.outOfBounds a)

/-- No address requested in this clock is negative. -/
structure NonNegative (s : SpRegisters) : Prop where
  read : ∀ a, s.readAddr = some a → 0 ≤ a.toInt
  write : ∀ a, s.writeAddr = some a → 0 ≤ a.toInt

theorem request_outOfBounds_iff {s : SpRegisters} {m m₁ : Memory}
    (hreq : request s (quiet m) = .ok m₁) :
    (∃ a, memPhase m₁ = .error (.outOfBounds a)) ↔
      (∃ a, s.readAddr = some a ∧ a.toInt < 0) ∨
        (∃ a, s.writeAddr = some a ∧ a.toInt < 0) := by
  cases hr : s.readAddr with
  | some a =>
      rw [request_read hr] at hreq
      obtain rfl := Except.ok.inj hreq
      rw [memPhase_outOfBounds_iff (Or.inr rfl), writeAddr_of_readAddr hr]
      simp
  | none =>
      cases hw : s.writeAddr with
      | some a =>
          rw [request_write hw] at hreq
          obtain rfl := Except.ok.inj hreq
          rw [memPhase_outOfBounds_iff (Or.inl rfl)]
          simp
      | none =>
          rw [request_none hr hw] at hreq
          obtain rfl := Except.ok.inj hreq
          rw [memPhase_outOfBounds_iff (Or.inl rfl)]
          simp

/-- A clock with a request does not fault in the unit. -/
theorem nextRegisters_of_request {s : SpRegisters} (start : Bool) (dataout : Word)
    (h : s.readAddr ≠ none ∨ s.writeAddr ≠ none) :
    ∃ s', nextRegisters start s dataout = .ok s' := by
  unfold SpRegisters.readAddr SpRegisters.writeAddr at h
  unfold nextRegisters switchCtlState
  cases hctl : s.ctlState <;> simp only [hctl] at h ⊢
  case EXEC0 =>
    have hop : s.fields.op = .LD := by simpa using h
    rw [ctlExec0, hop]
    exact ⟨_, rfl⟩
  case EXEC1 =>
    have hop : s.fields.op = .ST := by simpa using h
    rw [ctlExec1, hop]
    exact ⟨_, rfl⟩
  all_goals exact ⟨_, rfl⟩

theorem request_total (s : SpRegisters) (m : Memory) :
    ∃ m₁, request s (quiet m) = .ok m₁ := by
  cases hr : s.readAddr with
  | some a => exact ⟨_, request_read hr m⟩
  | none =>
      cases hw : s.writeAddr with
      | some a => exact ⟨_, request_write hw m⟩
      | none => exact ⟨_, request_none hr hw m⟩

/-- One clock. -/
theorem Invariant.outOfBounds_iff {t : ℕ} {sp : Sp} (h : Invariant t sp) :
    (∃ sp' a, spRun false sp = .ok sp' ∧
      memPhase sp'.sram = .error (.outOfBounds a)) ↔
        (∃ a, sp.spro.readAddr = some a ∧ a.toInt < 0) ∨
          (∃ a, sp.spro.writeAddr = some a ∧ a.toInt < 0) := by
  obtain ⟨m, hreq⟩ := request_total sp.spro sp.sram
  rw [← request_outOfBounds_iff hreq]
  cases hregs : nextRegisters sp.start sp.spro sp.sram.dataout with
  | ok s' =>
      rw [spRun_idle_dma h.dma hregs hreq]
      simp
  | error f =>
      have hrun : spRun false sp = .error f := by
        simp [spRun, spCtl, hregs, bind, Except.bind]
      have hquiet : ¬(sp.spro.readAddr ≠ none ∨ sp.spro.writeAddr ≠ none) := by
        intro hsome
        obtain ⟨s', hok⟩ :=
          nextRegisters_of_request sp.start sp.sram.dataout hsome
        cases hregs.symm.trans hok
      rw [not_or, not_not, not_not] at hquiet
      rw [hrun, request_outOfBounds_iff hreq, hquiet.1, hquiet.2]
      simp

theorem boundsChecked_iff_nonNegative (image : Mem) :
    BoundsChecked image ↔
      ∀ t sp, clockState image t = some sp → NonNegative sp.spro := by
  constructor
  · intro hchecked t sp h
    have hclock := (invariant_of_clockState h).outOfBounds_iff
    have hno : ¬∃ sp' a, spRun false sp = .ok sp' ∧
        memPhase sp'.sram = .error (.outOfBounds a) := by
      rintro ⟨sp', a, hrun, ha⟩
      exact hchecked t sp sp' a h hrun ha
    rw [hclock, not_or] at hno
    constructor
    · intro a ha
      by_contra hneg
      exact hno.1 ⟨a, ha, not_le.mp hneg⟩
    · intro a ha
      by_contra hneg
      exact hno.2 ⟨a, ha, not_le.mp hneg⟩
  · rintro hnonneg t sp sp' a h hrun hfault
    obtain ⟨hread, hwrite⟩ := hnonneg t sp h
    rcases (invariant_of_clockState h).outOfBounds_iff.mp ⟨sp', a, hrun, hfault⟩
      with ⟨b, hb, hneg⟩ | ⟨b, hb, hneg⟩
    · exact absurd hneg (not_lt.mpr (hread b hb))
    · exact absurd hneg (not_lt.mpr (hwrite b hb))

end MultiCycle

/-! ## Both processors -/

/-- **The range assertion, exactly when it suffices.** In every run of either
processor `llsim_run_clock` serves its requests inside the arrays if and only if no
clock requests a negative address: only those pass the assertion. -/
theorem boundsChecked_iff (imem dmem image : Mem) :
    (Pipeline.BoundsChecked imem dmem ↔
      ∀ t sp, Pipeline.clockState imem dmem t = some sp →
        Pipeline.NonNegative sp.spro) ∧
    (MultiCycle.BoundsChecked image ↔
      ∀ t sp, MultiCycle.clockState image t = some sp →
        MultiCycle.NonNegative sp.spro) :=
  ⟨Pipeline.boundsChecked_iff_nonNegative imem dmem,
    MultiCycle.boundsChecked_iff_nonNegative image⟩

/-- `LD r2, MEM[imm -1]`. -/
def negativeImage : Mem := imageOf [0x1081FFFF]

/-- Both processors load from index -1 in clock 5. -/
theorem negative_address_indexes :
    ¬Pipeline.BoundsChecked negativeImage negativeImage ∧
      ¬MultiCycle.BoundsChecked negativeImage := by
  constructor
  · rw [Pipeline.boundsChecked_iff_nonNegative]
    intro hnonneg
    have hsp : ∃ sp, Pipeline.clockState negativeImage negativeImage 5 = some sp ∧
        sp.spro.exec0.accesses = true ∧ sp.spro.exec0.alu1 = -1 := by
      refine ⟨_, Pipeline.clockState_eq_stateAt ?_, ?_, ?_⟩ <;> decide +kernel
    obtain ⟨sp, hsp, hacc, haddr⟩ := hsp
    have hlow := (hnonneg 5 sp hsp).data hacc
    rw [haddr] at hlow
    exact absurd hlow (by decide)
  · rw [MultiCycle.boundsChecked_iff_nonNegative]
    intro hnonneg
    have hsp : ∃ sp, MultiCycle.clockState negativeImage 5 = some sp ∧
        sp.spro.readAddr = some (-1) :=
      ⟨_, Option.eq_some_of_isSome (by decide +kernel), by decide +kernel⟩
    obtain ⟨sp, hsp, haddr⟩ := hsp
    exact absurd ((hnonneg 5 sp hsp).read (-1) haddr) (by decide)

end SuperscalarProcessor
