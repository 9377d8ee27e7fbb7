import SuperscalarProcessor.MultiCycle.Machine

/-!
# What one clock of the multi-cycle processor does

`Ticks` lists the effects of a clock with the DMA engine idle; a clock whose
requests are in range has them. The engine is idle in every reachable state:
`sp_run` overwrites what `sp_ctl` assigns to its registers.
-/

namespace SuperscalarProcessor.MultiCycle

open Llsim Foundation

/-- The address that a clock reads. -/
def SpRegisters.readAddr (s : SpRegisters) : Option Word :=
  match s.ctlState with
  | .FETCH0 => some s.pc
  | .EXEC0 => if s.fields.op = .LD then some s.alu1 else none
  | _ => none

/-- The address that a clock writes. -/
def SpRegisters.writeAddr (s : SpRegisters) : Option Word :=
  if s.ctlState = .EXEC1 ∧ s.fields.op = .ST then some s.aluout else none

/-- The memory after a clock. -/
def memoryAfter (s : SpRegisters) (data : Mem) : Mem :=
  match s.writeAddr with
  | some a => Function.update data a.toNat s.alu0
  | none => data

/-- The addresses requested in a clock are inside the memory. -/
structure InBounds (s : SpRegisters) : Prop where
  read : ∀ a, s.readAddr = some a → InRange a
  write : ∀ a, s.writeAddr = some a → InRange a

/-- The effects of a clock that leaves `s'` in `sprn` and does not stop. -/
structure Ticks (sp : Sp) (s' : SpRegisters) (sp' : Sp) : Prop where
  regs : sp'.spro = carryDma sp.spro s'
  data : sp'.sram.data = memoryAfter sp.spro sp.sram.data
  loaded : ∀ a, sp.spro.readAddr = some a →
    sp'.sram.dataout = sp.sram.data a.toNat
  stopSim : sp'.stopSim = false
  start : sp'.start = sp.start

/-- No state both reads and writes. -/
theorem writeAddr_of_readAddr {s : SpRegisters} {a : Word}
    (h : s.readAddr = some a) : s.writeAddr = none := by
  unfold SpRegisters.readAddr at h
  unfold SpRegisters.writeAddr
  cases hctl : s.ctlState <;> simp_all

theorem request_read {s : SpRegisters} {a : Word} (h : s.readAddr = some a)
    (m : Memory) :
    request s (quiet m) = .ok { quiet m with read := true, readAddr := a } := by
  unfold SpRegisters.readAddr at h
  unfold request
  cases hctl : s.ctlState <;> simp only [hctl] at h ⊢
  case FETCH0 =>
    obtain rfl := Option.some.inj h
    rfl
  case EXEC0 =>
    split_ifs at h ⊢ with hop
    · obtain rfl := Option.some.inj h
      rfl
  all_goals cases h

theorem request_write {s : SpRegisters} {a : Word} (h : s.writeAddr = some a)
    (m : Memory) :
    request s (quiet m) = .ok
      { quiet m with datain := s.alu0, write := true, writeAddr := a } := by
  unfold SpRegisters.writeAddr at h
  split_ifs at h with hst
  obtain rfl := Option.some.inj h
  simp [request, hst.1, hst.2, llsimMemWrite]

theorem request_none {s : SpRegisters} (hr : s.readAddr = none)
    (hw : s.writeAddr = none) (m : Memory) :
    request s (quiet m) = .ok (quiet m) := by
  unfold SpRegisters.readAddr at hr
  unfold SpRegisters.writeAddr at hw
  unfold request
  cases hctl : s.ctlState <;> simp_all

/-- Requests in range are issued and served. -/
theorem request_served {s : SpRegisters} (hin : InBounds s) (m : Memory) :
    ∃ m₁ m₂, request s (quiet m) = .ok m₁ ∧ memPhase m₁ = .ok m₂ ∧
      m₂.data = memoryAfter s m.data ∧
      ∀ a, s.readAddr = some a → m₂.dataout = m.data a.toNat := by
  unfold memoryAfter
  cases hr : s.readAddr with
  | some a =>
      refine ⟨_, _, request_read hr m, memPhase_read rfl rfl (hin.read a hr), ?_, ?_⟩
      · rw [writeAddr_of_readAddr hr]
        rfl
      · intro b hb
        obtain rfl := Option.some.inj hb
        rfl
  | none =>
      cases hw : s.writeAddr with
      | some a =>
          refine ⟨_, _, request_write hw m,
            memPhase_write rfl rfl (hin.write a hw), rfl, ?_⟩
          intro b hb
          cases hb
      | none =>
          refine ⟨_, _, request_none hr hw m, memPhase_idle rfl rfl, rfl, ?_⟩
          intro b hb
          cases hb

/-! ## The clock -/

/-- With the DMA engine idle, `sp_run` is `sp_ctl` but for the carried DMA
registers. -/
theorem spRun_idle_dma {sp : Sp} {s' : SpRegisters} {m : Memory}
    (hdma : sp.spro.dmaState = .IDLE)
    (hregs : nextRegisters sp.start sp.spro sp.sram.dataout = .ok s')
    (hreq : request sp.spro (quiet sp.sram) = .ok m) :
    spRun false sp = .ok
      { sp with
        sram := m
        sprn := carryDma sp.spro s'
        stopSim := sp.stopSim || sp.spro.halts
        sramOut :=
          if sp.spro.halts then some (dumpSram (quiet sp.sram)) else sp.sramOut } := by
  simp only [spRun, spCtl, llsimMemExtractDataout_word, quiet_dataout, hregs, hreq,
    bind, Except.bind, pure, Except.pure, dmaFsm, hdma]
  rfl

/-- **The step lemma.** A clock that faults nowhere has the listed effects. -/
theorem tick_ticks {sp : Sp} {s' : SpRegisters} (hdma : sp.spro.dmaState = .IDLE)
    (hstop : sp.stopSim = false) (hrun : sp.spro.halts = false)
    (hregs : nextRegisters sp.start sp.spro sp.sram.dataout = .ok s')
    (hin : InBounds sp.spro) : ∃ sp', tick sp = some sp' ∧ Ticks sp s' sp' := by
  obtain ⟨m₁, m₂, hreq, hphase, hdata, hload⟩ := request_served hin sp.sram
  refine ⟨{ sp with
      sram := m₂, spro := carryDma sp.spro s', sprn := carryDma sp.spro s'
      stopSim := false, sramOut := sp.sramOut }, ?_, rfl, hdata, hload, rfl, rfl⟩
  unfold tick llsimRunClock
  rw [spRun_idle_dma hdma hregs hreq]
  simp [bind, Except.bind, pure, Except.pure, hphase, hstop, hrun]

/-- A clock in which `sp_ctl` faults ends the run. -/
theorem llsimRunClock_error {sp : Sp} {f : Fault}
    (hregs : nextRegisters sp.start sp.spro sp.sram.dataout = .error f) :
    llsimRunClock false sp = .error f := by
  simp [llsimRunClock, spRun, spCtl, hregs, bind, Except.bind]

theorem tick_of_error {sp : Sp} {f : Fault} (h : llsimRunClock false sp = .error f) :
    tick sp = none := by
  rw [tick, h]

theorem llsimRunClock_of_tick {sp sp' : Sp} (h : tick sp = some sp') :
    llsimRunClock false sp = .ok sp' ∧ sp'.stopSim = false := by
  unfold tick at h
  cases hclock : llsimRunClock false sp with
  | error f => rw [hclock] at h; cases h
  | ok sp₁ =>
      simp only [hclock] at h
      split_ifs at h with hstop
      obtain rfl := Option.some.inj h
      exact ⟨rfl, Bool.not_eq_true _ ▸ hstop⟩

/-- HLT in EXEC1 dumps the memory, stops the simulation and changes nothing
that a program sees. -/
theorem spRun_of_halts {sp : Sp} (hdma : sp.spro.dmaState = .IDLE)
    (hhalt : sp.spro.halts = true) :
    ∃ sp', spRun false sp = .ok sp' ∧ sp'.stopSim = true ∧
      sp'.sramOut = some (memoryDump sp.sram.data) ∧ sp'.sprn.r = sp.spro.r ∧
      sp'.sram = quiet sp.sram := by
  have hctl : sp.spro.ctlState = .EXEC1 ∧ sp.spro.fields.op = .HLT := by
    simpa [SpRegisters.halts] using hhalt
  have hregs : ∃ s', nextRegisters sp.start sp.spro sp.sram.dataout = .ok s' ∧
      s'.r = sp.spro.r := by
    simp [nextRegisters, switchCtlState, ctlExec1, hctl, Except.map]
  have hreq : request sp.spro (quiet sp.sram) = .ok (quiet sp.sram) := by
    simp [request, hctl]
  obtain ⟨s', hs', hr⟩ := hregs
  refine ⟨_, spRun_idle_dma hdma hs' hreq, ?_, ?_, hr, rfl⟩
  · simp [hhalt]
  · simp only [hhalt, if_true, dumpSram_eq, quiet_data]

/-- The memory has no request in that clock, so the clock completes. -/
theorem clock_of_halts {sp : Sp} (hdma : sp.spro.dmaState = .IDLE)
    (hhalt : sp.spro.halts = true) :
    ∃ sp', llsimRunClock false sp = .ok sp' ∧ sp'.stopSim = true ∧
      sp'.spro.r = sp.spro.r ∧ sp'.sram.data = sp.sram.data := by
  obtain ⟨sp₁, hrun, hstop, -, hr, hsram⟩ := spRun_of_halts hdma hhalt
  have hphase : memPhase sp₁.sram =
      .ok { quiet sp.sram with dataout := idleDataout } := by
    rw [hsram]
    exact memPhase_idle rfl rfl
  refine ⟨{ sp₁ with
      sram := { quiet sp.sram with dataout := idleDataout }, spro := sp₁.sprn },
    ?_, hstop, hr, rfl⟩
  simp only [llsimRunClock, hrun, bind, Except.bind, pure, Except.pure, hphase]

/-! ## Every reachable state -/

/-- The registers of a completed clock, whatever the DMA engine does. -/
theorem regs_of_tick {sp sp' : Sp} (hdma : sp.spro.dmaState = .IDLE)
    (h : tick sp = some sp') : sp.spro.halts = false ∧
      ∃ s', nextRegisters sp.start sp.spro sp.sram.dataout = .ok s' ∧
        sp'.spro = carryDma sp.spro s' := by
  cases hregs : nextRegisters sp.start sp.spro sp.sram.dataout with
  | error f => cases (tick_of_error (llsimRunClock_error hregs)).symm.trans h
  | ok s' =>
      cases hreq : request sp.spro (quiet sp.sram) with
      | error f =>
          simp [tick, llsimRunClock, spRun, spCtl, hregs, hreq, bind,
            Except.bind] at h
      | ok m =>
          unfold tick llsimRunClock at h
          rw [spRun_idle_dma hdma hregs hreq] at h
          simp only [bind, Except.bind, pure, Except.pure] at h
          cases hphase : memPhase m with
          | error f => simp [hphase] at h
          | ok m' =>
              simp only [hphase] at h
              by_cases hstop : (sp.stopSim || sp.spro.halts) = true
              · rw [if_pos hstop] at h
                cases h
              rw [if_neg hstop] at h
              obtain rfl := Option.some.inj h
              simp only [Bool.or_eq_true, not_or, Bool.not_eq_true] at hstop
              exact ⟨hstop.2, s', rfl, rfl⟩

/-- Every control state counts the clock. -/
theorem nextRegisters_cycleCounter {start : Bool} {s s' : SpRegisters}
    {dataout : Word} (h : nextRegisters start s dataout = .ok s') :
    s'.cycleCounter = s.cycleCounter + 1 := by
  unfold nextRegisters at h
  cases hswitch : switchCtlState start s dataout with
  | error f => simp [hswitch, Except.map] at h
  | ok s₁ =>
      simp only [hswitch, Except.map, Except.ok.injEq] at h
      rw [← h]

/-- What holds of every state in which clock `t` starts. -/
structure Invariant (t : ℕ) (sp : Sp) : Prop where
  dma : sp.spro.dmaState = .IDLE
  stopSim : sp.stopSim = false
  cycleCounter : sp.spro.cycleCounter = BitVec.ofNat 32 t

theorem Invariant.next {t : ℕ} {sp sp' : Sp} (h : Invariant t sp)
    (ht : tick sp = some sp') : Invariant (t + 1) sp' := by
  obtain ⟨-, s', hregs, hspro⟩ := regs_of_tick h.dma ht
  refine ⟨?_, (llsimRunClock_of_tick ht).2, ?_⟩
  · rw [hspro]
    exact h.dma
  · rw [hspro]
    show s'.cycleCounter = _
    rw [nextRegisters_cycleCounter hregs, h.cycleCounter, BitVec.ofNat_add]
    rfl

/-- **The DMA engine never leaves its idle state.** -/
theorem invariant_of_clockState {image : Mem} {t : ℕ} {sp : Sp}
    (h : clockState image t = some sp) : Invariant t sp := by
  rw [clockState_eq] at h
  have init : Invariant 0 (resetState image) := ⟨rfl, rfl, rfl⟩
  exact runFor_invariant (fun _ => (none : Option Unit))
    (fun t _ sp => Invariant t sp) init (fun _ _ _ _ hinv ht => hinv.next ht) h

end SuperscalarProcessor.MultiCycle
