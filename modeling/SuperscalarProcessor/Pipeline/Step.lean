import SuperscalarProcessor.Pipeline.Clock

/-!
# What one clock of the pipeline does

`Ticks sp sp'` lists every effect of a completed clock while the DMA block is
idle. All invariants are derived from it; `sp_ctl` is not unfolded again. The
DMA block is idle throughout: no instruction of lab3_A sets `dma_busy`.
-/

namespace SuperscalarProcessor.Pipeline

open Llsim Foundation

/-- The data memory after the instruction in EXEC0 has been served. -/
def memoryAfter (e : ExecLatch) (data : Mem) : Mem :=
  if e.active && e.fields.op == .ST then Function.update data e.alu1.toNat e.alu0
  else data

theorem memoryAfter_of_bubble {e : ExecLatch} (h : e.active = false)
    (mem : Mem) : memoryAfter e mem = mem := by
  simp [memoryAfter, h]

/-- The instruction reads or writes the data memory. -/
def ExecLatch.accesses (e : ExecLatch) : Bool :=
  e.active && (e.fields.op == .LD || e.fields.op == .ST)

theorem accesses_of_bubble {e : ExecLatch} (h : e.active = false) :
    e.accesses = false := by
  rw [ExecLatch.accesses, h, Bool.false_and]

/-- The addresses requested in this clock are inside the memories. -/
structure InBounds (s : SpRegisters) : Prop where
  data : s.exec0.accesses = true → InRange s.exec0.alu1
  fetch : s.fetch0.active = true → InRange s.fetch0.pc

/-- The effects of a clock that completes without stopping the simulation. -/
structure Ticks (sp sp' : Sp) : Prop where
  running : sp.spro.halts = false
  regs : sp'.spro =
    nextRegisters sp.spro sp.sramd.dataout sp.srami sp.spro.dma
  imem : sp'.srami.data = sp.srami.data
  dmem : sp'.sramd.data = memoryAfter sp.spro.exec0 sp.sramd.data
  loaded : sp.spro.exec0.active = true → sp.spro.exec0.fields.op = .LD →
    sp'.sramd.dataout = sp.sramd.data sp.spro.exec0.alu1.toNat
  dataAddr : sp.spro.exec0.accesses = true → InRange sp.spro.exec0.alu1
  stopSim : sp'.stopSim = false

/-! ## The memories' turn -/

/-- EXEC0's request never fails: the port is free when the unit runs. -/
theorem issueMemory_quiet (e : ExecLatch) (m : Memory) :
    issueMemory e (quiet m) = .ok
      (if e.active && e.fields.op == .LD then
        { quiet m with read := true, readAddr := e.alu1 }
      else if e.active && e.fields.op == .ST then
        { quiet m with datain := e.alu0, write := true, writeAddr := e.alu1 }
      else quiet m) := by
  unfold issueMemory
  cases hact : e.active with
  | false => rfl
  | true =>
      cases hop : e.fields.op <;>
        simp [llsimMemRead, llsimMemWrite]

theorem issueMemory_total (e : ExecLatch) (m : Memory) :
    ∃ m₁, issueMemory e (quiet m) = .ok m₁ :=
  ⟨_, issueMemory_quiet e m⟩

theorem issueMemory_name {e : ExecLatch} {m m₁ : Memory}
    (h : issueMemory e (quiet m) = .ok m₁) : m₁.name = m.name := by
  rw [issueMemory_quiet] at h
  obtain rfl := Except.ok.inj h
  split_ifs <;> rfl

/-- Serving EXEC0's request: it succeeds exactly when its address is in range,
and then reads or writes that entry. -/
theorem memPhase_issue {e : ExecLatch} {m m₁ : Memory}
    (hissue : issueMemory e (quiet m) = .ok m₁)
    (haddr : e.accesses = true → InRange e.alu1) :
    ∃ m₂, memPhase m₁ = .ok m₂ := by
  rw [issueMemory_quiet] at hissue
  obtain rfl := Except.ok.inj hissue
  unfold ExecLatch.accesses at haddr
  split_ifs with hld hst
  · refine ⟨_, memPhase_read rfl rfl (haddr ?_)⟩
    simp only [Bool.and_eq_true] at hld
    simp [hld.1, hld.2]
  · refine ⟨_, memPhase_write rfl rfl (haddr ?_)⟩
    simp only [Bool.and_eq_true] at hst
    simp [hst.1, hst.2]
  · exact ⟨_, memPhase_idle rfl rfl⟩

theorem memPhase_issue_spec {e : ExecLatch} {m m₁ m₂ : Memory}
    (hissue : issueMemory e (quiet m) = .ok m₁) (hphase : memPhase m₁ = .ok m₂) :
    m₂.data = memoryAfter e m.data ∧
    (e.active = true → e.fields.op = .LD → m₂.dataout = m.data e.alu1.toNat) ∧
    (e.accesses = true → InRange e.alu1) := by
  rw [issueMemory_quiet] at hissue
  obtain rfl := Except.ok.inj hissue
  split_ifs at hphase with hld hst
  · have hin := inRange_of_memPhase_read rfl hphase
    rw [memPhase_read rfl rfl hin] at hphase
    obtain rfl := Except.ok.inj hphase
    simp only [Bool.and_eq_true, beq_iff_eq] at hld
    refine ⟨?_, fun _ _ => rfl, fun _ => hin⟩
    simp [memoryAfter, hld.2]
  · have hin := inRange_of_memPhase_write rfl rfl hphase
    rw [memPhase_write rfl rfl hin] at hphase
    obtain rfl := Except.ok.inj hphase
    refine ⟨?_, ?_, fun _ => hin⟩
    · simp [memoryAfter, hst]
    · intro hact hop
      simp [hact, hop] at hld
  · rw [memPhase_idle rfl rfl] at hphase
    obtain rfl := Except.ok.inj hphase
    refine ⟨?_, ?_, ?_⟩
    · simp [memoryAfter, hst]
    · intro hact hop
      simp [hact, hop] at hld
    · intro hacc
      simp only [ExecLatch.accesses, Bool.and_eq_true, Bool.or_eq_true] at hacc
      rcases hacc.2 with hop | hop
      · exact absurd (by simp [hacc.1, hop]) hld
      · exact absurd (by simp [hacc.1, hop]) hst

/-- FETCH0 reads unless DEC1 stalls, and never writes. -/
theorem issueFetch_port (s : SpRegisters) (hz : Hazards) (m : Memory) :
    (issueFetch s hz (quiet m)).read = (!hz.stall && s.fetch0.active) ∧
      (issueFetch s hz (quiet m)).write = false ∧
      (hz.stall = false → s.fetch0.active = true →
        (issueFetch s hz (quiet m)).readAddr = s.fetch0.pc) := by
  unfold issueFetch
  cases hz.stall with
  | true => simp
  | false => cases s.fetch0.active <;> simp

/-- The instruction memory's turn changes no entry. -/
theorem memPhase_fetch_data {s : SpRegisters} {hz : Hazards} {m m' : Memory}
    (h : memPhase (issueFetch s hz (quiet m)) = .ok m') : m'.data = m.data := by
  obtain ⟨-, hwrite, -⟩ := issueFetch_port s hz m
  have hdata : (issueFetch s hz (quiet m)).data = m.data := by
    unfold issueFetch
    split <;> rfl
  cases hread : (issueFetch s hz (quiet m)).read with
  | false =>
      rw [memPhase_idle hread hwrite] at h
      obtain rfl := Except.ok.inj h
      exact hdata
  | true =>
      rw [memPhase_read hread hwrite (inRange_of_memPhase_read hread h)] at h
      obtain rfl := Except.ok.inj h
      exact hdata

theorem memPhase_fetch {s : SpRegisters} {hz : Hazards}
    (haddr : hz.stall = false → s.fetch0.active = true → InRange s.fetch0.pc)
    (m : Memory) :
    ∃ m', memPhase (issueFetch s hz (quiet m)) = .ok m' := by
  obtain ⟨hport, hwrite, hpc⟩ := issueFetch_port s hz m
  cases hread : (issueFetch s hz (quiet m)).read with
  | false => exact ⟨_, memPhase_idle hread hwrite⟩
  | true =>
      rw [hread] at hport
      simp only [Bool.true_eq, Bool.and_eq_true, Bool.not_eq_true'] at hport
      obtain ⟨hstall, hact⟩ := hport
      refine ⟨_, memPhase_read hread hwrite ?_⟩
      rw [hpc hstall hact]
      exact haddr hstall hact

/-! ## The clock -/

/-- With the DMA block idle, a clock is EXEC0's request, the fetch request and
the register update. -/
theorem spCtl_idle_dma {sp : Sp} (hdma : sp.spro.dma.busy = 0) {sramd : Memory}
    (hissue : issueMemory sp.spro.exec0 (quiet sp.sramd) = .ok sramd) :
    spRun false sp = .ok
      { srami := issueFetch sp.spro (detectHazards sp.spro sp.sramd.dataout)
          (quiet sp.srami)
        sramd := sramd
        spro := sp.spro
        sprn := nextRegisters sp.spro sp.sramd.dataout sp.srami sp.spro.dma
        stopSim := sp.stopSim || sp.spro.halts
        sramiOut :=
          if sp.spro.halts then some (dumpSram sp.srami) else sp.sramiOut
        sramdOut :=
          if sp.spro.halts then some (dumpSram sp.sramd) else sp.sramdOut } := by
  have hdma' : stageDma sp.spro.dma sramd = (sp.spro.dma, sramd) := by
    simp [stageDma, hdma]
  have hissue' : issueMemory sp.spro.exec0
      { sp.sramd with read := false, write := false } = .ok sramd := hissue
  simp only [spRun, spCtl, hissue', llsimMemExtractDataout_word, bind,
    Except.bind, hdma']
  rfl

/-- How a clock ends in a fault: the data memory is served first. -/
theorem clock_error_iff {sp : Sp} (hdma : sp.spro.dma.busy = 0) {m : Memory}
    (hissue : issueMemory sp.spro.exec0 (quiet sp.sramd) = .ok m) (f : Fault) :
    llsimRunClock false sp = .error f ↔ memPhase m = .error f ∨
      ((sp.spro.exec0.accesses = true → InRange sp.spro.exec0.alu1) ∧
        memPhase (issueFetch sp.spro
          (detectHazards sp.spro sp.sramd.dataout) (quiet sp.srami)) = .error f) := by
  unfold llsimRunClock
  rw [spCtl_idle_dma hdma hissue]
  simp only [bind, Except.bind, pure, Except.pure]
  cases hd : memPhase m with
  | error f' =>
      have hout : ¬(sp.spro.exec0.accesses = true → InRange sp.spro.exec0.alu1) := by
        intro hin
        obtain ⟨m₂, hok⟩ := memPhase_issue hissue hin
        cases hd.symm.trans hok
      simp [hout]
  | ok m₂ =>
      have hin := (memPhase_issue_spec hissue hd).2.2
      cases hi : memPhase (issueFetch sp.spro
          (detectHazards sp.spro sp.sramd.dataout) (quiet sp.srami)) with
      | error f' =>
          rw [eq_true hin]
          simp
      | ok m₃ => simp

/-- What a clock that completes has done, HLT's own clock included. -/
structure Served (sp sp' : Sp) : Prop where
  data : ∃ m, issueMemory sp.spro.exec0 (quiet sp.sramd) = .ok m ∧
    memPhase m = .ok sp'.sramd
  fetch : memPhase (issueFetch sp.spro (detectHazards sp.spro sp.sramd.dataout)
    (quiet sp.srami)) = .ok sp'.srami
  regs : sp'.spro =
    nextRegisters sp.spro sp.sramd.dataout sp.srami sp.spro.dma
  stopSim : sp'.stopSim = (sp.stopSim || sp.spro.halts)
  dump : sp.spro.halts = true →
    sp'.sramdOut = some (memoryDump sp.sramd.data)

theorem served_of_clock {sp sp' : Sp} (hdma : sp.spro.dma.busy = 0)
    (h : llsimRunClock false sp = .ok sp') : Served sp sp' := by
  obtain ⟨m, hissue⟩ := issueMemory_total sp.spro.exec0 sp.sramd
  unfold llsimRunClock at h
  rw [spCtl_idle_dma hdma hissue] at h
  simp only [bind, Except.bind, pure, Except.pure] at h
  cases hd : memPhase m with
  | error f => simp [hd] at h
  | ok sramd =>
      cases hi : memPhase (issueFetch sp.spro
          (detectHazards sp.spro sp.sramd.dataout) (quiet sp.srami)) with
      | error f => simp [hd, hi] at h
      | ok srami =>
          simp only [hd, hi, Except.ok.injEq] at h
          subst h
          refine ⟨⟨m, hissue, hd⟩, hi, rfl, rfl, ?_⟩
          intro hhalt
          simp only [hhalt, if_true, dumpSram_eq]

/-- What a completed clock has fetched was in range. -/
theorem Served.fetch_inRange {sp sp' : Sp} (h : Served sp sp')
    (hstall : (detectHazards sp.spro sp.sramd.dataout).stall = false)
    (hact : sp.spro.fetch0.active = true) : InRange sp.spro.fetch0.pc := by
  obtain ⟨hread, -, haddr⟩ := issueFetch_port sp.spro
    (detectHazards sp.spro sp.sramd.dataout) sp.srami
  rw [hstall, hact] at hread
  have hin := inRange_of_memPhase_read hread h.fetch
  rw [haddr hstall hact] at hin
  exact hin

/-- Memories keep their names. -/
theorem Served.names {sp sp' : Sp} (h : Served sp sp') :
    sp'.srami.name = sp.srami.name ∧ sp'.sramd.name = sp.sramd.name := by
  obtain ⟨m, hissue, hd⟩ := h.data
  constructor
  · rw [memPhase_name h.fetch]
    unfold issueFetch
    split <;> rfl
  · rw [memPhase_name hd, issueMemory_name hissue]

theorem clock_of_tick {sp sp' : Sp} (h : tick sp = some sp') :
    llsimRunClock false sp = .ok sp' ∧ sp'.stopSim = false := by
  unfold tick at h
  cases hclock : llsimRunClock false sp with
  | error f => rw [hclock] at h; cases h
  | ok sp₁ =>
      simp only [hclock] at h
      split_ifs at h with hstop
      obtain rfl := Option.some.inj h
      exact ⟨rfl, Bool.not_eq_true _ ▸ hstop⟩

/-- **The step lemma.** -/
theorem ticks_of_tick {sp sp' : Sp} (hdma : sp.spro.dma.busy = 0)
    (h : tick sp = some sp') : Ticks sp sp' := by
  obtain ⟨hclock, hstop⟩ := clock_of_tick h
  obtain ⟨⟨m, hissue, hd⟩, hi, hregs, hstop', -⟩ := served_of_clock hdma hclock
  obtain ⟨hdata, hload, haddr⟩ := memPhase_issue_spec hissue hd
  have hno : sp.stopSim = false ∧ sp.spro.halts = false := by
    rw [hstop] at hstop'
    simpa using hstop'.symm
  exact
    { running := hno.2
      regs := hregs
      imem := memPhase_fetch_data hi
      dmem := hdata
      loaded := hload
      dataAddr := haddr
      stopSim := hstop }

/-- **Progress of one clock.** A running clock whose requests are in range
completes; while DEC1 stalls nothing is fetched. -/
theorem tick_isSome {sp : Sp} (hdma : sp.spro.dma.busy = 0)
    (hstop : sp.stopSim = false) (hrun : sp.spro.halts = false)
    (hdata : sp.spro.exec0.accesses = true → InRange sp.spro.exec0.alu1)
    (hfetch : (detectHazards sp.spro sp.sramd.dataout).stall = false →
      sp.spro.fetch0.active = true → InRange sp.spro.fetch0.pc) :
    (tick sp).isSome := by
  obtain ⟨m₁, hissue⟩ := issueMemory_total sp.spro.exec0 sp.sramd
  obtain ⟨m₂, hd⟩ := memPhase_issue hissue hdata
  obtain ⟨m₃, hi⟩ := memPhase_fetch hfetch sp.srami
  unfold tick llsimRunClock
  rw [spCtl_idle_dma hdma hissue]
  simp [bind, Except.bind, pure, Except.pure, hd, hi, hstop, hrun]

/-- HLT in EXEC1 ends the run. -/
theorem tick_of_halts {sp : Sp} (hdma : sp.spro.dma.busy = 0)
    (hhalt : sp.spro.halts = true) : tick sp = none := by
  cases h : tick sp with
  | none => rfl
  | some sp' =>
      have := (ticks_of_tick hdma h).running
      rw [hhalt] at this
      exact Bool.noConfusion this

end SuperscalarProcessor.Pipeline
