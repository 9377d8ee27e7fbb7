import SuperscalarProcessor.MultiCycle.Instruction

/-!
# The DMA engine of the multi-cycle processor

DMA_START assigns the engine's registers in `sprn`, and in the same clock
`sp_run` overwrites them with their old values. The engine stays idle in every
run: it never copies a word, and DMA_STATUS always reports that it is done.
-/

namespace SuperscalarProcessor.MultiCycle

open Llsim Foundation

/-- DMA_START in EXEC1, the engine idle, with at least one word to copy and
both ranges inside the memory. -/
structure StartsDma (s : SpRegisters) : Prop where
  ctlState : s.ctlState = .EXEC1
  op : s.fields.op = .DMA_START
  idle : s.dmaState = .IDLE
  len : 1 ≤ s.fields.immediate.toInt
  src : (s.r s.fields.src0).toNat + s.fields.immediate.toNat ≤ 65536
  dst : (s.r s.fields.src1).toNat + s.fields.immediate.toNat ≤ 65536

/-- The engine as DMA_START sets it up. -/
structure DmaArmed (s s' : SpRegisters) : Prop where
  state : s'.dmaState = .READ
  src : s'.dmaSrc = s.r s.fields.src0
  dst : s'.dmaDst = s.r s.fields.src1
  len : s'.dmaLen = s.fields.immediate
  count : s'.dmaCount = 0

/-- Since clock `t` and up to clock `u` the engine has written every word of
the transfer that `s` describes. -/
def DmaCopied (image : Mem) (t u : ℕ) (s : SpRegisters) : Prop :=
  ∀ i < s.fields.immediate.toNat, ∃ v sv, t < v ∧ v ≤ u ∧
    clockState image v = some sv ∧ sv.spro.dmaState = .WRITE ∧
    sv.spro.dmaDst + sv.spro.dmaCount =
      s.r s.fields.src1 + BitVec.ofNat 32 i

/-- DMA_STATUS in EXEC1 with a register to report in. -/
structure PollsDma (s : SpRegisters) : Prop where
  ctlState : s.ctlState = .EXEC1
  op : s.fields.op = .DMA_STATUS
  dst : s.fields.dst ≠ 0

/-- What is promised of a DMA_START that `s` completes in clock `t`. -/
structure DmaContract (image : Mem) (t : ℕ) (s : SpRegisters) : Prop where
  armed : ∀ sp', clockState image (t + 1) = some sp' → DmaArmed s sp'.spro
  polling : ∀ u su su', t < u → clockState image u = some su →
    PollsDma su.spro →
    (∀ v sv, t < v → v < u → clockState image v = some sv →
      ¬(sv.spro.ctlState = .EXEC1 ∧ sv.spro.fields.op = .DMA_START)) →
    clockState image (u + 1) = some su' →
    su'.spro.r su.spro.fields.dst = 0 → DmaCopied image t u s

/-- The engine writes nothing in any run. -/
theorem not_dmaCopied {image : Mem} {t u : ℕ} {s : SpRegisters}
    (h : StartsDma s) : ¬DmaCopied image t u s := by
  intro hcopied
  have hlen : 0 < s.fields.immediate.toNat := by
    have hone := h.len
    rw [BitVec.toInt_eq_toNat_cond] at hone
    split_ifs at hone <;> omega
  obtain ⟨v, sv, -, -, hv, hwrite, -⟩ := hcopied 0 hlen
  cases (invariant_of_clockState hv).dma.symm.trans hwrite

/-- DMA_START and DMA_STATUS complete: they make no request. -/
theorem dma_clock {image : Mem} {t : ℕ} {sp : Sp}
    (h : clockState image t = some sp) (hctl : sp.spro.ctlState = .EXEC1)
    {s' : SpRegisters} (hexec1 : ctlExec1 sp.spro sp.sram.dataout = .ok s')
    (hop : sp.spro.fields.op = .DMA_START ∨ sp.spro.fields.op = .DMA_STATUS) :
    ∃ sp', clockState image (t + 1) = some sp' ∧ sp'.spro.r = s'.r := by
  have hinv := invariant_of_clockState h
  have hsilent : sp.spro.readAddr = none ∧ sp.spro.writeAddr = none ∧
      sp.spro.halts = false := by
    unfold SpRegisters.readAddr SpRegisters.writeAddr SpRegisters.halts
    rcases hop with hop | hop <;> simp [hctl, hop]
  obtain ⟨hr, hw, hrun⟩ := hsilent
  obtain ⟨sp', ht, hregs, -⟩ := tick_silent hinv.dma hinv.stopSim hrun
    (by rw [nextRegisters, switchCtlState, hctl, hexec1]; rfl) hr hw
  refine ⟨sp', (runFor_succ_of_eq h).trans ht, ?_⟩
  rw [hregs]
  rfl

/-- The clock after a DMA_START exists, and the engine is idle in it. -/
theorem not_armed {image : Mem} {t : ℕ} {sp : Sp}
    (h : clockState image t = some sp) (hstart : StartsDma sp.spro) :
    ∃ sp', clockState image (t + 1) = some sp' ∧ ¬DmaArmed sp.spro sp'.spro := by
  have hexec1 : ∃ s', ctlExec1 sp.spro sp.sram.dataout = .ok s' := by
    simp [ctlExec1, hstart.op]
  obtain ⟨s', hs'⟩ := hexec1
  obtain ⟨sp', h', -⟩ := dma_clock h hstart.ctlState hs' (Or.inl hstart.op)
  refine ⟨sp', h', ?_⟩
  intro harmed
  cases (invariant_of_clockState h').dma.symm.trans harmed.state

/-- DMA_STATUS reports 0, whatever has been copied. -/
theorem polls_zero {image : Mem} {u : ℕ} {su : Sp}
    (h : clockState image u = some su) (hpoll : PollsDma su.spro) :
    ∃ su', clockState image (u + 1) = some su' ∧
      su'.spro.r su.spro.fields.dst = 0 := by
  have hidle := (invariant_of_clockState h).dma
  have hexec1 : ∃ s', ctlExec1 su.spro su.sram.dataout = .ok s' ∧
      s'.r su.spro.fields.dst = 0 := by
    simp only [ctlExec1, hpoll.op, hidle, Except.ok.injEq, exists_eq_left']
    rw [if_pos hpoll.dst, Function.update_self, if_neg (not_not.mpr rfl)]
  obtain ⟨s', hs', hzero⟩ := hexec1
  obtain ⟨su', h', hr⟩ := dma_clock h hpoll.ctlState hs' (Or.inr hpoll.op)
  exact ⟨su', h', by rw [hr, hzero]⟩

/-- **The DMA contract never holds.** No DMA_START of any run arms the engine,
and every later DMA_STATUS reports a finished transfer of which no word has been
written. -/
theorem dmaContract_never {image : Mem} {t : ℕ} {sp : Sp}
    (h : clockState image t = some sp) (hstart : StartsDma sp.spro) :
    ¬DmaContract image t sp.spro ∧
      ∀ u su, t < u → clockState image u = some su → PollsDma su.spro →
        ∃ su', clockState image (u + 1) = some su' ∧
          su'.spro.r su.spro.fields.dst = 0 ∧ ¬DmaCopied image t u sp.spro := by
  constructor
  · intro hcontract
    obtain ⟨sp', h', hnot⟩ := not_armed h hstart
    exact hnot (hcontract.armed sp' h')
  · intro u su _ hu hpoll
    obtain ⟨su', hu', hzero⟩ := polls_zero hu hpoll
    exact ⟨su', hu', hzero, not_dmaCopied hstart⟩

/-- The program of `dma_test.c`: copy four words from 100 to 200, poll, halt. -/
def dmaTestImage : Mem
  | 100 => 0xDEADBEEF
  | 101 => 0xCAFEBABE
  | 102 => 0x12345678
  | 103 => 0x87654321
  | i => imageOf [0x00880064, 0x00C800C8, 0x14130004, 0x17000000, 0x26040003,
      0x30000000] i

theorem dmaTest_starts :
    ∃ sp, clockState dmaTestImage 18 = some sp ∧ StartsDma sp.spro :=
  ⟨_, Option.eq_some_of_isSome (by decide +kernel), by decide +kernel,
    by decide +kernel, by decide +kernel, by decide +kernel, by decide +kernel,
    by decide +kernel⟩

theorem dmaContract_never_dmaTest :
    ∃ sp, clockState dmaTestImage 18 = some sp ∧
      ¬DmaContract dmaTestImage 18 sp.spro ∧
        ∀ u su, 18 < u → clockState dmaTestImage u = some su →
          PollsDma su.spro → ∃ su', clockState dmaTestImage (u + 1) = some su' ∧
            su'.spro.r su.spro.fields.dst = 0 ∧
              ¬DmaCopied dmaTestImage 18 u sp.spro := by
  obtain ⟨sp, h, hstart⟩ := dmaTest_starts
  exact ⟨sp, h, dmaContract_never h hstart⟩

/-- After the test's DMA_START in clock 18 the engine is still idle. -/
theorem dmaTest_breaks_contract :
    ∃ sp, clockState dmaTestImage 18 = some sp ∧ StartsDma sp.spro ∧
      ¬DmaContract dmaTestImage 18 sp.spro := by
  obtain ⟨sp, h, hstart⟩ := dmaTest_starts
  refine ⟨sp, h, hstart, fun hcontract => ?_⟩
  obtain ⟨sp', h', hnot⟩ := not_armed h hstart
  exact hnot (hcontract.armed sp' h')

end SuperscalarProcessor.MultiCycle
