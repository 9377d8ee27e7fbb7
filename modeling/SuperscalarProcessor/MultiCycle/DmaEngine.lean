import SuperscalarProcessor.Foundation.Copy
import SuperscalarProcessor.MultiCycle.Step

/-!
# The copy loop of the DMA engine

The engine is looked at in a state that DMA_START is written to leave: reading,
with no word copied yet. Each word takes a clock that reads it and a clock that
writes it; the length is compared only after a write.
-/

namespace SuperscalarProcessor.MultiCycle

open Llsim Foundation

/-! ## The clocks of one word -/

/-- The CPU waits for a start that does not come: it makes no request. -/
structure CpuIdle (sp : Sp) : Prop where
  ctlState : sp.spro.ctlState = .IDLE
  start : sp.start = false
  stopSim : sp.stopSim = false

/-- What an idle clock of the CPU leaves in `sprn`. -/
def idleRegisters (s : SpRegisters) : SpRegisters :=
  { ctlIdle false s with cycleCounter := s.cycleCounter + 1 }

/-- The registers after the engine's read clock. -/
def readRegisters (s : SpRegisters) : SpRegisters :=
  { carryDma s (idleRegisters s) with dmaState := .WRITE }

/-- The registers after the engine's write clock. -/
def writeRegisters (s : SpRegisters) : SpRegisters :=
  { carryDma s (idleRegisters s) with
    dmaCount := s.dmaCount + 1
    dmaState := if (s.dmaCount + 1).slt s.dmaLen then .READ else .IDLE }

theorem spCtl_cpuIdle {sp : Sp} (h : CpuIdle sp) :
    spCtl { sp with sram := quiet sp.sram } = .ok
      { sp with sram := quiet sp.sram, sprn := idleRegisters sp.spro } := by
  simp [spCtl, nextRegisters, switchCtlState, request, SpRegisters.halts,
    idleRegisters, h.ctlState, h.start, bind, Except.bind, pure, Except.pure,
    Except.map]

/-- When `sp_run` neither faults nor stops, the memory decides the clock. -/
theorem tick_of_spRun {sp sp₁ sp' : Sp} (hrun : spRun false sp = .ok sp₁)
    (hstop : sp₁.stopSim = false) :
    tick sp = some sp' ↔ ∃ sram, memPhase sp₁.sram = .ok sram ∧
      { sp₁ with sram := sram, spro := sp₁.sprn } = sp' := by
  unfold tick llsimRunClock
  rw [hrun]
  cases hphase : memPhase sp₁.sram with
  | error f => simp [bind, Except.bind, hphase]
  | ok sram => simp [bind, Except.bind, pure, Except.pure, hphase, hstop]

theorem tick_dmaRead {sp sp' : Sp} (h : CpuIdle sp)
    (hread : sp.spro.dmaState = .READ) :
    tick sp = some sp' ↔
      ∃ sram, memPhase { quiet sp.sram with
          read := true, readAddr := sp.spro.dmaSrc + sp.spro.dmaCount } = .ok sram ∧
        { sp with
          sram := sram, spro := readRegisters sp.spro
          sprn := readRegisters sp.spro } = sp' := by
  have hrun : spRun false sp = .ok { sp with
      sram := { quiet sp.sram with
        read := true, readAddr := sp.spro.dmaSrc + sp.spro.dmaCount }
      sprn := readRegisters sp.spro } := by
    simp only [spRun, spCtl_cpuIdle h, bind, Except.bind, dmaFsm, hread]
    rfl
  exact tick_of_spRun hrun h.stopSim

theorem tick_dmaWrite {sp sp' : Sp} (h : CpuIdle sp)
    (hwrite : sp.spro.dmaState = .WRITE) :
    tick sp = some sp' ↔
      ∃ sram, memPhase { quiet sp.sram with
          datain := sp.sram.dataout, write := true
          writeAddr := sp.spro.dmaDst + sp.spro.dmaCount } = .ok sram ∧
        { sp with
          sram := sram, spro := writeRegisters sp.spro
          sprn := writeRegisters sp.spro } = sp' := by
  have hrun : spRun false sp = .ok { sp with
      sram := { quiet sp.sram with
        datain := sp.sram.dataout, write := true
        writeAddr := sp.spro.dmaDst + sp.spro.dmaCount }
      sprn := writeRegisters sp.spro } := by
    simp only [spRun, spCtl_cpuIdle h, bind, Except.bind, dmaFsm, hwrite,
      llsimMemExtractDataout_word, llsimMemSetDatain_word]
    rfl
  exact tick_of_spRun hrun h.stopSim

/-! ## The loop over the words -/

/-- The engine as DMA_START is written to leave it. -/
structure CopyArmed (sp : Sp) : Prop where
  cpu : CpuIdle sp
  state : sp.spro.dmaState = .READ
  count : sp.spro.dmaCount = 0

/-- At least one word, and both ranges inside the memory. -/
structure CopyFits (s : SpRegisters) : Prop where
  len : 1 ≤ s.dmaLen.toInt
  src : s.dmaSrc.toNat + s.dmaLen.toNat ≤ spSramHeight
  dst : s.dmaDst.toNat + s.dmaLen.toNat ≤ spSramHeight

/-- The address that the engine writes in a clock. -/
def SpRegisters.dmaWriteAddr (s : SpRegisters) : Option Word :=
  if s.dmaState = .WRITE then some (s.dmaDst + s.dmaCount) else none

/-- How often the loop body runs: its test comes after the first word. -/
def dmaWords (len : Word) : ℕ := (max 1 len.toInt).toNat

/-- `k` words of the transfer that starts in `sp₀` are copied. -/
structure Progress (sp₀ : Sp) (k : ℕ) (sp : Sp) : Prop where
  cpu : CpuIdle sp
  src : sp.spro.dmaSrc = sp₀.spro.dmaSrc
  dst : sp.spro.dmaDst = sp₀.spro.dmaDst
  len : sp.spro.dmaLen = sp₀.spro.dmaLen
  count : sp.spro.dmaCount = BitVec.ofNat 32 k
  data : sp.sram.data =
    copyUp sp₀.spro.dmaSrc.toNat sp₀.spro.dmaDst.toNat k sp₀.sram.data

/-- Before the clock that reads word `k`, or after the last word. -/
structure Copied (sp₀ : Sp) (k : ℕ) (sp : Sp) : Prop
    extends Progress sp₀ k sp where
  state : sp.spro.dmaState =
    if k < dmaWords sp₀.spro.dmaLen then .READ else .IDLE

/-- Before the clock that writes word `k`, which the port's latch holds. -/
structure Loaded (sp₀ : Sp) (k : ℕ) (sp : Sp) : Prop
    extends Progress sp₀ k sp where
  state : sp.spro.dmaState = .WRITE
  latch : sp.sram.dataout = sp.sram.data (sp₀.spro.dmaSrc.toNat + k)

theorem dmaWords_pos (len : Word) : 0 < dmaWords len := by
  unfold dmaWords
  omega

theorem dmaWords_lt (len : Word) : dmaWords len < 2 ^ 31 := by
  have h : len.toInt < 2 ^ 31 := BitVec.toInt_lt
  unfold dmaWords
  omega

theorem dmaWords_of_pos {len : Word} (h : 1 ≤ len.toInt) :
    dmaWords len = len.toNat := by
  unfold dmaWords
  rw [BitVec.toInt_eq_toNat_cond] at h ⊢
  split_ifs at h ⊢ <;> omega

/-- The engine's exit test counts the words. -/
theorem slt_dmaLen_iff {len : Word} {k : ℕ} (hk : k < dmaWords len) :
    (BitVec.ofNat 32 k + 1).slt len = true ↔ k + 1 < dmaWords len := by
  have hlt := dmaWords_lt len
  have hcount : (BitVec.ofNat 32 k + 1).toNat = k + 1 := by
    rw [BitVec.toNat_add, BitVec.toNat_ofNat]
    show (k % 2 ^ 32 + 1) % 2 ^ 32 = k + 1
    omega
  have hsigned : (BitVec.ofNat 32 k + 1).toInt = k + 1 := by
    rw [BitVec.toInt_eq_toNat_of_lt (by omega), hcount]
    rfl
  rw [BitVec.slt_iff_toInt_lt, hsigned]
  unfold dmaWords
  omega

theorem copied_zero {sp : Sp} (h : CopyArmed sp) : Copied sp 0 sp where
  cpu := h.cpu
  src := rfl
  dst := rfl
  len := rfl
  count := h.count
  data := rfl
  state := by rw [h.state, if_pos (dmaWords_pos _)]

theorem Copied.reading {sp₀ sp : Sp} {k : ℕ} (h : Copied sp₀ k sp)
    (hk : k < dmaWords sp₀.spro.dmaLen) : sp.spro.dmaState = .READ := by
  rw [h.state, if_pos hk]

/-- The read clock of a word inside the memory. -/
theorem Copied.load {sp₀ sp : Sp} {k : ℕ} (h : Copied sp₀ k sp)
    (hk : k < dmaWords sp₀.spro.dmaLen)
    (hsrc : sp₀.spro.dmaSrc.toNat + k < spSramHeight) :
    ∃ sp₁, tick sp = some sp₁ ∧ Loaded sp₀ k sp₁ := by
  have hwrap : sp₀.spro.dmaSrc.toNat + k < 2 ^ 32 :=
    Nat.lt_trans hsrc (by decide)
  have haddr : sp.spro.dmaSrc + sp.spro.dmaCount =
      sp₀.spro.dmaSrc + BitVec.ofNat 32 k := by rw [h.src, h.count]
  have hin : InRange (sp.spro.dmaSrc + sp.spro.dmaCount) := by
    rw [haddr]
    exact (inRange_add_iff hwrap).mpr hsrc
  refine ⟨_, (tick_dmaRead h.cpu (h.reading hk)).mpr
    ⟨_, memPhase_read rfl rfl hin, rfl⟩, ⟨⟨h.cpu.ctlState, h.cpu.start,
      h.cpu.stopSim⟩, h.src, h.dst, h.len, h.count, h.data⟩, rfl, ?_⟩
  show sp.sram.data _ = sp.sram.data _
  rw [haddr, toNat_add_ofNat hwrap]

/-- The write clock of a word inside the memory. -/
theorem Loaded.store {sp₀ sp : Sp} {k : ℕ} (h : Loaded sp₀ k sp)
    (hk : k < dmaWords sp₀.spro.dmaLen)
    (hdst : sp₀.spro.dmaDst.toNat + k < spSramHeight) :
    ∃ sp₂, tick sp = some sp₂ ∧ Copied sp₀ (k + 1) sp₂ := by
  have hwrap : sp₀.spro.dmaDst.toNat + k < 2 ^ 32 :=
    Nat.lt_trans hdst (by decide)
  have haddr : sp.spro.dmaDst + sp.spro.dmaCount =
      sp₀.spro.dmaDst + BitVec.ofNat 32 k := by rw [h.dst, h.count]
  have hin : InRange (sp.spro.dmaDst + sp.spro.dmaCount) := by
    rw [haddr]
    exact (inRange_add_iff hwrap).mpr hdst
  refine ⟨_, (tick_dmaWrite h.cpu h.state).mpr
    ⟨_, memPhase_write rfl rfl hin, rfl⟩, ⟨⟨h.cpu.ctlState, h.cpu.start,
      h.cpu.stopSim⟩, h.src, h.dst, h.len, ?_, ?_⟩, ?_⟩
  · show sp.spro.dmaCount + 1 = BitVec.ofNat 32 (k + 1)
    rw [h.count, BitVec.ofNat_add]
    rfl
  · show Function.update sp.sram.data _ sp.sram.dataout = _
    rw [haddr, toNat_add_ofNat hwrap, h.latch, h.data, copyUp_succ]
  · show (if (sp.spro.dmaCount + 1).slt sp.spro.dmaLen = true then _ else _) = _
    rw [h.count, h.len]
    simp only [slt_dmaLen_iff hk]

/-- A read clock that completes read inside the memory. -/
theorem Copied.src_lt {sp₀ sp sp₁ : Sp} {k : ℕ} (h : Copied sp₀ k sp)
    (hk : k < dmaWords sp₀.spro.dmaLen)
    (hwrap : sp₀.spro.dmaSrc.toNat + k < 2 ^ 32) (htick : tick sp = some sp₁) :
    sp₀.spro.dmaSrc.toNat + k < spSramHeight := by
  obtain ⟨sram, hphase, -⟩ := (tick_dmaRead h.cpu (h.reading hk)).mp htick
  rw [h.src, h.count] at hphase
  have hin := inRange_of_memPhase_read rfl hphase
  exact (inRange_add_iff hwrap).mp hin

theorem Loaded.dst_lt {sp₀ sp sp₂ : Sp} {k : ℕ} (h : Loaded sp₀ k sp)
    (hwrap : sp₀.spro.dmaDst.toNat + k < 2 ^ 32) (htick : tick sp = some sp₂) :
    sp₀.spro.dmaDst.toNat + k < spSramHeight := by
  obtain ⟨sram, hphase, -⟩ := (tick_dmaWrite h.cpu h.state).mp htick
  rw [h.dst, h.count] at hphase
  have hin := inRange_of_memPhase_write rfl rfl hphase
  exact (inRange_add_iff hwrap).mp hin

/-! ## The whole transfer -/

/-- The engine is idle for the first time after `n` clocks, in `sp'`. -/
structure ReturnsToIdle (sp₀ : Sp) (n : ℕ) (sp' : Sp) : Prop where
  run : runFor tick n sp₀ = some sp'
  idle : sp'.spro.dmaState = .IDLE
  first : ∀ t < n, ∃ st, runFor tick t sp₀ = some st ∧ st.spro.dmaState ≠ .IDLE

/-- The addresses written in the first `n` clocks, in order. -/
def dmaWrites (sp₀ : Sp) (n : ℕ) : List Word :=
  observed tick (fun sp => sp.spro.dmaWriteAddr) n sp₀

/-- The run up to the end of `k` words. -/
structure WordsDone (sp₀ : Sp) (k : ℕ) (sp : Sp) : Prop where
  run : runFor tick (2 * k) sp₀ = some sp
  copied : Copied sp₀ k sp
  busy : ∀ t < 2 * k, ∃ st, runFor tick t sp₀ = some st ∧ st.spro.dmaState ≠ .IDLE
  writes : (dmaWrites sp₀ (2 * k)).length = k

theorem wordsDone_zero {sp : Sp} (h : CopyArmed sp) : WordsDone sp 0 sp where
  run := rfl
  copied := copied_zero h
  busy := fun _ ht => absurd ht (Nat.not_lt_zero _)
  writes := rfl

theorem WordsDone.succ {sp₀ sp sp₁ sp₂ : Sp} {k : ℕ} (h : WordsDone sp₀ k sp)
    (hk : k < dmaWords sp₀.spro.dmaLen) (hload : tick sp = some sp₁)
    (hloaded : Loaded sp₀ k sp₁) (hstore : tick sp₁ = some sp₂)
    (hcopied : Copied sp₀ (k + 1) sp₂) : WordsDone sp₀ (k + 1) sp₂ := by
  have hreading := h.copied.reading hk
  have hrun₁ : runFor tick (2 * k + 1) sp₀ = some sp₁ := by
    rw [runFor_succ_of_eq h.run, hload]
  refine ⟨?_, hcopied, ?_, ?_⟩
  · show runFor tick (2 * k + 1 + 1) sp₀ = some sp₂
    rw [runFor_succ_of_eq hrun₁, hstore]
  · intro t ht
    rcases Nat.lt_trichotomy t (2 * k) with hlt | rfl | hgt
    · exact h.busy t hlt
    · exact ⟨sp, h.run, by rw [hreading]; decide⟩
    · obtain rfl : t = 2 * k + 1 := by omega
      exact ⟨sp₁, hrun₁, by rw [hloaded.state]; decide⟩
  · show (dmaWrites sp₀ (2 * k + 1 + 1)).length = k + 1
    have hread : sp.spro.dmaWriteAddr = none := by
      rw [SpRegisters.dmaWriteAddr, hreading]
      rfl
    have hwrite : ∃ a, sp₁.spro.dmaWriteAddr = some a := by
      rw [SpRegisters.dmaWriteAddr, if_pos hloaded.state]
      exact ⟨_, rfl⟩
    obtain ⟨a, ha⟩ := hwrite
    have hwrites := h.writes
    unfold dmaWrites at hwrites ⊢
    rw [observed_succ_of_eq hrun₁, observed_succ_of_eq h.run]
    simp [hread, ha, hwrites]

/-- Words inside the memory are copied, one every two clocks. -/
theorem wordsDone_of_fits {sp₀ : Sp} (h : CopyArmed sp₀) {k : ℕ}
    (hk : k ≤ dmaWords sp₀.spro.dmaLen)
    (hsrc : sp₀.spro.dmaSrc.toNat + k ≤ spSramHeight)
    (hdst : sp₀.spro.dmaDst.toNat + k ≤ spSramHeight) :
    ∃ sp, WordsDone sp₀ k sp := by
  induction k with
  | zero => exact ⟨sp₀, wordsDone_zero h⟩
  | succ k ih =>
      obtain ⟨sp, hdone⟩ := ih (by omega) (by omega) (by omega)
      obtain ⟨sp₁, hload, hloaded⟩ := hdone.copied.load hk (by omega)
      obtain ⟨sp₂, hstore, hcopied⟩ := hloaded.store hk (by omega)
      exact ⟨sp₂, hdone.succ hk hload hloaded hstore hcopied⟩

/-- After the last word the engine is idle, for the first time. -/
theorem WordsDone.returnsToIdle {sp₀ sp : Sp}
    (h : WordsDone sp₀ (dmaWords sp₀.spro.dmaLen) sp) :
    ReturnsToIdle sp₀ (2 * dmaWords sp₀.spro.dmaLen) sp where
  run := h.run
  idle := by rw [h.copied.state, if_neg (Nat.lt_irrefl _)]
  first := h.busy

/-- **DMA copy semantics.** With the CPU idle the engine copies `len` words in
ascending order in `2 * len` clocks, and no clock faults. -/
theorem dma_copies {sp : Sp} (h : CopyArmed sp) (hfit : CopyFits sp.spro) :
    ∃ sp', ReturnsToIdle sp (2 * sp.spro.dmaLen.toNat) sp' ∧
      sp'.spro.dmaCount = sp.spro.dmaLen ∧
      AscendingCopy sp.spro.dmaSrc.toNat sp.spro.dmaDst.toNat
        sp.spro.dmaLen.toNat sp.sram.data sp'.sram.data := by
  have hwords := dmaWords_of_pos hfit.len
  obtain ⟨sp', hdone⟩ := wordsDone_of_fits h le_rfl
    (by rw [hwords]; exact hfit.src) (by rw [hwords]; exact hfit.dst)
  have hidle := hdone.returnsToIdle
  rw [hwords] at hidle hdone
  refine ⟨sp', hidle, ?_, ?_⟩
  · rw [hdone.copied.count, BitVec.ofNat_toNat, BitVec.setWidth_eq]
  · rw [hdone.copied.data]
    exact ascendingCopy_copyUp _ _ _ _

/-- The engine armed by hand on a memory, with the CPU idle. -/
def armedState (image : Mem) (src dst len : Word) : Sp :=
  { spInit image with
    start := false
    spro := { zeroRegisters with
      dmaState := .READ, dmaSrc := src, dmaDst := dst, dmaLen := len } }

theorem armedState_armed (image : Mem) (src dst len : Word) :
    CopyArmed (armedState image src dst len) where
  cpu := ⟨rfl, rfl, rfl⟩
  state := rfl
  count := rfl

/-- The data of `dma_overlap_test.c`. -/
def overlapPattern : Mem := fun i =>
  if 50 ≤ i ∧ i < 100 then 0x100 + BitVec.ofNat 32 (i - 50) else 0

/-- The transfer of `dma_overlap_test.c`: 50 words from 50 to 60. -/
theorem dma_copies_overlap :
    ∃ sp', ReturnsToIdle (armedState overlapPattern 50 60 50) 100 sp' ∧
      sp'.spro.dmaCount = 50 ∧
      AscendingCopy 50 60 50 overlapPattern sp'.sram.data :=
  dma_copies (armedState_armed overlapPattern 50 60 50)
    ⟨by decide, by decide, by decide⟩

/-! ## The number of words -/

/-- The engine goes back to idle with `max len 0` words written, and leaves the
memory as it was when there is nothing to copy. -/
def WritesLength (sp : Sp) : Prop :=
  ∃ n sp', ReturnsToIdle sp n sp' ∧
    ((dmaWrites sp n).length : ℤ) = max sp.spro.dmaLen.toInt 0 ∧
    (sp.spro.dmaLen.toInt ≤ 0 → sp'.sram.data = sp.sram.data)

theorem ReturnsToIdle.unique {sp₀ sp sp' : Sp} {m n : ℕ}
    (h : ReturnsToIdle sp₀ m sp) (h' : ReturnsToIdle sp₀ n sp') : m = n := by
  rcases Nat.lt_trichotomy m n with hlt | heq | hgt
  · obtain ⟨st, hst, hbusy⟩ := h'.first m hlt
    rw [h.run] at hst
    obtain rfl := Option.some.inj hst
    exact absurd h.idle hbusy
  · exact heq
  · obtain ⟨st, hst, hbusy⟩ := h.first n hgt
    rw [h'.run] at hst
    obtain rfl := Option.some.inj hst
    exact absurd h'.idle hbusy

/-- A state before the engine's return is followed by another one. -/
theorem ReturnsToIdle.next {sp₀ sp sp' : Sp} {n t : ℕ}
    (h : ReturnsToIdle sp₀ n sp') (hrun : runFor tick t sp₀ = some sp)
    (hbusy : sp.spro.dmaState ≠ .IDLE) (ht : t ≤ n) :
    t < n ∧ ∃ sp₁, tick sp = some sp₁ := by
  have hlt : t < n := by
    refine Nat.lt_of_le_of_ne ht ?_
    rintro rfl
    rw [h.run] at hrun
    obtain rfl := Option.some.inj hrun
    exact hbusy h.idle
  obtain ⟨sp₁, h₁⟩ := runFor_isSome_of_le (Nat.succ_le_of_lt hlt) h.run
  exact ⟨hlt, sp₁, (runFor_succ_of_eq hrun).symm.trans h₁⟩

/-- An engine that goes back to idle has copied only words of the memory. -/
theorem ReturnsToIdle.wordsDone {sp₀ sp' : Sp} {n k : ℕ} (h : CopyArmed sp₀)
    (hidle : ReturnsToIdle sp₀ n sp') (hk : k ≤ dmaWords sp₀.spro.dmaLen) :
    2 * k ≤ n ∧ (∃ sp, WordsDone sp₀ k sp) ∧
      ∀ i < k, sp₀.spro.dmaSrc.toNat + i < spSramHeight ∧
        sp₀.spro.dmaDst.toNat + i < spSramHeight := by
  induction k with
  | zero =>
      refine ⟨Nat.zero_le n, ⟨sp₀, wordsDone_zero h⟩, ?_⟩
      intro i hi
      exact absurd hi (Nat.not_lt_zero i)
  | succ k ih =>
      obtain ⟨hn, ⟨sp, hdone⟩, hfit⟩ := ih (Nat.le_of_succ_le hk)
      -- the word before was inside the memory, so this address does not wrap
      have hwrap : sp₀.spro.dmaSrc.toNat + k < 2 ^ 32 ∧
          sp₀.spro.dmaDst.toNat + k < 2 ^ 32 := by
        cases k with
        | zero => exact ⟨sp₀.spro.dmaSrc.isLt, sp₀.spro.dmaDst.isLt⟩
        | succ j =>
            have hj := hfit j (Nat.lt_succ_self j)
            simp only [spSramHeight] at hj
            omega
      have hread := hdone.copied.reading hk
      obtain ⟨hn₁, sp₁, hload⟩ := hidle.next hdone.run (by rw [hread]; decide) hn
      have hsrc := hdone.copied.src_lt hk hwrap.1 hload
      obtain ⟨sp₁', hload', hloaded⟩ := hdone.copied.load hk hsrc
      obtain rfl : sp₁ = sp₁' := Option.some.inj (hload.symm.trans hload')
      have hrun₁ : runFor tick (2 * k + 1) sp₀ = some sp₁ := by
        rw [runFor_succ_of_eq hdone.run, hload]
      obtain ⟨hn₂, sp₂, hstore⟩ :=
        hidle.next hrun₁ (by rw [hloaded.state]; decide) hn₁
      have hdst := hloaded.dst_lt hwrap.2 hstore
      obtain ⟨sp₂', hstore', hcopied⟩ := hloaded.store hk hdst
      refine ⟨hn₂, ⟨sp₂', hdone.succ hk hload hloaded hstore' hcopied⟩, ?_⟩
      intro i hi
      rcases Nat.lt_succ_iff_lt_or_eq.mp hi with hlt | rfl
      · exact hfit i hlt
      · exact ⟨hsrc, hdst⟩

/-- However short the transfer, one word is written. -/
theorem ReturnsToIdle.writes {sp₀ sp' : Sp} {n : ℕ} (h : CopyArmed sp₀)
    (hidle : ReturnsToIdle sp₀ n sp') :
    (dmaWrites sp₀ n).length = dmaWords sp₀.spro.dmaLen := by
  obtain ⟨-, ⟨sp, hdone⟩, -⟩ := ReturnsToIdle.wordsDone h hidle le_rfl
  rw [hidle.unique hdone.returnsToIdle]
  exact hdone.writes

/-- **The exact condition on the word count.** The engine writes `max len 0`
words and goes back to idle exactly when there is at least one word to copy and
both ranges are inside the memory. -/
theorem writesLength_iff {sp : Sp} (h : CopyArmed sp) :
    WritesLength sp ↔ CopyFits sp.spro := by
  constructor
  · rintro ⟨n, sp', hidle, hcount, -⟩
    rw [ReturnsToIdle.writes h hidle] at hcount
    have hlen : 1 ≤ sp.spro.dmaLen.toInt := by
      have hpos := dmaWords_pos sp.spro.dmaLen
      omega
    obtain ⟨-, -, hfit⟩ := ReturnsToIdle.wordsDone h hidle le_rfl
    have hlast := hfit (dmaWords sp.spro.dmaLen - 1)
      (Nat.sub_lt (dmaWords_pos _) Nat.one_pos)
    have hpos := dmaWords_pos sp.spro.dmaLen
    rw [dmaWords_of_pos hlen] at hlast hpos
    exact ⟨hlen, by omega, by omega⟩
  · intro hfit
    have hwords := dmaWords_of_pos hfit.len
    have hlen := hfit.len
    obtain ⟨sp', hdone⟩ := wordsDone_of_fits h le_rfl
      (by rw [hwords]; exact hfit.src) (by rw [hwords]; exact hfit.dst)
    refine ⟨_, sp', hdone.returnsToIdle, ?_, ?_⟩
    · rw [hdone.writes]
      unfold dmaWords
      omega
    · intro hnone
      omega

theorem writesLength_iff_overlap :
    WritesLength (armedState overlapPattern 50 60 50) ↔
      CopyFits (armedState overlapPattern 50 60 50).spro :=
  writesLength_iff (armedState_armed overlapPattern 50 60 50)

/-- A transfer of no words overwrites the first word of the destination. -/
theorem zeroLength_writes :
    ¬WritesLength (armedState overlapPattern 50 60 0) := by
  rintro ⟨n, sp', hidle, hcount, -⟩
  rw [ReturnsToIdle.writes (armedState_armed overlapPattern 50 60 0) hidle] at hcount
  revert hcount
  decide

/-! ## Sharing the port with the CPU -/

/-- The engine armed, and the CPU about to fetch the next instruction. -/
structure FetchArmed (sp : Sp) : Prop where
  ctlState : sp.spro.ctlState = .FETCH0
  state : sp.spro.dmaState = .READ
  count : sp.spro.dmaCount = 0
  fits : CopyFits sp.spro

/-- The requests of `sp_ctl` and of the engine in one clock. -/
def SpRegisters.cpuRequests (s : SpRegisters) : List Word :=
  s.readAddr.toList ++ s.writeAddr.toList

def SpRegisters.dmaRequests (s : SpRegisters) : List Word :=
  match s.dmaState with
  | .IDLE => []
  | .READ => [s.dmaSrc + s.dmaCount]
  | .WRITE => [s.dmaDst + s.dmaCount]

/-- The assertions on the use of the port. -/
def portFault (name : MemName) : List Fault :=
  [.multipleReads name, .multipleWrites name, .simultaneousAccess name]

/-- In every clock of the run the two sides make one request at most, and no
assertion on the port fires. -/
def SharesPort (sp : Sp) : Prop :=
  ∀ t st, runFor tick t sp = some st →
    (st.spro.cpuRequests ++ st.spro.dmaRequests).length ≤ 1 ∧
    ∀ f ∈ portFault st.sram.name, llsimRunClock false st ≠ .error f

/-- The first clock fetches and copies: it reads twice. -/
theorem fetchArmed_multipleReads {sp : Sp} (h : FetchArmed sp) :
    llsimRunClock false sp = .error (.multipleReads sp.sram.name) := by
  simp [llsimRunClock, spRun, spCtl, nextRegisters, switchCtlState, request,
    dmaFsm, llsimMemRead, quiet, h.ctlState, h.state, bind, Except.bind, pure,
    Except.pure, Except.map]

/-- **The port is never shared.** Every such state already breaks the port in
its first clock. -/
theorem sharesPort_never {sp : Sp} (h : FetchArmed sp) :
    ¬SharesPort sp ∧
      llsimRunClock false sp = .error (.multipleReads sp.sram.name) := by
  constructor
  · intro hshares
    obtain ⟨-, hclean⟩ := hshares 0 sp rfl
    exact hclean _ (by simp [portFault]) (fetchArmed_multipleReads h)
  · exact fetchArmed_multipleReads h

/-- The CPU of `armedState` about to fetch, as in the poll loop of
`dma_test.c`. -/
def fetchState (image : Mem) (pc src dst len : Word) : Sp :=
  { spInit image with
    spro := { zeroRegisters with
      pc := pc, ctlState := .FETCH0
      dmaState := .READ, dmaSrc := src, dmaDst := dst, dmaLen := len } }

theorem sharesPort_never_overlap :
    ¬SharesPort (fetchState overlapPattern 3 50 60 50) ∧
      llsimRunClock false (fetchState overlapPattern 3 50 60 50) =
        .error (.multipleReads .sram) :=
  sharesPort_never ⟨rfl, rfl, rfl, by decide, by decide, by decide⟩

/-- The transfer of `dma_test.c`, four words from 100 to 200, while the CPU
fetches the DMA_STATUS at 3. -/
theorem fetchState_reads_twice :
    FetchArmed (fetchState overlapPattern 3 100 200 4) ∧
      ¬SharesPort (fetchState overlapPattern 3 100 200 4) := by
  have harmed : FetchArmed (fetchState overlapPattern 3 100 200 4) :=
    ⟨rfl, rfl, rfl, by decide, by decide, by decide⟩
  refine ⟨harmed, ?_⟩
  intro hshares
  obtain ⟨-, hclean⟩ := hshares 0 _ rfl
  exact hclean _ (by simp [portFault]) (fetchArmed_multipleReads harmed)

end SuperscalarProcessor.MultiCycle
