import SuperscalarProcessor.Pipeline.Sequential

/-!
# Wrong-path noninterference

Two runs over the same data memory whose instruction memories agree wherever
the first run retires. The front stages of the two pipes hold the same PCs but,
behind a taken jump or behind HLT, different words; the coupling keeps apart
what must be equal and what may differ, and no clock carries a difference from
the second kind to the first.
-/

namespace SuperscalarProcessor.Pipeline

open Llsim Foundation

/-! ## The head of the pipe retires -/

theorem retired_length_mono {imem dmem : Mem} {t u : ℕ} (h : t ≤ u) :
    (retired imem dmem t).length ≤ (retired imem dmem u).length := by
  induction u, h using Nat.le_induction with
  | base => exact le_rfl
  | succ u _ ih =>
      refine le_trans ih ?_
      show _ ≤ (retired imem dmem u ++ _).length
      rw [List.length_append]
      exact Nat.le_add_right _ _

/-- No instruction is in EXEC1 in a later clock without a new log entry. -/
theorem bubble_of_retired_eq {imem dmem : Mem} {t u : ℕ} {sp : Sp}
    (h : clockState imem dmem u = some sp) (htu : t < u)
    (hlog : retired imem dmem (u + 1) = retired imem dmem (t + 1)) :
    sp.spro.exec1.active = false := by
  by_contra hact
  rw [Bool.not_eq_false] at hact
  have hlen := congrArg List.length hlog
  rw [retired_succ_of_active h hact, List.length_append,
    List.length_singleton] at hlen
  have := @retired_length_mono imem dmem (t + 1) u htu
  omega

/-- The requests of a run stay in range up to HLT. -/
def RunInBounds (imem dmem : Mem) : Prop :=
  ∀ t sp, clockState imem dmem t = some sp → sp.spro.halts = false →
    InBounds sp.spro

/-- Unless HLT ends the run, the head of the pipe retires later on. -/
theorem RunInBounds.head_retires {imem dmem : Mem}
    (hbounds : RunInBounds imem dmem) {t : ℕ} {sp : Sp}
    (h : clockState imem dmem t = some sp) (hrun : sp.spro.halts = false) :
    ∃ u sp', clockState imem dmem u = some sp' ∧
      sp'.spro.exec1.active = true ∧ sp'.spro.exec1.pc = sp.spro.headPc := by
  have live : ∀ u su, t ≤ u → clockState imem dmem u = some su →
      retired imem dmem (u + 1) = retired imem dmem (t + 1) →
      (tick su).isSome := by
    intro u su hu hsu hlog
    have hrun' : su.spro.halts = false := by
      rcases Nat.eq_or_lt_of_le hu with rfl | hlt
      · rw [h] at hsu
        obtain rfl := Option.some.inj hsu
        exact hrun
      · simp [SpRegisters.halts, bubble_of_retired_eq hsu hlt hlog]
    exact (invariant_of_clockState hsu).tick_isSome hrun' (hbounds u su hsu hrun')
  obtain ⟨u, sp', h', hact, hpc, -⟩ := Pipeline.head_retires h live
  exact ⟨u, sp', h', hact, hpc⟩

/-- The instruction memories agree on every address that the first run retires. -/
def AgreeOnRetired (imem imem' dmem : Mem) : Prop :=
  ∀ t sp, clockState imem dmem t = some sp → sp.spro.exec1.active = true →
    imem sp.spro.exec1.pc.toNat = imem' sp.spro.exec1.pc.toNat

theorem AgreeOnRetired.head {imem imem' dmem : Mem}
    (hagree : AgreeOnRetired imem imem' dmem) (hbounds : RunInBounds imem dmem)
    {t : ℕ} {sp : Sp} (h : clockState imem dmem t = some sp)
    (hrun : sp.spro.halts = false) :
    imem sp.spro.headPc.toNat = imem' sp.spro.headPc.toNat := by
  obtain ⟨u, sp', h', hact, hpc⟩ := hbounds.head_retires h hrun
  rw [← hpc]
  exact hagree u sp' h' hact

/-! ## The coupling -/

/-- The front stages are occupied alike, at the same PCs. -/
structure SameFront (s s' : SpRegisters) : Prop where
  fetch0 : s.fetch0 = s'.fetch0
  fetch1 : s.fetch1.active = s'.fetch1.active ∧ s.fetch1.pc = s'.fetch1.pc
  dec0 : s.dec0.active = s'.dec0.active ∧ s.dec0.pc = s'.dec0.pc
  dec1 : s.dec1.active = s'.dec1.active ∧ s.dec1.pc = s'.dec1.pc
  exec0 : s.exec0.active = s'.exec0.active

/-- The words in the front stages matter through the stall signal only. -/
theorem SameFront.next {s s' : SpRegisters} (h : SameFront s s') {d d' : Word}
    (hstall : loadUseStall s = loadUseStall s')
    (hbranch : (detectHazards s d).branch = (detectHazards s' d').branch)
    (m m' : Memory) (dma dma' : DmaRegs) :
    SameFront (nextRegisters s d m dma) (nextRegisters s' d' m' dma') := by
  obtain ⟨hf0, ⟨hf1a, hf1p⟩, ⟨hd0a, hd0p⟩, ⟨hd1a, hd1p⟩, he0⟩ := h
  cases hst : loadUseStall s' with
  | true =>
      rw [hst] at hstall
      constructor <;>
        simp [nextRegisters, nextFetch0, stageFetch0, stageFetch1, stageDec0,
          stageDec1, *]
  | false =>
      rw [hst] at hstall
      cases hbr : (detectHazards s' d').branch with
      | some target =>
          rw [hbr] at hbranch
          constructor <;>
            simp [nextRegisters, nextFetch0, stageFetch0, stageFetch1, stageDec0,
              stageDec1, *]
      | none =>
          rw [hbr] at hbranch
          cases hact : s'.dec0.active <;> rw [hact] at hd0a <;> constructor <;>
            simp [nextRegisters, nextFetch0, stageFetch0, stageFetch1, stageDec0,
              stageDec1, *]

/-- The second run's state beside the first's. EXEC0 may differ behind HLT. -/
structure Coupled (imem' : Mem) (a b : Sp) : Prop where
  other : Invariant imem' b
  front : SameFront a.spro b.spro
  retiring : a.retiring = b.retiring
  exec0 : a.spro.halts = false → a.spro.exec0.active = true →
    a.spro.exec0 = b.spro.exec0
  regs : a.spro.r = b.spro.r
  data : a.sramd.data = b.sramd.data
  cycleCounter : a.spro.cycleCounter = b.spro.cycleCounter

theorem Coupled.init (imem imem' dmem : Mem) :
    Coupled imem' (resetState imem dmem) (resetState imem' dmem) where
  other := Invariant.init imem' dmem
  front := ⟨rfl, ⟨rfl, rfl⟩, ⟨rfl, rfl⟩, ⟨rfl, rfl⟩, rfl⟩
  retiring := rfl
  exec0 _ h := by cases h
  regs := rfl
  data := rfl
  cycleCounter := rfl

/-! ## What the coupling fixes -/

section CoupledStates

variable {imem imem' : Mem} {a b : Sp}

theorem Coupled.exec1_active (h : Coupled imem' a b) :
    a.spro.exec1.active = b.spro.exec1.active := by
  have hret := h.retiring
  unfold Sp.retiring at hret
  cases ha : a.spro.exec1.active <;> cases hb : b.spro.exec1.active <;>
    simp [ha, hb] at hret <;> rfl

theorem Coupled.exec1_eq (h : Coupled imem' a b)
    (hact : a.spro.exec1.active = true) : a.spro.exec1 = b.spro.exec1 := by
  have hret := h.retiring
  rw [Sp.retiring, Sp.retiring, if_pos hact, if_pos (h.exec1_active ▸ hact)] at hret
  exact Option.some.inj hret

theorem Coupled.halts (h : Coupled imem' a b) : a.spro.halts = b.spro.halts := by
  unfold SpRegisters.halts
  rw [← h.exec1_active]
  cases hact : a.spro.exec1.active with
  | false => rfl
  | true => rw [h.exec1_eq hact]

theorem Coupled.inBounds (h : Coupled imem' a b) (hrun : a.spro.halts = false)
    (hin : InBounds a.spro) : InBounds b.spro := by
  constructor
  · intro hacc
    have hact : a.spro.exec0.active = true := by
      rw [h.front.exec0]
      by_contra hno
      simp [ExecLatch.accesses, hno] at hacc
    rw [← h.exec0 hrun hact] at hacc ⊢
    exact hin.data hacc
  · intro hact
    rw [← h.front.fetch0] at hact ⊢
    exact hin.fetch hact

theorem Coupled.branch (h : Coupled imem' a b) (hrun : a.spro.halts = false) :
    (detectHazards a.spro a.sramd.dataout).branch =
      (detectHazards b.spro b.sramd.dataout).branch := by
  rw [detectHazards_branch, detectHazards_branch, ← h.front.exec0]
  split_ifs with hact
  · rw [h.exec0 hrun hact]
  · rfl

/-- Where the words agree, DEC1 holds the same instruction. -/
theorem Coupled.dec1_eq (h : Coupled imem' a b) (hinv : Invariant imem a)
    (hact : a.spro.dec1.active = true)
    (hword : imem a.spro.dec1.pc.toNat = imem' a.spro.dec1.pc.toNat) :
    a.spro.dec1.inst = b.spro.dec1.inst ∧
      a.spro.dec1.fields = b.spro.dec1.fields := by
  obtain ⟨hact', hpc⟩ := h.front.dec1
  obtain ⟨-, -, hi, hf⟩ := hinv.frontEnd.dec1 hact
  obtain ⟨-, -, hi', hf'⟩ := h.other.frontEnd.dec1 (hact' ▸ hact)
  have hinst : a.spro.dec1.inst = b.spro.dec1.inst := by
    rw [hi, hi', ← hpc, hword]
  exact ⟨hinst, by rw [hf, hf', hinst]⟩

theorem Coupled.forwardExec1 (h : Coupled imem' a b) (hinv : Invariant imem a)
    (src : BitVec 3) :
    Pipeline.forwardExec1 a.spro a.sramd.dataout src =
      Pipeline.forwardExec1 b.spro b.sramd.dataout src := by
  cases hact : a.spro.exec1.active with
  | false =>
      have hact' : b.spro.exec1.active = false := h.exec1_active ▸ hact
      simp [Pipeline.forwardExec1, hact, hact']
  | true =>
      have heq := h.exec1_eq hact
      unfold Pipeline.forwardExec1
      rw [← heq]
      by_cases hld : a.spro.exec1.fields.op = .LD
      · have hload := hinv.loaded hact hld
        have hload' := h.other.loaded (heq ▸ hact) (heq ▸ hld)
        rw [hload, hload', ← heq, h.data]
      · rw [if_neg hld, if_neg hld]

/-- The operands are the same if the instruction in DEC1 is. -/
theorem Coupled.latchedOperand (h : Coupled imem' a b) (hinv : Invariant imem a)
    (hrun : a.spro.halts = false)
    (hfields : a.spro.dec1.fields = b.spro.dec1.fields) (src : BitVec 3) :
    Pipeline.latchedOperand a src = Pipeline.latchedOperand b src := by
  have hexec0 : forwardExec0 a.spro src = forwardExec0 b.spro src := by
    unfold forwardExec0
    cases hact : a.spro.exec0.active with
    | false =>
        have hact' : b.spro.exec0.active = false := h.front.exec0 ▸ hact
        simp [hact']
    | true => rw [← h.exec0 hrun hact, hact]
  unfold Pipeline.latchedOperand forward
  rw [h.front.dec1.1, h.forwardExec1 hinv, hexec0, h.regs, hfields]

end CoupledStates

/-! ## Every clock preserves the coupling -/

section CoupledClocks

variable {imem imem' dmem : Mem} {t : ℕ} {a b a' b' : Sp}

/-- The stall signal looks at DEC1 behind a load only, and what follows a load
retires. -/
theorem Coupled.stall (h : Coupled imem' a b)
    (hagree : AgreeOnRetired imem imem' dmem) (hbounds : RunInBounds imem dmem)
    (hclock : clockState imem dmem t = some a) (ht : tick a = some a') :
    loadUseStall a.spro = loadUseStall b.spro := by
  have hinv := invariant_of_clockState hclock
  have hs := hinv.ticks ht
  rw [loadUseStall_eq, loadUseStall_eq, ← h.front.dec1.1, ← h.front.exec0]
  cases hact : a.spro.exec0.active with
  | false => simp
  | true =>
      rw [← h.exec0 hs.running hact]
      by_cases hld : a.spro.exec0.fields.op = .LD
      · obtain ⟨hdec, hpc, -, -⟩ := hinv.frontEnd.exec0 hact
        have hact' : a'.spro.exec1.active = true := by rw [hs.regs]; exact hact
        have hop' : a'.spro.exec1.fields.op = .LD := by rw [hs.regs]; exact hld
        have hrun' : a'.spro.halts = false := by
          simp [SpRegisters.halts, hop']
        have hhead : a'.spro.headPc = a.spro.dec1.pc := by
          obtain ⟨-, -, hhead, -⟩ := (hinv.next ht).frontEnd.exec1 hact'
          rw [hhead, ExecLatch.nextPc, ExecLatch.branch, branchOf, hop', hpc,
            hs.regs]
          rfl
        have hword := hagree.head hbounds ((clockState_succ hclock).trans ht) hrun'
        rw [hhead] at hword
        rw [(h.dec1_eq hinv hdec hword).2]
      · have hop : (a.spro.exec0.fields.op == .LD) = false := by simpa using hld
        simp [loadUse, hop]

/-- The instruction that goes to EXEC0 has been latched with the same operands. -/
theorem Coupled.next_exec0 (h : Coupled imem' a b)
    (hagree : AgreeOnRetired imem imem' dmem) (hbounds : RunInBounds imem dmem)
    (hclock : clockState imem dmem t = some a) (ht : tick a = some a')
    (ht' : tick b = some b') (hrun' : a'.spro.halts = false)
    (hact' : a'.spro.exec0.active = true) : a'.spro.exec0 = b'.spro.exec0 := by
  have hinv := invariant_of_clockState hclock
  have hs := hinv.ticks ht
  have hs' := h.other.ticks ht'
  have hword := hagree.head hbounds ((clockState_succ hclock).trans ht) hrun'
  rw [SpRegisters.headPc, if_pos hact'] at hword
  obtain ⟨hplain, hdec⟩ := plainClock_of_next_exec0 (hs.regs ▸ hact')
  have hplain' : PlainClock b := by
    constructor
    · rw [detectHazards_stall, ← h.stall hagree hbounds hclock ht]
      exact hplain.stall
    · rw [detectHazards_flush, ← h.branch hs.running]
      exact hplain.flush
  have hexec0 := congrArg SpRegisters.exec0 hs.regs
  have hexec0' := congrArg SpRegisters.exec0 hs'.regs
  rw [hplain.next_exec0, hinv.exec0Alu] at hexec0
  rw [hplain'.next_exec0, h.other.exec0Alu] at hexec0'
  rw [hexec0] at hword
  obtain ⟨hinst, hfields⟩ := h.dec1_eq hinv hdec hword
  rw [hexec0, hexec0', h.latchedOperand hinv hs.running hfields,
    h.latchedOperand hinv hs.running hfields, h.front.dec1.1, h.front.dec1.2,
    hinst, hfields]

theorem Coupled.next (h : Coupled imem' a b)
    (hagree : AgreeOnRetired imem imem' dmem) (hbounds : RunInBounds imem dmem)
    (hclock : clockState imem dmem t = some a) (ht : tick a = some a')
    (ht' : tick b = some b') : Coupled imem' a' b' := by
  have hinv := invariant_of_clockState hclock
  have hs := hinv.ticks ht
  have hs' := h.other.ticks ht'
  have hstall := h.stall hagree hbounds hclock ht
  have hbranch := h.branch hs.running
  have hfront : SameFront a'.spro b'.spro := by
    rw [hs.regs, hs'.regs]
    exact h.front.next hstall hbranch _ _ _ _
  refine ⟨h.other.next ht', hfront, ?_, ?_, ?_, ?_, ?_⟩
  · rw [Sp.retiring, Sp.retiring, hs.regs, hs'.regs, next_exec1, next_exec1,
      promoteExec0_active, promoteExec0_active, ← h.front.exec0]
    split_ifs with hact
    · rw [h.exec0 hs.running hact]
    · rfl
  · exact h.next_exec0 hagree hbounds hclock ht ht'
  · rw [hs.regs, hs'.regs, next_r, next_r, hinv.writeBack_eq, h.other.writeBack_eq,
      h.data, h.regs]
    cases hact : a.spro.exec1.active with
    | false =>
        rw [ExecLatch.apply_of_bubble hact,
          ExecLatch.apply_of_bubble (h.exec1_active ▸ hact)]
    | true => rw [h.exec1_eq hact]
  · rw [hs.dmem, hs'.dmem, h.data]
    cases hact : a.spro.exec0.active with
    | false =>
        rw [memoryAfter_of_bubble hact,
          memoryAfter_of_bubble (h.front.exec0 ▸ hact)]
    | true => rw [h.exec0 hs.running hact]
  · rw [hs.regs, hs'.regs, next_cycleCounter, next_cycleCounter, h.cycleCounter]

/-- Coupled runs go on together and stop together. -/
theorem Coupled.tick (h : Coupled imem' a b)
    (hagree : AgreeOnRetired imem imem' dmem) (hbounds : RunInBounds imem dmem)
    (hclock : clockState imem dmem t = some a) :
    Option.Rel (Coupled imem') (Pipeline.tick a) (Pipeline.tick b) := by
  have hinv := invariant_of_clockState hclock
  cases hrun : a.spro.halts with
  | true =>
      rw [tick_of_halts hinv.dma hrun, tick_of_halts h.other.dma (h.halts ▸ hrun)]
      exact .none
  | false =>
      have hin := hbounds t a hclock hrun
      obtain ⟨a', ht⟩ := Option.isSome_iff_exists.mp (hinv.tick_isSome hrun hin)
      obtain ⟨b', ht'⟩ := Option.isSome_iff_exists.mp
        (h.other.tick_isSome (h.halts ▸ hrun) (h.inBounds hrun hin))
      rw [ht, ht']
      exact .some (h.next hagree hbounds hclock ht ht')

end CoupledClocks

/-! ## Noninterference -/

/-- What retirement shows of a clock: the instruction in EXEC1 with its
operands, the registers, the cycle counter and the dump of HLT. -/
structure SameRetirement (a b : Sp) : Prop where
  retiring : a.retiring = b.retiring
  regs : a.spro.r = b.spro.r
  cycleCounter : a.spro.cycleCounter = b.spro.cycleCounter
  dump : a.spro.halts = true → ∃ a' b' d, spRun false a = .ok a' ∧
    spRun false b = .ok b' ∧ a'.sramdOut = some d ∧ b'.sramdOut = some d

/-- **Wrong-path noninterference.** If the instruction memories of two runs
agree on every address that the first run retires, then both show the same in
every clock and end in the same clock. -/
theorem wrongPath_noninterference {imem imem' dmem : Mem}
    (hagree : AgreeOnRetired imem imem' dmem) (hbounds : RunInBounds imem dmem)
    (t : ℕ) :
    Option.Rel SameRetirement (clockState imem dmem t)
      (clockState imem' dmem t) := by
  have hcoupled : Option.Rel (Coupled imem') (clockState imem dmem t)
      (clockState imem' dmem t) :=
    runFor_coupling (Coupled.init imem imem' dmem)
      (fun _ _ _ hclock h => h.tick hagree hbounds hclock) t
  refine rel_imp hcoupled ?_
  intro a b ha h
  refine ⟨h.retiring, h.regs, h.cycleCounter, ?_⟩
  intro hhalt
  obtain ⟨a', hrun, hdump⟩ := (invariant_of_clockState ha).dump_of_halts hhalt
  obtain ⟨b', hrun', hdump'⟩ := h.other.dump_of_halts (h.halts ▸ hhalt)
  exact ⟨a', b', _, hrun, hrun', hdump, h.data ▸ hdump'⟩

/-- The skip program with other words where it never gets: a jump at the skipped
address, stores behind HLT. -/
def wrongPathImage : Mem :=
  imageOf [0x00880005, 0x24000003, 0x28000000, 0x30000000, 0x12120000, 0x12120000]

theorem wrongPath_noninterference_skip :
    Option.Rel SameRetirement (clockState skipImage skipImage 12)
      (clockState wrongPathImage skipImage 12) := by
  refine wrongPath_noninterference ?_ ?_ 12
  · intro t sp h hact
    have hword := @clockState_forall skipImage skipImage
      (fun sp => !sp.spro.exec1.active ||
        skipImage sp.spro.exec1.pc.toNat == wrongPathImage sp.spro.exec1.pc.toNat)
      13 (by decide +kernel) (by decide +kernel) t sp h
    simpa [hact] using hword
  · intro t sp h _
    have hin := @clockState_forall skipImage skipImage
      (fun sp => !sp.spro.exec0.accesses && sp.spro.fetch0.pc.toNat < 65536)
      13 (by decide +kernel) (by decide +kernel) t sp h
    simp only [Bool.and_eq_true, Bool.not_eq_true', decide_eq_true_eq] at hin
    constructor
    · intro hacc
      rw [hin.1] at hacc
      exact Bool.noConfusion hacc
    · intro _
      exact inRange_iff.mpr hin.2

end SuperscalarProcessor.Pipeline
