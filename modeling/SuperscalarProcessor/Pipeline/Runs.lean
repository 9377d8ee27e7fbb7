import SuperscalarProcessor.Pipeline.FrontEnd

/-!
# Runs of the pipeline

The invariant of every state in which a clock starts, the log of the retired
instructions, and progress: the head of the pipe retires as soon as it has
passed the stages before EXEC1.
-/

namespace SuperscalarProcessor.Pipeline

open Llsim Foundation

/-! ## The invariant of all reachable states -/

structure Invariant (imem : Mem) (sp : Sp) : Prop where
  dma : sp.spro.dma.busy = 0
  stopSim : sp.stopSim = false
  srami : sp.srami.data = imem
  frontEnd : FrontEnd imem sp.spro
  -- nothing ever writes exec0_aluout
  exec0Alu : sp.spro.exec0.aluout = 0
  exec1Alu : sp.spro.exec1.active = true → sp.spro.exec1.aluout =
    (aluResult sp.spro.exec1.fields sp.spro.exec1.alu0 sp.spro.exec1.alu1).getD 0
  loaded : sp.spro.exec1.active = true → sp.spro.exec1.fields.op = .LD →
    sp.sramd.dataout = sp.sramd.data sp.spro.exec1.alu1.toNat

theorem stageDec1_aluout (s : SpRegisters) (hz : Hazards) :
    (stageDec1 s hz).aluout = s.exec0.aluout := by
  unfold stageDec1
  split_ifs <;> rfl

theorem Invariant.init (imem dmem : Mem) :
    Invariant imem (resetState imem dmem) where
  dma := rfl
  stopSim := rfl
  srami := rfl
  frontEnd := FrontEnd.zero imem
  exec0Alu := rfl
  exec1Alu h := by cases h
  loaded h := by cases h

theorem Invariant.ticks {imem : Mem} {sp sp' : Sp} (h : Invariant imem sp)
    (ht : tick sp = some sp') : Ticks sp sp' :=
  ticks_of_tick h.dma ht

theorem Invariant.served {imem : Mem} {sp sp' : Sp} (h : Invariant imem sp)
    (ht : tick sp = some sp') : Served sp sp' :=
  served_of_clock h.dma (clock_of_tick ht).1

theorem Invariant.next {imem : Mem} {sp sp' : Sp} (h : Invariant imem sp)
    (ht : tick sp = some sp') : Invariant imem sp' := by
  have hs := h.ticks ht
  refine ⟨?_, hs.stopSim, hs.imem.trans h.srami, ?_, ?_, ?_, ?_⟩
  · rw [hs.regs, next_dma]
    exact h.dma
  · rw [hs.regs]
    exact h.frontEnd.next _ h.srami _
  · rw [hs.regs]
    exact (stageDec1_aluout _ _).trans h.exec0Alu
  · rw [hs.regs, next_exec1]
    intro hact
    have hact : sp.spro.exec0.active = true := hact
    simp [promoteExec0, hact, h.exec0Alu]
  · rw [hs.regs, next_exec1, hs.dmem]
    intro hact hop
    have hop' : sp.spro.exec0.fields.op = .LD := hop
    rw [hs.loaded hact hop']
    simp [memoryAfter, hop', promoteExec0]

/-- **Every state in which a clock starts satisfies the invariant.** -/
theorem invariant_of_clockState {imem dmem : Mem} {t : ℕ} {sp : Sp}
    (h : clockState imem dmem t = some sp) : Invariant imem sp := by
  rw [clockState_eq] at h
  exact runFor_inductive (Invariant imem) (Invariant.init imem dmem)
    (fun _ _ hinv ht => hinv.next ht) h

theorem names_of_clockState {imem dmem : Mem} {t : ℕ} {sp : Sp}
    (h : clockState imem dmem t = some sp) :
    sp.srami.name = .srami ∧ sp.sramd.name = .sramd := by
  induction t generalizing sp with
  | zero =>
      obtain rfl := Option.some.inj h
      exact ⟨rfl, rfl⟩
  | succ t ih =>
      obtain ⟨sp₀, h₀, ht⟩ := runFor_pred h
      have hserved := (invariant_of_clockState h₀).served ht
      rw [hserved.names.1, hserved.names.2]
      exact ih h₀

/-- Every instruction behind FETCH0 was fetched from inside the memory. -/
structure Fetched (s : SpRegisters) : Prop where
  fetch1 : s.fetch1.active = true → InRange s.fetch1.pc
  dec0 : s.dec0.active = true → InRange s.dec0.pc
  dec1 : s.dec1.active = true → InRange s.dec1.pc
  exec0 : s.exec0.active = true → InRange s.exec0.pc
  exec1 : s.exec1.active = true → InRange s.exec1.pc

theorem Fetched.next {imem : Mem} {sp sp' : Sp} (h : Fetched sp.spro)
    (hinv : Invariant imem sp) (ht : tick sp = some sp') : Fetched sp'.spro := by
  have hserved := hinv.served ht
  rw [hserved.regs]
  rcases clockKind sp.spro sp.sramd.dataout with ⟨hstall, hbranch⟩ |
    ⟨target, hact, htaken⟩ | ⟨hact, hbehind, huse⟩
  · obtain ⟨-, hf1, hd0, hd1a, hd1, he0a, he0p, -, -⟩ :=
      @next_advance sp.spro sp.sramd.dataout sp.srami sp.spro.dma hstall hbranch
    refine ⟨?_, ?_, ?_, ?_, h.exec0⟩
    · rw [hf1]
      exact hserved.fetch_inRange hstall
    · rw [hd0]
      exact h.fetch1
    · rw [hd1a]
      intro hdec0
      rw [(hd1 hdec0).1]
      exact h.dec0 hdec0
    · rw [he0a, he0p]
      exact h.dec1
  · obtain ⟨-, hf1, hd0, hd1, he0⟩ := @next_flush sp.spro sp.sramd.dataout
      sp.srami sp.spro.dma target hact htaken (hinv.frontEnd.fetch0_of_exec0 hact)
    refine ⟨?_, ?_, ?_, ?_, h.exec0⟩
    · rw [hf1]; intro hno; cases hno
    · rw [hd0]; intro hno; cases hno
    · rw [hd1]; intro hno; cases hno
    · rw [he0]; intro hno; cases hno
  · obtain ⟨-, hf1, hd0, hd1, he0⟩ := @next_stall sp.spro sp.sramd.dataout
      sp.srami sp.spro.dma (loadUseStall_of_use hact hbehind huse)
    refine ⟨?_, ?_, ?_, ?_, h.exec0⟩
    · rw [hf1]; exact h.fetch1
    · rw [hd0]; exact h.dec0
    · rw [hd1]; exact h.dec1
    · rw [he0]; intro hno; cases hno

theorem fetched_of_clockState {imem dmem : Mem} {t : ℕ} {sp : Sp}
    (h : clockState imem dmem t = some sp) : Fetched sp.spro := by
  induction t generalizing sp with
  | zero =>
      obtain rfl := Option.some.inj h
      constructor <;> intro hno <;> cases hno
  | succ t ih =>
      obtain ⟨sp₀, h₀, ht⟩ := runFor_pred h
      exact (ih h₀).next (invariant_of_clockState h₀) ht

/-- A clock that is neither HLT's nor makes a request out of range completes. -/
theorem Invariant.tick_isSome {imem : Mem} {sp : Sp} (h : Invariant imem sp)
    (hrun : sp.spro.halts = false) (hin : InBounds sp.spro) :
    (tick sp).isSome :=
  Pipeline.tick_isSome h.dma h.stopSim hrun hin.data fun _ => hin.fetch

/-! ## Retirement -/

/-- The instruction active in EXEC1. -/
def Sp.retiring (sp : Sp) : Option ExecLatch :=
  if sp.spro.exec1.active then some sp.spro.exec1 else none

/-- The instructions active in EXEC1 in clocks `0, …, t - 1`, in order. -/
def retired (imem dmem : Mem) (t : ℕ) : List ExecLatch :=
  observed tick Sp.retiring t (resetState imem dmem)

theorem retired_succ {imem dmem : Mem} {t : ℕ} {sp : Sp}
    (h : clockState imem dmem t = some sp) :
    retired imem dmem (t + 1) = retired imem dmem t ++ sp.retiring.toList :=
  observed_succ_of_eq h

theorem retired_succ_of_active {imem dmem : Mem} {t : ℕ} {sp : Sp}
    (h : clockState imem dmem t = some sp) (hact : sp.spro.exec1.active = true) :
    retired imem dmem (t + 1) = retired imem dmem t ++ [sp.spro.exec1] := by
  rw [retired_succ h, Sp.retiring, if_pos hact]
  rfl

theorem retired_succ_of_bubble {imem dmem : Mem} {t : ℕ} {sp : Sp}
    (h : clockState imem dmem t = some sp) (hact : sp.spro.exec1.active = false) :
    retired imem dmem (t + 1) = retired imem dmem t := by
  rw [retired_succ h, Sp.retiring, hact]
  exact List.append_nil _

theorem clockState_succ {imem dmem : Mem} {t : ℕ} {sp : Sp}
    (h : clockState imem dmem t = some sp) :
    clockState imem dmem (t + 1) = tick sp :=
  runFor_succ_of_eq h

theorem clockState_pred {imem dmem : Mem} {t : ℕ} {sp' : Sp}
    (h : clockState imem dmem (t + 1) = some sp') :
    ∃ sp, clockState imem dmem t = some sp ∧ tick sp = some sp' :=
  runFor_pred h

/-- The head of the pipe retires `6 - depth` clocks from now. -/
theorem head_retires_in {imem dmem : Mem} : ∀ {d t : ℕ} {sp : Sp},
    clockState imem dmem t = some sp → sp.spro.depth + d = 6 →
    (∀ u su, t ≤ u → clockState imem dmem u = some su →
      retired imem dmem (u + 1) = retired imem dmem (t + 1) →
      (tick su).isSome) →
    ∃ sp', clockState imem dmem (t + d) = some sp' ∧
      sp'.spro.exec1.active = true ∧ sp'.spro.exec1.pc = sp.spro.headPc ∧
      retired imem dmem (t + d) = retired imem dmem (t + 1) := by
  intro d
  induction d with
  | zero =>
      intro t sp _ hd
      have := sp.spro.depth_le
      omega
  | succ d ih =>
      intro t sp h hd live
      have hinv := invariant_of_clockState h
      obtain ⟨sp₁, ht⟩ := Option.isSome_iff_exists.mp (live t sp le_rfl h rfl)
      have h₁ : clockState imem dmem (t + 1) = some sp₁ :=
        (clockState_succ h).trans ht
      have hregs := (hinv.ticks ht).regs
      cases hact : sp.spro.exec0.active with
      | true =>
          have hdepth := SpRegisters.depth_eq_five.mpr hact
          obtain rfl : d = 0 := by omega
          refine ⟨sp₁, h₁, ?_, ?_, rfl⟩
          · rw [hregs]
            exact hact
          · rw [hregs, SpRegisters.headPc, if_pos hact]
            rfl
      | false =>
          obtain ⟨hdepth, hhead, hbubble⟩ := next_bubble
            sp.sramd.dataout sp.srami sp.spro.dma hact
          rw [← hregs] at hdepth hhead hbubble
          have hlog := retired_succ_of_bubble h₁ hbubble
          obtain ⟨sp', h', hact', hpc, hret⟩ := ih h₁ (by omega)
            (fun u su hu hsu heq => live u su (by omega) hsu (heq.trans hlog))
          refine ⟨sp', ?_, hact', hpc.trans hhead, ?_⟩
          · rw [← h']
            congr 1
            omega
          · rw [← hlog, ← hret]
            congr 1
            omega

/-- **The head of the pipe retires**, next after what has retired so far, when
the clocks until then complete. -/
theorem head_retires {imem dmem : Mem} {t : ℕ} {sp : Sp}
    (h : clockState imem dmem t = some sp)
    (live : ∀ u su, t ≤ u → clockState imem dmem u = some su →
      retired imem dmem (u + 1) = retired imem dmem (t + 1) →
      (tick su).isSome) :
    ∃ u sp', clockState imem dmem u = some sp' ∧
      sp'.spro.exec1.active = true ∧ sp'.spro.exec1.pc = sp.spro.headPc ∧
      retired imem dmem u = retired imem dmem (t + 1) := by
  have hdepth : sp.spro.depth + (6 - sp.spro.depth) = 6 := by
    have := sp.spro.depth_le
    omega
  obtain ⟨sp', h'⟩ := head_retires_in h hdepth live
  exact ⟨_, sp', h'⟩

end SuperscalarProcessor.Pipeline
