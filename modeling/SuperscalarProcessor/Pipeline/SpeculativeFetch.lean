import SuperscalarProcessor.Pipeline.Sequential

/-!
# How far the fetch runs ahead

While an instruction is in EXEC0 the word four places behind it is fetched,
whether it will be executed or not, and the pc is not masked to 16 bits. So
instructions in the last four words of the memory end the simulation in the
range assertion, HLT included.
-/

namespace SuperscalarProcessor.Pipeline

open Llsim Foundation

/-! ## The contract -/

/-- The sequential machine reaches HLT in its step `n`, with every pc and every
data address inside the memories. -/
structure SeqHalts (imem dmem : Mem) (n : ℕ) : Prop where
  halts : ∃ a, seqState imem dmem n = some a ∧ (a.fetch imem).fields.op = .HLT
  pc : ∀ k a, seqState imem dmem k = some a → InRange a.pc
  data : ∀ k a, seqState imem dmem k = some a →
    (a.fetch imem).accesses = true → InRange (a.fetch imem).alu1

/-- No clock before HLT's own fails the range assertion of `srami`. -/
def FetchHarmless (imem dmem : Mem) : Prop :=
  ∀ t sp a, clockState imem dmem t = some sp → sp.spro.halts = false →
    llsimRunClock false sp ≠ .error (.readOutOfRange .srami a)

/-- The program stays clear of the two forwarding defects. -/
def ClearOfHazards (imem dmem : Mem) : Prop :=
  ∀ i x y z, seqState imem dmem i = some x → seqState imem dmem (i + 1) = some y →
    seqState imem dmem (i + 2) = some z →
      ¬ForwardingHazard (x.fetch imem) (y.fetch imem) (z.fetch imem)

/-- Four words of the memory lie behind the instruction in EXEC0 and three behind
the target of its jump. -/
structure RoomAhead (s : SpRegisters) : Prop where
  pc : s.exec0.pc.toInt + 4 < spSramHeight
  target : ∀ target, s.exec0.branch = some target →
    target.toInt + 3 < spSramHeight

/-- In every clock before HLT's own the instruction in EXEC0 has room ahead,
unless its data request ends the simulation. -/
def RunHasRoom (imem dmem : Mem) : Prop :=
  ∀ t sp, clockState imem dmem t = some sp → sp.spro.halts = false →
    sp.spro.exec0.active = true →
    (sp.spro.exec0.accesses = true → InRange sp.spro.exec0.alu1) →
      RoomAhead sp.spro

/-! ## The fetch and the head of the pipe -/

/-- The address fetched is as far ahead of the head as the pipe is full. -/
theorem FrontEnd.fetch0_pc {imem : Mem} {s : SpRegisters} (h : FrontEnd imem s)
    (hact : s.fetch0.active = true) :
    s.fetch0.pc = s.headPc + BitVec.ofNat 32 (s.depth - 1) := by
  have hf1 : s.fetch1.active = true → s.fetch0.pc = s.fetch1.pc + 1 :=
    fun h1 => (h.fetch1 h1).2.1
  have hd0 : s.dec0.active = true → s.fetch0.pc = s.dec0.pc + 2 := by
    intro h0
    obtain ⟨h1, hpc, -⟩ := h.dec0 h0
    rw [hf1 h1, hpc, BitVec.add_assoc]
    rfl
  have hd1 : s.dec1.active = true → s.fetch0.pc = s.dec1.pc + 3 := by
    intro h1
    obtain ⟨h0, hpc, -⟩ := h.dec1 h1
    rw [hd0 h0, hpc, BitVec.add_assoc]
    rfl
  have he0 : s.exec0.active = true → s.fetch0.pc = s.exec0.pc + 4 := by
    intro h0
    obtain ⟨h1, hpc, -⟩ := h.exec0 h0
    rw [hd1 h1, hpc, BitVec.add_assoc]
    rfl
  unfold SpRegisters.headPc SpRegisters.depth
  split_ifs with h0 h1 h2 h3
  · exact he0 h0
  · exact hd1 h1
  · exact hd0 h2
  · exact hf1 h3
  · exact (BitVec.add_zero _).symm

theorem toInt_add_ofNat {pc : Word} {k : ℕ} (hk : k < 2 ^ 31)
    (h : pc.toInt + k < 2 ^ 31) : (pc + BitVec.ofNat 32 k).toInt = pc.toInt + k := by
  have hlt := pc.isLt
  simp only [BitVec.toInt_eq_toNat_cond] at h ⊢
  rw [BitVec.toNat_add, BitVec.toNat_ofNat]
  split_ifs at h ⊢ <;> omega

theorem FrontEnd.fetch0_toInt {imem : Mem} {s : SpRegisters} (h : FrontEnd imem s)
    (hact : s.fetch0.active = true) (hhead : s.headPc.toInt < spSramHeight) :
    s.fetch0.pc.toInt = s.headPc.toInt + (s.depth - 1 : ℕ) := by
  have hdepth := s.depth_le
  have hsize : (spSramHeight : ℤ) = 65536 := rfl
  rw [h.fetch0_pc hact]
  exact toInt_add_ofNat (by omega) (by omega)

/-- When the range assertion of `srami` fails. -/
theorem fetch_fails_iff {imem dmem : Mem} {t : ℕ} {sp : Sp}
    (h : clockState imem dmem t = some sp) :
    (∃ a, llsimRunClock false sp = .error (.readOutOfRange .srami a)) ↔
      (sp.spro.exec0.accesses = true → InRange sp.spro.exec0.alu1) ∧
        loadUseStall sp.spro = false ∧ sp.spro.fetch0.active = true ∧
        spSramHeight ≤ sp.spro.fetch0.pc.toInt := by
  obtain ⟨hsrami, hsramd⟩ := names_of_clockState h
  obtain ⟨m, hissue⟩ := issueMemory_total sp.spro.exec0 sp.sramd
  have hdma := (invariant_of_clockState h).dma
  obtain ⟨hread, -, haddr⟩ := issueFetch_port sp.spro
    (detectHazards sp.spro sp.sramd.dataout) sp.srami
  have hname : (issueFetch sp.spro (detectHazards sp.spro sp.sramd.dataout)
      (quiet sp.srami)).name = .srami := by
    unfold issueFetch
    split <;> exact hsrami
  have hother : ∀ a, memPhase m ≠ .error (.readOutOfRange .srami a) := by
    intro a hd
    have hm := (memPhase_readOutOfRange_iff.mp hd).2.2.1
    rw [issueMemory_name hissue, hsramd] at hm
    cases hm
  rw [detectHazards_stall] at hread haddr
  constructor
  · rintro ⟨a, hfail⟩
    rcases (clock_error_iff hdma hissue _).mp hfail with hd | ⟨hdata, hi⟩
    · exact absurd hd (hother a)
    · obtain ⟨hport, hhigh, -, -⟩ := memPhase_readOutOfRange_iff.mp hi
      rw [hread, Bool.and_eq_true, Bool.not_eq_true'] at hport
      rw [haddr hport.1 hport.2] at hhigh
      exact ⟨hdata, hport.1, hport.2, hhigh⟩
  · rintro ⟨hdata, hstall, hact, hhigh⟩
    refine ⟨sp.spro.fetch0.pc, (clock_error_iff hdma hissue _).mpr
      (Or.inr ⟨hdata, memPhase_readOutOfRange_iff.mpr ⟨?_, ?_, hname.symm, ?_⟩⟩)⟩
    · rw [hread, hstall, hact]
      rfl
    · rw [haddr hstall hact]
      exact hhigh
    · exact (haddr hstall hact).symm

/-! ## Room ahead is enough -/

/-- While EXEC0 is empty the head of the pipe is the first instruction, the one
behind a stall or the target of a jump. -/
theorem RunHasRoom.head {imem dmem : Mem} (hroom : RunHasRoom imem dmem) {t : ℕ}
    {sp : Sp} (h : clockState imem dmem t = some sp)
    (hbubble : sp.spro.exec0.active = false) :
    sp.spro.headPc.toInt + 3 < spSramHeight := by
  induction t generalizing sp with
  | zero =>
      obtain rfl := Option.some.inj h
      show (0 : Word).toInt + 3 < spSramHeight
      decide
  | succ t ih =>
      obtain ⟨sp₀, h₀, ht⟩ := clockState_pred h
      have hinv := invariant_of_clockState h₀
      have hticks := hinv.ticks ht
      cases hact : sp₀.spro.exec0.active with
      | false =>
          obtain ⟨-, hhead, -⟩ := next_bubble
            sp₀.sramd.dataout sp₀.srami sp₀.spro.dma hact
          rw [hticks.regs, hhead]
          exact ih h₀ hact
      | true =>
          obtain ⟨hpc, htarget⟩ := hroom t sp₀ h₀ hticks.running hact hticks.dataAddr
          obtain ⟨hdec, hdecPc, -⟩ := hinv.frontEnd.exec0 hact
          rw [hticks.regs] at hbubble ⊢
          rcases clockKind sp₀.spro sp₀.sramd.dataout with ⟨hstall, hbranch⟩ |
            ⟨target, -, htaken⟩ | ⟨-, -, huse⟩
          · obtain ⟨-, -, -, -, -, he0, -⟩ := @next_advance sp₀.spro
              sp₀.sramd.dataout sp₀.srami sp₀.spro.dma hstall hbranch
            rw [he0, hdec] at hbubble
            cases hbubble
          · obtain ⟨hf0, hf1, hd0, hd1, he0⟩ := @next_flush sp₀.spro
              sp₀.sramd.dataout sp₀.srami sp₀.spro.dma target hact htaken
              (hinv.frontEnd.fetch0_of_exec0 hact)
            simp only [SpRegisters.headPc, he0, hd1, hd0, hf1, hf0,
              Bool.false_eq_true, if_false, if_true]
            exact htarget target htaken
          · obtain ⟨-, -, -, hd1, he0⟩ := @next_stall sp₀.spro sp₀.sramd.dataout
              sp₀.srami sp₀.spro.dma (loadUseStall_of_use hact hdec huse)
            simp only [SpRegisters.headPc, he0, hd1, hdec, Bool.false_eq_true,
              if_false, if_true, hdecPc]
            have hsize : (spSramHeight : ℤ) = 65536 := rfl
            have hsucc := @toInt_add_ofNat sp₀.spro.exec0.pc 1 (by decide) (by omega)
            show (sp₀.spro.exec0.pc + BitVec.ofNat 32 1).toInt + 3 < _
            omega

theorem RunHasRoom.fetchHarmless {imem dmem : Mem}
    (hroom : RunHasRoom imem dmem) : FetchHarmless imem dmem := by
  intro t sp a h hrun hfail
  obtain ⟨hdata, -, hfetch, hhigh⟩ := (fetch_fails_iff h).mp ⟨a, hfail⟩
  have hfront := (invariant_of_clockState h).frontEnd
  have hdepth := sp.spro.depth_le
  cases hact : sp.spro.exec0.active with
  | true =>
      have hpc := (hroom t sp h hrun hact hdata).pc
      have hhead : sp.spro.headPc = sp.spro.exec0.pc := by
        rw [SpRegisters.headPc, if_pos hact]
      rw [hfront.fetch0_toInt hfetch (by rw [hhead]; omega), hhead] at hhigh
      omega
  | false =>
      have hpc := hroom.head h hact
      have hfive : sp.spro.depth ≠ 5 := by
        rw [ne_eq, SpRegisters.depth_eq_five, hact]
        exact Bool.false_ne_true
      rw [hfront.fetch0_toInt hfetch (by omega)] at hhigh
      omega

/-! ## Room ahead is necessary -/

/-- A stall puts the fetch off by one clock. -/
theorem fetch_after_stall {imem dmem : Mem} {t : ℕ} {sp sp' : Sp}
    (h : clockState imem dmem t = some sp) (ht : tick sp = some sp')
    (hstall : loadUseStall sp.spro = true) :
    sp'.spro.fetch0 = sp.spro.fetch0 ∧ sp'.spro.exec0.active = false ∧
      sp'.spro.halts = false := by
  have hregs := ((invariant_of_clockState h).ticks ht).regs
  obtain ⟨hf0, -, -, -, he0⟩ := @next_stall sp.spro sp.sramd.dataout sp.srami
    sp.spro.dma hstall
  rw [← hregs] at hf0 he0
  refine ⟨hf0, by rw [he0], ?_⟩
  rw [loadUseStall_eq] at hstall
  simp only [loadUse, Bool.and_eq_true, beq_iff_eq] at hstall
  rw [hregs, SpRegisters.halts, next_exec1, promoteExec0_fields, hstall.2.1.1]
  exact Bool.and_false _

theorem not_accesses_of_bubble {e : ExecLatch} (h : e.active = false) :
    e.accesses = true → InRange e.alu1 := by
  intro hacc
  rw [accesses_of_bubble h] at hacc
  cases hacc

/-- The address in FETCH0 is fetched now or, after a stall, in the next clock. -/
theorem FetchHarmless.fetch_lt {imem dmem : Mem} (hsafe : FetchHarmless imem dmem)
    {t : ℕ} {sp : Sp} (h : clockState imem dmem t = some sp)
    (hrun : sp.spro.halts = false)
    (hdata : sp.spro.exec0.accesses = true → InRange sp.spro.exec0.alu1)
    (hact : sp.spro.fetch0.active = true) :
    sp.spro.fetch0.pc.toInt < spSramHeight := by
  by_contra hhigh
  rw [not_lt] at hhigh
  have hinv := invariant_of_clockState h
  cases hstall : loadUseStall sp.spro with
  | false =>
      obtain ⟨a, hfail⟩ := (fetch_fails_iff h).mpr ⟨hdata, hstall, hact, hhigh⟩
      exact hsafe t sp a h hrun hfail
  | true =>
      have hclock : (tick sp).isSome :=
        Pipeline.tick_isSome hinv.dma hinv.stopSim hrun hdata fun hno => by
          rw [detectHazards_stall, hstall] at hno
          cases hno
      obtain ⟨sp', ht⟩ := Option.isSome_iff_exists.mp hclock
      have h' := (clockState_succ h).trans ht
      obtain ⟨hf0, hbubble, hrun'⟩ := fetch_after_stall h ht hstall
      have hfail : ∃ a, llsimRunClock false sp' = .error (.readOutOfRange .srami a) :=
        (fetch_fails_iff h').mpr ⟨not_accesses_of_bubble hbubble,
          loadUseStall_of_bubble hbubble, by rw [hf0]; exact hact,
          by rw [hf0]; exact hhigh⟩
      obtain ⟨a, hfail⟩ := hfail
      exact hsafe (t + 1) sp' a h' hrun' hfail

/-- While the pipe fills behind a jump, the target and the three words behind it
are fetched. -/
theorem FetchHarmless.filling {imem dmem : Mem} (hsafe : FetchHarmless imem dmem)
    {k : ℕ} : ∀ {t : ℕ} {sp : Sp}, clockState imem dmem t = some sp →
      sp.spro.halts = false → sp.spro.fetch0.active = true →
      InRange sp.spro.headPc → sp.spro.depth + k = 4 →
        sp.spro.headPc.toInt + 3 < spSramHeight := by
  induction k with
  | zero =>
      intro t sp h hrun hfetch hhead hdepth
      have hbubble := SpRegisters.exec0_of_depth_lt
        (show sp.spro.depth < 5 by omega)
      have hlt := hsafe.fetch_lt h hrun (not_accesses_of_bubble hbubble) hfetch
      rw [(invariant_of_clockState h).frontEnd.fetch0_toInt hfetch hhead.2] at hlt
      omega
  | succ k ih =>
      intro t sp h hrun hfetch hhead hdepth
      have hinv := invariant_of_clockState h
      have hbubble := SpRegisters.exec0_of_depth_lt
        (show sp.spro.depth < 5 by omega)
      have hdata := not_accesses_of_bubble hbubble
      have hlt := hsafe.fetch_lt h hrun hdata hfetch
      have hfetchPc := hinv.frontEnd.fetch0_toInt hfetch hhead.2
      have hin : InRange sp.spro.fetch0.pc := ⟨by have := hhead.1; omega, hlt⟩
      obtain ⟨sp', ht⟩ := Option.isSome_iff_exists.mp
        (hinv.tick_isSome hrun ⟨hdata, fun _ => hin⟩)
      have hregs := (hinv.ticks ht).regs
      obtain ⟨hdepth', hhead', hexec1⟩ := next_bubble
        sp.sramd.dataout sp.srami sp.spro.dma hbubble
      obtain ⟨hf0, -⟩ := @next_advance sp.spro sp.sramd.dataout sp.srami sp.spro.dma
        (loadUseStall_of_bubble hbubble) (by simp [detectHazards_branch, hbubble])
      rw [← hregs] at hdepth' hhead' hexec1 hf0
      rw [← hhead']
      refine ih ((clockState_succ h).trans ht) ?_ ?_ (hhead' ▸ hhead) (by omega)
      · rw [SpRegisters.halts, hexec1, Bool.false_and]
      · rw [hf0]

theorem FetchHarmless.runHasRoom {imem dmem : Mem}
    (hsafe : FetchHarmless imem dmem) : RunHasRoom imem dmem := by
  intro t sp h hrun hact hdata
  have hinv := invariant_of_clockState h
  have hin := (fetched_of_clockState h).exec0 hact
  have hfetch := hinv.frontEnd.fetch0_of_exec0 hact
  have hhead : sp.spro.headPc = sp.spro.exec0.pc := by
    rw [SpRegisters.headPc, if_pos hact]
  have hfetchPc := hinv.frontEnd.fetch0_toInt hfetch (hhead ▸ hin.2)
  rw [hhead, SpRegisters.depth_eq_five.mpr hact] at hfetchPc
  have hlt := hsafe.fetch_lt h hrun hdata hfetch
  refine ⟨by omega, ?_⟩
  intro target htaken
  have hfetchIn : InRange sp.spro.fetch0.pc := ⟨by have := hin.1; omega, hlt⟩
  obtain ⟨sp', ht⟩ := Option.isSome_iff_exists.mp
    (hinv.tick_isSome hrun ⟨hdata, fun _ => hfetchIn⟩)
  have h' := (clockState_succ h).trans ht
  have hregs := (hinv.ticks ht).regs
  obtain ⟨hf0, hf1, hd0, hd1, he0⟩ := @next_flush sp.spro sp.sramd.dataout sp.srami
    sp.spro.dma target hact htaken hfetch
  rw [← hregs] at hf0 hf1 hd0 hd1 he0
  have hrun' : sp'.spro.halts = false := by
    have hop : sp.spro.exec0.fields.op ≠ .HLT := by
      intro hop
      simp [ExecLatch.branch, branchOf, hop] at htaken
    rw [SpRegisters.halts, hregs, next_exec1, promoteExec0_fields]
    simp [hop]
  have hfetch' : sp'.spro.fetch0.active = true := by rw [hf0]
  have htargetLt := hsafe.fetch_lt h' hrun' (not_accesses_of_bubble he0) hfetch'
  have hhead' : sp'.spro.headPc = target := by
    simp [SpRegisters.headPc, he0, hd1, hd0, hf1, hf0]
  have hdepth' : sp'.spro.depth = 1 := by
    simp [SpRegisters.depth, he0, hd1, hd0, hf1, hf0]
  rw [hf0] at htargetLt
  by_cases hneg : target.toInt < 0
  · have hsize : (spSramHeight : ℤ) = 65536 := rfl
    omega
  · rw [← hhead']
    exact @FetchHarmless.filling _ _ hsafe 3 _ _ h' hrun' hfetch'
      (hhead' ▸ ⟨not_lt.mp hneg, htargetLt⟩) (by omega)

/-! ## Exactly when, for programs clear of the forwarding defects -/

section Sequential

variable {imem dmem : Mem} {n : ℕ}

/-- The machine makes no step past HLT. -/
theorem SeqHalts.le (h : SeqHalts imem dmem n) {k : ℕ} {a : Arch}
    (ha : seqState imem dmem k = some a) : k ≤ n := by
  obtain ⟨b, hb, hop⟩ := h.halts
  by_contra hlt
  obtain ⟨c, hc⟩ := runFor_isSome_of_le (Nat.succ_le_of_lt (not_le.mp hlt)) ha
  have hno := not_halt_of_seqState (k := n) hc
  rw [← seqState_eq_seqTrace hb] at hno
  exact hno hop

theorem SeqHalts.reaches (h : SeqHalts imem dmem n) {k : ℕ} (hk : k < n + 1) :
    ∃ a, seqState imem dmem k = some a := by
  obtain ⟨b, hb, -⟩ := h.halts
  exact runFor_isSome_of_le (Nat.le_of_lt_succ hk) hb

theorem SeqHalts.clearPath (h : SeqHalts imem dmem n)
    (hclear : ClearOfHazards imem dmem) : ClearPath imem dmem (n + 1) :=
  ⟨fun _ hk => h.reaches hk, fun i x y z _ => hclear i x y z⟩

theorem SeqHalts.trace_halts (h : SeqHalts imem dmem n) :
    ((seqTrace imem dmem n).fetch imem).fields.op = .HLT := by
  obtain ⟨b, hb, hop⟩ := h.halts
  rw [← seqState_eq_seqTrace hb]
  exact hop

/-- HLT is the last instruction that retires. -/
theorem SeqHalts.retired_le (h : SeqHalts imem dmem n)
    (hpath : ClearPath imem dmem (n + 1)) {t : ℕ} {sp : Sp}
    (hsp : clockState imem dmem t = some sp) (hrun : sp.spro.halts = false) :
    (retired imem dmem (t + 1)).length ≤ n := by
  induction t generalizing sp with
  | zero =>
      obtain rfl := Option.some.inj hsp
      rw [retired_succ_of_bubble hsp rfl]
      exact Nat.zero_le n
  | succ t ih =>
      obtain ⟨sp₀, h₀, ht⟩ := clockState_pred hsp
      have before := ih h₀ ((invariant_of_clockState h₀).ticks ht).running
      cases hact : sp.spro.exec1.active with
      | false =>
          rw [retired_succ_of_bubble hsp hact]
          exact before
      | true =>
          have hlog := retired_succ_of_active hsp hact
          have hlen : (retired imem dmem (t + 1 + 1)).length =
              (retired imem dmem (t + 1)).length + 1 := by
            rw [hlog, List.length_append]
            rfl
          rw [hlen]
          by_contra hlast
          obtain ⟨k, hk, hexec1, -⟩ := (follows hpath hsp (by omega)).exec1 hact
          obtain rfl : k = n := by omega
          have hhalt : sp.spro.halts = true := by
            rw [SpRegisters.halts_iff]
            exact ⟨hact, by rw [hexec1]; exact h.trace_halts⟩
          rw [hrun] at hhalt
          cases hhalt

/-- Low pcs of the sequential machine give the pipeline room. -/
theorem SeqHalts.runHasRoom (h : SeqHalts imem dmem n)
    (hpath : ClearPath imem dmem (n + 1))
    (hlow : ∀ k a, seqState imem dmem k = some a → a.pc.toNat + 4 < spSramHeight) :
    RunHasRoom imem dmem := by
  intro t sp hsp hrun hact _
  have low : ∀ {k a}, seqState imem dmem k = some a →
      a.pc.toInt + 4 < spSramHeight := by
    intro k a ha
    rw [(h.pc k a ha).toInt_eq]
    exact_mod_cast hlow k a ha
  have hlen := h.retired_le hpath hsp hrun
  have hexec0 := (follows hpath hsp (by omega)).exec0 hact (by omega)
  refine ⟨?_, ?_⟩
  · rw [hexec0]
    exact low (hpath.seqState_eq (Nat.lt_succ_of_le hlen))
  · intro target htaken
    -- a jump is not the last instruction: its target is the next pc
    have hlast : (retired imem dmem (t + 1)).length ≠ n := by
      intro heq
      have hop := h.trace_halts
      rw [← heq, ← hexec0] at hop
      simp [ExecLatch.branch, branchOf, hop] at htaken
    have hnext := hpath.seqState_eq
      (show (retired imem dmem (t + 1)).length + 1 < n + 1 by omega)
    have hpc : target =
        (seqTrace imem dmem ((retired imem dmem (t + 1)).length + 1)).pc := by
      have hnextPc : sp.spro.exec0.nextPc = target := by
        rw [ExecLatch.nextPc, htaken]
        rfl
      rw [← hnextPc, ExecLatch.nextPc_eq, hexec0, seqTrace_succ]
      rfl
    have hfour := low hnext
    rw [hpc]
    omega

theorem SeqHalts.fetch_inRange (h : SeqHalts imem dmem n)
    (hpath : ClearPath imem dmem (n + 1)) (hsafe : FetchHarmless imem dmem)
    {t : ℕ} {sp : Sp} (hsp : clockState imem dmem t = some sp)
    (hlen : (retired imem dmem (t + 1)).length < n + 1)
    (hact : sp.spro.fetch0.active = true) : InRange sp.spro.fetch0.pc := by
  have hhead : InRange sp.spro.headPc := by
    rw [(follows hpath hsp (by omega)).headPc]
    exact h.pc _ _ (hpath.seqState_eq hlen)
  refine ⟨?_, hsafe.fetch_lt hsp (hpath.running hsp hlen)
    (hpath.data_inRange (fun k a _ => h.data k a) hsp hlen) hact⟩
  rw [(invariant_of_clockState hsp).frontEnd.fetch0_toInt hact hhead.2]
  have hlow := hhead.1
  omega

/-- When every fetch is in range the run is clear and every instruction reaches
EXEC0, with the word four places behind it being fetched. -/
theorem SeqHalts.pc_low (h : SeqHalts imem dmem n)
    (hpath : ClearPath imem dmem (n + 1)) (hsafe : FetchHarmless imem dmem)
    {k : ℕ} {a : Arch} (ha : seqState imem dmem k = some a) :
    a.pc.toNat + 4 < spSramHeight := by
  have hclear : ClearRun imem dmem (n + 1) :=
    ⟨hpath.reaches, fun k a _ => h.data k a,
      fun t sp hsp hlen hact => h.fetch_inRange hpath hsafe hsp hlen hact,
      hpath.clear⟩
  have hk : k < n + 1 := Nat.lt_succ_of_le (h.le ha)
  obtain ⟨t, sp, hsp, hact, hlen⟩ := hclear.retires hk
  cases t with
  | zero =>
      obtain rfl := Option.some.inj hsp
      cases hact
  | succ t =>
      obtain ⟨sp₀, h₀, ht⟩ := clockState_pred hsp
      have hinv := invariant_of_clockState h₀
      have hact₀ : sp₀.spro.exec0.active = true := by
        rw [(hinv.ticks ht).regs] at hact
        exact hact
      have hfetch := hinv.frontEnd.fetch0_of_exec0 hact₀
      have hin := h.fetch_inRange hpath hsafe h₀ (by omega) hfetch
      have hpc := inRange_iff.mp (h.pc k a ha)
      have hexec0 := (follows hpath h₀ (by omega)).exec0 hact₀ (by omega)
      have hfetchPc : sp₀.spro.fetch0.pc = a.pc + BitVec.ofNat 32 4 := by
        rw [hinv.frontEnd.fetch0_pc hfetch, SpRegisters.depth_eq_five.mpr hact₀,
          SpRegisters.headPc, if_pos hact₀, hexec0, hlen, seqState_eq_seqTrace ha]
        rfl
      rw [hfetchPc, inRange_add_iff (by omega)] at hin
      exact hin

/-- **The fetch ahead, exactly when it is harmless.** No fetch before HLT's last
clock fails if and only if every instruction in EXEC0 has room ahead. For a
program clear of the forwarding defects that is a property of its sequential
run: none of its pcs, HLT's included, is among the last four. -/
theorem fetchHarmless_iff (h : SeqHalts imem dmem n) :
    (FetchHarmless imem dmem ↔ RunHasRoom imem dmem) ∧
    (ClearOfHazards imem dmem →
      (FetchHarmless imem dmem ↔ ∀ k a, seqState imem dmem k = some a →
        a.pc.toNat + 4 < spSramHeight)) := by
  refine ⟨⟨FetchHarmless.runHasRoom, RunHasRoom.fetchHarmless⟩, ?_⟩
  intro hclear
  have hpath := h.clearPath hclear
  constructor
  · intro hsafe k a ha
    exact h.pc_low hpath hsafe ha
  · intro hlow
    exact (h.runHasRoom hpath hlow).fetchHarmless

end Sequential

/-- The three conditions, checked along a finite run. -/
theorem SeqHalts.of_check {imem dmem : Mem} {n : ℕ}
    (hhalt : (seqState imem dmem n).any
      fun a => (a.fetch imem).fields.op == .HLT)
    (hrun : ∀ k < n + 1, (seqState imem dmem k).all fun a =>
      decide (InRange a.pc) && (!(a.fetch imem).accesses ||
        decide (InRange (a.fetch imem).alu1))) : SeqHalts imem dmem n := by
  obtain ⟨b, hb, hop⟩ := (Option.any_eq_true _ _).mp hhalt
  have hop : (b.fetch imem).fields.op = .HLT := by simpa using hop
  have hend : (seqState imem dmem (n + 1)).isNone := by
    rw [seqState, runFor_succ_of_eq hb, seqStep, if_pos hop]
    rfl
  have hall : ∀ {k a}, seqState imem dmem k = some a → _ :=
    fun h => runFor_forall (n + 1) hend hrun h
  simp only [Bool.and_eq_true, Bool.or_eq_true, Bool.not_eq_true',
    decide_eq_true_eq] at hall
  refine ⟨⟨b, hb, hop⟩, fun k a ha => (hall ha).1, ?_⟩
  intro k a ha hacc
  rcases (hall ha).2 with hno | hin
  · rw [hacc] at hno
    cases hno
  · exact hin

theorem fetchHarmless_forward : FetchHarmless forwardImage forwardImage := by
  have h : SeqHalts forwardImage forwardImage 3 :=
    SeqHalts.of_check (by decide +kernel) (by decide +kernel)
  refine ((fetchHarmless_iff h).2 ?_).mpr ?_
  · intro i x y z hx hy hz
    have hi := h.le hz
    have hall : ∀ i < 2, ¬ForwardingHazard
        ((seqTrace forwardImage forwardImage i).fetch forwardImage)
        ((seqTrace forwardImage forwardImage (i + 1)).fetch forwardImage)
        ((seqTrace forwardImage forwardImage (i + 2)).fetch forwardImage) := by
      decide +kernel
    rw [seqState_eq_seqTrace hx, seqState_eq_seqTrace hy, seqState_eq_seqTrace hz]
    exact hall i (by omega)
  · intro k a ha
    have hk := h.le ha
    have hall : ∀ k < 4,
        (seqTrace forwardImage forwardImage k).pc.toNat + 4 < spSramHeight := by
      decide +kernel
    rw [seqState_eq_seqTrace ha]
    exact hall k (by omega)

/-- `JEQ 0, 0, 65532` to an `HLT` in the last four words. -/
def topImage : Mem := Function.update (imageOf [0x2400FFFC]) 65532 0x30000000

/-- HLT is in EXEC0 in clock 10, while address 65536 is fetched. -/
theorem fetch_past_the_top :
    ¬∀ imem dmem n, SeqHalts imem dmem n → FetchHarmless imem dmem := by
  intro hsafe
  have h : SeqHalts topImage topImage 1 :=
    SeqHalts.of_check (by decide +kernel) (by decide +kernel)
  have hsp : ∃ sp, clockState topImage topImage 10 = some sp ∧
      sp.spro.halts = false ∧ sp.spro.exec0.accesses = false ∧
      loadUseStall sp.spro = false ∧ sp.spro.fetch0 = ⟨true, 65536⟩ := by
    refine ⟨_, clockState_eq_stateAt ?_, ?_, ?_, ?_, ?_⟩ <;> decide +kernel
  obtain ⟨sp, hsp, hrun, hacc, hstall, hfetch⟩ := hsp
  have hfail : ∃ a, llsimRunClock false sp = .error (.readOutOfRange .srami a) := by
    refine (fetch_fails_iff hsp).mpr ⟨?_, hstall, ?_, ?_⟩
    · intro hno
      rw [hacc] at hno
      cases hno
    · rw [hfetch]
    · rw [hfetch]
      decide
  obtain ⟨a, hfail⟩ := hfail
  exact hsafe topImage topImage 1 h 10 sp a hsp hrun hfail

end SuperscalarProcessor.Pipeline
