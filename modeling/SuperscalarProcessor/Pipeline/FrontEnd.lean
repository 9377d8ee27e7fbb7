import SuperscalarProcessor.Pipeline.Step

/-!
# The stages in flight

A clock advances every stage, flushes the four behind a taken jump, or stalls
DEC1 and everything behind it for one load-use. `FrontEnd` is the invariant
that all control-flow arguments rest on: the active stages from FETCH0 upwards
hold a contiguous run of PCs, each with the word and the fields that belong to
its PC, and what stands behind an active EXEC1 is its successor.
-/

namespace SuperscalarProcessor.Pipeline

open Llsim Foundation

/-! ## The three kinds of clock -/

/-- The first instruction loads a register that the second names as a source. -/
def loadUse (producer consumer : Fields) : Bool :=
  producer.op == .LD && 2#3 ≤ producer.dst &&
    (producer.dst == consumer.src0 || producer.dst == consumer.src1)

/-- The target of a taken jump latched in `e`. -/
def ExecLatch.branch (e : ExecLatch) : Option Word :=
  branchOf e.fields e.alu0 e.alu1

/-- The successor of an instruction on its latched operands. -/
def ExecLatch.nextPc (e : ExecLatch) : Word := e.branch.getD (e.pc + 1)

theorem loadUseStall_eq (s : SpRegisters) :
    loadUseStall s =
      (s.dec1.active && s.exec0.active && loadUse s.exec0.fields s.dec1.fields) := by
  simp [loadUseStall, loadUse, Bool.and_assoc]

theorem loadUseStall_of_use {s : SpRegisters} (hact : s.exec0.active = true)
    (hbehind : s.dec1.active = true)
    (huse : loadUse s.exec0.fields s.dec1.fields = true) : loadUseStall s = true := by
  rw [loadUseStall_eq, hact, hbehind, huse]
  rfl

theorem loadUseStall_of_bubble {s : SpRegisters} (hbubble : s.exec0.active = false) :
    loadUseStall s = false := by
  rw [loadUseStall_eq, hbubble, Bool.and_false, Bool.false_and]

@[simp] theorem detectHazards_flush (s : SpRegisters) (d : Word) :
    (detectHazards s d).flush = (detectHazards s d).branch.isSome := rfl

@[simp] theorem detectHazards_stall (s : SpRegisters) (d : Word) :
    (detectHazards s d).stall = loadUseStall s := rfl

theorem detectHazards_branch (s : SpRegisters) (d : Word) :
    (detectHazards s d).branch =
      if s.exec0.active then s.exec0.branch else none := rfl

/-- A load is not a jump: stall and flush exclude each other. -/
theorem branch_of_loadUse {e : ExecLatch} {g : Fields}
    (h : loadUse e.fields g = true) : e.branch = none := by
  simp only [loadUse, Bool.and_eq_true, beq_iff_eq] at h
  simp [ExecLatch.branch, branchOf, h.1.1]

/-- Why a clock is of its kind. -/
inductive ClockKind (s : SpRegisters) (d : Word) : Prop where
  | advance (stall : loadUseStall s = false)
      (branch : (detectHazards s d).branch = none)
  | flush (target : Word) (active : s.exec0.active = true)
      (taken : s.exec0.branch = some target)
  | stall (active : s.exec0.active = true) (behind : s.dec1.active = true)
      (use : loadUse s.exec0.fields s.dec1.fields = true)

theorem clockKind (s : SpRegisters) (d : Word) : ClockKind s d := by
  cases hstall : loadUseStall s with
  | true =>
      rw [loadUseStall_eq] at hstall
      simp only [Bool.and_eq_true] at hstall
      exact .stall hstall.1.2 hstall.1.1 hstall.2
  | false =>
      cases hbranch : (detectHazards s d).branch with
      | none => exact .advance hstall hbranch
      | some target =>
          rw [detectHazards_branch] at hbranch
          split_ifs at hbranch with hact
          exact .flush target hact hbranch

theorem stall_eq_false_of_branch {s : SpRegisters} {target : Word}
    (h : s.exec0.branch = some target) : loadUseStall s = false := by
  rw [loadUseStall_eq]
  by_contra hne
  simp only [Bool.not_eq_false, Bool.and_eq_true] at hne
  rw [branch_of_loadUse hne.2] at h
  cases h

/-! ## The registers after each kind of clock -/

section AfterClock

variable {s : SpRegisters} {d : Word} {m : Memory} {dma : DmaRegs}

theorem next_advance (hstall : loadUseStall s = false)
    (hbranch : (detectHazards s d).branch = none) :
    (nextRegisters s d m dma).fetch0 =
      ⟨true, if s.fetch0.active then s.fetch0.pc + 1 else 0⟩ ∧
    (nextRegisters s d m dma).fetch1 =
      ⟨s.fetch0.active, s.fetch0.pc,
        if s.fetch0.active then m.data s.fetch0.pc.toNat else s.fetch1.inst⟩ ∧
    (nextRegisters s d m dma).dec0 = s.fetch1 ∧
    (nextRegisters s d m dma).dec1.active = s.dec0.active ∧
    (s.dec0.active = true →
      (nextRegisters s d m dma).dec1.pc = s.dec0.pc ∧
      (nextRegisters s d m dma).dec1.inst = s.dec0.inst ∧
      (nextRegisters s d m dma).dec1.fields = decodeFields s.dec0.inst) ∧
    (nextRegisters s d m dma).exec0.active = s.dec1.active ∧
    (nextRegisters s d m dma).exec0.pc = s.dec1.pc ∧
    (nextRegisters s d m dma).exec0.inst = s.dec1.inst ∧
    (nextRegisters s d m dma).exec0.fields = s.dec1.fields := by
  refine ⟨?_, ?_, ?_, ?_, ?_, ?_, ?_, ?_, ?_⟩
  · simp [nextRegisters, nextFetch0, hstall, hbranch]
  · simp [nextRegisters, stageFetch0, hstall, hbranch]
  · simp [nextRegisters, stageFetch1, hstall, hbranch]
  · cases hact : s.dec0.active <;>
      simp [nextRegisters, stageDec0, hstall, hbranch, hact]
  · intro hact
    simp [nextRegisters, stageDec0, hstall, hbranch, hact]
  all_goals simp [nextRegisters, stageDec1, hstall, hbranch]

theorem next_flush {target : Word} (hact : s.exec0.active = true)
    (htaken : s.exec0.branch = some target) (hfetch : s.fetch0.active = true) :
    (nextRegisters s d m dma).fetch0 = ⟨true, target⟩ ∧
    (nextRegisters s d m dma).fetch1.active = false ∧
    (nextRegisters s d m dma).dec0.active = false ∧
    (nextRegisters s d m dma).dec1.active = false ∧
    (nextRegisters s d m dma).exec0.active = false := by
  have hstall := stall_eq_false_of_branch htaken
  have hbranch : (detectHazards s d).branch = some target := by
    rw [detectHazards_branch, if_pos hact, htaken]
  refine ⟨?_, ?_, ?_, ?_, ?_⟩
  · simp [nextRegisters, nextFetch0, hstall, hbranch, hfetch]
  · simp [nextRegisters, stageFetch0, hstall, hbranch]
  · simp [nextRegisters, stageFetch1, hstall, hbranch]
  · simp [nextRegisters, stageDec0, hstall, hbranch]
  · simp [nextRegisters, stageDec1, hstall, hbranch]

theorem next_stall (hstall : loadUseStall s = true) :
    (nextRegisters s d m dma).fetch0 = s.fetch0 ∧
    (nextRegisters s d m dma).fetch1 = s.fetch1 ∧
    (nextRegisters s d m dma).dec0 = s.dec0 ∧
    (nextRegisters s d m dma).dec1 = s.dec1 ∧
    (nextRegisters s d m dma).exec0 = { s.exec0 with active := false } := by
  refine ⟨?_, ?_, ?_, ?_, ?_⟩
  · simp [nextRegisters, nextFetch0, hstall]
  · simp [nextRegisters, stageFetch0, hstall]
  · simp [nextRegisters, stageFetch1, hstall]
  · simp [nextRegisters, stageDec0, hstall]
  · simp [nextRegisters, stageDec1, hstall]

@[simp] theorem next_exec1 :
    (nextRegisters s d m dma).exec1 = promoteExec0 s.exec0 := rfl

@[simp] theorem next_r :
    (nextRegisters s d m dma).r = writeBack s.exec1 d s.r := rfl

@[simp] theorem next_dma : (nextRegisters s d m dma).dma = dma := rfl

@[simp] theorem next_cycleCounter :
    (nextRegisters s d m dma).cycleCounter = s.cycleCounter + 1 := rfl

end AfterClock

/-- Moving to EXEC1 keeps everything but the ALU output. -/
@[simp] theorem promoteExec0_fields (e : ExecLatch) :
    (promoteExec0 e).fields = e.fields := rfl
@[simp] theorem promoteExec0_active (e : ExecLatch) :
    (promoteExec0 e).active = e.active := rfl
@[simp] theorem promoteExec0_branch (e : ExecLatch) :
    (promoteExec0 e).branch = e.branch := rfl
@[simp] theorem promoteExec0_nextPc (e : ExecLatch) :
    (promoteExec0 e).nextPc = e.nextPc := rfl

/-! ## The invariant -/

/-- The PC of the oldest instruction that has not reached EXEC1; 0 before the
first fetch. -/
def SpRegisters.headPc (s : SpRegisters) : Word :=
  if s.exec0.active then s.exec0.pc
  else if s.dec1.active then s.dec1.pc
  else if s.dec0.active then s.dec0.pc
  else if s.fetch1.active then s.fetch1.pc
  else if s.fetch0.active then s.fetch0.pc
  else 0

/-- The number of stages before EXEC1 that are occupied. -/
def SpRegisters.depth (s : SpRegisters) : ℕ :=
  if s.exec0.active then 5
  else if s.dec1.active then 4
  else if s.dec0.active then 3
  else if s.fetch1.active then 2
  else if s.fetch0.active then 1
  else 0

/-- What stands behind an active EXEC1: its successor in the next stage, the
consumer of its load held in DEC1, or the target of its jump being fetched. -/
inductive Handover (s : SpRegisters) : Prop where
  | full (next : s.exec0.active = true) (branch : s.exec1.branch = none)
      (use : loadUse s.exec1.fields s.exec0.fields = false)
  | stalled (bubble : s.exec0.active = false) (next : s.dec1.active = true)
      (use : loadUse s.exec1.fields s.dec1.fields = true)
  | flushed (exec0 : s.exec0.active = false) (dec1 : s.dec1.active = false)
      (dec0 : s.dec0.active = false) (fetch1 : s.fetch1.active = false)
      (next : s.fetch0.active = true) (branch : s.exec1.branch.isSome = true)

structure FrontEnd (imem : Mem) (s : SpRegisters) : Prop where
  fetch1 : s.fetch1.active = true → s.fetch0.active = true ∧
    s.fetch0.pc = s.fetch1.pc + 1 ∧ s.fetch1.inst = imem s.fetch1.pc.toNat
  dec0 : s.dec0.active = true → s.fetch1.active = true ∧
    s.fetch1.pc = s.dec0.pc + 1 ∧ s.dec0.inst = imem s.dec0.pc.toNat
  dec1 : s.dec1.active = true → s.dec0.active = true ∧
    s.dec0.pc = s.dec1.pc + 1 ∧ s.dec1.inst = imem s.dec1.pc.toNat ∧
    s.dec1.fields = decodeFields s.dec1.inst
  exec0 : s.exec0.active = true → s.dec1.active = true ∧
    s.dec1.pc = s.exec0.pc + 1 ∧ s.exec0.inst = imem s.exec0.pc.toNat ∧
    s.exec0.fields = decodeFields s.exec0.inst
  exec1 : s.exec1.active = true → s.exec1.inst = imem s.exec1.pc.toNat ∧
    s.exec1.fields = decodeFields s.exec1.inst ∧
    s.headPc = s.exec1.nextPc ∧ Handover s

theorem FrontEnd.fetch0_of_exec0 {imem : Mem} {s : SpRegisters}
    (h : FrontEnd imem s) (hact : s.exec0.active = true) :
    s.fetch0.active = true :=
  (h.fetch1 (h.dec0 (h.dec1 (h.exec0 hact).1).1).1).1

theorem FrontEnd.zero (imem : Mem) : FrontEnd imem zeroRegisters := by
  constructor <;> intro h <;> cases h

section Next

variable {imem : Mem} {s : SpRegisters} (h : FrontEnd imem s) {d : Word}
  {m : Memory} {dma : DmaRegs}
include h

/-- Every stage takes over what its predecessor held. -/
theorem FrontEnd.advance (hm : m.data = imem) (hstall : loadUseStall s = false)
    (hbranch : (detectHazards s d).branch = none) :
    FrontEnd imem (nextRegisters s d m dma) := by
  obtain ⟨hf0, hf1, hd0, hd1a, hd1, he0a, he0p, he0i, he0f⟩ :=
    @next_advance s d m dma hstall hbranch
  refine ⟨?_, ?_, ?_, ?_, ?_⟩
  · rw [hf1, hf0]
    intro hact
    have hact : s.fetch0.active = true := hact
    simp [hact, hm]
  · rw [hd0, hf1]
    intro hact
    obtain ⟨ha, hp, hi⟩ := h.fetch1 hact
    exact ⟨ha, hp, hi⟩
  · rw [hd1a, hd0]
    intro hact
    obtain ⟨hp, hi, hf⟩ := hd1 hact
    obtain ⟨ha, hp', hi'⟩ := h.dec0 hact
    rw [hp, hi, hf]
    exact ⟨ha, hp', hi', rfl⟩
  · rw [he0a, he0p, he0i, he0f, hd1a]
    intro hact
    obtain ⟨ha, hp, hi, hf⟩ := h.dec1 hact
    exact ⟨ha, (hd1 ha).1.trans hp, hi, hf⟩
  · intro hact
    have hact : s.exec0.active = true := hact
    obtain ⟨ha, hp, hi, hf⟩ := h.exec0 hact
    rw [detectHazards_branch, if_pos hact] at hbranch
    have hhead : (nextRegisters s d m dma).headPc = s.exec0.pc + 1 := by
      rw [SpRegisters.headPc, he0a, if_pos ha, he0p, hp]
    refine ⟨hi, hf, ?_, .full (he0a.trans ha) hbranch ?_⟩
    · rw [hhead, next_exec1, promoteExec0_nextPc, ExecLatch.nextPc, hbranch]
      rfl
    · rw [next_exec1, promoteExec0_fields, he0f]
      rw [loadUseStall_eq] at hstall
      simpa [ha, hact] using hstall

/-- The jump goes to EXEC1, with its target in FETCH0 and bubbles between. -/
theorem FrontEnd.flush {target : Word} (hact : s.exec0.active = true)
    (htaken : s.exec0.branch = some target) :
    FrontEnd imem (nextRegisters s d m dma) := by
  obtain ⟨hf0, hf1, hd0, hd1, he0⟩ :=
    @next_flush s d m dma target hact htaken (h.fetch0_of_exec0 hact)
  refine ⟨?_, ?_, ?_, ?_, ?_⟩
  · rw [hf1]
    intro hno
    cases hno
  · rw [hd0]
    intro hno
    cases hno
  · rw [hd1]
    intro hno
    cases hno
  · rw [he0]
    intro hno
    cases hno
  · intro _
    obtain ⟨_, _, hi, hf⟩ := h.exec0 hact
    refine ⟨hi, hf, ?_, .flushed he0 hd1 hd0 hf1 (by rw [hf0]) ?_⟩
    · rw [next_exec1, promoteExec0_nextPc, ExecLatch.nextPc, htaken]
      simp [SpRegisters.headPc, he0, hd1, hd0, hf1, hf0]
    · rw [next_exec1, promoteExec0_branch, htaken]
      rfl

/-- The load goes to EXEC1 alone; its consumer stays in DEC1. -/
theorem FrontEnd.stall (hact : s.exec0.active = true) (hbehind : s.dec1.active = true)
    (huse : loadUse s.exec0.fields s.dec1.fields = true) :
    FrontEnd imem (nextRegisters s d m dma) := by
  have hstall := loadUseStall_of_use hact hbehind huse
  obtain ⟨hf0, hf1, hd0, hd1, he0⟩ := @next_stall s d m dma hstall
  refine ⟨?_, ?_, ?_, ?_, ?_⟩
  · rw [hf1, hf0]
    exact h.fetch1
  · rw [hd0, hf1]
    exact h.dec0
  · rw [hd1, hd0]
    exact h.dec1
  · rw [he0]
    intro hno
    cases hno
  · intro _
    obtain ⟨_, hp, hi, hf⟩ := h.exec0 hact
    refine ⟨hi, hf, ?_, .stalled (by rw [he0]) (hd1 ▸ hbehind) ?_⟩
    · rw [next_exec1, promoteExec0_nextPc, ExecLatch.nextPc, branch_of_loadUse huse]
      simp [SpRegisters.headPc, he0, hd1, hbehind, hp]
    · rw [next_exec1, promoteExec0_fields, hd1]
      exact huse

end Next

/-- **The invariant survives every clock.** -/
theorem FrontEnd.next {imem : Mem} {s : SpRegisters} (h : FrontEnd imem s)
    (d : Word) {m : Memory} (hm : m.data = imem) (dma : DmaRegs) :
    FrontEnd imem (nextRegisters s d m dma) := by
  rcases clockKind s d with ⟨hstall, hbranch⟩ | ⟨target, hact, htaken⟩ |
    ⟨hact, hbehind, huse⟩
  · exact h.advance hm hstall hbranch
  · exact h.flush hact htaken
  · exact h.stall hact hbehind huse

/-! ## Depth and head -/

/-- Without an instruction in EXEC0 the clock only fills: one more stage is
occupied, the head is the same and EXEC1 gets a bubble. -/
theorem next_bubble {s : SpRegisters} (d : Word) (m : Memory) (dma : DmaRegs)
    (hbubble : s.exec0.active = false) :
    (nextRegisters s d m dma).depth = s.depth + 1 ∧
    (nextRegisters s d m dma).headPc = s.headPc ∧
    (nextRegisters s d m dma).exec1.active = false := by
  have hstall := loadUseStall_of_bubble hbubble
  have hbranch : (detectHazards s d).branch = none := by
    simp [detectHazards_branch, hbubble]
  obtain ⟨hf0, hf1, hd0, hd1a, hd1, he0a, he0p, -, -⟩ :=
    @next_advance s d m dma hstall hbranch
  refine ⟨?_, ?_, hbubble⟩
  · unfold SpRegisters.depth
    rw [he0a, hd1a, hd0, hf1, hf0, hbubble]
    cases hd1' : s.dec1.active with
    | true => simp
    | false =>
        cases hd0' : s.dec0.active with
        | true => simp
        | false =>
            cases hf1' : s.fetch1.active with
            | true => simp
            | false => cases hf0' : s.fetch0.active <;> simp
  · unfold SpRegisters.headPc
    rw [he0a, he0p, hd1a, hd0, hf1, hf0, hbubble]
    cases hd1' : s.dec1.active with
    | true => simp
    | false =>
        cases hd0' : s.dec0.active with
        | true => simp [(hd1 hd0').1]
        | false =>
            cases hf1' : s.fetch1.active with
            | true => simp
            | false => cases hf0' : s.fetch0.active <;> simp

theorem SpRegisters.depth_le (s : SpRegisters) : s.depth ≤ 5 := by
  unfold SpRegisters.depth
  split_ifs <;> omega

theorem SpRegisters.depth_eq_five {s : SpRegisters} :
    s.depth = 5 ↔ s.exec0.active = true := by
  unfold SpRegisters.depth
  split_ifs with h <;> simp [h]

theorem SpRegisters.exec0_of_depth_lt {s : SpRegisters} (h : s.depth < 5) :
    s.exec0.active = false := by
  by_contra hact
  exact absurd (SpRegisters.depth_eq_five.mpr (Bool.not_eq_false _ ▸ hact)) h.ne

end SuperscalarProcessor.Pipeline
