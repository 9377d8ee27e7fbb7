import Mathlib.Logic.Function.Iterate
import SuperscalarProcessor.Pipeline.Forwarding
import SuperscalarProcessor.Pipeline.Retirement

/-!
# The pipeline refines the sequential machine

The sequential machine executes one whole instruction in each step. As long as
the program stays clear of the two forwarding defects, the instruction in EXEC1
is its next one, on the same operands and the same registers, and the data
memory and the write-backs in flight add up to its state.
-/

namespace SuperscalarProcessor.Pipeline

open Llsim Foundation

/-! ## The sequential machine -/

/-- What a program sees of the processor. -/
structure Arch where
  pc : Word
  r : RegFile
  mem : Mem

/-- The instruction at `pc` with its operands. -/
def Arch.fetch (imem : Mem) (a : Arch) : ExecLatch where
  active := true
  pc := a.pc
  inst := imem a.pc.toNat
  fields := decodeFields (imem a.pc.toNat)
  alu0 := operand a.r (decodeFields (imem a.pc.toNat)).immediate
    (decodeFields (imem a.pc.toNat)).src0
  alu1 := operand a.r (decodeFields (imem a.pc.toNat)).immediate
    (decodeFields (imem a.pc.toNat)).src1
  aluout := 0

/-- The effect of an instruction on the whole state. -/
def ExecLatch.effect (e : ExecLatch) (a : Arch) : Arch where
  pc := e.successorPc
  r := e.apply a.mem a.r
  mem := memoryAfter e a.mem

def seqNext (imem : Mem) (a : Arch) : Arch := (a.fetch imem).effect a

/-- HLT stops the machine. -/
def seqStep (imem : Mem) (a : Arch) : Option Arch :=
  if (a.fetch imem).fields.op = .HLT then none else some (seqNext imem a)

def seqInit (dmem : Mem) : Arch := ⟨0, fun _ => 0, dmem⟩

/-- The state before instruction `k`, if the machine gets there. -/
def seqState (imem dmem : Mem) (k : ℕ) : Option Arch :=
  runFor (seqStep imem) k (seqInit dmem)

/-- The same run carried on over HLT, so that the state behind the last
instruction has a name. -/
def seqTrace (imem dmem : Mem) (k : ℕ) : Arch :=
  (seqNext imem)^[k] (seqInit dmem)

theorem seqTrace_succ (imem dmem : Mem) (k : ℕ) :
    seqTrace imem dmem (k + 1) = seqNext imem (seqTrace imem dmem k) :=
  Function.iterate_succ_apply' _ _ _

theorem seqStep_eq_some {imem : Mem} {a a' : Arch}
    (h : seqStep imem a = some a') :
    (a.fetch imem).fields.op ≠ .HLT ∧ a' = seqNext imem a := by
  unfold seqStep at h
  split_ifs at h with hop
  exact ⟨hop, (Option.some.inj h).symm⟩

theorem seqState_eq_seqTrace {imem dmem : Mem} {k : ℕ} {a : Arch}
    (h : seqState imem dmem k = some a) : a = seqTrace imem dmem k := by
  induction k generalizing a with
  | zero => exact (Option.some.inj h).symm
  | succ k ih =>
      obtain ⟨b, hb, hstep⟩ := runFor_pred h
      rw [(seqStep_eq_some hstep).2, ih hb, seqTrace_succ]

/-- Every instruction but the last reached is not HLT. -/
theorem not_halt_of_seqState {imem dmem : Mem} {k : ℕ} {a : Arch}
    (h : seqState imem dmem (k + 1) = some a) :
    ((seqTrace imem dmem k).fetch imem).fields.op ≠ .HLT := by
  obtain ⟨b, hb, hstep⟩ := runFor_pred h
  rw [← seqState_eq_seqTrace hb]
  exact (seqStep_eq_some hstep).1

/-- A load is not a store: whether it reads before or after itself is one. -/
theorem ExecLatch.apply_memoryAfter (e : ExecLatch) (mem : Mem) (r : RegFile) :
    e.apply (memoryAfter e mem) r = e.apply mem r := by
  have hvalue : e.value (memoryAfter e mem) = e.value mem := by
    unfold ExecLatch.value
    by_cases hop : e.fields.op = .LD
    · rw [if_pos hop, if_pos hop]
      simp [memoryAfter, hop]
    · rw [if_neg hop, if_neg hop]
  unfold ExecLatch.apply
  rw [hvalue]

theorem ExecLatch.apply_of_bubble {e : ExecLatch} (h : e.active = false)
    (mem : Mem) (r : RegFile) : e.apply mem r = r := by
  simp [ExecLatch.apply, ExecLatch.writes, h]

/-! ## Programs clear of the defects -/

/-- `x`, `y` and `z` follow each other; `z` names the destination of `x` while
`x` does not write it or `y` overwrites it from the ALU. -/
structure ForwardingHazard (x y z : ExecLatch) : Prop where
  register : 2#3 ≤ x.fields.dst
  use : z.fields.src0 = x.fields.dst ∨ z.fields.src1 = x.fields.dst
  conflict : x.writes ≠ some x.fields.dst ∨
    (y.fields.isAlu = true ∧ y.fields.dst = x.fields.dst)

instance (x y z : ExecLatch) : Decidable (ForwardingHazard x y z) :=
  decidable_of_iff
    (2#3 ≤ x.fields.dst ∧
      (z.fields.src0 = x.fields.dst ∨ z.fields.src1 = x.fields.dst) ∧
      (x.writes ≠ some x.fields.dst ∨
        (y.fields.isAlu = true ∧ y.fields.dst = x.fields.dst)))
    ⟨fun h => ⟨h.1, h.2.1, h.2.2⟩, fun h => ⟨h.register, h.use, h.conflict⟩⟩

/-- The conditions under which the first `n` instructions are looked at. -/
structure ClearRun (imem dmem : Mem) (n : ℕ) : Prop where
  reaches : ∀ k, k < n → ∃ a, seqState imem dmem k = some a
  data : ∀ k a, k < n → seqState imem dmem k = some a →
    (a.fetch imem).accesses = true → InRange (a.fetch imem).alu1
  fetch : ∀ t sp, clockState imem dmem t = some sp →
    (retired imem dmem (t + 1)).length < n → sp.spro.fetch0.active = true →
      InRange sp.spro.fetch0.pc
  clear : ∀ i x y z, i + 2 < n → seqState imem dmem i = some x →
    seqState imem dmem (i + 1) = some y → seqState imem dmem (i + 2) = some z →
      ¬ForwardingHazard (x.fetch imem) (y.fetch imem) (z.fetch imem)

/-- The part of this that concerns the sequential run alone. -/
structure ClearPath (imem dmem : Mem) (n : ℕ) : Prop where
  reaches : ∀ k, k < n → ∃ a, seqState imem dmem k = some a
  clear : ∀ i x y z, i + 2 < n → seqState imem dmem i = some x →
    seqState imem dmem (i + 1) = some y → seqState imem dmem (i + 2) = some z →
      ¬ForwardingHazard (x.fetch imem) (y.fetch imem) (z.fetch imem)

theorem ClearRun.clearPath {imem dmem : Mem} {n : ℕ}
    (h : ClearRun imem dmem n) : ClearPath imem dmem n :=
  ⟨h.reaches, h.clear⟩

theorem ClearPath.seqState_eq {imem dmem : Mem} {n k : ℕ}
    (h : ClearPath imem dmem n) (hk : k < n) :
    seqState imem dmem k = some (seqTrace imem dmem k) := by
  obtain ⟨a, ha⟩ := h.reaches k hk
  rw [ha, seqState_eq_seqTrace ha]

theorem ClearPath.not_hazard {imem dmem : Mem} {n i : ℕ}
    (h : ClearPath imem dmem n) (hi : i + 2 < n) :
    ¬ForwardingHazard ((seqTrace imem dmem i).fetch imem)
      ((seqTrace imem dmem (i + 1)).fetch imem)
      ((seqTrace imem dmem (i + 2)).fetch imem) :=
  h.clear i _ _ _ hi (h.seqState_eq (by omega)) (h.seqState_eq (by omega))
    (h.seqState_eq hi)

/-! ## The refinement relation -/

/-- The pipe stands before instruction `m` of the trace `A`: the head is at its
pc, memory is its memory, its registers are those behind EXEC1. -/
structure Follows (imem : Mem) (A : ℕ → Arch) (n m : ℕ) (sp : Sp) : Prop where
  headPc : sp.spro.headPc = (A m).pc
  mem : sp.sramd.data = (A m).mem
  regs : sp.spro.exec1.apply sp.sramd.data sp.spro.r = (A m).r
  exec1 : sp.spro.exec1.active = true → ∃ k, m = k + 1 ∧
    sp.spro.exec1 = promoteExec0 ((A k).fetch imem) ∧ sp.spro.r = (A k).r
  exec0 : sp.spro.exec0.active = true → m < n →
    sp.spro.exec0 = (A m).fetch imem

theorem Follows.init (imem dmem : Mem) (n : ℕ) :
    Follows imem (seqTrace imem dmem) n 0 (resetState imem dmem) where
  headPc := rfl
  mem := rfl
  regs := rfl
  exec1 h := by cases h
  exec0 h := by cases h

@[simp] theorem promoteExec0_apply (e : ExecLatch) (mem : Mem) (r : RegFile) :
    (promoteExec0 e).apply mem r = e.apply mem r := rfl

@[simp] theorem promoteExec0_writes (e : ExecLatch) :
    (promoteExec0 e).writes = e.writes := rfl

/-- An instruction leaves DEC1 in plain clocks only. -/
theorem plainClock_of_next_exec0 {sp : Sp} {m : Memory} {dma : DmaRegs}
    (h : (nextRegisters sp.spro sp.sramd.dataout m dma).exec0.active = true) :
    PlainClock sp ∧ sp.spro.dec1.active = true := by
  have hexec0 : (stageDec1 sp.spro
      (detectHazards sp.spro sp.sramd.dataout)).active = true := h
  unfold stageDec1 at hexec0
  split_ifs at hexec0 with hstall hflush
  exact ⟨⟨Bool.not_eq_true _ ▸ hstall, Bool.not_eq_true _ ▸ hflush⟩, hexec0⟩

theorem PlainClock.next_exec0 {sp : Sp} {m : Memory} {dma : DmaRegs}
    (h : PlainClock sp) :
    (nextRegisters sp.spro sp.sramd.dataout m dma).exec0 =
      { active := sp.spro.dec1.active
        pc := sp.spro.dec1.pc
        inst := sp.spro.dec1.inst
        fields := sp.spro.dec1.fields
        alu0 := latchedOperand sp sp.spro.dec1.fields.src0
        alu1 := latchedOperand sp sp.spro.dec1.fields.src1
        aluout := sp.spro.exec0.aluout } := by
  show stageDec1 _ _ = _
  rw [stageDec1, h.stall, h.flush]
  rfl

/-- Nothing is forwarded to a source field that names no register. -/
theorem latchedOperand_of_lt {sp : Sp} {src : BitVec 3} (h : ¬2#3 ≤ src)
    (r : RegFile) :
    latchedOperand sp src = operand r sp.spro.dec1.fields.immediate src := by
  have hguard : ∀ e : ExecLatch,
      ¬(e.active && 2#3 ≤ e.fields.dst && e.fields.dst == src) = true := by
    intro e he
    simp only [Bool.and_eq_true, beq_iff_eq, decide_eq_true_eq] at he
    exact h (he.2 ▸ he.1.2)
  have hnone : forward sp.spro sp.sramd.dataout src = none := by
    unfold forward forwardExec1 forwardExec0
    rw [if_neg (hguard _), if_neg (hguard _)]
    exact ite_self _
  rw [latchedOperand, hnone]
  exact operand_congr fun hsrc => absurd hsrc h

/-! ## Operands are the sequential ones -/

section ClearRuns

variable {imem dmem : Mem} {n m : ℕ} {sp sp' : Sp}

/-- Behind an instruction that does not jump, DEC1 holds the next one. -/
theorem Follows.dec1_fields (h : Follows imem (seqTrace imem dmem) n m sp)
    (hinv : Invariant imem sp) (hplain : PlainClock sp)
    (hact : sp.spro.exec0.active = true) (hm : m < n) :
    sp.spro.dec1.fields = ((seqTrace imem dmem (m + 1)).fetch imem).fields := by
  obtain ⟨hdec, hpc, -, -⟩ := hinv.frontEnd.exec0 hact
  obtain ⟨-, -, hinst, hfields⟩ := hinv.frontEnd.dec1 hdec
  have hbranch := hplain.branch hact
  have hnext : (seqTrace imem dmem (m + 1)).pc = sp.spro.dec1.pc := by
    rw [seqTrace_succ]
    show ((seqTrace imem dmem m).fetch imem).successorPc = _
    rw [← h.exec0 hact hm, ← ExecLatch.nextPc_eq, ExecLatch.nextPc, hbranch]
    exact hpc.symm
  rw [hfields, hinst, ← hnext]
  rfl

/-- An instruction that is neither a taken jump nor caught writing something
else than it names is honest about its destination. -/
theorem HonestDst.of_branch {e : ExecLatch} {src : BitVec 3}
    (hbranch : e.branch = none)
    (hwrites : e.active = true → e.fields.dst = src → e.writes = some src) :
    HonestDst e src := by
  constructor
  · constructor
    · intro hw
      obtain ⟨hact, hdst, -⟩ := ExecLatch.of_writes hbranch hw
      exact ⟨hact, hdst⟩
    · rintro ⟨hact, hdst⟩
      exact hwrites hact hdst
  · intro hact hdst
    exact (ExecLatch.of_writes hbranch (hwrites hact hdst)).2.2

theorem Follows.exec1_honest (h : Follows imem (seqTrace imem dmem) n m sp)
    (hclear : ClearPath imem dmem n) (hinv : Invariant imem sp)
    (hplain : PlainClock sp) (hdec : sp.spro.dec1.active = true)
    {src : BitVec 3} (hsrc : 2#3 ≤ src)
    (huse : src = sp.spro.dec1.fields.src0 ∨ src = sp.spro.dec1.fields.src1)
    (hm : sp.spro.exec0.active = true → m + 1 < n) :
    HonestDst sp.spro.exec1 src := by
  cases hact : sp.spro.exec1.active with
  | false =>
      refine ExecLatch.BubbleOrWriter.honestDst ?_ src
      intro hact'
      rw [hact] at hact'
      exact Bool.noConfusion hact'
  | true =>
      obtain ⟨-, -, -, hover⟩ := hinv.frontEnd.exec1 hact
      rcases hover with ⟨hnext, hbranch, -⟩ | ⟨-, -, hload⟩ | ⟨-, hno, -, -, -, -⟩
      · obtain ⟨k, rfl, hexec1, -⟩ := h.exec1 hact
        have hfields := h.dec1_fields hinv hplain hnext
          (Nat.lt_of_succ_lt (hm hnext))
        refine HonestDst.of_branch hbranch ?_
        intro _ hdst
        rw [hexec1, promoteExec0_fields] at hdst
        rw [hexec1, promoteExec0_writes]
        by_contra hne
        refine hclear.not_hazard (hm hnext) ⟨?_, ?_, Or.inl ?_⟩
        · rw [hdst]
          exact hsrc
        · rw [← hfields, hdst]
          exact huse.imp Eq.symm Eq.symm
        · rw [hdst]
          exact hne
      · simp only [loadUse, Bool.and_eq_true, beq_iff_eq, decide_eq_true_eq] at hload
        exact ExecLatch.BubbleOrWriter.honestDst
          (fun _ => ⟨Or.inr hload.1.1, hload.1.2⟩) src
      · rw [hdec] at hno
        exact Bool.noConfusion hno

theorem Follows.not_clash (h : Follows imem (seqTrace imem dmem) n m sp)
    (hclear : ClearPath imem dmem n) (hinv : Invariant imem sp)
    (hplain : PlainClock sp) (hdec : sp.spro.dec1.active = true)
    {src : BitVec 3} (hsrc : 2#3 ≤ src)
    (huse : src = sp.spro.dec1.fields.src0 ∨ src = sp.spro.dec1.fields.src1)
    (hm : sp.spro.exec0.active = true → m + 1 < n) : ¬Clash sp src := by
  rintro ⟨hw1, hw0, -⟩
  have hnext : sp.spro.exec0.active = true := by
    by_contra hno
    simp [ExecLatch.writes, hno] at hw0
  have hfields := h.dec1_fields hinv hplain hnext (Nat.lt_of_succ_lt (hm hnext))
  have hexec0 := h.exec0 hnext (Nat.lt_of_succ_lt (hm hnext))
  obtain ⟨hact, hdst1⟩ :=
    (h.exec1_honest hclear hinv hplain hdec hsrc huse hm).writes_iff.mp hw1
  obtain ⟨k, rfl, hexec1, -⟩ := h.exec1 hact
  -- a load in EXEC0 would have stalled DEC1
  have halu : sp.spro.exec0.fields.isAlu = true ∧ sp.spro.exec0.fields.dst = src := by
    obtain ⟨-, hdst, hop⟩ := ExecLatch.of_writes (hplain.branch hnext) hw0
    exact ⟨hop.resolve_right fun hld => hplain.load hsrc hdec huse hnext hld hdst,
      hdst⟩
  rw [hexec1, promoteExec0_fields] at hdst1
  rw [hexec0] at halu
  refine hclear.not_hazard (hm hnext) ⟨?_, ?_, Or.inr ⟨halu.1, ?_⟩⟩
  · rw [hdst1]
    exact hsrc
  · rw [← hfields, hdst1]
    exact huse.imp Eq.symm Eq.symm
  · rw [halu.2, hdst1]

theorem Follows.latchedOperand_eq (h : Follows imem (seqTrace imem dmem) n m sp)
    (hclear : ClearPath imem dmem n) (hinv : Invariant imem sp)
    (hplain : PlainClock sp) (hdec : sp.spro.dec1.active = true)
    {src : BitVec 3}
    (huse : src = sp.spro.dec1.fields.src0 ∨ src = sp.spro.dec1.fields.src1)
    (hm : sp.spro.exec0.active = true → m + 1 < n) :
    latchedOperand sp src =
      operand (freshRegisters sp) sp.spro.dec1.fields.immediate src := by
  by_cases hsrc : 2#3 ≤ src
  · rw [operand_of_two_le hsrc]
    refine (hinv.latchedOperand_fresh_iff hdec hplain hsrc huse ?_).mpr ?_
    · exact h.exec1_honest hclear hinv hplain hdec hsrc huse hm
    · exact h.not_clash hclear hinv hplain hdec hsrc huse hm
  · exact latchedOperand_of_lt hsrc _

/-- What enters EXEC0 is the sequential machine's instruction at the head. -/
theorem Follows.next_exec0 (h : Follows imem (seqTrace imem dmem) n m sp)
    (hclear : ClearPath imem dmem n) (hinv : Invariant imem sp)
    (ht : tick sp = some sp') (hact : sp'.spro.exec0.active = true)
    (hm : sp.spro.exec0.active = true → m + 1 < n) {a : Arch}
    (hpc : sp'.spro.headPc = a.pc) (hregs : freshRegisters sp = a.r) :
    sp'.spro.exec0 = a.fetch imem := by
  have hnext := (hinv.ticks ht).regs
  obtain ⟨-, -, hinst, hfields⟩ := (hinv.next ht).frontEnd.exec0 hact
  rw [SpRegisters.headPc, if_pos hact] at hpc
  obtain ⟨hplain, hdec⟩ := plainClock_of_next_exec0 (hnext ▸ hact)
  have hexec0 := congrArg SpRegisters.exec0 hnext
  rw [hplain.next_exec0, hdec, hinv.exec0Alu,
    h.latchedOperand_eq hclear hinv hplain hdec (Or.inl rfl) hm,
    h.latchedOperand_eq hclear hinv hplain hdec (Or.inr rfl) hm, hregs] at hexec0
  rw [hexec0] at hpc hinst hfields ⊢
  simp only at hpc hinst hfields
  rw [hfields, hinst, hpc]
  rfl

/-- A bubble passes: nothing has been executed. -/
theorem Follows.next_bubble (h : Follows imem (seqTrace imem dmem) n m sp)
    (hclear : ClearPath imem dmem n) (hinv : Invariant imem sp)
    (ht : tick sp = some sp') (hbubble : sp.spro.exec0.active = false) :
    Follows imem (seqTrace imem dmem) n m sp' := by
  have hs := hinv.ticks ht
  obtain ⟨-, hhead, hnone⟩ := Pipeline.next_bubble
    sp.sramd.dataout sp.srami sp.spro.dma hbubble
  rw [← hs.regs] at hhead hnone
  have hmem : sp'.sramd.data = sp.sramd.data := by
    rw [hs.dmem, memoryAfter_of_bubble hbubble]
  have hr : sp'.spro.r = (seqTrace imem dmem m).r := by
    rw [hs.regs, next_r, hinv.writeBack_eq, h.regs]
  have hpc : sp'.spro.headPc = (seqTrace imem dmem m).pc := hhead.trans h.headPc
  refine ⟨hpc, hmem.trans h.mem, ?_, ?_, ?_⟩
  · rw [ExecLatch.apply_of_bubble hnone, hr]
  · intro hact
    rw [hnone] at hact
    exact Bool.noConfusion hact
  · intro hact hm
    refine h.next_exec0 hclear hinv ht hact ?_ hpc ?_
    · intro hno
      rw [hbubble] at hno
      exact Bool.noConfusion hno
    · rw [freshRegisters, ExecLatch.apply_of_bubble hbubble, h.regs]

/-- The instruction in EXEC0 takes its step. -/
theorem Follows.next_retire (h : Follows imem (seqTrace imem dmem) n m sp)
    (hclear : ClearPath imem dmem n) (hinv : Invariant imem sp)
    (ht : tick sp = some sp') (hact : sp.spro.exec0.active = true) (hm : m < n) :
    Follows imem (seqTrace imem dmem) n (m + 1) sp' := by
  have hs := hinv.ticks ht
  have hexec0 := h.exec0 hact hm
  have hexec1 : sp'.spro.exec1 = promoteExec0 sp.spro.exec0 := by
    rw [hs.regs, next_exec1]
  have hact' : sp'.spro.exec1.active = true := by rw [hexec1]; exact hact
  have hmem : sp'.sramd.data = (seqTrace imem dmem (m + 1)).mem := by
    rw [hs.dmem, seqTrace_succ, hexec0, h.mem]
    rfl
  have hr : sp'.spro.r = (seqTrace imem dmem m).r := by
    rw [hs.regs, next_r, hinv.writeBack_eq, h.regs]
  have hpc : sp'.spro.headPc = (seqTrace imem dmem (m + 1)).pc := by
    obtain ⟨-, -, hhead, -⟩ := (hinv.next ht).frontEnd.exec1 hact'
    rw [hhead, hexec1, promoteExec0_nextPc, ExecLatch.nextPc_eq, hexec0,
      seqTrace_succ]
    rfl
  refine ⟨hpc, hmem, ?_, ?_, ?_⟩
  · rw [hexec1, promoteExec0_apply, hs.dmem, ExecLatch.apply_memoryAfter, hr,
      hexec0, h.mem, seqTrace_succ]
    rfl
  · intro _
    exact ⟨m, rfl, by rw [hexec1, hexec0], hr⟩
  · intro hnext hm'
    refine h.next_exec0 hclear hinv ht hnext (fun _ => hm') hpc ?_
    rw [freshRegisters, h.regs, hexec0, h.mem, seqTrace_succ]
    rfl

/-- **The relation holds in every clock** up to the last instruction that is
looked at. -/
theorem follows (hclear : ClearPath imem dmem n) {t : ℕ} {sp : Sp}
    (h : clockState imem dmem t = some sp)
    (hlen : (retired imem dmem (t + 1)).length ≤ n) :
    Follows imem (seqTrace imem dmem) n (retired imem dmem (t + 1)).length sp := by
  induction t generalizing sp with
  | zero =>
      obtain rfl := Option.some.inj h
      exact Follows.init imem dmem n
  | succ t ih =>
      obtain ⟨sp₀, h₀, ht⟩ := clockState_pred h
      have hinv := invariant_of_clockState h₀
      have hregs := (hinv.ticks ht).regs
      cases hact : sp₀.spro.exec0.active with
      | false =>
          have hnone : sp.spro.exec1.active = false := by rw [hregs]; exact hact
          rw [retired_succ_of_bubble h hnone] at hlen ⊢
          exact (ih h₀ hlen).next_bubble hclear hinv ht hact
      | true =>
          have hact' : sp.spro.exec1.active = true := by rw [hregs]; exact hact
          rw [retired_succ_of_active h hact', List.length_append,
            List.length_singleton] at hlen ⊢
          exact (ih h₀ (by omega)).next_retire hclear hinv ht hact hlen

/-! ## The pipeline gets there -/

/-- Before the last instruction that is looked at, no HLT is in EXEC1. -/
theorem ClearPath.running (hclear : ClearPath imem dmem n) {t : ℕ} {sp : Sp}
    (h : clockState imem dmem t = some sp)
    (hlen : (retired imem dmem (t + 1)).length < n) : sp.spro.halts = false := by
  by_contra hhalt
  rw [Bool.not_eq_false, SpRegisters.halts_iff] at hhalt
  obtain ⟨k, hk, hexec1, -⟩ := (follows hclear h (Nat.le_of_lt hlen)).exec1 hhalt.1
  rw [hk] at hlen
  obtain ⟨a, ha⟩ := hclear.reaches (k + 1) hlen
  refine not_halt_of_seqState ha ?_
  rw [← hhalt.2, hexec1]
  rfl

/-- The pipeline requests the addresses of the sequential machine. -/
theorem ClearPath.data_inRange (hclear : ClearPath imem dmem n)
    (hdata : ∀ k a, k < n → seqState imem dmem k = some a →
      (a.fetch imem).accesses = true → InRange (a.fetch imem).alu1)
    {t : ℕ} {sp : Sp} (h : clockState imem dmem t = some sp)
    (hlen : (retired imem dmem (t + 1)).length < n)
    (hacc : sp.spro.exec0.accesses = true) : InRange sp.spro.exec0.alu1 := by
  have hact : sp.spro.exec0.active = true := by
    by_contra hno
    simp [ExecLatch.accesses, hno] at hacc
  rw [(follows hclear h (Nat.le_of_lt hlen)).exec0 hact hlen] at hacc ⊢
  exact hdata _ _ hlen (hclear.seqState_eq hlen) hacc

/-- Until its last instruction has retired, a clear run goes on. -/
theorem ClearRun.tick_isSome (hclear : ClearRun imem dmem n) {t : ℕ} {sp : Sp}
    (h : clockState imem dmem t = some sp)
    (hlen : (retired imem dmem (t + 1)).length < n) : (tick sp).isSome := by
  refine (invariant_of_clockState h).tick_isSome ?_ ⟨?_, ?_⟩
  · exact hclear.clearPath.running h hlen
  · exact hclear.clearPath.data_inRange hclear.data h hlen
  · exact hclear.fetch t sp h hlen

theorem ClearRun.next_retires (hclear : ClearRun imem dmem n) {t : ℕ} {sp : Sp}
    (h : clockState imem dmem t = some sp)
    (hlen : (retired imem dmem (t + 1)).length < n) :
    ∃ t' sp', clockState imem dmem t' = some sp' ∧
      sp'.spro.exec1.active = true ∧
      retired imem dmem t' = retired imem dmem (t + 1) := by
  obtain ⟨t', sp', h', hact, -, hret⟩ := head_retires h
    fun u su _ hsu heq => hclear.tick_isSome hsu (by rw [heq]; exact hlen)
  exact ⟨t', sp', h', hact, hret⟩

/-- Every instruction of a clear run retires. -/
theorem ClearRun.retires (hclear : ClearRun imem dmem n) {k : ℕ} (hk : k < n) :
    ∃ t sp, clockState imem dmem t = some sp ∧ sp.spro.exec1.active = true ∧
      (retired imem dmem t).length = k := by
  induction k with
  | zero =>
      obtain ⟨t', sp', h', hact, hret⟩ :=
        @ClearRun.next_retires _ _ _ hclear 0 (resetState imem dmem) rfl hk
      exact ⟨t', sp', h', hact, by rw [hret]; rfl⟩
  | succ k ih =>
      obtain ⟨t, sp, h, hact, hlen⟩ := ih (by omega)
      have hlog : (retired imem dmem (t + 1)).length = k + 1 := by
        rw [retired_succ_of_active h hact, List.length_append, hlen]
        rfl
      obtain ⟨t', sp', h', hact', hret⟩ := hclear.next_retires h (hlog ▸ hk)
      exact ⟨t', sp', h', hact', by rw [hret, hlog]⟩

/-! ## Refinement -/

/-- Clock state `sp` shows the instruction that the sequential machine executes
in `a`, with its operands and registers; if it is HLT, `a`'s memory is dumped. -/
structure Shows (imem : Mem) (a : Arch) (sp : Sp) : Prop where
  pc : sp.spro.exec1.pc = a.pc
  inst : sp.spro.exec1.inst = imem a.pc.toNat
  alu0 : sp.spro.exec1.alu0 = (a.fetch imem).alu0
  alu1 : sp.spro.exec1.alu1 = (a.fetch imem).alu1
  regs : sp.spro.r = a.r
  dump : (a.fetch imem).fields.op = .HLT →
    ∃ sp', spRun false sp = .ok sp' ∧ sp'.sramdOut = some (memoryDump a.mem)

end ClearRuns

/-- HLT in EXEC1 dumps the data memory as it is. -/
theorem Invariant.dump_of_halts {imem : Mem} {sp : Sp} (h : Invariant imem sp)
    (hhalt : sp.spro.halts = true) :
    ∃ sp', spRun false sp = .ok sp' ∧
      sp'.sramdOut = some (memoryDump sp.sramd.data) := by
  obtain ⟨m, hissue⟩ := issueMemory_total sp.spro.exec0 sp.sramd
  refine ⟨_, spCtl_idle_dma h.dma hissue, ?_⟩
  simp only [hhalt, if_true, dumpSram_eq]

/-- **The pipeline refines the sequential machine.** In every run clear of the
two forwarding defects, the `k`-th instruction active in EXEC1 is the
sequential machine's, on the same operands, registers and, at HLT, memory. -/
theorem pipeline_refines {imem dmem : Mem} {n : ℕ}
    (hclear : ClearRun imem dmem n) :
    ∀ k, k < n → ∃ t sp a, clockState imem dmem t = some sp ∧
      sp.spro.exec1.active = true ∧ (retired imem dmem t).length = k ∧
      seqState imem dmem k = some a ∧ Shows imem a sp := by
  intro k hk
  obtain ⟨t, sp, h, hact, hlen⟩ := hclear.retires hk
  have hlog : (retired imem dmem (t + 1)).length = k + 1 := by
    rw [retired_succ_of_active h hact, List.length_append, hlen]
    rfl
  have hfollows := follows hclear.clearPath h (by omega)
  rw [hlog] at hfollows
  obtain ⟨j, hj, hexec1, hr⟩ := hfollows.exec1 hact
  obtain rfl : k = j := by omega
  refine ⟨t, sp, _, h, hact, hlen, hclear.clearPath.seqState_eq hk, ?_⟩
  refine ⟨?_, ?_, ?_, ?_, hr, ?_⟩
  iterate 4 rw [hexec1]; rfl
  intro hop
  have hhalt : sp.spro.halts = true := by
    rw [SpRegisters.halts, hexec1, promoteExec0_fields, hop]
    rfl
  obtain ⟨sp', hrun, hdump⟩ := (invariant_of_clockState h).dump_of_halts hhalt
  refine ⟨sp', hrun, ?_⟩
  -- HLT itself does not change the memory
  rw [hdump, hfollows.mem, seqTrace_succ]
  simp [seqNext, ExecLatch.effect, memoryAfter, hop]

/-- Both operands of the third instruction are forwarded. -/
theorem clearRun_forward : ClearRun forwardImage forwardImage 4 where
  reaches := by
    intro k hk
    have hall : ∀ k < 4, (seqState forwardImage forwardImage k).isSome := by
      decide +kernel
    exact Option.isSome_iff_exists.mp (hall k hk)
  data := by
    intro k a hk ha hacc
    have hnone : ∀ k < 4, ((seqTrace forwardImage forwardImage k).fetch
        forwardImage).accesses = false := by decide +kernel
    rw [seqState_eq_seqTrace ha, hnone k hk] at hacc
    exact Bool.noConfusion hacc
  fetch := by
    intro t sp h _ _
    have hpc := @clockState_forall forwardImage forwardImage
      (fun sp => sp.spro.fetch0.pc.toNat < 65536) 10
      (by decide +kernel) (by decide +kernel) t sp h
    exact inRange_iff.mpr (of_decide_eq_true hpc)
  clear := by
    intro i x y z hi hx hy hz
    have hall : ∀ i < 2, ¬ForwardingHazard
        ((seqTrace forwardImage forwardImage i).fetch forwardImage)
        ((seqTrace forwardImage forwardImage (i + 1)).fetch forwardImage)
        ((seqTrace forwardImage forwardImage (i + 2)).fetch forwardImage) := by
      decide +kernel
    rw [seqState_eq_seqTrace hx, seqState_eq_seqTrace hy, seqState_eq_seqTrace hz]
    exact hall i (by omega)

theorem pipeline_refines_forward :
    ∃ t sp a, clockState forwardImage forwardImage t = some sp ∧
      sp.spro.exec1.active = true ∧
      (retired forwardImage forwardImage t).length = 3 ∧
      seqState forwardImage forwardImage 3 = some a ∧ Shows forwardImage a sp :=
  pipeline_refines clearRun_forward 3 (by decide)

end SuperscalarProcessor.Pipeline
