import SuperscalarProcessor.Pipeline.Operands

/-!
# The operands DEC1 latches

Two properties of the forwarding network and the exact states in which it has
them. The operands are the youngest older values unless both instructions in
flight write the same source register with different results: then EXEC1, the
older one, wins. A non-writing instruction in EXEC1 is transparent unless its
destination field names a source register that is not zero: then DEC1 receives
zero.
-/

namespace SuperscalarProcessor.Pipeline

open Llsim Foundation

/-- The operands that `sp_ctl` latches into EXEC0 in this clock. -/
def latchedOperands (sp : Sp) : Option (Word × Word) :=
  match spRun false sp with
  | .ok sp' => some (sp'.sprn.exec0.alu0, sp'.sprn.exec0.alu1)
  | .error _ => none

/-- A clock that is neither a stall nor a flush. -/
structure PlainClock (sp : Sp) : Prop where
  stall : (detectHazards sp.spro sp.sramd.dataout).stall = false
  flush : (detectHazards sp.spro sp.sramd.dataout).flush = false

/-- What DEC1 makes of a source field. -/
def latchedOperand (sp : Sp) (src : BitVec 3) : Word :=
  (forward sp.spro sp.sramd.dataout src).getD
    (operand sp.spro.r sp.spro.dec1.fields.immediate src)

theorem Invariant.latchedOperands_eq {imem : Mem} {sp : Sp}
    (h : Invariant imem sp) (hplain : PlainClock sp) :
    latchedOperands sp = some (latchedOperand sp sp.spro.dec1.fields.src0,
      latchedOperand sp sp.spro.dec1.fields.src1) := by
  obtain ⟨m, hissue⟩ := issueMemory_total sp.spro.exec0 sp.sramd
  unfold latchedOperands
  rw [spCtl_idle_dma h.dma hissue]
  simp only [nextRegisters, stageDec1, hplain.stall, hplain.flush,
    Bool.false_eq_true, if_false]
  rfl

theorem PlainClock.branch {sp : Sp} (h : PlainClock sp)
    (hact : sp.spro.exec0.active = true) : sp.spro.exec0.branch = none := by
  have hflush := h.flush
  rw [detectHazards_flush, detectHazards_branch, if_pos hact] at hflush
  exact Option.not_isSome_iff_eq_none.mp (by rw [hflush]; exact Bool.false_ne_true)

/-- No load in EXEC0 feeds DEC1 in such a clock. -/
theorem PlainClock.load {sp : Sp} (h : PlainClock sp) {src : BitVec 3}
    (hsrc : 2#3 ≤ src)
    (hdec : sp.spro.dec1.active = true)
    (huse : src = sp.spro.dec1.fields.src0 ∨ src = sp.spro.dec1.fields.src1)
    (hact : sp.spro.exec0.active = true) (hop : sp.spro.exec0.fields.op = .LD) :
    sp.spro.exec0.fields.dst ≠ src := by
  rintro rfl
  have hstall := h.stall
  rw [detectHazards_stall, loadUseStall_eq, hdec, hact] at hstall
  rcases huse with huse | huse <;>
    simp [loadUse, hop, hsrc, huse.symm] at hstall

/-! ## Freshness -/

/-- A bubble or an ALU, LHI or LD instruction with a register destination. -/
def ExecLatch.BubbleOrWriter (e : ExecLatch) : Prop :=
  e.active = true →
    (e.fields.isAlu = true ∨ e.fields.op = .LD) ∧ 2#3 ≤ e.fields.dst

instance (e : ExecLatch) : Decidable e.BubbleOrWriter := by
  unfold ExecLatch.BubbleOrWriter
  infer_instance

theorem ExecLatch.BubbleOrWriter.writes_iff {e : ExecLatch}
    (h : e.BubbleOrWriter) (src : BitVec 3) :
    e.writes = some src ↔ e.active = true ∧ e.fields.dst = src := by
  unfold ExecLatch.writes
  cases hact : e.active with
  | false => simp
  | true =>
      obtain ⟨hop, hdst⟩ := h hact
      have hcond : (e.fields.isAlu || e.fields.op == .LD) = true := by
        rcases hop with hop | hop <;> simp [hop]
      rw [if_pos rfl, if_pos hcond, if_pos hdst]
      simp

/-- The registers after the instruction in EXEC1 and then the one in EXEC0. -/
def freshRegisters (sp : Sp) : RegFile :=
  sp.spro.exec0.apply sp.sramd.data
    (sp.spro.exec1.apply sp.sramd.data sp.spro.r)

/-- Each latched register operand is the fresh value of its register. -/
def FreshOperands (sp : Sp) : Prop :=
  ∃ alu0 alu1, latchedOperands sp = some (alu0, alu1) ∧
    (2#3 ≤ sp.spro.dec1.fields.src0 →
      alu0 = freshRegisters sp sp.spro.dec1.fields.src0) ∧
    (2#3 ≤ sp.spro.dec1.fields.src1 →
      alu1 = freshRegisters sp sp.spro.dec1.fields.src1)

/-- Both instructions in flight write the register, with different results. -/
def Clash (sp : Sp) (src : BitVec 3) : Prop :=
  sp.spro.exec1.writes = some src ∧ sp.spro.exec0.writes = some src ∧
    sp.spro.exec1.value sp.sramd.data ≠ sp.spro.exec0.value sp.sramd.data

/-- EXEC1 writes the register if and only if it names it as destination. -/
structure HonestDst (e : ExecLatch) (src : BitVec 3) : Prop where
  writes_iff : e.writes = some src ↔ e.active = true ∧ e.fields.dst = src
  op : e.active = true → e.fields.dst = src →
    e.fields.isAlu = true ∨ e.fields.op = .LD

theorem ExecLatch.BubbleOrWriter.honestDst {e : ExecLatch}
    (h : e.BubbleOrWriter) (src : BitVec 3) : HonestDst e src :=
  ⟨h.writes_iff src, fun hact _ => (h hact).1⟩

/-- One operand: EXEC1's value if EXEC1 writes the register, else EXEC0's, else
the register file's. -/
theorem Invariant.latchedOperand_writers {imem : Mem} {sp : Sp}
    (h : Invariant imem sp) (hdec : sp.spro.dec1.active = true)
    (hplain : PlainClock sp) {src : BitVec 3} (hsrc : 2#3 ≤ src)
    (huse : src = sp.spro.dec1.fields.src0 ∨ src = sp.spro.dec1.fields.src1)
    (h1 : HonestDst sp.spro.exec1 src) :
    latchedOperand sp src =
      if sp.spro.exec1.writes = some src then sp.spro.exec1.value sp.sramd.data
      else if sp.spro.exec0.writes = some src then
        sp.spro.exec0.value sp.sramd.data
      else sp.spro.r src := by
  have hexec0 := forwardExec0_eq sp.spro sp.sramd.data
    (fun hact hop => hplain.load hsrc hdec huse hact hop)
    (fun hact => hplain.branch hact)
  unfold latchedOperand forward
  rw [if_pos hdec, hexec0, operand_of_two_le hsrc]
  by_cases hw : sp.spro.exec1.writes = some src
  · obtain ⟨hact, hdst⟩ := h1.writes_iff.mp hw
    rw [if_pos hw, h.forwardExec1_writer hsrc hact hdst (h1.op hact hdst)]
    rfl
  · rw [if_neg hw, forwardExec1_none fun hc => hw (h1.writes_iff.mpr hc)]
    split_ifs <;> rfl

/-- The fresh value: EXEC0's if EXEC0 writes the register, else EXEC1's. -/
theorem freshRegisters_eq (sp : Sp) (src : BitVec 3) :
    freshRegisters sp src =
      if sp.spro.exec0.writes = some src then sp.spro.exec0.value sp.sramd.data
      else if sp.spro.exec1.writes = some src then
        sp.spro.exec1.value sp.sramd.data
      else sp.spro.r src := by
  unfold freshRegisters
  split_ifs with h0 h1
  · exact ExecLatch.apply_of_writes h0 _ _
  · rw [ExecLatch.apply_of_ne h0, ExecLatch.apply_of_writes h1]
  · rw [ExecLatch.apply_of_ne h0, ExecLatch.apply_of_ne h1]

theorem Invariant.latchedOperand_fresh_iff {imem : Mem} {sp : Sp}
    (h : Invariant imem sp) (hdec : sp.spro.dec1.active = true)
    (hplain : PlainClock sp) {src : BitVec 3} (hsrc : 2#3 ≤ src)
    (huse : src = sp.spro.dec1.fields.src0 ∨ src = sp.spro.dec1.fields.src1)
    (h1 : HonestDst sp.spro.exec1 src) :
    latchedOperand sp src = freshRegisters sp src ↔ ¬Clash sp src := by
  rw [h.latchedOperand_writers hdec hplain hsrc huse h1, freshRegisters_eq, Clash]
  by_cases hw1 : sp.spro.exec1.writes = some src <;>
    by_cases hw0 : sp.spro.exec0.writes = some src <;> simp [hw1, hw0]

/-- **Operand freshness, exactly when.** In every reachable plain clock with a
bubble or a writer in EXEC1, the latched operands are fresh if and only if no
source register of DEC1 is written by EXEC1 and EXEC0 with different results. -/
theorem freshOperands_iff {imem dmem : Mem} {t : ℕ} {sp : Sp}
    (h : clockState imem dmem t = some sp) (hdec : sp.spro.dec1.active = true)
    (hplain : PlainClock sp) (h1 : sp.spro.exec1.BubbleOrWriter) :
    FreshOperands sp ↔ ∀ src, 2#3 ≤ src →
      src = sp.spro.dec1.fields.src0 ∨ src = sp.spro.dec1.fields.src1 →
        ¬Clash sp src := by
  have hinv := invariant_of_clockState h
  unfold FreshOperands
  rw [hinv.latchedOperands_eq hplain]
  constructor
  · rintro ⟨alu0, alu1, heq, hfresh0, hfresh1⟩ src hsrc huse
    obtain ⟨rfl, rfl⟩ := Prod.mk.inj (Option.some.inj heq)
    refine (hinv.latchedOperand_fresh_iff hdec hplain hsrc huse
      (h1.honestDst src)).mp ?_
    rcases huse with rfl | rfl
    · exact hfresh0 hsrc
    · exact hfresh1 hsrc
  · intro hclash
    refine ⟨_, _, rfl, ?_, ?_⟩
    · intro hsrc
      exact (hinv.latchedOperand_fresh_iff hdec hplain hsrc (Or.inl rfl)
        (h1.honestDst _)).mpr (hclash _ hsrc (Or.inl rfl))
    · intro hsrc
      exact (hinv.latchedOperand_fresh_iff hdec hplain hsrc (Or.inr rfl)
        (h1.honestDst _)).mpr (hclash _ hsrc (Or.inr rfl))

/-- `ADD r2, imm 5; ADD r3, imm 7; ADD r4, r2, r3; HLT`. -/
def forwardImage : Mem := imageOf [0x00880005, 0x00C80007, 0x01130000, 0x30000000]

theorem freshOperands_iff_forward :
    ∃ sp, clockState forwardImage forwardImage 6 = some sp ∧
      (FreshOperands sp ↔ ∀ src, 2#3 ≤ src →
        src = sp.spro.dec1.fields.src0 ∨ src = sp.spro.dec1.fields.src1 →
          ¬Clash sp src) := by
  have hclock := @clockState_eq_stateAt forwardImage forwardImage 6
    (by decide +kernel)
  refine ⟨_, hclock, freshOperands_iff hclock ?_ ⟨?_, ?_⟩ ?_⟩ <;> decide +kernel

/-- `ADD r2, imm 5; ADD r2, imm 7; ADD r3, r2, 0; HLT`. -/
def rewriteImage : Mem := imageOf [0x00880005, 0x00880007, 0x00D00000, 0x30000000]

/-- The third instruction latches 5, the value r2 has before the second. -/
theorem stale_operand_rewrite :
    ∃ sp, clockState rewriteImage rewriteImage 6 = some sp ∧
      sp.spro.dec1.active = true ∧ PlainClock sp ∧
      sp.spro.exec1.BubbleOrWriter ∧ sp.spro.exec0.BubbleOrWriter ∧
      ¬FreshOperands sp := by
  have hclock := @clockState_eq_stateAt rewriteImage rewriteImage 6
    (by decide +kernel)
  refine ⟨_, hclock, ?_, ⟨?_, ?_⟩, ?_, ?_, ?_⟩
  iterate 5 decide +kernel
  rintro ⟨alu0, alu1, heq, hfresh, -⟩
  have hlatched : latchedOperands (stateAt rewriteImage rewriteImage 6) =
      some (5, 0) := by decide +kernel
  obtain ⟨rfl, rfl⟩ := Prod.mk.inj (Option.some.inj (heq.symm.trans hlatched))
  exact absurd (hfresh (by decide +kernel)) (by decide +kernel)

/-! ## Transparency of non-writers -/

/-- The latched operands are those read from the register file. -/
def ReadOperands (sp : Sp) : Prop :=
  latchedOperands sp = some
    (operand sp.spro.r sp.spro.dec1.fields.immediate sp.spro.dec1.fields.src0,
      operand sp.spro.r sp.spro.dec1.fields.immediate sp.spro.dec1.fields.src1)

theorem ExecLatch.not_writer {e : ExecLatch} (hact : e.active = true)
    (hw : e.writes = none) (hdst : 2#3 ≤ e.fields.dst) :
    e.fields.isAlu = false ∧ e.fields.op ≠ .LD := by
  unfold ExecLatch.writes at hw
  rw [if_pos hact, if_pos hdst] at hw
  by_cases hcond : (e.fields.isAlu || e.fields.op == .LD) = true
  · rw [if_pos hcond] at hw
    cases hw
  · simpa using hcond

/-- An instruction that writes nothing is not forwarded from EXEC0. -/
theorem forwardExec0_nonwriter {s : SpRegisters} (hw : s.exec0.writes = none)
    (src : BitVec 3) : forwardExec0 s src = none := by
  unfold forwardExec0
  split_ifs with hcond
  · simp only [Bool.and_eq_true, decide_eq_true_eq] at hcond
    exact aluResult_none (ExecLatch.not_writer hcond.1.1 hw hcond.1.2).1 _ _
  · rfl

theorem Invariant.latchedOperand_read_iff {imem : Mem} {sp : Sp}
    (h : Invariant imem sp) (hact : sp.spro.exec1.active = true)
    (h1 : sp.spro.exec1.writes = none) (h0 : sp.spro.exec0.writes = none)
    (src : BitVec 3) :
    latchedOperand sp src =
        operand sp.spro.r sp.spro.dec1.fields.immediate src ↔
      (sp.spro.dec1.active = true → 2#3 ≤ src →
        sp.spro.exec1.fields.dst = src → sp.spro.r src = 0) := by
  unfold latchedOperand forward
  rw [forwardExec0_nonwriter h0, Option.or_none]
  by_cases hdec : sp.spro.dec1.active = true
  · rw [if_pos hdec]
    by_cases hhit : 2#3 ≤ src ∧ sp.spro.exec1.fields.dst = src
    · obtain ⟨hsrc, hdst⟩ := hhit
      obtain ⟨halu, hld⟩ := ExecLatch.not_writer hact h1 (hdst ▸ hsrc)
      rw [h.forwardExec1_nonwriter hsrc hact hdst halu hld,
        operand_of_two_le hsrc]
      simp [hdec, hsrc, hdst, eq_comm]
    · have hnone : forwardExec1 sp.spro sp.sramd.dataout src = none := by
        rw [forwardExec1, if_neg]
        intro hcond
        simp only [Bool.and_eq_true, beq_iff_eq, decide_eq_true_eq] at hcond
        exact hhit ⟨hcond.2 ▸ hcond.1.2, hcond.2⟩
      rw [hnone]
      simp only [Option.getD_none, true_iff]
      intro _ hsrc hdst
      exact absurd ⟨hsrc, hdst⟩ hhit
  · rw [if_neg hdec]
    simp [hdec]

/-- **Non-writers are transparent, exactly when.** In every reachable plain
clock with a non-writing instruction in EXEC1 and none that writes in EXEC0,
DEC1 latches what it read if and only if EXEC1's destination field names no
source register of an active DEC1 whose value is not zero. -/
theorem readOperands_iff {imem dmem : Mem} {t : ℕ} {sp : Sp}
    (h : clockState imem dmem t = some sp) (hplain : PlainClock sp)
    (hact : sp.spro.exec1.active = true) (h1 : sp.spro.exec1.writes = none)
    (h0 : sp.spro.exec0.writes = none) :
    ReadOperands sp ↔ (sp.spro.dec1.active = true → ∀ src, 2#3 ≤ src →
      src = sp.spro.dec1.fields.src0 ∨ src = sp.spro.dec1.fields.src1 →
        sp.spro.exec1.fields.dst = src → sp.spro.r src = 0) := by
  have hinv := invariant_of_clockState h
  have hread := hinv.latchedOperand_read_iff hact h1 h0
  unfold ReadOperands
  rw [hinv.latchedOperands_eq hplain]
  constructor
  · rintro heq hdec src hsrc huse hdst
    obtain ⟨heq0, heq1⟩ := Prod.mk.inj (Option.some.inj heq)
    rcases huse with rfl | rfl
    · exact (hread _).mp heq0 hdec hsrc hdst
    · exact (hread _).mp heq1 hdec hsrc hdst
  · intro hzero
    rw [(hread sp.spro.dec1.fields.src0).mpr
        fun hdec hsrc => hzero hdec _ hsrc (Or.inl rfl)]
    rw [(hread sp.spro.dec1.fields.src1).mpr
        fun hdec hsrc => hzero hdec _ hsrc (Or.inr rfl)]

/-- `ADD r2, imm 5; ST r0, r0` with destination field 2; an undefined opcode;
`ADD r3, r2, 0; HLT`. -/
def storeImage : Mem :=
  imageOf [0x00880005, 0x12800000, 0x2A000000, 0x00D00000, 0x30000000]

theorem readOperands_iff_store :
    ∃ sp, clockState storeImage storeImage 7 = some sp ∧
      (ReadOperands sp ↔ (sp.spro.dec1.active = true → ∀ src, 2#3 ≤ src →
        src = sp.spro.dec1.fields.src0 ∨ src = sp.spro.dec1.fields.src1 →
          sp.spro.exec1.fields.dst = src → sp.spro.r src = 0)) := by
  have hclock := @clockState_eq_stateAt storeImage storeImage 7
    (by decide +kernel)
  refine ⟨_, hclock, readOperands_iff hclock ⟨?_, ?_⟩ ?_ ?_ ?_⟩ <;>
    decide +kernel

/-- The store in EXEC1 turns the operand r2 = 5 of the addition into 0. -/
theorem spurious_forward_store :
    ∃ sp, clockState storeImage storeImage 7 = some sp ∧ PlainClock sp ∧
      sp.spro.dec1.active = true ∧ sp.spro.exec1.active = true ∧
      sp.spro.exec1.fields.op = .ST ∧ sp.spro.exec0.writes = none ∧
      ¬ReadOperands sp := by
  have hclock := @clockState_eq_stateAt storeImage storeImage 7
    (by decide +kernel)
  refine ⟨_, hclock, ⟨?_, ?_⟩, ?_, ?_, ?_, ?_, ?_⟩
  iterate 6 decide +kernel
  unfold ReadOperands
  decide +kernel

end SuperscalarProcessor.Pipeline
