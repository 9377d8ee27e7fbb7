import SuperscalarProcessor.Pipeline.Runs

/-!
# Operand forwarding

What an instruction in flight writes, what the register file is once it has
been applied, and how the operands that DEC1 latches compare with that. The
forwarding network is exact up to two defects, each characterised by the states
in which it shows: EXEC1 wins over the younger EXEC0, and EXEC1 forwards for
instructions that write nothing.
-/

namespace SuperscalarProcessor.Pipeline

open Llsim Foundation

/-! ## The effect of an instruction on the registers -/

theorem aluResult_isSome (f : Fields) (a b : Word) :
    (aluResult f a b).isSome = f.isAlu := by
  unfold aluResult Fields.isAlu
  cases f.op <;> rfl

theorem aluResult_some {f : Fields} (h : f.isAlu = true) (a b : Word) :
    ∃ v, aluResult f a b = some v :=
  Option.isSome_iff_exists.mp ((aluResult_isSome f a b).trans h)

theorem aluResult_none {f : Fields} (h : f.isAlu = false) (a b : Word) :
    aluResult f a b = none := by
  rw [← aluResult_isSome f a b] at h
  exact Option.not_isSome_iff_eq_none.mp (by rw [h]; exact Bool.false_ne_true)

/-- The register an active instruction writes. -/
def ExecLatch.writes (e : ExecLatch) : Option (BitVec 3) :=
  if e.active then
    if e.fields.isAlu || e.fields.op == .LD then
      if 2#3 ≤ e.fields.dst then some e.fields.dst else none
    else if e.branch.isSome then some 7
    else none
  else none

/-- The value it writes: the loaded word, the ALU result, or its own pc. -/
def ExecLatch.value (e : ExecLatch) (mem : Mem) : Word :=
  if e.fields.op = .LD then mem e.alu1.toNat
  else (aluResult e.fields e.alu0 e.alu1).getD e.pc

/-- The registers after the instruction. -/
def ExecLatch.apply (e : ExecLatch) (mem : Mem) (r : RegFile) : RegFile :=
  match e.writes with
  | none => r
  | some i => Function.update r i (e.value mem)

theorem ExecLatch.apply_of_writes {e : ExecLatch} {i : BitVec 3}
    (h : e.writes = some i) (mem : Mem) (r : RegFile) :
    e.apply mem r i = e.value mem := by
  simp [ExecLatch.apply, h]

theorem ExecLatch.apply_of_ne {e : ExecLatch} {i : BitVec 3}
    (h : e.writes ≠ some i) (mem : Mem) (r : RegFile) :
    e.apply mem r i = r i := by
  unfold ExecLatch.apply
  cases hw : e.writes with
  | none => rfl
  | some j =>
      have hne : i ≠ j := by rintro rfl; exact h hw
      exact Function.update_of_ne hne _ _

/-- Only jumps write a register that they do not name. -/
theorem ExecLatch.of_writes {e : ExecLatch} {src : BitVec 3}
    (hbranch : e.branch = none) (hw : e.writes = some src) :
    e.active = true ∧ e.fields.dst = src ∧
      (e.fields.isAlu = true ∨ e.fields.op = .LD) := by
  unfold ExecLatch.writes at hw
  rw [hbranch] at hw
  split_ifs at hw with hact hop hdst hno
  · refine ⟨hact, Option.some.inj hw, ?_⟩
    simpa only [Bool.or_eq_true, beq_iff_eq] using hop
  · exact Bool.noConfusion hno

theorem branch_isSome_eq (e : ExecLatch) : e.branch.isSome =
    (e.fields.op == .JIN || e.fields.op.condHolds e.alu0 e.alu1) := by
  unfold ExecLatch.branch branchOf
  cases hop : e.fields.op <;> simp [Opcode.condHolds] <;> split_ifs <;> simp_all

/-- **Write-back does what the instruction means**, given the ALU output and
the loaded word in their latches. -/
theorem writeBack_eq_apply {e : ExecLatch} {mem : Mem} {d : Word} {r : RegFile}
    (halu : e.active = true →
      e.aluout = (aluResult e.fields e.alu0 e.alu1).getD 0)
    (hload : e.active = true → e.fields.op = .LD → d = mem e.alu1.toNat) :
    writeBack e d r = e.apply mem r := by
  unfold writeBack ExecLatch.apply ExecLatch.writes ExecLatch.value
  cases hact : e.active with
  | false => rfl
  | true =>
      have halu := halu hact
      have hload := hload hact
      rw [branch_isSome_eq]
      unfold aluResult at halu ⊢
      unfold Fields.isAlu
      cases hop : e.fields.op with
      | JLT | JLE | JEQ | JNE =>
          cases hc : e.fields.op.condHolds e.alu0 e.alu1 <;>
            rw [hop] at hc <;> simp [hc]
      | LD =>
          by_cases hdst : 2#3 ≤ e.fields.dst <;> simp [hdst, hload hop]
      | JIN | ST | HLT | U | DMA_START | DMA_STATUS => simp [Opcode.condHolds]
      | _ =>
          rw [hop] at halu
          by_cases hdst : 2#3 ≤ e.fields.dst <;> simp [hdst, halu]

theorem Invariant.writeBack_eq {imem : Mem} {sp : Sp} (h : Invariant imem sp) :
    writeBack sp.spro.exec1 sp.sramd.dataout sp.spro.r =
      sp.spro.exec1.apply sp.sramd.data sp.spro.r :=
  writeBack_eq_apply h.exec1Alu h.loaded

/-! ## What the two sources forward -/

theorem forwardExec1_some {s : SpRegisters} {src : BitVec 3} (hsrc : 2#3 ≤ src)
    (hact : s.exec1.active = true) (hdst : s.exec1.fields.dst = src) (d : Word) :
    forwardExec1 s d src =
      some (if s.exec1.fields.op = .LD then d else s.exec1.aluout) := by
  rw [forwardExec1, if_pos]
  simp [hact, hdst, hsrc]

theorem forwardExec1_none {s : SpRegisters} {d : Word} {src : BitVec 3}
    (h : ¬(s.exec1.active = true ∧ s.exec1.fields.dst = src)) :
    forwardExec1 s d src = none := by
  rw [forwardExec1, if_neg]
  intro hcond
  simp only [Bool.and_eq_true, beq_iff_eq] at hcond
  exact h ⟨hcond.1.1, hcond.2⟩

/-- EXEC1 forwards the value of a register-writing instruction. -/
theorem Invariant.forwardExec1_writer {imem : Mem} {sp : Sp}
    (h : Invariant imem sp) {src : BitVec 3} (hsrc : 2#3 ≤ src)
    (hact : sp.spro.exec1.active = true) (hdst : sp.spro.exec1.fields.dst = src)
    (hop : sp.spro.exec1.fields.isAlu = true ∨ sp.spro.exec1.fields.op = .LD) :
    forwardExec1 sp.spro sp.sramd.dataout src =
        some (sp.spro.exec1.value sp.sramd.data) := by
  rw [forwardExec1_some hsrc hact hdst, ExecLatch.value]
  by_cases hld : sp.spro.exec1.fields.op = .LD
  · rw [if_pos hld, if_pos hld, h.loaded hact hld]
  · rw [if_neg hld, if_neg hld, h.exec1Alu hact]
    obtain ⟨v, hv⟩ := aluResult_some (hop.resolve_right hld)
      sp.spro.exec1.alu0 sp.spro.exec1.alu1
    rw [hv]
    rfl

/-- For every other instruction it forwards the idle ALU output, zero. -/
theorem Invariant.forwardExec1_nonwriter {imem : Mem} {sp : Sp}
    (h : Invariant imem sp) {src : BitVec 3} (hsrc : 2#3 ≤ src)
    (hact : sp.spro.exec1.active = true) (hdst : sp.spro.exec1.fields.dst = src)
    (halu : sp.spro.exec1.fields.isAlu = false)
    (hld : sp.spro.exec1.fields.op ≠ .LD) :
    forwardExec1 sp.spro sp.sramd.dataout src = some 0 := by
  rw [forwardExec1_some hsrc hact hdst, if_neg hld, h.exec1Alu hact,
    aluResult_none halu]
  rfl

/-- EXEC0 forwards exactly the ALU results that it will write. -/
theorem forwardExec0_eq (s : SpRegisters) (mem : Mem) {src : BitVec 3}
    (hld : s.exec0.active = true → s.exec0.fields.op = .LD →
      s.exec0.fields.dst ≠ src)
    (hbranch : s.exec0.active = true → s.exec0.branch = none) :
    forwardExec0 s src =
      if s.exec0.writes = some src then some (s.exec0.value mem) else none := by
  unfold forwardExec0 ExecLatch.writes ExecLatch.value
  cases hact : s.exec0.active with
  | false => simp
  | true =>
      rw [hbranch hact]
      cases halu : s.exec0.fields.isAlu with
      | true =>
          obtain ⟨v, hv⟩ := aluResult_some halu s.exec0.alu0 s.exec0.alu1
          have hop := (Fields.op_of_isAlu halu).1
          by_cases hdst : 2#3 ≤ s.exec0.fields.dst <;>
            by_cases hsrc : s.exec0.fields.dst = src <;>
              simp [hdst, hsrc, hv, hop]
      | false =>
          have hv := aluResult_none halu s.exec0.alu0 s.exec0.alu1
          by_cases hop : s.exec0.fields.op = .LD
          · have hne := hld hact hop
            simp [hop, hne]
          · simp [hv, hop]

end SuperscalarProcessor.Pipeline
