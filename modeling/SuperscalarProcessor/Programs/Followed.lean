import SuperscalarProcessor.Programs.Resident

/-!
# Running a program with LHI

The earlier simulator merges LHI into its destination, so a program that sets
registers with the later LHI runs on the later simulator and the multi-cycle
processor only. The rules for its segments are those of `Resident`.
-/

namespace SuperscalarProcessor.Programs

open Llsim Foundation Iss

open MultiCycle (Followed TransferAgrees)

/-- The program stands in the first words of the memory. -/
structure Standing (code : List Fields) (mem : Mem) : Prop where
  installed : Installed code mem
  room : code.length ≤ 65535
  plain : ∀ f ∈ code, plainFields f = true ∨ f.op = .LHI

section Instruction

variable {code : List Fields} {mem : Mem} {reg : RegFile} {f : Fields} {i n : ℕ}
  {b : State}

theorem Standing.store (h : Standing code mem) {addr : ℕ} (haddr : code.length ≤ addr)
    (v : Word) : Standing code (Function.update mem addr v) :=
  ⟨h.installed.store haddr v, h.room, h.plain⟩

theorem Standing.pc (h : Standing code mem) (hf : code[i]? = some f) :
    i < 65535 ∧ (live mem reg i).pc.toNat = i := by
  have hi := (List.getElem?_eq_some_iff.mp hf).1
  have hroom := h.room
  exact ⟨by omega, live_pc (by omega)⟩

theorem Standing.fields (h : Standing code mem) (hf : code[i]? = some f) :
    (live mem reg i).fields = f := by
  rw [State.fields, (h.pc hf).2]
  exact h.installed.decodes i f hf

/-- What is no LHI is supported if its address is in the memory. -/
theorem Standing.followed (h : Standing code mem) (hf : code[i]? = some f)
    (hop : f.op ≠ .LHI) (haddr : f.op = .LD ∨ f.op = .ST →
      (operand reg f.immediate f.src1).toNat < 65536) : Followed (live mem reg i) := by
  have hfields : (live mem reg i).fields = f := h.fields hf
  have hpc : i < 65535 ∧ (live mem reg i).pc.toNat = i := h.pc hf
  refine Or.inl (supported_of_plainFields hfields (hpc.2.symm ▸ hpc.1)
    ((h.plain f (List.mem_of_getElem? hf)).resolve_right hop) ?_)
  rw [State.val1, hfields]
  exact haddr

/-- **One instruction in front of a segment.** -/
theorem Standing.cons (h : Standing code mem) (hf : code[i]? = some f) {s : State}
    (hfollowed : Followed (live mem reg i)) (hit : iteration (live mem reg i) = .ok s)
    (hrest : Segment Iss.step Followed n s b) :
    Segment Iss.step Followed (n + 1) (live mem reg i) b := by
  have hpc : i < 65535 ∧ (live mem reg i).pc.toNat = i := h.pc hf
  refine Segment.cons hfollowed ?_ hrest
  rw [Iss.step, hit, if_pos ⟨rfl, by omega⟩]
  rfl

/-- The instructions that write a result, LHI among them. -/
theorem iteration_result (hfields : (live mem reg i).fields = f) (halu : f.isAlu = true)
    {v : Word} (hv : result f.op (operand reg f.immediate f.src0)
      (operand reg f.immediate f.src1) = .ok v) :
    iteration (live mem reg i) = .ok (live mem (Function.update reg f.dst v) (i + 1)) := by
  rw [iteration_alu (by rw [hfields]; exact halu), State.val0, State.val1, hfields,
    ← live_succ]
  show (result f.op (operand reg f.immediate f.src0)
    (operand reg f.immediate f.src1)).map _ = _
  rw [hv]
  rfl

theorem isAlu_of_hasResult (hop : hasResult f.op = true) : f.isAlu = true := by
  unfold hasResult at hop
  unfold Fields.isAlu
  cases hcase : f.op <;> simp only [hcase, Bool.false_eq_true] at hop ⊢

/-- ADD to XOR. -/
theorem Standing.cons_result (h : Standing code mem) (i : ℕ) (v : Word)
    (hf : code[i]? = some f) (hop : hasResult f.op = true)
    (hv : result f.op (operand reg f.immediate f.src0)
      (operand reg f.immediate f.src1) = .ok v)
    (hrest : Segment Iss.step Followed n
      (live mem (Function.update reg f.dst v) (i + 1)) b) :
    Segment Iss.step Followed (n + 1) (live mem reg i) b := by
  refine h.cons hf (h.followed hf ?_ ?_)
    (iteration_result (h.fields hf) (isAlu_of_hasResult hop) hv) hrest
  · rintro hlhi
    rw [hlhi] at hop
    cases hop
  · rintro (hcase | hcase) <;> rw [hcase] at hop <;> cases hop

/-- LHI to the same effect on both sides. -/
theorem Standing.cons_lhi (h : Standing code mem) (i : ℕ) (v : Word)
    (hf : code[i]? = some f) (hop : f.op = .LHI)
    (hsame : operand reg f.immediate f.src0 &&& 0xFFFF = 0 ∧
      operand reg f.immediate f.src1 &&& 0xFFFF = f.immediate &&& 0xFFFF)
    (hv : f.immediate <<< 16 = v)
    (hrest : Segment Iss.step Followed n
      (live mem (Function.update reg f.dst v) (i + 1)) b) :
    Segment Iss.step Followed (n + 1) (live mem reg i) b := by
  have hfields : (live mem reg i).fields = f := h.fields hf
  have hpc : i < 65535 ∧ (live mem reg i).pc.toNat = i := h.pc hf
  have hagrees : TransferAgrees (live mem reg i) := by
    unfold TransferAgrees
    rw [State.val0, State.val1, hfields, hop]
    exact hsame
  refine h.cons hf (Or.inr ⟨hfields ▸ hop, hpc.2.symm ▸ hpc.1, hagrees⟩)
    (iteration_result hfields (by rw [Fields.isAlu, hop]) ?_) hrest
  have hzero : (0 : Word) &&& 0xFFFF = 0 := rfl
  have hshift : f.immediate <<< 16 ||| ((0 : Word) &&& 0xFFFF) = v := by
    rw [hzero, hv]
    exact BitVec.or_zero
  rw [hop, ← hshift]
  exact congrArg Except.ok (Llsim.halves_eq_iff.mpr ⟨hsame.2, hsame.1⟩)

theorem Standing.cons_load (h : Standing code mem) (i addr : ℕ)
    (hf : code[i]? = some f) (hop : f.op = .LD)
    (haddr : operand reg f.immediate f.src1 = BitVec.ofNat 32 addr)
    (hlt : addr < 65536)
    (hrest : Segment Iss.step Followed n
      (live mem (Function.update reg f.dst (mem addr)) (i + 1)) b) :
    Segment Iss.step Followed (n + 1) (live mem reg i) b := by
  have hfields : (live mem reg i).fields = f := h.fields hf
  refine h.cons hf (h.followed hf (by simp [hop]) ?_) ?_ hrest
  · rw [haddr, toNat_address hlt]
    exact fun _ => hlt
  · rw [← live_succ, iteration, State.val1, hfields, hop]
    simp only [live, haddr, lowHalf_address hlt]

theorem Standing.cons_store (h : Standing code mem) (i addr : ℕ)
    (hf : code[i]? = some f) (hop : f.op = .ST)
    (haddr : operand reg f.immediate f.src1 = BitVec.ofNat 32 addr)
    (hlt : addr < 65536)
    (hrest : Segment Iss.step Followed n
      (live (Function.update mem addr (reg f.src0)) reg (i + 1)) b) :
    Segment Iss.step Followed (n + 1) (live mem reg i) b := by
  have hfields : (live mem reg i).fields = f := h.fields hf
  refine h.cons hf (h.followed hf (by simp [hop]) ?_) ?_ hrest
  · rw [haddr, toNat_address hlt]
    exact fun _ => hlt
  · rw [← live_succ, iteration, State.val1, hfields, hop]
    simp only [live, haddr, lowHalf_address hlt]

/-- A conditional jump: to address `j`, with the return address in r7, or on. -/
theorem Standing.cons_jump (h : Standing code mem) (i j : ℕ)
    (hf : code[i]? = some f) (hop : MultiCycle.isCondJump f.op = true)
    (hj : f.immediate &&& 0xFFFF = BitVec.ofNat 32 j)
    (hrest : Segment Iss.step Followed n
      (if f.op.condHolds (operand reg f.immediate f.src0)
          (operand reg f.immediate f.src1) then
        live mem (Function.update reg 7 (BitVec.ofNat 32 (i + 1))) j
      else live mem reg (i + 1)) b) :
    Segment Iss.step Followed (n + 1) (live mem reg i) b := by
  have hfields : (live mem reg i).fields = f := h.fields hf
  obtain ⟨hlhi, hld, hst, -, -, -⟩ := MultiCycle.op_of_isCondJump hop
  refine h.cons hf (h.followed hf hlhi fun hmem => (hmem.elim hld hst).elim) ?_ hrest
  rw [MultiCycle.iteration_jump (by rw [hfields]; exact hop), State.val0, State.val1,
    hfields]
  show Except.ok (if f.op.condHolds (operand reg f.immediate f.src0)
    (operand reg f.immediate f.src1) then _ else _) = _
  refine congrArg Except.ok (if_congr Iff.rfl ?_ ?_)
  · show (⟨mem, Function.update reg 7 (BitVec.ofNat 32 i + 1), f.immediate &&& 0xFFFF,
      false⟩ : State) = _
    rw [hj, address_succ]
    rfl
  · exact live_succ mem reg i

end Instruction

/-! ## Whole programs -/

/-- HLT behind a segment: the dumps of the later simulator and of the multi-cycle
processor. -/
theorem Standing.dumps {code : List Fields} {image mem : Mem} {reg : RegFile}
    {f : Fields} {i n : ℕ} (h : Standing code mem) (hf : code[i]? = some f)
    (hop : f.op = .HLT)
    (hrun : Segment Iss.step Followed n (init image) (live mem reg i)) :
    DumpsAfter Iss.step image (n + 1) (memoryDump mem) ∧
      MultiCycle.DumpsAt image (6 + 6 * n) (memoryDump mem) := by
  have hfields : (live mem reg i).fields = f := h.fields hf
  have hpc : i < 65535 ∧ (live mem reg i).pc.toNat = i := h.pc hf
  constructor
  · have hlast : Iss.step (live mem reg i) =
        some { live mem reg i with pc := (live mem reg i).pc + 1, halted := true } := by
      rw [Iss.step, if_pos ⟨rfl, by omega⟩, iteration, hfields, hop]
      rfl
    refine ⟨_, (runFor_succ_of_eq hrun.run).trans hlast, ?_, rfl⟩
    intro hrunning
    cases hrunning.1
  · obtain ⟨sp, ha, hagree⟩ := agrees_of_followed hrun.all hrun.run rfl
    have hmem : sp.arch.mem = mem := hagree.mem
    rw [← hmem]
    exact MultiCycle.dumpsAt_of_haltsAt ha
      (haltsAt_of_agrees hagree (hfields.symm ▸ hop))

end SuperscalarProcessor.Programs
