import SuperscalarProcessor.Foundation.Segments
import SuperscalarProcessor.ProgramRuns

/-!
# Running a program on every simulator at once

A segment of a run of the first simulator, together with what the others ask of
every instruction on the way. The rules below extend a segment by one instruction
of a program that stands at the start of the memory.
-/

namespace SuperscalarProcessor.Programs

open Llsim Foundation Iss

open MultiCycle (Supported usesSrc0 usesSrc1)

/-! ## What is asked of an instruction -/

/-- All simulators execute the instruction to the same effect, unless the pipeline
reads a stale word; it stands at an address with `here`. -/
structure Plain (image : Mem) (here : ℕ → Prop) (s : State) : Prop where
  supported : Supported s
  suits : SuitsPipeline image s
  running : s.fields.op ≠ .HLT
  here : here s.pc.toNat

/-- Every address will do. -/
abbrev Anywhere (_ : ℕ) : Prop := True

/-- The part of this that the word itself tells. -/
def plainFields (f : Fields) : Bool :=
  match f.op with
  | .LHI | .JIN | .DMA_START | .DMA_STATUS => false
  | .LD => f.src1 != 7
  | .ST => f.src0 != 7 && f.src1 != 7 && 2#3 ≤ f.src0
  | .HLT | .U => true
  | _ => f.src0 != 7 && f.src1 != 7

theorem of_plainFields {f : Fields} (h : plainFields f = true) :
    (f.op ≠ .LHI ∧ f.op ≠ .JIN ∧ f.op ≠ .DMA_START ∧ f.op ≠ .DMA_STATUS) ∧
      (usesSrc0 f.op = true → f.src0 ≠ 7) ∧ (usesSrc1 f.op = true → f.src1 ≠ 7) ∧
      (f.op = .ST → 2#3 ≤ f.src0) := by
  unfold plainFields at h
  cases hop : f.op <;> simp [hop, usesSrc0, usesSrc1] at h ⊢ <;> simp [h]

/-- The program stands in the first words of the image, and the pipeline can fetch
ahead of it. -/
structure Resident (code : List Fields) (image : Mem) : Prop where
  installed : Installed code image
  room : code.length + 4 ≤ 65536
  plain : ∀ f ∈ code, plainFields f = true

/-- An image of a program with any data behind it. -/
def withData (words : List Word) (data : Mem) : Mem := fun i => (words[i]?).getD (data i)

theorem withData_of_le {words : List Word} (data : Mem) {i : ℕ} (hi : words.length ≤ i) :
    withData words data i = data i := by
  rw [withData, List.getElem?_eq_none hi]
  rfl

theorem withData_installed {code : List Fields} {words : List Word}
    (h : words.map decode = code) (hfits : words.length ≤ 65536) (data : Mem) :
    Installed code (withData words data) := by
  subst h
  refine ⟨by rwa [List.length_map], ?_⟩
  intro i f hf
  rw [List.getElem?_map, Option.map_eq_some_iff] at hf
  obtain ⟨word, hword, rfl⟩ := hf
  rw [withData, hword]
  rfl

/-- Nothing has been stored into the program. -/
def Intact (code : List Fields) (image mem : Mem) : Prop :=
  ∀ i < code.length, mem i = image i

theorem Intact.refl (code : List Fields) (image : Mem) : Intact code image image :=
  fun _ _ => rfl

theorem Intact.store {code : List Fields} {image mem : Mem} (h : Intact code image mem)
    {addr : ℕ} (haddr : code.length ≤ addr) (v : Word) :
    Intact code image (Function.update mem addr v) := by
  intro i hi
  rw [Function.update_of_ne (by omega)]
  exact h i hi

/-- What the operands have to be. -/
structure Operands (f : Fields) (reg : RegFile) : Prop where
  addr : f.op = .LD ∨ f.op = .ST → (operand reg f.immediate f.src1).toNat < 65536
  shift : f.op = .RSF → (operand reg f.immediate f.src0).msb = false

theorem Operands.of_ne {f : Fields} {reg : RegFile}
    (hop : f.op ≠ .LD ∧ f.op ≠ .ST ∧ f.op ≠ .RSF) : Operands f reg :=
  ⟨fun h => (h.elim hop.1 hop.2.1).elim, fun h => (hop.2.2 h).elim⟩

theorem supported_of_plainFields {s : State} {f : Fields} (hfields : s.fields = f)
    (hpc : s.pc.toNat < 65535) (hplain : plainFields f = true)
    (haddr : f.op = .LD ∨ f.op = .ST → s.val1.toNat < 65536) : Supported s := by
  obtain ⟨hop, hsrc0, hsrc1, hstore⟩ := of_plainFields hplain
  rw [← hfields] at hop hsrc0 hsrc1 hstore haddr
  exact ⟨hop, hsrc0, hsrc1, hstore, haddr, fun hlast => absurd hlast (Nat.ne_of_lt hpc)⟩

/-! ## One instruction -/

section Instruction

variable {code : List Fields} {image mem : Mem} {reg : RegFile} {here : ℕ → Prop}
  {f : Fields} {i : ℕ}

theorem toNat_address {addr : ℕ} (h : addr < 65536) :
    (BitVec.ofNat 32 addr).toNat = addr := by
  rw [BitVec.toNat_ofNat]
  omega

theorem address_succ (addr : ℕ) : BitVec.ofNat 32 addr + 1 = BitVec.ofNat 32 (addr + 1) :=
  (BitVec.ofNat_add addr 1).symm

theorem live_pc (hi : i < 65536) : (live mem reg i).pc.toNat = i := toNat_address hi

theorem Resident.fields (h : Resident code image) (hmem : Intact code image mem)
    (hf : code[i]? = some f) : (live mem reg i).fields = f := by
  have hi := (List.getElem?_eq_some_iff.mp hf).1
  have hroom := h.room
  rw [State.fields, live_pc (by omega)]
  show decode (mem i) = f
  rw [hmem i hi]
  exact h.installed.decodes i f hf

theorem Resident.supported (h : Resident code image) (hmem : Intact code image mem)
    (hf : code[i]? = some f) (hargs : Operands f reg) : Supported (live mem reg i) := by
  have hi := (List.getElem?_eq_some_iff.mp hf).1
  have hroom := h.room
  have hpc : (live mem reg i).pc.toNat = i := live_pc (by omega)
  have hfields : (live mem reg i).fields = f := h.fields hmem hf
  refine supported_of_plainFields hfields (by omega)
    (h.plain f (List.mem_of_getElem? hf)) ?_
  rw [State.val1, hfields]
  exact hargs.addr

theorem Resident.suits (h : Resident code image) (hmem : Intact code image mem)
    (hf : code[i]? = some f) (hargs : Operands f reg) :
    SuitsPipeline image (live mem reg i) := by
  have hi := (List.getElem?_eq_some_iff.mp hf).1
  have hroom := h.room
  have hpc : (live mem reg i).pc.toNat = i := live_pc (by omega)
  refine ⟨?_, ?_, ?_⟩
  · rw [hpc]
    exact hmem i hi
  · rw [hpc]
    show i + 4 < 65536
    omega
  · rw [State.val0, h.fields hmem hf]
    exact fun hop _ => Or.inl (hargs.shift hop)

theorem Resident.isPlain (h : Resident code image) (hmem : Intact code image mem)
    (hf : code[i]? = some f) (hargs : Operands f reg) (hhlt : f.op ≠ .HLT)
    (hhere : here i) : Plain image here (live mem reg i) := by
  have hi := (List.getElem?_eq_some_iff.mp hf).1
  have hroom := h.room
  refine ⟨h.supported hmem hf hargs, h.suits hmem hf hargs, ?_, ?_⟩
  · rw [h.fields hmem hf]
    exact hhlt
  · rw [live_pc (by omega)]
    exact hhere

theorem Resident.step_eq (h : Resident code image) (hmem : Intact code image mem)
    (hf : code[i]? = some f) {s : State} (hexec : exec f (live mem reg i) = .ok s) :
    step (live mem reg i) = some s := by
  have hi := (List.getElem?_eq_some_iff.mp hf).1
  have hroom := h.room
  have hpc : (live mem reg i).pc.toNat = i := live_pc (by omega)
  rw [step, h.fields hmem hf, hexec, if_pos ⟨rfl, by omega⟩]
  rfl

/-- **One instruction in front of a segment.** -/
theorem Resident.cons (h : Resident code image) (hmem : Intact code image mem) (i : ℕ)
    (hf : code[i]? = some f) (hargs : Operands f reg) (hhlt : f.op ≠ .HLT)
    (hhere : here i) {s b : State} {n : ℕ}
    (hexec : exec f (live mem reg i) = .ok s)
    (hrest : Segment step (Plain image here) n s b) :
    Segment step (Plain image here) (n + 1) (live mem reg i) b :=
  Segment.cons (h.isPlain hmem hf hargs hhlt hhere) (h.step_eq hmem hf hexec) hrest

/-- The other instructions than loads, stores, right shifts and HLT. -/
theorem Resident.cons_plain (h : Resident code image) (hmem : Intact code image mem)
    (i : ℕ) (hf : code[i]? = some f)
    (hop : f.op ≠ .LD ∧ f.op ≠ .ST ∧ f.op ≠ .RSF ∧ f.op ≠ .HLT) (hhere : here i)
    {s b : State} {n : ℕ} (hexec : exec f (live mem reg i) = .ok s)
    (hrest : Segment step (Plain image here) n s b) :
    Segment step (Plain image here) (n + 1) (live mem reg i) b :=
  h.cons hmem i hf (.of_ne ⟨hop.1, hop.2.1, hop.2.2.1⟩) hop.2.2.2 hhere hexec hrest

theorem live_succ (mem : Mem) (reg : RegFile) (i : ℕ) :
    (⟨mem, reg, (live mem reg i).pc + 1, false⟩ : State) = live mem reg (i + 1) := by
  rw [live, live, ← address_succ]

theorem exec_result (mem : Mem) (i : ℕ) {v : Word} (hop : hasResult f.op = true)
    (hv : result f.op (operand reg f.immediate f.src0)
      (operand reg f.immediate f.src1) = .ok v) :
    exec f (live mem reg i) = .ok (live mem (Function.update reg f.dst v) (i + 1)) := by
  rw [← live_succ]
  unfold hasResult at hop
  unfold exec
  cases hcase : f.op <;> simp only [hcase, Bool.false_eq_true] at hop hv ⊢
  all_goals simp only [live, hv, Except.map]

theorem operands_of_hasResult (hop : hasResult f.op = true)
    (hshift : f.op = .RSF → (operand reg f.immediate f.src0).msb = false) :
    Operands f reg := by
  refine ⟨?_, hshift⟩
  rintro (hcase | hcase) <;> rw [hcase] at hop <;> cases hop

theorem op_ne_halt {op : Opcode} (h : hasResult op = true) : op ≠ .HLT := by
  rintro rfl
  cases h

/-- ADD to XOR. -/
theorem Resident.cons_result (h : Resident code image) (hmem : Intact code image mem)
    (i : ℕ) (v : Word) (hf : code[i]? = some f) (hop : hasResult f.op = true)
    (hshift : f.op = .RSF → (operand reg f.immediate f.src0).msb = false) (hhere : here i)
    (hv : result f.op (operand reg f.immediate f.src0)
      (operand reg f.immediate f.src1) = .ok v) {b : State} {n : ℕ}
    (hrest : Segment step (Plain image here) n
      (live mem (Function.update reg f.dst v) (i + 1)) b) :
    Segment step (Plain image here) (n + 1) (live mem reg i) b :=
  h.cons hmem i hf (operands_of_hasResult hop hshift) (op_ne_halt hop) hhere
    (exec_result mem i hop hv) hrest

/-- An address is not masked. -/
theorem lowHalf_address {addr : ℕ} (h : addr < 65536) :
    (BitVec.ofNat 32 addr &&& 0xFFFF).toNat = addr := by
  rw [lowHalf_of_lt (by rwa [toNat_address h]), toNat_address h]

theorem Resident.cons_load (h : Resident code image) (hmem : Intact code image mem)
    (i addr : ℕ) (hf : code[i]? = some f) (hop : f.op = .LD) (hhere : here i)
    (haddr : operand reg f.immediate f.src1 = BitVec.ofNat 32 addr)
    (hlt : addr < 65536) {b : State} {n : ℕ}
    (hrest : Segment step (Plain image here) n
      (live mem (Function.update reg f.dst (mem addr)) (i + 1)) b) :
    Segment step (Plain image here) (n + 1) (live mem reg i) b := by
  refine h.cons hmem i hf ⟨?_, by simp [hop]⟩ (by simp [hop]) hhere ?_ hrest
  · rw [haddr, toNat_address hlt]
    exact fun _ => hlt
  · rw [← live_succ, exec, hop]
    simp only [live, haddr, lowHalf_address hlt]

theorem Resident.cons_store (h : Resident code image) (hmem : Intact code image mem)
    (i addr : ℕ) (hf : code[i]? = some f) (hop : f.op = .ST) (hhere : here i)
    (haddr : operand reg f.immediate f.src1 = BitVec.ofNat 32 addr)
    (hlt : addr < 65536) {mem' : Mem} (hmem' : Function.update mem addr (reg f.src0) = mem')
    {b : State} {n : ℕ}
    (hrest : Segment step (Plain image here) n (live mem' reg (i + 1)) b) :
    Segment step (Plain image here) (n + 1) (live mem reg i) b := by
  refine h.cons hmem i hf ⟨?_, by simp [hop]⟩ (by simp [hop]) hhere ?_ hrest
  · rw [haddr, toNat_address hlt]
    exact fun _ => hlt
  · rw [← live_succ, exec, hop, ← hmem']
    simp only [live, haddr, lowHalf_address hlt]

theorem Operands.of_isCondJump (hop : MultiCycle.isCondJump f.op = true) :
    Operands f reg := by
  obtain ⟨-, hld, hst, -, -, -⟩ := MultiCycle.op_of_isCondJump hop
  refine .of_ne ⟨hld, hst, ?_⟩
  rintro hrsf
  rw [hrsf] at hop
  cases hop

/-- A conditional jump, to address `j` if it is taken. -/
theorem Resident.cons_jump (h : Resident code image) (hmem : Intact code image mem)
    (i j : ℕ) (hf : code[i]? = some f) (hop : MultiCycle.isCondJump f.op = true)
    (hhere : here i)
    (hj : f.op.condHolds (operand reg f.immediate f.src0)
          (operand reg f.immediate f.src1) = true ∧
        f.immediate &&& 0xFFFF = BitVec.ofNat 32 j ∨
      f.op.condHolds (operand reg f.immediate f.src0)
          (operand reg f.immediate f.src1) = false ∧ j = i + 1)
    {b : State} {n : ℕ} (hrest : Segment step (Plain image here) n (live mem reg j) b) :
    Segment step (Plain image here) (n + 1) (live mem reg i) b := by
  obtain ⟨-, -, -, hhlt, -, -⟩ := MultiCycle.op_of_isCondJump hop
  have hexec : exec f (live mem reg i) = .ok
      (if f.op.condHolds (operand reg f.immediate f.src0)
        (operand reg f.immediate f.src1) then
          { live mem reg i with pc := f.immediate &&& 0xFFFF }
        else { live mem reg i with pc := (live mem reg i).pc + 1 }) := by
    unfold MultiCycle.isCondJump at hop
    unfold exec
    cases hcase : f.op <;> simp only [hcase, Bool.false_eq_true] at hop ⊢ <;> rfl
  refine h.cons hmem i hf (.of_isCondJump hop) hhlt hhere ?_ hrest
  rw [hexec]
  rcases hj with ⟨hcond, htarget⟩ | ⟨hcond, rfl⟩
  · rw [if_pos hcond, htarget]
    rfl
  · rw [hcond, if_neg Bool.false_ne_true, ← live_succ]
    rfl

/-- HLT behind the segment. -/
theorem Resident.supportedRun (h : Resident code image) (hmem : Intact code image mem)
    (hf : code[i]? = some f) (hop : f.op = .HLT) {n : ℕ}
    (hrun : Segment step (Plain image here) n (init image) (live mem reg i)) :
    ∃ s', SupportedRun image n (live mem reg i) s' ∧ s'.mem = mem := by
  have hi := (List.getElem?_eq_some_iff.mp hf).1
  have hroom := h.room
  have hpc : (live mem reg i).pc.toNat = i := live_pc (by omega)
  have hstep : step (live mem reg i) =
      some { live mem reg i with pc := (live mem reg i).pc + 1, halted := true } := by
    rw [step, h.fields hmem hf, if_pos ⟨rfl, by omega⟩, exec, hop]
    rfl
  refine ⟨_, ⟨?_, hrun.run, rfl, hstep, rfl⟩, rfl⟩
  exact fun k a hk ha => (hrun.all k a hk ha).supported

end Instruction

/-! ## Whole programs -/

/-- The program ends behind `n` instructions and HLT, on both versions of the ISS and
on the multi-cycle processor, with `out`. -/
structure SequentialDumps (image : Mem) (n : ℕ) (out : Dump) : Prop where
  earlier : DumpsAfter step image (n + 1) out
  later : DumpsAfter Iss.step image (n + 1) out
  multiCycle : MultiCycle.DumpsAt image (6 + 6 * n) out

theorem Resident.sequentialDumps {code : List Fields} {image mem : Mem} {reg : RegFile}
    {here : ℕ → Prop} {f : Fields} {i n : ℕ} (h : Resident code image)
    (hmem : Intact code image mem) (hf : code[i]? = some f) (hop : f.op = .HLT)
    (hrun : Segment step (Plain image here) n (init image) (live mem reg i)) :
    SequentialDumps image n (memoryDump mem) := by
  obtain ⟨s', hends, rfl⟩ := h.supportedRun hmem hf hop hrun
  exact ⟨hends.earlier_dumpsAfter, hends.later_dumpsAfter, hends.multiCycle_dumpsAt⟩

end SuperscalarProcessor.Programs
