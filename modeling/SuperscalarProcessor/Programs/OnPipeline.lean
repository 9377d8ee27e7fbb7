import SuperscalarProcessor.Pipeline.StaticHazards
import SuperscalarProcessor.Programs.Resident

/-!
# Segments on the pipeline

At an address that ends no conflict the pipeline does what the first simulator
does, whatever it has done before. A segment of the simulator whose addresses are
of this kind is therefore one of the pipeline.
-/

namespace SuperscalarProcessor.Programs

open Llsim Foundation Iss

open MultiCycle (Supported usesSrc0 usesSrc1)

open Pipeline (Arch ExecLatch seqNext HazardAt Windowed Bypass bypassTrace bypassInit)

/-- The instruction at `p` ends no conflict. -/
def Clear (image : Mem) (p : ℕ) : Prop := ∀ q, p = q + 2 → ¬HazardAt image q

instance (image : Mem) (p : ℕ) : Decidable (Clear image p) :=
  decidable_of_iff (2 ≤ p → ¬HazardAt image (p - 2))
    ⟨fun h q hq => by subst hq; exact h (Nat.le_add_left 2 q), fun h hp => h _ (by omega)⟩

/-- The words up to `p` decide. -/
theorem clear_withData {words : List Word} {p : ℕ} (hp : p < words.length) (data : Mem)
    (h : Clear (withData words fun _ => 0) p) : Clear (withData words data) p := by
  intro q hq hazard
  have hword : ∀ i ≤ p, withData words data i = withData words (fun _ => 0) i := by
    intro i hi
    rw [withData, withData, List.getElem?_eq_getElem (Nat.lt_of_le_of_lt hi hp)]
    rfl
  refine h q hq ?_
  rw [HazardAt, hword q (by omega), hword (q + 1) (by omega), hword (q + 2) (by omega)]
    at hazard
  exact hazard

/-! ## One instruction -/

/-- The same state, but for the registers that no operand names. -/
structure Near (s : State) (a : Arch) : Prop where
  pc : a.pc = s.pc
  regs : ∀ i, 2#3 ≤ i → i ≠ 7 → a.r i = s.reg i
  mem : a.mem = s.mem

section Instruction

variable {image : Mem} {here : ℕ → Prop} {s s' : State} {a : Arch}

theorem Near.decoded (h : Near s a) (hsuits : SuitsPipeline image s) :
    a.decoded image = s.fields := by
  show Pipeline.decodeFields (image a.pc.toNat) = decode (s.mem s.pc.toNat)
  rw [decodeFields_eq, MultiCycle.decodeFields_eq_decode, h.pc, hsuits.word]

theorem Near.fields (h : Near s a) (hs : Plain image here s) :
    (a.fetch image).fields = s.fields := h.decoded hs.suits

theorem Near.operand (h : Near s a) {src : BitVec 3} (hsrc : src ≠ 7)
    (immediate : Word) : operand a.r immediate src = operand s.reg immediate src :=
  operand_congr fun htwo => h.regs src htwo hsrc

theorem Near.alu0 (h : Near s a) (hs : Plain image here s)
    (huse : usesSrc0 s.fields.op = true) : (a.fetch image).alu0 = s.val0 := by
  show SuperscalarProcessor.operand a.r (a.fetch image).fields.immediate
    (a.fetch image).fields.src0 = _
  rw [h.fields hs, h.operand (hs.supported.src0 huse)]
  rfl

theorem Near.alu1 (h : Near s a) (hs : Plain image here s)
    (huse : usesSrc1 s.fields.op = true) : (a.fetch image).alu1 = s.val1 := by
  show SuperscalarProcessor.operand a.r (a.fetch image).fields.immediate
    (a.fetch image).fields.src1 = _
  rw [h.fields hs, h.operand (hs.supported.src1 huse)]
  rfl

theorem shiftAmount_map {amount v : Word} {shift : ℕ → Word}
    (h : (shiftAmount amount).map shift = .ok v) :
    amount.toNat < 32 ∧ v = shift amount.toNat := by
  unfold shiftAmount at h
  split_ifs at h with hlt
  · exact ⟨hlt, (Except.ok.inj h).symm⟩
  · cases h

/-- Both ALUs agree on what is written. -/
theorem aluResult_of_result {f : Fields} (hop : hasResult f.op = true) {x y v : Word}
    (hv : result f.op x y = .ok v) (hshift : f.op = .RSF → x.msb = false ∨ y = 0) :
    Pipeline.aluResult f x y = some v := by
  unfold hasResult at hop
  unfold result at hv
  unfold Pipeline.aluResult
  cases hcase : f.op <;> simp only [hcase, Bool.false_eq_true] at hop hv hshift ⊢
  case LSF | RSF =>
    obtain ⟨hlt, rfl⟩ := shiftAmount_map hv
    rw [shiftMask_of_lt hlt]
    try rw [(shiftRight_eq_iff hlt).mpr (hshift trivial)]
  all_goals exact congrArg some (Except.ok.inj hv)

/-- A result written on both sides. -/
theorem Near.write (h : Near s a) {e : ExecLatch} {v : Word}
    (hwrites : e.writes = if 2#3 ≤ e.fields.dst then some e.fields.dst else none)
    (hvalue : 2#3 ≤ e.fields.dst → e.value a.mem = v) {i : BitVec 3} (htwo : 2#3 ≤ i)
    (hlink : i ≠ 7) : e.apply a.mem a.r i = Function.update s.reg e.fields.dst v i := by
  by_cases hi : i = e.fields.dst
  · subst hi
    rw [if_pos htwo] at hwrites
    rw [ExecLatch.apply_of_writes hwrites, Function.update_self]
    exact hvalue htwo
  · rw [Function.update_of_ne hi, ExecLatch.apply_of_ne]
    · exact h.regs i htwo hlink
    · intro hw
      rw [hw] at hwrites
      split_ifs at hwrites
      exact hi (Option.some.inj hwrites)

/-- Stores and U leave the registers alone. -/
theorem Near.unwritten (h : Near s a) (hs : Plain image here s)
    (hop : s.fields.op = .ST ∨ s.fields.op = .U) (i : BitVec 3) (htwo : 2#3 ≤ i)
    (hlink : i ≠ 7) : (a.fetch image).apply a.mem a.r i = s.reg i := by
  have hfields : (a.fetch image).fields = s.fields := h.fields hs
  rw [ExecLatch.apply_of_ne]
  · exact h.regs i htwo hlink
  · rcases hop with hop | hop <;>
      simp [ExecLatch.writes, ExecLatch.branch, Pipeline.branchOf, hfields, hop,
        Fields.isAlu]

/-- No jump, no store. -/
theorem Near.advance (h : Near s a) (hs : Plain image here s) {reg : RegFile}
    (hcond : s.fields.op.condHolds (a.fetch image).alu0 (a.fetch image).alu1 = false)
    {mem : Mem} (hmem : Pipeline.memoryAfter (a.fetch image) a.mem = mem)
    (hregs : ∀ i, 2#3 ≤ i → i ≠ 7 → (a.fetch image).apply a.mem a.r i = reg i) :
    Near ⟨mem, reg, s.pc + 1, s.halted⟩ (seqNext image a) := by
  refine ⟨?_, hregs, hmem⟩
  show (a.fetch image).successorPc = s.pc + 1
  rw [ExecLatch.successorPc, h.fields hs, hcond, if_neg Bool.false_ne_true,
    if_neg hs.supported.op.2.1, ← h.pc]
  rfl

theorem Near.memory (h : Near s a) (hs : Plain image here s) (hop : s.fields.op ≠ .ST) :
    Pipeline.memoryAfter (a.fetch image) a.mem = s.mem := by
  rw [Pipeline.memoryAfter, h.fields hs, beq_eq_false_iff_ne.mpr hop, Bool.and_false,
    if_neg Bool.false_ne_true, h.mem]

theorem Near.next_alu (h : Near s a) (hs : Plain image here s)
    (hop : hasResult s.fields.op = true) {v : Word}
    (hv : result s.fields.op s.val0 s.val1 = .ok v) :
    Near ⟨s.mem, Function.update s.reg s.fields.dst v, s.pc + 1, s.halted⟩
      (seqNext image a) := by
  obtain ⟨halu, huse0, huse1, hnojump⟩ : s.fields.isAlu = true ∧
      usesSrc0 s.fields.op = true ∧ usesSrc1 s.fields.op = true ∧
      ∀ x y, s.fields.op.condHolds x y = false := by
    unfold hasResult at hop
    unfold Fields.isAlu
    cases hcase : s.fields.op <;>
      simp [hcase, usesSrc0, usesSrc1, Opcode.condHolds] at hop ⊢
  have hfields : (a.fetch image).fields = s.fields := h.fields hs
  obtain ⟨hld, hst, -⟩ := Fields.op_of_isAlu halu
  refine h.advance hs (hnojump _ _) (h.memory hs hst) ?_
  intro i htwo hlink
  rw [← hfields]
  refine h.write ?_ ?_ htwo hlink
  · rw [ExecLatch.writes, hfields, halu]
    rfl
  · intro hdst
    rw [hfields] at hdst
    rw [ExecLatch.value, hfields, if_neg hld, h.alu0 hs huse0, h.alu1 hs huse1,
      aluResult_of_result hop hv fun hrsf => hs.suits.shift hrsf hdst]
    rfl

theorem Near.next_load (h : Near s a) (hs : Plain image here s)
    (hop : s.fields.op = .LD) :
    Near ⟨s.mem, Function.update s.reg s.fields.dst (s.mem (s.val1 &&& 0xFFFF).toNat),
      s.pc + 1, s.halted⟩ (seqNext image a) := by
  have hfields : (a.fetch image).fields = s.fields := h.fields hs
  have halu1 : (a.fetch image).alu1 = s.val1 := h.alu1 hs (by rw [hop]; rfl)
  have haddr : s.val1 &&& 0xFFFF = s.val1 :=
    lowHalf_of_lt (hs.supported.addr (Or.inl hop))
  refine h.advance hs (by rw [hop]; rfl) (h.memory hs (by simp [hop])) ?_
  intro i htwo hlink
  rw [← hfields, haddr]
  refine h.write ?_ ?_ htwo hlink
  · have hact : (a.fetch image).active = true := rfl
    simp [ExecLatch.writes, hact, hfields, hop]
  · intro _
    rw [ExecLatch.value, hfields, if_pos hop, halu1, h.mem]

theorem Near.next_store (h : Near s a) (hs : Plain image here s)
    (hop : s.fields.op = .ST) :
    Near ⟨Function.update s.mem (s.val1 &&& 0xFFFF).toNat (s.reg s.fields.src0), s.reg,
      s.pc + 1, s.halted⟩ (seqNext image a) := by
  have hfields : (a.fetch image).fields = s.fields := h.fields hs
  have halu0 : (a.fetch image).alu0 = s.reg s.fields.src0 :=
    (h.alu0 hs (by rw [hop]; rfl)).trans (operand_of_two_le (hs.supported.storeSrc hop))
  have halu1 : (a.fetch image).alu1 = s.val1 := h.alu1 hs (by rw [hop]; rfl)
  have haddr : s.val1 &&& 0xFFFF = s.val1 :=
    lowHalf_of_lt (hs.supported.addr (Or.inr hop))
  refine h.advance hs (by rw [hop]; rfl) ?_ (h.unwritten hs (Or.inl hop))
  rw [Pipeline.memoryAfter, hfields, hop, halu0, halu1, haddr, h.mem]
  rfl

/-- A jump on the operands that it has latched; it saves its address in r7, which
no operand names. -/
theorem Near.jump (h : Near s a) {e : ExecLatch} (hfields : e.fields = s.fields)
    (hpc : e.pc = a.pc) (hop : MultiCycle.isCondJump s.fields.op = true) :
    Near (if s.fields.op.condHolds e.alu0 e.alu1 then
        { s with pc := s.fields.immediate &&& 0xFFFF } else { s with pc := s.pc + 1 })
      (e.effect a) := by
  obtain ⟨hnoalu, hld, hst, hjin⟩ : s.fields.isAlu = false ∧ s.fields.op ≠ .LD ∧
      s.fields.op ≠ .ST ∧ s.fields.op ≠ .JIN := by
    unfold MultiCycle.isCondJump at hop
    cases hcase : s.fields.op <;> simp [hcase, Fields.isAlu] at hop ⊢
  have hnext : (e.effect a).pc = if s.fields.op.condHolds e.alu0 e.alu1 then
      s.fields.immediate &&& 0xFFFF else s.pc + 1 := by
    show e.successorPc = _
    rw [ExecLatch.successorPc, hfields, if_neg hjin, hpc, h.pc]
  have hregs : ∀ i, 2#3 ≤ i → i ≠ 7 → (e.effect a).r i = s.reg i := by
    intro i htwo hlink
    show e.apply a.mem a.r i = s.reg i
    rw [ExecLatch.apply_of_ne]
    · exact h.regs i htwo hlink
    · unfold ExecLatch.writes
      rw [hfields, hnoalu, beq_eq_false_iff_ne.mpr hld]
      cases e.active <;> cases e.branch <;> simp
      exact Ne.symm hlink
  have hmem : (e.effect a).mem = s.mem := by
    show Pipeline.memoryAfter e a.mem = _
    rw [Pipeline.memoryAfter, hfields, beq_eq_false_iff_ne.mpr hst, Bool.and_false,
      if_neg Bool.false_ne_true, h.mem]
  cases hcond : s.fields.op.condHolds e.alu0 e.alu1 <;> rw [hcond] at hnext
  · exact ⟨hnext, hregs, hmem⟩
  · exact ⟨hnext, hregs, hmem⟩

theorem Near.next_jump (h : Near s a) (hs : Plain image here s)
    (hop : MultiCycle.isCondJump s.fields.op = true) :
    Near (if s.fields.op.condHolds s.val0 s.val1 then
        { s with pc := s.fields.immediate &&& 0xFFFF } else { s with pc := s.pc + 1 })
      (seqNext image a) := by
  obtain ⟨-, -, -, -, huse0, huse1⟩ := MultiCycle.op_of_isCondJump hop
  rw [← h.alu0 hs huse0, ← h.alu1 hs huse1]
  exact h.jump (h.fields hs) rfl hop

/-- **The pipeline's effect on an instruction is the simulator's.** -/
theorem Near.next (h : Near s a) (hs : Plain image here s) (hstep : step s = some s') :
    Near s' (seqNext image a) := by
  unfold step at hstep
  split_ifs at hstep with hrun
  unfold exec at hstep
  cases hop : s.fields.op <;> simp only [hop] at hstep
  case LHI => exact absurd hop hs.supported.op.1
  case JIN => exact absurd hop hs.supported.op.2.1
  case DMA_START => exact absurd hop hs.supported.op.2.2.1
  case DMA_STATUS => exact absurd hop hs.supported.op.2.2.2
  case HLT => exact absurd hop hs.running
  case U =>
    obtain rfl := Option.some.inj hstep
    exact h.advance hs (by rw [hop]; rfl) (h.memory hs (by simp [hop]))
      (h.unwritten hs (Or.inr hop))
  case LD =>
    obtain rfl := Option.some.inj hstep
    exact h.next_load hs hop
  case ST =>
    obtain rfl := Option.some.inj hstep
    exact h.next_store hs hop
  case JLT | JLE | JEQ | JNE =>
    obtain rfl := Option.some.inj hstep
    have hjump := h.next_jump hs (by rw [hop]; rfl)
    rw [hop] at hjump
    exact hjump
  all_goals
    obtain ⟨v, hv, rfl⟩ := toOption_map_eq_some hstep
    exact h.next_alu hs (by rw [hop]; rfl) (by rw [hop]; exact hv)

end Instruction

/-! ## Runs -/

/-- The pipeline is before its instruction `k` and shows `s`. -/
structure PipelineAt (image : Mem) (s : State) (k : ℕ) : Prop where
  before : ∀ j < k, (bypassTrace image image j).halted image = false ∧
    (bypassTrace image image j).Fits image
  near : Near s (bypassTrace image image k).arch
  window : Windowed image (bypassTrace image image k)

theorem running_of_step {s s' : State} (h : step s = some s') : running s := by
  unfold step at h
  split_ifs at h with hrun
  exact hrun

section Runs

variable {image : Mem} {here : ℕ → Prop} {s s' : State} {k n : ℕ}

theorem PipelineAt.init (image : Mem) : PipelineAt image (init image) 0 where
  before _ hj := absurd hj (Nat.not_lt_zero _)
  near := ⟨rfl, fun _ _ _ => rfl, rfl⟩
  window := .init image image

/-- One more instruction, whatever operands it has latched. -/
theorem PipelineAt.succ (h : PipelineAt image s k) (hs : Plain image here s)
    (hdata : ((bypassTrace image image k).issue image).accesses = true →
      InRange ((bypassTrace image image k).issue image).alu1)
    (htraced : (bypassTrace image image k).TraceInside image)
    (hnear : Near s' ((bypassTrace image image k).next image).arch) :
    PipelineAt image s' (k + 1) := by
  have hfields : ((bypassTrace image image k).arch.fetch image).fields = s.fields :=
    h.near.fields hs
  have hroom : (bypassTrace image image k).arch.pc.toNat + 4 < spSramHeight := by
    rw [h.near.pc]
    exact hs.suits.room
  refine ⟨?_, ?_, ?_⟩
  · intro j hj
    rcases Nat.lt_succ_iff_lt_or_eq.mp hj with hj | rfl
    · exact h.before j hj
    · refine ⟨?_, hroom, hdata, htraced⟩
      show (((bypassTrace image image j).arch.fetch image).fields.op == .HLT) = false
      rw [hfields]
      exact beq_eq_false_iff_ne.mpr hs.running
  · rw [Pipeline.bypassTrace_succ]
    exact hnear
  · rw [Pipeline.bypassTrace_succ]
    refine h.window.next ?_
    have : spSramHeight = 65536 := rfl
    omega

/-- The data address of a plain instruction is within the memory. -/
theorem Near.data {a : Arch} (h : Near s a) (hs : Plain image here s)
    (hacc : (a.fetch image).accesses = true) : InRange (a.fetch image).alu1 := by
  have hfields : (a.fetch image).fields = s.fields := h.fields hs
  simp only [ExecLatch.accesses, hfields, Bool.and_eq_true, Bool.or_eq_true,
    beq_iff_eq] at hacc
  rw [h.alu1 hs (by rcases hacc.2 with hop | hop <;> rw [hop] <;> rfl)]
  exact inRange_iff.mpr (hs.supported.addr hacc.2)

theorem PipelineAt.issue (h : PipelineAt image s k) (hclear : Clear image s.pc.toNat) :
    (bypassTrace image image k).issue image =
      (bypassTrace image image k).arch.fetch image := by
  refine h.window.issue_eq_fetch ?_
  rw [h.near.pc]
  exact hclear

theorem PipelineAt.next (h : PipelineAt image s k) (hs : Plain image (Clear image) s)
    (hstep : step s = some s') : PipelineAt image s' (k + 1) := by
  have hissue := h.issue hs.here
  have hdata : ((bypassTrace image image k).issue image).accesses = true →
      InRange ((bypassTrace image image k).issue image).alu1 := by
    rw [hissue]
    exact h.near.data hs
  refine h.succ hs hdata (Pipeline.traceInside_of_fetch hissue hdata) ?_
  · show Near s' (((bypassTrace image image k).issue image).effect _)
    rw [hissue]
    exact h.near.next hs hstep

/-- **A segment on the pipeline.** -/
theorem PipelineAt.segment (h : PipelineAt image s k)
    (hrun : Segment step (Plain image (Clear image)) n s s') :
    PipelineAt image s' (k + n) :=
  @Segment.keeps _ _ _ (fun j a => PipelineAt image a j)
    (fun _ _ _ ha hab h => h.next ha hab) k n s s' hrun h

/-- **At HLT the pipeline dumps what it shows.** -/
theorem PipelineAt.dumpsAt (h : PipelineAt image s k) (hsuits : SuitsPipeline image s)
    (hop : s.fields.op = .HLT) :
    Pipeline.DumpsAt image image (Pipeline.bypassClock image image k)
      (memoryDump s.mem) := by
  have hfields := h.near.decoded hsuits
  have hruns : Pipeline.BypassRuns image image k (bypassTrace image image k) := by
    refine ⟨Pipeline.bypassState_iff.mpr ⟨fun j hj => (h.before j hj).1, rfl⟩, ?_⟩
    intro j hj
    rcases Nat.eq_or_lt_of_le hj with rfl | hlt
    · have hissue : ((bypassTrace image image j).issue image).fields = s.fields :=
        hfields
      refine ⟨?_, ?_, ?_⟩
      · rw [h.near.pc]
        exact hsuits.room
      · intro hacc
        simp [ExecLatch.accesses, hissue, hop] at hacc
      · intro hload
        rw [hissue, hop] at hload
        cases hload
    · exact (h.before j hlt).2
  rw [← h.near.mem]
  refine hruns.dumpsAt ?_
  show ((bypassTrace image image k).arch.decoded image).op == .HLT
  rw [hfields, hop]
  rfl

/-- HLT of a program. -/
theorem Resident.pipeline_dumpsAt {code : List Fields} {mem : Mem} {reg : RegFile}
    {f : Fields} {i : ℕ} (h : Resident code image) (hmem : Intact code image mem)
    (hf : code[i]? = some f) (hop : f.op = .HLT)
    (hat : PipelineAt image (live mem reg i) k) :
    Pipeline.DumpsAt image image (Pipeline.bypassClock image image k)
      (memoryDump mem) := by
  refine hat.dumpsAt (h.suits hmem hf (.of_ne (by simp [hop]))) ?_
  rw [h.fields hmem hf]
  exact hop

/-! ## Programs that do not end -/

/-- No simulator ever stops. -/
structure NeverEnds (image : Mem) : Prop where
  earlier : ∀ n, ∃ a, stateAfter image n = some a ∧ running a
  later : ∀ n, ∃ a, Iss.stateAfter image n = some a ∧ running a
  multiCycle : ∀ t, ∃ sp, MultiCycle.clockState image t = some sp
  pipeline : ∀ t, ∃ sp, Pipeline.tracedState image image t = some sp

theorem PipelineAt.tracedState (h : PipelineAt image s k) {t : ℕ} (ht : t < k) :
    ∃ sp, Pipeline.tracedState image image t = some sp :=
  have hruns : Pipeline.BypassRuns image image t (bypassTrace image image t) :=
    ⟨Pipeline.bypassState_iff.mpr ⟨fun j hj => (h.before j (hj.trans ht)).1, rfl⟩,
      fun j hj => (h.before j (Nat.lt_of_le_of_lt hj ht)).2⟩
  hruns.tracedState_isSome

/-- **Segments of any length**: the program never ends. -/
theorem neverEnds_of_segments
    (h : ∀ m, ∃ n s, m ≤ n ∧ Segment step (Plain image (Clear image)) n (init image) s) :
    NeverEnds image := by
  have hplain : ∀ n, ∃ a, stateAfter image n = some a ∧ Plain image (Clear image) a ∧
      running a := by
    intro n
    obtain ⟨m, s, hm, hrun⟩ := h (n + 1)
    obtain ⟨b, hb⟩ := runFor_isSome_of_le hm hrun.run
    obtain ⟨a, ha, hstep⟩ := runFor_pred hb
    exact ⟨a, ha, hrun.all n a (by omega) ha, running_of_step hstep⟩
  have hlater : ∀ n, Option.Rel SameButLink (stateAfter image n)
      (Iss.stateAfter image n) := by
    intro n
    refine SameButLink.of_portable fun k a _ ha _ => ?_
    obtain ⟨b, hb, hs, -⟩ := hplain k
    obtain rfl := Option.some.inj (ha.symm.trans hb)
    exact portable_of_supported (Or.inl hs.supported)
  refine ⟨fun n => ?_, fun n => ?_, fun t => ?_, fun t => ?_⟩
  · obtain ⟨a, ha, -, hrun⟩ := hplain n
    exact ⟨a, ha, hrun⟩
  · obtain ⟨a, ha, -, hrun⟩ := hplain n
    obtain ⟨b, hb, hab⟩ := exists_right_of_rel (hlater n) ha
    exact ⟨b, hb, hab.running_iff.mp hrun⟩
  · obtain ⟨a, ha, hs, hrun⟩ := hplain t
    obtain ⟨b, hb, hab⟩ := exists_right_of_rel (hlater t) ha
    have hsupported : ∀ j c, j < t → Iss.stateAfter image j = some c → Supported c := by
      intro j c _ hc
      obtain ⟨d, hd, hdc⟩ := exists_left_of_rel (hlater j) hc
      obtain ⟨e, he, hs, -⟩ := hplain j
      obtain rfl := Option.some.inj (hd.symm.trans he)
      exact supported_congr hdc hs.supported
    obtain ⟨sp, harch, -⟩ :=
      agrees_of_iss hsupported hb (hab.running_iff.mp hrun).1
    obtain ⟨sp', hsp', -⟩ := MultiCycle.stands_of_archState harch
    exact runFor_isSome_of_le (by omega) hsp'
  · obtain ⟨n, s, hn, hrun⟩ := h (t + 1)
    exact ((PipelineAt.init image).segment hrun).tracedState (by omega)

/-! ## A stale read -/

/-- Behind an instruction with a result the window holds that result. -/
theorem PipelineAt.window_succ (h : PipelineAt image s k)
    (hs : Plain image (Clear image) s) (hop : hasResult s.fields.op = true) :
    ∃ word, (bypassTrace image image (k + 1)).window = ⟨some ⟨s.fields, word⟩,
        ((bypassTrace image image k).awaited image).exec0⟩ ∧
      ∀ v, s.fields.op ≠ .RSF → result s.fields.op s.val0 s.val1 = .ok v → word = v := by
  obtain ⟨hld, hjump, huse0, huse1⟩ : s.fields.op ≠ .LD ∧
      (∀ x y, Pipeline.branchOf s.fields x y = none) ∧
      usesSrc0 s.fields.op = true ∧ usesSrc1 s.fields.op = true := by
    unfold hasResult at hop
    unfold Pipeline.branchOf
    cases hcase : s.fields.op <;> simp [hcase, usesSrc0, usesSrc1] at hop ⊢
  have hfields := h.near.fields hs
  have hbranch : ((bypassTrace image image k).arch.fetch image).branch = none := by
    rw [ExecLatch.branch, hfields, hjump]
  have hslot : ((bypassTrace image image k).arch.fetch image).slot
        (bypassTrace image image k).arch.mem =
      ⟨s.fields, (Pipeline.aluResult s.fields s.val0 s.val1).getD 0⟩ := by
    rw [ExecLatch.slot, hfields, if_neg hld, h.near.alu0 hs huse0, h.near.alu1 hs huse1]
  refine ⟨(Pipeline.aluResult s.fields s.val0 s.val1).getD 0, ?_, ?_⟩
  · rw [Pipeline.bypassTrace_succ, Bypass.next, h.issue hs.here, hbranch, hslot]
    rfl
  · intro v hrsf hv
    rw [aluResult_of_result hop hv fun hcase => absurd hcase hrsf]
    rfl

/-- Nothing waits for an instruction that does not load. -/
theorem await_of_ne {w : Pipeline.Window} {p : Pipeline.Slot} (h : w.exec0 = some p)
    (hld : p.fields.op ≠ .LD) (f : Fields) : w.await f = w := by
  unfold Pipeline.Window.await
  simp [h, Pipeline.loadUse, hld]

theorem op_ne_load {op : Opcode} (h : hasResult op = true) : op ≠ .LD := by
  rintro rfl
  cases h

/-- **A stale jump.** Behind two instructions with results, a jump that compares the
register of the first with zero compares the first result, whatever the second has
written there. -/
theorem PipelineAt.jump_stale {s₁ s₂ s₃ : State} (h : PipelineAt image s₁ k)
    (hs₁ : Plain image (Clear image) s₁) (hop₁ : hasResult s₁.fields.op = true)
    (hrsf : s₁.fields.op ≠ .RSF) {v : Word}
    (hv : result s₁.fields.op s₁.val0 s₁.val1 = .ok v) (hstep₁ : step s₁ = some s₂)
    (hs₂ : Plain image (Clear image) s₂) (hop₂ : hasResult s₂.fields.op = true)
    (hstep₂ : step s₂ = some s₃) (hs₃ : Plain image Anywhere s₃)
    (hjump : MultiCycle.isCondJump s₃.fields.op = true)
    (hdst : 2#3 ≤ s₁.fields.dst) (hsrc0 : s₃.fields.src0 = s₁.fields.dst)
    (hsrc1 : s₃.fields.src1 = 0) :
    PipelineAt image (if s₃.fields.op.condHolds v 0 then
      { s₃ with pc := s₃.fields.immediate &&& 0xFFFF }
      else { s₃ with pc := s₃.pc + 1 }) (k + 3) := by
  have h₂ := h.next hs₁ hstep₁
  have h₃ := h₂.next hs₂ hstep₂
  have hfields : ((bypassTrace image image (k + 2)).issue image).fields = s₃.fields :=
    h₃.near.fields hs₃
  obtain ⟨word, hwindow₁, hword⟩ := h.window_succ hs₁ hop₁
  obtain ⟨word₂, hwindow₂, -⟩ := h₂.window_succ hs₂ hop₂
  obtain rfl := hword v hrsf hv
  -- both results are still in flight
  have hexec0 : (bypassTrace image image (k + 1)).window.exec0 =
      some ⟨s₁.fields, word⟩ := by rw [hwindow₁]
  have hawait₁ : (bypassTrace image image (k + 1)).awaited image =
      (bypassTrace image image (k + 1)).window :=
    await_of_ne hexec0 (op_ne_load hop₁) _
  rw [hawait₁, hexec0] at hwindow₂
  have hawait₂ : (bypassTrace image image (k + 2)).awaited image =
      ⟨some ⟨s₂.fields, word₂⟩, some ⟨s₁.fields, word⟩⟩ :=
    (await_of_ne (congrArg Pipeline.Window.exec0 hwindow₂) (op_ne_load hop₂) _).trans
      hwindow₂
  have halu0 : ((bypassTrace image image (k + 2)).issue image).alu0 = word := by
    show ((bypassTrace image image (k + 2)).awaited image).operand _ _
      ((bypassTrace image image (k + 2)).issue image).fields.src0 = word
    rw [hawait₂, hfields, hsrc0]
    simp [Pipeline.Window.operand, Pipeline.Slot.offer, hdst]
  have halu1 : ((bypassTrace image image (k + 2)).issue image).alu1 = 0 := by
    show ((bypassTrace image image (k + 2)).awaited image).operand _ _
      ((bypassTrace image image (k + 2)).issue image).fields.src1 = 0
    have hne : ¬(2#3 ≤ s₁.fields.dst ∧ s₁.fields.dst = 0) := by
      rintro ⟨-, hzero⟩
      rw [hzero] at hdst
      exact absurd hdst (by decide)
    rw [hawait₂, hfields, hsrc1]
    simp only [Pipeline.Window.operand, Pipeline.Slot.offer, Option.bind_some, if_neg hne]
    rfl
  obtain ⟨-, hld, hst, -⟩ := MultiCycle.op_of_isCondJump hjump
  refine h₃.succ hs₃ ?_ ?_ ?_
  · intro hacc
    simp [ExecLatch.accesses, hfields, hld, hst] at hacc
  · intro hload
    exact absurd (hfields ▸ hload) hld
  · have hnear := h₃.near.jump hfields rfl hjump
    rw [halu0, halu1] at hnear
    exact hnear

/-- The same in a program, where the first result lets the jump fall through. -/
theorem Resident.jump_stale {code : List Fields} {mem : Mem} {reg : RegFile} {i : ℕ}
    {f₁ f₂ f₃ : Fields} {v₁ v₂ : Word} (h : Resident code image)
    (hmem : Intact code image mem) (hat : PipelineAt image (live mem reg i) k)
    (hf₁ : code[i]? = some f₁) (hf₂ : code[i + 1]? = some f₂)
    (hf₃ : code[i + 2]? = some f₃)
    (hop₁ : hasResult f₁.op = true ∧ f₁.op ≠ .RSF)
    (hop₂ : hasResult f₂.op = true ∧ f₂.op ≠ .RSF)
    (hop₃ : MultiCycle.isCondJump f₃.op = true)
    (hclear₁ : Clear image i) (hclear₂ : Clear image (i + 1))
    (huse : 2#3 ≤ f₁.dst ∧ f₃.src0 = f₁.dst ∧ f₃.src1 = 0)
    (hv₁ : result f₁.op (operand reg f₁.immediate f₁.src0)
      (operand reg f₁.immediate f₁.src1) = .ok v₁)
    (hv₂ : result f₂.op (operand (Function.update reg f₁.dst v₁) f₂.immediate f₂.src0)
      (operand (Function.update reg f₁.dst v₁) f₂.immediate f₂.src1) = .ok v₂)
    (hcond : f₃.op.condHolds v₁ 0 = false) :
    PipelineAt image (live mem
      (Function.update (Function.update reg f₁.dst v₁) f₂.dst v₂) (i + 3)) (k + 3) := by
  have hfields₁ : (live mem reg i).fields = f₁ := h.fields hmem hf₁
  have hargs : ∀ {f : Fields} {r : RegFile}, hasResult f.op = true ∧ f.op ≠ .RSF →
      Operands f r :=
    fun hop => operands_of_hasResult hop.1 fun hrsf => absurd hrsf hop.2
  obtain ⟨-, -, -, hhlt, -, -⟩ := MultiCycle.op_of_isCondJump hop₃
  have hplain₂ := h.isPlain hmem hf₂ (@hargs _ (Function.update reg f₁.dst v₁) hop₂)
    (op_ne_halt hop₂.1) hclear₂
  have hfields₂ : (live mem (Function.update reg f₁.dst v₁) (i + 1)).fields = f₂ :=
    h.fields hmem hf₂
  have hfields₃ : (live mem (Function.update (Function.update reg f₁.dst v₁) f₂.dst v₂)
      (i + 2)).fields = f₃ := h.fields hmem hf₃
  have hstale := hat.jump_stale
    (h.isPlain hmem hf₁ (hargs hop₁) (op_ne_halt hop₁.1) hclear₁)
    (hfields₁ ▸ hop₁.1) (hfields₁ ▸ hop₁.2)
    (by rw [State.val0, State.val1, hfields₁]; exact hv₁)
    (h.step_eq hmem hf₁ (exec_result mem i hop₁.1 hv₁)) hplain₂ (hfields₂ ▸ hop₂.1)
    (h.step_eq hmem hf₂ (exec_result mem (i + 1) hop₂.1 hv₂))
    (h.isPlain hmem hf₃ (.of_isCondJump hop₃) hhlt trivial)
    (hfields₃ ▸ hop₃) (hfields₁ ▸ huse.1) (by rw [hfields₁, hfields₃]; exact huse.2.1)
    (by rw [hfields₃]; exact huse.2.2)
  rw [hfields₃, hcond, if_neg Bool.false_ne_true] at hstale
  exact live_succ mem _ (i + 2) ▸ hstale

end Runs

end SuperscalarProcessor.Programs
