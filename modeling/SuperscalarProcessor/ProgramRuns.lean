import SuperscalarProcessor.MultiCycle.Architecture
import SuperscalarProcessor.Pipeline.StaleReads
import SuperscalarProcessor.Programs.Versions

/-!
# One program on every simulator

Whole runs of the same image. As long as the program stays within what both
processors execute to the same effect, does not rewrite what it executes and
reads no stale word, the pipeline dumps what the multi-cycle processor dumps,
and never later. Both versions of the instruction set simulator join them.
-/

namespace SuperscalarProcessor

open Llsim Foundation

open Pipeline (Arch seqNext seqTrace seqFetch StaleRead BypassRuns bypassTrace
  bypassState bypassClock bypassPath)

open MultiCycle (archState archStep nextArch faultAt haltsAt fieldsAt alu0At
  alu1At)

/-! ## Instructions with the same effect -/

/-- `EffectAgrees`, of what the program sees. -/
def EffectAgreesAt (a : Arch) : Prop :=
  match (fieldsAt a).op with
  | .RSF => 2#3 ≤ (fieldsAt a).dst → (a.fetch a.mem).alu0.msb = false ∨
      (a.fetch a.mem).alu1 = 0
  | .LHI => 2#3 ≤ (fieldsAt a).dst → (a.fetch a.mem).alu0 &&& 0xFFFF = 0
  | .JIN => (a.fetch a.mem).alu0.toNat < 8 ∧
      a.r ((a.fetch a.mem).alu0.setWidth 3) &&& 0xFFFF = (a.fetch a.mem).alu0
  | _ => True

instance (a : Arch) : Decidable (EffectAgreesAt a) := by
  unfold EffectAgreesAt
  split <;> infer_instance

/-- The program has not rewritten the instruction, four words lie behind it, and
both processors execute it to the same effect. -/
structure Common (image : Mem) (a : Arch) : Prop where
  word : a.mem a.pc.toNat = image a.pc.toNat
  room : a.pc.toNat + 4 < spSramHeight
  op : (fieldsAt a).op ≠ .DMA_START ∧ (fieldsAt a).op ≠ .DMA_STATUS
  effect : EffectAgreesAt a

instance (image : Mem) (a : Arch) : Decidable (Common image a) :=
  decidable_of_iff
    (a.mem a.pc.toNat = image a.pc.toNat ∧ a.pc.toNat + 4 < spSramHeight ∧
      ((fieldsAt a).op ≠ .DMA_START ∧ (fieldsAt a).op ≠ .DMA_STATUS) ∧
      EffectAgreesAt a)
    ⟨fun ⟨h₁, h₂, h₃, h₄⟩ => ⟨h₁, h₂, h₃, h₄⟩,
      fun h => ⟨h.word, h.room, h.op, h.effect⟩⟩

/-- The two processors before the same instruction. -/
structure Twin (a b : Arch) : Prop where
  pc : b.pc = a.pc
  r : ∀ i, 2#3 ≤ i → b.r i = a.r i
  mem : b.mem = a.mem

/-- Registers that an instruction does not write stay equal. -/
theorem apply_congr (e : Pipeline.ExecLatch) (mem : Mem) {r r' : RegFile}
    {i : BitVec 3} (h : r i = r' i) : e.apply mem r i = e.apply mem r' i := by
  by_cases hw : e.writes = some i
  · rw [Pipeline.ExecLatch.apply_of_writes hw, Pipeline.ExecLatch.apply_of_writes hw]
  · rw [Pipeline.ExecLatch.apply_of_ne hw, Pipeline.ExecLatch.apply_of_ne hw, h]

section Instruction

variable {image : Mem} {a a' b : Arch} {n : ℕ}

theorem fieldsAt_eq (a : Arch) : (a.fetch a.mem).fields = fieldsAt a :=
  decodeFields_eq _

/-- Only LHI's operands are chosen differently. -/
theorem fetch_alu1 (hop : (fieldsAt a).op ≠ .LHI) :
    (a.fetch a.mem).alu1 = alu1At a := by
  show operand a.r (a.fetch a.mem).fields.immediate
    (a.fetch a.mem).fields.src1 = _
  rw [fieldsAt_eq, alu1At, MultiCycle.decOperands, if_neg hop]

/-- The pipeline latches the same instruction. -/
theorem Twin.fetch (h : Twin a b) (hword : a.mem a.pc.toNat = image a.pc.toNat) :
    b.fetch image = a.fetch a.mem := by
  unfold Arch.fetch
  rw [h.pc, ← hword, operand_congr (h.r _), operand_congr (h.r _)]

theorem sameEffect_of_agrees {sp : MultiCycle.Sp} (h : MultiCycle.Ready sp)
    (hpc : sp.spro.pc.toNat < 65535) (hcommon : Common image sp.arch)
    (hok : MultiCycle.Faultless sp.arch) : SameEffect sp := by
  have hnodma : sp.fields.op ≠ .DMA_START ∧ sp.fields.op ≠ .DMA_STATUS := hcommon.op
  have hagrees : EffectAgrees sp := hcommon.effect
  have halu1 : sp.fields.op ≠ .LHI → sp.latched.alu1 = alu1At sp.arch :=
    fun hop => (alu1_eq_latched hop).symm
  unfold EffectAgrees at hagrees
  cases hop : sp.fields.op
  case RSF =>
    rw [hop] at hagrees
    refine (sameEffect_rsf h hpc hop ?_).mpr hagrees
    rw [halu1 (by simp [hop])]
    exact hok.shift (Or.inr hop)
  case LHI =>
    rw [hop] at hagrees
    exact (sameEffect_lhi h hpc hop).mpr hagrees
  case JIN =>
    rw [hop] at hagrees
    exact (sameEffect_jin h hpc hop).mpr hagrees
  case LD =>
    refine sameEffect_load h hpc hop ?_
    rw [halu1 (by simp [hop])]
    exact hok.addr (Or.inl hop)
  case ST =>
    refine sameEffect_nonwriter h hpc (Or.inl hop) fun _ => ?_
    rw [halu1 (by simp [hop])]
    exact hok.addr (Or.inr hop)
  case U => exact sameEffect_nonwriter h hpc (Or.inr hop) fun hst => by simp [hop] at hst
  case HLT => exact sameEffect_halt h hpc hop
  case JLT | JLE | JEQ | JNE => exact sameEffect_jump h hpc (by rw [hop]; rfl)
  case DMA_START => exact absurd hop hnodma.1
  case DMA_STATUS => exact absurd hop hnodma.2
  all_goals
    have halu : sp.fields.isAlu = true := by rw [Fields.isAlu, hop]
    have hlhi : sp.fields.op ≠ .LHI := by simp [hop]
    obtain ⟨v, hv, hv'⟩ := @aluResults_eq sp.fields halu (by simp [hop])
      sp.latched.alu0 sp.latched.alu1 fun hlsf => by
        rw [halu1 hlhi]
        exact hok.shift (Or.inl hlsf)
    rw [← alu0_eq_latched hlhi, ← alu1_eq_latched hlhi] at hv
    exact (sameEffect_alu h hpc halu hv hv').mpr fun _ => rfl

/-- Its effect is the multi-cycle processor's. -/
theorem Twin.next (h : Twin a b) (hcommon : Common image a)
    (ha : archState image n = some a) (hstep : archStep a = some a') :
    Twin a' (seqNext image b) := by
  obtain ⟨sp, -, hready, rfl, hpc⟩ := MultiCycle.stands_of_archState ha
  have hrun : haltsAt sp.arch = false ∧ MultiCycle.Faultless sp.arch ∧
      nextArch sp.arch = a' := by
    unfold archStep at hstep
    split_ifs at hstep with hhalt hfault
    rw [Option.not_isSome_iff_eq_none] at hfault
    exact ⟨Bool.not_eq_true _ ▸ hhalt, MultiCycle.faultAt_eq_none_iff.mp hfault,
      Option.some.inj hstep⟩
  obtain ⟨hhalt, hok, rfl⟩ := hrun
  have hhlt : sp.fields.op ≠ .HLT := beq_eq_false_iff_ne.mp hhalt
  have halu1 : sp.fields.op ≠ .LHI → sp.latched.alu1 = alu1At sp.arch :=
    fun hop => (alu1_eq_latched hop).symm
  have hroom : sp.spro.pc.toNat + 4 < 65536 := hcommon.room
  have hsame : SameEffect sp := sameEffect_of_agrees hready (by omega) hcommon hok
  obtain ⟨e, e', he, he', hnext, hr, hmem⟩ := hsame
  obtain ⟨sp', hclocks, -, harch⟩ := MultiCycle.completes hready
    (inRange_iff.mpr hpc) hhalt hok
  rw [sixClocks_of_run hclocks] at he
  rw [execStages_latched fun hop => by
    rw [halu1 (by rcases hop with hop | hop <;> simp [hop])]
    exact hok.addr hop, if_neg hhlt] at he'
  obtain rfl := Option.some.inj he
  obtain rfl := Except.ok.inj he'
  have hfetch : b.fetch image = sp.latched := h.fetch hcommon.word
  have hpc' : sp.latched.nextPc = sp'.spro.pc := (Option.some.inj hnext).symm
  rw [← harch]
  refine ⟨?_, ?_, ?_⟩
  · show (b.fetch image).successorPc = _
    rw [hfetch, ← Pipeline.ExecLatch.nextPc_eq, hpc']
    rfl
  · intro i hi
    show (b.fetch image).apply b.mem b.r i = sp'.spro.r i
    rw [hfetch, h.mem]
    exact (apply_congr _ _ (h.r i hi)).trans (hr i hi).symm
  · show Pipeline.memoryAfter (b.fetch image) b.mem = _
    rw [hfetch, h.mem]
    exact hmem.symm

end Instruction

/-! ## Whole runs -/

/-- What is asked of the first `n` instructions and HLT: the multi-cycle
processor halts behind them, and they suit both processors. -/
structure CommonRun (image : Mem) (n : ℕ) (a : Arch) : Prop where
  reaches : archState image n = some a
  halts : haltsAt a = true
  common : ∀ k c, k ≤ n → archState image k = some c → Common image c
  fresh : ∀ i, i + 2 ≤ n → ¬StaleRead image image i

section Runs

variable {image : Mem} {n k : ℕ} {a c : Arch}

theorem CommonRun.twin (h : CommonRun image n a) (hk : k ≤ n)
    (hc : archState image k = some c) : Twin c (seqTrace image image k) := by
  induction k generalizing c with
  | zero =>
      obtain rfl := Option.some.inj hc
      exact ⟨rfl, fun _ _ => rfl, rfl⟩
  | succ k ih =>
      obtain ⟨c₀, hc₀, hstep⟩ := runFor_pred hc
      have hc₀ : archState image k = some c₀ := hc₀
      rw [Pipeline.seqTrace_succ]
      exact (ih (by omega) hc₀).next (h.common k c₀ (by omega) hc₀) hc₀ hstep

theorem CommonRun.state (h : CommonRun image n a) (hk : k ≤ n) :
    ∃ c, archState image k = some c :=
  runFor_isSome_of_le hk h.reaches

/-- The pipeline executes the instructions of the sequential machine. -/
theorem CommonRun.bypassTrace_eq (h : CommonRun image n a) (hk : k ≤ n) :
    bypassTrace image image k = Pipeline.seqBypass image image k ∧
      (bypassTrace image image k).issue image = seqFetch image image k := by
  have hissue : ∀ j ≤ n, (Pipeline.seqBypass image image j).issue image =
      seqFetch image image j := by
    intro j hj
    refine Pipeline.issues_of_fresh (fun i hi => h.fresh i ?_) j (Nat.lt_succ_of_le hj)
    exact Nat.lt_succ_iff.mp hi
  have htrace := @Pipeline.bypassTrace_eq_seqBypass image image k
    fun j hj => hissue j (by omega)
  exact ⟨htrace, by rw [htrace, hissue k hk]⟩

/-- The fields of an instruction are the same on both sides. -/
theorem CommonRun.fields (h : CommonRun image n a) (hk : k ≤ n)
    (hc : archState image k = some c) :
    seqFetch image image k = c.fetch c.mem :=
  (h.twin hk hc).fetch (h.common k c hk hc).word

theorem CommonRun.halted_iff (h : CommonRun image n a) (hk : k ≤ n)
    (hc : archState image k = some c) :
    (bypassTrace image image k).halted image = haltsAt c := by
  have hop : ((bypassTrace image image k).issue image).fields = fieldsAt c := by
    rw [(h.bypassTrace_eq hk).2, h.fields hk hc, fieldsAt_eq]
  show (((bypassTrace image image k).issue image).fields.op == .HLT) = _
  rw [hop]
  rfl

/-- An instruction that has been executed, or is HLT, does not fail. -/
theorem CommonRun.faultless (h : CommonRun image n a) (hk : k ≤ n)
    (hc : archState image k = some c) : MultiCycle.Faultless c := by
  rcases Nat.eq_or_lt_of_le hk with rfl | hlt
  · obtain rfl := Option.some.inj (hc.symm.trans h.reaches)
    have hop : (fieldsAt c).op = .HLT := beq_iff_eq.mp h.halts
    constructor <;> simp [hop]
  · obtain ⟨c', hc'⟩ := h.state (Nat.succ_le_of_lt hlt)
    have hstep := (runFor_succ_of_eq hc).symm.trans hc'
    unfold archStep at hstep
    split_ifs at hstep with hhalt hfault
    exact MultiCycle.faultAt_eq_none_iff.mp
      (Option.not_isSome_iff_eq_none.mp hfault)

theorem CommonRun.bypassRuns (h : CommonRun image n a) :
    BypassRuns image image n (bypassTrace image image n) := by
  refine ⟨Pipeline.bypassState_iff.mpr ⟨?_, rfl⟩, ?_⟩
  · intro k hk
    obtain ⟨c, hc⟩ := h.state (Nat.le_of_lt hk)
    obtain ⟨c', hc'⟩ := h.state (Nat.succ_le_of_lt hk)
    rw [h.halted_iff (Nat.le_of_lt hk) hc]
    by_contra hhalt
    have hstep := (runFor_succ_of_eq hc).symm.trans hc'
    rw [archStep, if_pos (Bool.not_eq_false _ ▸ hhalt)] at hstep
    cases hstep
  · intro k hk
    obtain ⟨c, hc⟩ := h.state hk
    obtain ⟨htrace, hissue⟩ := h.bypassTrace_eq hk
    have hdata : ((bypassTrace image image k).issue image).accesses = true →
        InRange ((bypassTrace image image k).issue image).alu1 := by
      rw [hissue, h.fields hk hc]
      intro hacc
      simp only [Pipeline.ExecLatch.accesses, fieldsAt_eq, Bool.and_eq_true,
        Bool.or_eq_true, beq_iff_eq] at hacc
      rw [fetch_alu1 (by rcases hacc.2 with hop | hop <;> simp [hop])]
      exact (h.faultless hk hc).addr hacc.2
    refine ⟨?_, hdata, Pipeline.traceInside_of_fetch ?_ hdata⟩
    · rw [htrace]
      show (seqTrace image image k).pc.toNat + 4 < _
      rw [(h.twin hk hc).pc]
      exact (h.common k c hk hc).room
    · rw [hissue, htrace]
      rfl

theorem CommonRun.multiCycle_dumpsAt (h : CommonRun image n a) :
    MultiCycle.DumpsAt image (6 + 6 * n) (memoryDump a.mem) :=
  MultiCycle.dumpsAt_of_haltsAt h.reaches h.halts

/-- Instruction `n` of the bypass machine is HLT. -/
theorem CommonRun.halted (h : CommonRun image n a) :
    (bypassTrace image image n).halted image = true := by
  rw [h.halted_iff le_rfl h.reaches]
  exact h.halts

theorem CommonRun.pipeline_dumpsAt (h : CommonRun image n a) :
    Pipeline.DumpsAt image image (bypassClock image image n) (memoryDump a.mem) := by
  have hmem : (bypassTrace image image n).arch.mem = a.mem := by
    rw [(h.bypassTrace_eq le_rfl).1]
    exact (h.twin le_rfl h.reaches).mem
  rw [← hmem]
  exact h.bypassRuns.dumpsAt h.halted

end Runs

/-- No register of the program is written twice. -/
theorem fresh_storeJump (i : ℕ) (hi : i + 2 ≤ 3) :
    ¬StaleRead MultiCycle.storeJumpImage MultiCycle.storeJumpImage i := by
  have hword : ∀ i < 2, ((seqFetch MultiCycle.storeJumpImage
        MultiCycle.storeJumpImage i).slot
          (seqTrace MultiCycle.storeJumpImage MultiCycle.storeJumpImage i).mem).word =
        (seqTrace MultiCycle.storeJumpImage MultiCycle.storeJumpImage (i + 2)).r
          (seqFetch MultiCycle.storeJumpImage MultiCycle.storeJumpImage i).fields.dst := by
    decide +kernel
  exact fun hstale => hstale.word (hword i (by omega))

/-- What the pipeline asks of an instruction beyond what the multi-cycle processor
asks, of the state of the ISS before it. -/
structure SuitsPipeline (image : Mem) (s : Iss.State) : Prop where
  word : s.mem s.pc.toNat = image s.pc.toNat
  room : s.pc.toNat + 4 < spSramHeight
  shift : s.fields.op = .RSF → 2#3 ≤ s.fields.dst →
    s.val0.msb = false ∨ s.val1 = 0

instance (image : Mem) (s : Iss.State) : Decidable (SuitsPipeline image s) :=
  decidable_of_iff
    (s.mem s.pc.toNat = image s.pc.toNat ∧ s.pc.toNat + 4 < spSramHeight ∧
      (s.fields.op = .RSF → 2#3 ≤ s.fields.dst → s.val0.msb = false ∨ s.val1 = 0))
    ⟨fun ⟨h₁, h₂, h₃⟩ => ⟨h₁, h₂, h₃⟩, fun h => ⟨h.word, h.room, h.shift⟩⟩

section Iss

open MultiCycle (Agrees Supported)

open Programs (Portable SameButLink readsLink)

variable {image : Mem} {n k : ℕ} {s t : Iss.State} {c : Arch}

/-! ### Between the two versions -/

/-- An instruction that the processor supports is portable. -/
theorem portable_of_supported (h : Supported s ∨ s.fields.op = .HLT) : Portable s := by
  rcases h with hs | hop
  · have hop := hs.op
    have hsrc0 := hs.src0
    have hsrc1 := hs.src1
    refine ⟨?_, fun hlhi => absurd hlhi hop.1⟩
    unfold readsLink
    cases hcase : s.fields.op <;>
      simp [hcase, MultiCycle.usesSrc0, MultiCycle.usesSrc1] at hop hsrc0 hsrc1 ⊢ <;>
      simp [hsrc0, hsrc1]
  · exact ⟨by simp [readsLink, hop], by simp [hop]⟩

theorem val0_eq (h : SameButLink s t) (hs : Supported s)
    (huse : MultiCycle.usesSrc0 s.fields.op = true) : t.val0 = s.val0 := by
  rw [Iss.State.val0, h.fields, h.operand (hs.src0 huse)]
  rfl

theorem val1_eq (h : SameButLink s t) (hs : Supported s)
    (huse : MultiCycle.usesSrc1 s.fields.op = true) : t.val1 = s.val1 := by
  rw [Iss.State.val1, h.fields, h.operand (hs.src1 huse)]
  rfl

theorem supported_congr (h : SameButLink s t) (hs : Supported s) : Supported t := by
  have hfields := h.fields
  refine ⟨?_, ?_, ?_, ?_, ?_, ?_⟩
  · rw [hfields]
    exact hs.op
  · rw [hfields]
    exact hs.src0
  · rw [hfields]
    exact hs.src1
  · rw [hfields]
    exact hs.storeSrc
  · rw [hfields]
    intro hop
    rw [val1_eq h hs (by rcases hop with hop | hop <;> rw [hop] <;> rfl)]
    exact hs.addr hop
  · rw [← h.pc, hfields]
    intro hpc
    refine (hs.fallThrough hpc).imp_right fun hcond => ?_
    cases hop : s.fields.op <;> simp only [hop, Opcode.condHolds, Bool.false_eq_true]
      at hcond ⊢
    all_goals
      rw [val0_eq h hs (by rw [hop]; rfl), val1_eq h hs (by rw [hop]; rfl)]
      exact hcond

theorem SuitsPipeline.congr (h : SameButLink s t) (hs : Supported s ∨ s.fields.op = .HLT)
    (hsuits : SuitsPipeline image s) : SuitsPipeline image t := by
  refine ⟨?_, ?_, ?_⟩
  · rw [← h.mem, ← h.pc]
    exact hsuits.word
  · rw [← h.pc]
    exact hsuits.room
  · rw [h.fields]
    intro hop
    rcases hs with hs | hhlt
    · rw [val0_eq h hs (by rw [hop]; rfl), val1_eq h hs (by rw [hop]; rfl)]
      exact hsuits.shift hop
    · cases hhlt.symm.trans hop

/-! ### Between the later version and the processors -/

/-- Behind `k` instructions that it follows the multi-cycle processor agrees with the
ISS. -/
theorem agrees_of_followed
    (hs : ∀ j a, j < k → Iss.stateAfter image j = some a → MultiCycle.Followed a)
    (h : Iss.stateAfter image k = some s) (hlive : s.halted = false) :
    ∃ sp, archState image k = some sp.arch ∧ Agrees s sp := by
  obtain ⟨sp₁, h₁, hinit⟩ := Agrees.init image
  obtain ⟨sp, hrun, hagree⟩ : ∃ sp, runFor MultiCycle.tick (6 * k) sp₁ = some sp ∧
      Agrees s sp := by
    refine runFor_simulation hinit ?_ h
    intro m a a' sp hm ha hstep hagree
    refine hagree.follow (hs m a hm ha) hstep ?_
    exact Iss.live_of_le h hlive hm ((runFor_succ_of_eq ha).trans hstep)
  obtain ⟨a, ha, hstands⟩ :=
    MultiCycle.archState_of_clockState ((runFor_add_of_eq h₁).trans hrun)
  rw [← hstands.arch] at ha
  exact ⟨sp, ha, hagree⟩

theorem agrees_of_iss (hs : ∀ j a, j < k → Iss.stateAfter image j = some a → Supported a)
    (h : Iss.stateAfter image k = some s) (hlive : s.halted = false) :
    ∃ sp, archState image k = some sp.arch ∧ Agrees s sp :=
  agrees_of_followed (fun j a hj ha => Or.inl (hs j a hj ha)) h hlive

theorem SuitsPipeline.common (h : SuitsPipeline image s)
    (hs : Supported s ∨ s.fields.op = .HLT) {sp : MultiCycle.Sp}
    (hagree : Agrees s sp) : Common image sp.arch := by
  have hfields : (fieldsAt sp.arch) = s.fields := hagree.fields
  refine ⟨?_, ?_, ?_, ?_⟩
  · show sp.sram.data sp.spro.pc.toNat = image sp.spro.pc.toNat
    rw [hagree.mem, hagree.pc]
    exact h.word
  · show sp.spro.pc.toNat + 4 < _
    rw [hagree.pc]
    exact h.room
  · rw [hfields]
    rcases hs with hs | hop
    · exact hs.op.2.2
    · simp [hop]
  · unfold EffectAgreesAt
    rw [hfields]
    rcases hs with hs | hop
    · cases hop : s.fields.op
      case RSF =>
        have hnolhi : sp.fields.op ≠ .LHI := by
          rw [hagree.fields, hop]
          decide
        have halu0 : (sp.arch.fetch sp.arch.mem).alu0 = s.val0 :=
          (alu0_eq_latched hnolhi).symm.trans (hagree.alu0 hs (by rw [hop]; rfl))
        have halu1 : (sp.arch.fetch sp.arch.mem).alu1 = s.val1 :=
          (alu1_eq_latched hnolhi).symm.trans (hagree.alu1 hs (by rw [hop]; rfl))
        rw [halu0, halu1]
        exact h.shift hop
      case LHI => exact absurd hop hs.op.1
      case JIN => exact absurd hop hs.op.2.1
      all_goals trivial
    · rw [hop]
      trivial

theorem haltsAt_of_agrees {sp : MultiCycle.Sp} (h : Agrees s sp)
    (hop : s.fields.op = .HLT) : haltsAt sp.arch = true := by
  show (sp.fields.op == .HLT) = true
  rw [h.fields, hop]
  rfl

/-- HLT leaves the memory alone. -/
theorem mem_of_halt {s' : Iss.State} (h : Iss.step s = some s')
    (hhalt : s'.halted = true) : s'.mem = s.mem := by
  have hop := (Iss.halted_iff h).mp hhalt
  obtain ⟨-, -, hit⟩ := Iss.step_eq_some h
  unfold Iss.iteration at hit
  simp only [hop] at hit
  obtain rfl := Except.ok.inj hit
  rfl

/-- A run of the later version on which both processors join. -/
theorem commonRun_of_iss {s' : Iss.State}
    (hs : ∀ k a, k < n → Iss.stateAfter image k = some a → Supported a)
    (hsuits : ∀ k a, k ≤ n → Iss.stateAfter image k = some a → SuitsPipeline image a)
    (hfresh : ∀ i, i + 2 ≤ n → ¬StaleRead image image i)
    (h : Iss.stateAfter image n = some s) (hlive : s.halted = false)
    (hstep : Iss.step s = some s') (hhalt : s'.halted = true) :
    ∃ a, CommonRun image n a ∧ a.mem = s'.mem := by
  obtain ⟨sp, ha, hagree⟩ := agrees_of_iss (fun j a hj => hs j a hj) h hlive
  have hop := (Iss.halted_iff hstep).mp hhalt
  refine ⟨sp.arch, ⟨ha, haltsAt_of_agrees hagree hop, ?_, hfresh⟩, ?_⟩
  · intro k c hk hc
    obtain ⟨b, hb⟩ := runFor_isSome_of_le hk h
    have hb : Iss.stateAfter image k = some b := hb
    obtain ⟨sp', hc', hagree'⟩ := agrees_of_iss (fun j a hj => hs j a (by omega)) hb
      (Iss.live_of_le h hlive hk hb)
    obtain rfl := Option.some.inj (hc.symm.trans hc')
    refine (hsuits k b hk hb).common ?_ hagree'
    rcases Nat.eq_or_lt_of_le hk with rfl | hlt
    · obtain rfl := Option.some.inj (h.symm.trans hb)
      exact Or.inr hop
    · exact Or.inl (hs k b hlt hb)
  · rw [mem_of_halt hstep hhalt]
    exact hagree.mem

/-! ### Runs of the earlier version -/

/-- The earlier version executes `n` supported instructions and then HLT, which
leads from `s` to `s'`. -/
structure SupportedRun (image : Mem) (n : ℕ) (s s' : Iss.State) : Prop where
  supported : ∀ k a, k < n → Programs.stateAfter image k = some a → Supported a
  reaches : Programs.stateAfter image n = some s
  live : s.halted = false
  last : Programs.step s = some s'
  halts : s'.halted = true

section Earlier

variable {s' : Iss.State}

/-- The later version follows, state by state. -/
theorem SupportedRun.later (h : SupportedRun image n s s') :
    ∀ k ≤ n, Option.Rel SameButLink (Programs.stateAfter image k)
      (Iss.stateAfter image k) := by
  intro k hk
  refine SameButLink.of_portable fun j a hj ha _ => portable_of_supported (Or.inl ?_)
  exact h.supported j a (by omega) ha

theorem SupportedRun.later_supported (h : SupportedRun image n s s') {a : Iss.State}
    (hk : k < n) (ha : Iss.stateAfter image k = some a) : Supported a := by
  obtain ⟨b, hb, hba⟩ := exists_left_of_rel (h.later k (Nat.le_of_lt hk)) ha
  exact supported_congr hba (h.supported k b hk hb)

/-- It executes HLT after the same number of instructions. -/
theorem SupportedRun.later_last (h : SupportedRun image n s s') :
    ∃ t t', Iss.stateAfter image n = some t ∧ t.halted = false ∧
      Iss.step t = some t' ∧ t'.halted = true ∧ t'.mem = s'.mem := by
  have hop := Programs.op_of_halted h.last h.halts
  obtain ⟨t, ht, hst⟩ := exists_right_of_rel (h.later n le_rfl) h.reaches
  obtain ⟨t', hstep, hst'⟩ := exists_right_of_rel
    (hst.step fun _ => portable_of_supported (Or.inr hop)) h.last
  exact ⟨t, t', ht, hst.halted.symm.trans h.live, hstep,
    hst'.halted.symm.trans h.halts, hst'.mem.symm⟩

theorem SupportedRun.earlier_dumpsAfter (h : SupportedRun image n s s') :
    Programs.DumpsAfter Programs.step image (n + 1) (memoryDump s'.mem) := by
  refine ⟨s', (runFor_succ_of_eq h.reaches).trans h.last, ?_, rfl⟩
  intro hrunning
  cases h.halts.symm.trans hrunning.1

theorem SupportedRun.later_dumpsAfter (h : SupportedRun image n s s') :
    Programs.DumpsAfter Iss.step image (n + 1) (memoryDump s'.mem) := by
  obtain ⟨t, t', ht, -, hstep, hhalt, hmem⟩ := h.later_last
  refine ⟨t', (runFor_succ_of_eq ht).trans hstep, ?_, congrArg memoryDump hmem⟩
  intro hrunning
  cases hhalt.symm.trans hrunning.1

theorem SupportedRun.multiCycle_dumpsAt (h : SupportedRun image n s s') :
    MultiCycle.DumpsAt image (6 + 6 * n) (memoryDump s'.mem) := by
  obtain ⟨t, t', ht, hlive, hstep, hhalt, hmem⟩ := h.later_last
  obtain ⟨sp, ha, hagree⟩ :=
    agrees_of_iss (fun j a hj ha => h.later_supported hj ha) ht hlive
  have hout : sp.arch.mem = s'.mem :=
    hagree.mem.trans ((mem_of_halt hstep hhalt).symm.trans hmem)
  rw [← hout]
  exact MultiCycle.dumpsAt_of_haltsAt ha
    (haltsAt_of_agrees hagree ((Iss.halted_iff hstep).mp hhalt))

/-- Both processors join. -/
theorem SupportedRun.commonRun (h : SupportedRun image n s s')
    (hsuits : ∀ k a, k ≤ n → Programs.stateAfter image k = some a →
      SuitsPipeline image a)
    (hfresh : ∀ i, i + 2 ≤ n → ¬StaleRead image image i) :
    ∃ a, CommonRun image n a ∧ a.mem = s'.mem := by
  obtain ⟨t, t', ht, hlive, hstep, hhalt, hmem⟩ := h.later_last
  rw [← hmem]
  refine commonRun_of_iss (fun k b hk hb => h.later_supported hk hb) ?_ hfresh ht
    hlive hstep hhalt
  intro k b hk hb
  obtain ⟨c, hc, hcb⟩ := exists_left_of_rel (h.later k hk) hb
  refine (hsuits k c hk hc).congr hcb ?_
  rcases Nat.eq_or_lt_of_le hk with rfl | hlt
  · obtain rfl := Option.some.inj (h.reaches.symm.trans hc)
    exact Or.inr (Programs.op_of_halted h.last h.halts)
  · exact Or.inl (h.supported k c hlt hc)

theorem SupportedRun.pipeline_dumpsAt (h : SupportedRun image n s s')
    (hsuits : ∀ k a, k ≤ n → Programs.stateAfter image k = some a →
      SuitsPipeline image a)
    (hfresh : ∀ i, i + 2 ≤ n → ¬StaleRead image image i) :
    Pipeline.DumpsAt image image (bypassClock image image n) (memoryDump s'.mem) := by
  obtain ⟨a, hrun, hout⟩ := h.commonRun hsuits hfresh
  rw [← hout]
  exact hrun.pipeline_dumpsAt

end Earlier

end Iss

/-- **All four simulators dump the same memory**: on every program of supported
instructions that suits the pipeline and reads no stale word, the first ISS ends
in the memory that the second one and both processors dump. -/
theorem simulators_dump_same {image : Mem} {n : ℕ} {s s' : Iss.State}
    (h : SupportedRun image n s s')
    (hsuits : ∀ k a, k ≤ n → Programs.stateAfter image k = some a →
      SuitsPipeline image a)
    (hfresh : ∀ i, i + 2 ≤ n → ¬StaleRead image image i) :
    Programs.DumpsAfter Iss.step image (n + 1) (memoryDump s'.mem) ∧
      MultiCycle.DumpsAt image (6 + 6 * n) (memoryDump s'.mem) ∧
      Pipeline.DumpsAt image image (bypassClock image image n)
        (memoryDump s'.mem) :=
  ⟨h.later_dumpsAfter, h.multiCycle_dumpsAt, h.pipeline_dumpsAt hsuits hfresh⟩

/-- The program is of this kind. -/
theorem supportedRun_storeJump : ∃ s s' : Iss.State,
    SupportedRun MultiCycle.storeJumpImage 3 s s' ∧
      ∀ k a, k ≤ 3 → Programs.stateAfter MultiCycle.storeJumpImage k = some a →
        SuitsPipeline MultiCycle.storeJumpImage a := by
  have hall : ∀ k < 4, (Programs.stateAfter MultiCycle.storeJumpImage k).all
      fun a => decide ((k < 3 → MultiCycle.Supported a) ∧
        SuitsPipeline MultiCycle.storeJumpImage a) := by decide +kernel
  have hend : (Programs.stateAfter MultiCycle.storeJumpImage 3).any
      fun s => !s.halted && (Programs.step s).any Iss.State.halted := by decide +kernel
  obtain ⟨s, hs, hlast⟩ := (Option.any_eq_true _ _).mp hend
  simp only [Bool.and_eq_true, Bool.not_eq_true'] at hlast
  obtain ⟨s', hstep, hhalt⟩ := (Option.any_eq_true _ _).mp hlast.2
  have check : ∀ k a, k ≤ 3 →
      Programs.stateAfter MultiCycle.storeJumpImage k = some a →
      (k < 3 → MultiCycle.Supported a) ∧
        SuitsPipeline MultiCycle.storeJumpImage a := by
    intro k a hk ha
    have hk := hall k (by omega)
    rw [ha] at hk
    exact of_decide_eq_true hk
  refine ⟨s, s', ⟨?_, hs, hlast.1, hstep, hhalt⟩, fun k a hk ha => (check k a hk ha).2⟩
  exact fun k a hk ha => (check k a (by omega) ha).1 hk

theorem simulators_dump_same_storeJump :
    ∃ s s' : Iss.State, Programs.stateAfter MultiCycle.storeJumpImage 3 = some s ∧
      Programs.step s = some s' ∧ s'.halted = true ∧
      Programs.DumpsAfter Iss.step MultiCycle.storeJumpImage (3 + 1)
        (memoryDump s'.mem) ∧
      MultiCycle.DumpsAt MultiCycle.storeJumpImage (6 + 6 * 3)
        (memoryDump s'.mem) ∧
      Pipeline.DumpsAt MultiCycle.storeJumpImage MultiCycle.storeJumpImage
        (bypassClock MultiCycle.storeJumpImage MultiCycle.storeJumpImage 3)
        (memoryDump s'.mem) := by
  obtain ⟨s, s', hrun, hsuits⟩ := supportedRun_storeJump
  exact ⟨s, s', hrun.reaches, hrun.last, hrun.halts,
    @simulators_dump_same _ 3 s s' hrun hsuits fresh_storeJump⟩

end SuperscalarProcessor
