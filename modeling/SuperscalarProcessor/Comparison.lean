import SuperscalarProcessor.MultiCycle.Transfers
import SuperscalarProcessor.Pipeline.Sequential

/-!
# One instruction set, two processors

The same instruction on the same pc, registers and memory: in six clocks of the
multi-cycle processor and in the stages EXEC0 and EXEC1 of the pipeline.
-/

namespace SuperscalarProcessor

open Llsim Foundation Pipeline

/-- What an instruction leaves behind; after HLT there is no next pc. -/
structure Effect where
  next : Option Word
  r : RegFile
  mem : Mem

/-- Equal in everything but r0 and r1. -/
structure Effect.Same (e e' : Effect) : Prop where
  next : e.next = e'.next
  r : ∀ i, 2#3 ≤ i → e.r i = e'.r i
  mem : e.mem = e'.mem

/-- Six clocks of the multi-cycle processor. -/
def sixClocks (sp : MultiCycle.Sp) : Option Effect :=
  (runFor MultiCycle.tick 5 sp).bind fun sp₅ =>
    match MultiCycle.llsimRunClock false sp₅ with
    | .ok sp₆ => some
        { next := if sp₆.stopSim then none else some sp₆.spro.pc
          r := sp₆.spro.r
          mem := sp₆.sram.data }
    | .error _ => none

/-- EXEC0 and the jump resolution, the memory's turn, then EXEC1. -/
def execStages (e : ExecLatch) (r : RegFile) (sramd : Memory) :
    Except Fault Effect := do
  let sramd ← issueMemory e (quiet sramd)
  let sramd ← memPhase sramd
  pure
    { next :=
        if e.fields.op = .HLT then none
        else some ((branchOf e.fields e.alu0 e.alu1).getD (e.pc + 1))
      r := writeBack (promoteExec0 e) sramd.dataout r
      mem := sramd.data }

/-- What the program sees of the multi-cycle processor. -/
def MultiCycle.Sp.arch (sp : MultiCycle.Sp) : Arch :=
  ⟨sp.spro.pc, sp.spro.r, sp.sram.data⟩

/-- The instruction as the pipeline latches it. -/
def MultiCycle.Sp.latched (sp : MultiCycle.Sp) : ExecLatch :=
  sp.arch.fetch sp.sram.data

/-- Both processors execute the next instruction to the same effect. -/
def SameEffect (sp : MultiCycle.Sp) : Prop :=
  ∃ e e', sixClocks sp = some e ∧
    execStages sp.latched sp.spro.r (llsimAllocateMemory .sramd sp.sram.data) =
      .ok e' ∧ e.Same e'

/-! ## The pipeline's side -/

theorem execStages_eq {e : ExecLatch} (halu : e.aluout = 0)
    (hact : e.active = true) (hin : e.accesses = true → InRange e.alu1)
    (r : RegFile) (m : Memory) :
    execStages e r m = .ok
      { next := if e.fields.op = .HLT then none else some e.nextPc
        r := e.apply m.data r
        mem := memoryAfter e m.data } := by
  obtain ⟨m₁, hissue⟩ := issueMemory_total e m
  obtain ⟨m₂, hphase⟩ := memPhase_issue hissue hin
  obtain ⟨hdata, hload, -⟩ := memPhase_issue_spec hissue hphase
  have hr : writeBack (promoteExec0 e) m₂.dataout r = e.apply m.data r := by
    refine @writeBack_eq_apply (promoteExec0 e) _ _ _ ?_ ?_
    · intro _
      simp [promoteExec0, hact, halu]
    · exact fun _ hop => hload hact hop
  simp only [execStages, hissue, hphase, bind, Except.bind, pure, Except.pure, hr,
    hdata]
  rfl

/-- The pipeline's ALU instructions write registers from 2 on. -/
theorem apply_alu {e : ExecLatch} {v : Word} (hact : e.active = true)
    (halu : e.fields.isAlu = true)
    (hv : aluResult e.fields e.alu0 e.alu1 = some v) (mem : Mem) (r : RegFile) :
    e.apply mem r =
      if 2#3 ≤ e.fields.dst then Function.update r e.fields.dst v else r := by
  have hop : e.fields.op ≠ .LD := (Fields.op_of_isAlu halu).1
  unfold ExecLatch.apply ExecLatch.writes ExecLatch.value
  rw [if_pos hact, halu, Bool.true_or, if_pos rfl, if_neg hop, hv]
  split_ifs <;> rfl

theorem nextPc_of_alu {e : ExecLatch} (halu : e.fields.isAlu = true) :
    e.nextPc = e.pc + 1 := by
  unfold Fields.isAlu at halu
  unfold ExecLatch.nextPc ExecLatch.branch branchOf
  cases hop : e.fields.op <;> simp [hop] at halu ⊢

/-! ## The multi-cycle side -/

section Instructions

open MultiCycle (Ready six_clocks pcPlusOne_eq)

variable {sp : MultiCycle.Sp}

theorem sixClocks_of_run {sp₆ : MultiCycle.Sp}
    (h : runFor MultiCycle.tick 6 sp = some sp₆) :
    sixClocks sp = some ⟨some sp₆.spro.pc, sp₆.spro.r, sp₆.sram.data⟩ := by
  obtain ⟨sp₅, hrun₅, ht⟩ := runFor_pred h
  obtain ⟨hclock, hstop⟩ := MultiCycle.llsimRunClock_of_tick ht
  simp [sixClocks, hrun₅, hclock, hstop]

theorem sameEffect_iff {e e' : Effect} (h : sixClocks sp = some e)
    (h' : execStages sp.latched sp.spro.r
      (llsimAllocateMemory .sramd sp.sram.data) = .ok e') :
    SameEffect sp ↔ e.Same e' := by
  constructor
  · rintro ⟨e₁, e₁', h₁, h₁', hsame⟩
    obtain rfl := Option.some.inj (h.symm.trans h₁)
    obtain rfl := Except.ok.inj (h'.symm.trans h₁')
    exact hsame
  · exact fun hsame => ⟨e, e', h, h', hsame⟩

/-- Both processors decode alike. -/
theorem decodeFields_eq (inst : Word) :
    Pipeline.decodeFields inst = MultiCycle.decodeFields inst := by
  have himm := MultiCycle.decodeFields_immediate inst
  unfold MultiCycle.decodeFields at himm ⊢
  rw [Pipeline.decodeFields, Fields.mk.injEq]
  exact ⟨rfl, rfl, rfl, rfl, himm.symm⟩

@[simp] theorem latched_active (sp : MultiCycle.Sp) :
    sp.latched.active = true := rfl

theorem latched_fields (sp : MultiCycle.Sp) : sp.latched.fields = sp.fields :=
  decodeFields_eq _

/-- The selected operands, which LHI does not use on the multi-cycle side. -/
theorem latched_alu0 (sp : MultiCycle.Sp) : sp.latched.alu0 =
    operand sp.spro.r sp.fields.immediate sp.fields.src0 := by
  rw [← latched_fields]
  rfl

theorem latched_alu1 (sp : MultiCycle.Sp) : sp.latched.alu1 =
    operand sp.spro.r sp.fields.immediate sp.fields.src1 := by
  rw [← latched_fields]
  rfl

theorem alu0_eq_latched (hop : sp.fields.op ≠ .LHI) : sp.alu0 = sp.latched.alu0 := by
  rw [latched_alu0, MultiCycle.Sp.alu0, MultiCycle.decOperands, if_neg hop]

theorem alu1_eq_latched (hop : sp.fields.op ≠ .LHI) : sp.alu1 = sp.latched.alu1 := by
  rw [latched_alu1, MultiCycle.Sp.alu1, MultiCycle.decOperands, if_neg hop]

/-- The pipeline's effect of the next instruction. -/
theorem execStages_latched
    (hin : sp.fields.op = .LD ∨ sp.fields.op = .ST → InRange sp.latched.alu1) :
    execStages sp.latched sp.spro.r (llsimAllocateMemory .sramd sp.sram.data) =
      .ok
        { next := if sp.fields.op = .HLT then none else some sp.latched.nextPc
          r := sp.latched.apply sp.sram.data sp.spro.r
          mem := memoryAfter sp.latched sp.sram.data } := by
  have hin' : sp.latched.accesses = true → InRange sp.latched.alu1 := by
    intro hacc
    simp only [ExecLatch.accesses, latched_fields, Bool.and_eq_true,
      Bool.or_eq_true, beq_iff_eq] at hacc
    exact hin hacc.2
  rw [execStages_eq rfl rfl hin', latched_fields]
  rfl

/-- The two guards differ at r1, which is none of the registers compared. -/
theorem writes_agree_iff (r : RegFile) {dst : BitVec 3} {v v' : Word} :
    (∀ i, 2#3 ≤ i → (if dst ≠ 0 then Function.update r dst v else r) i =
      (if 2#3 ≤ dst then Function.update r dst v' else r) i) ↔
      (2#3 ≤ dst → v = v') := by
  constructor
  · intro hwrites hdst
    have hvalue := hwrites dst hdst
    rwa [if_pos ((two_le_iff _).mp hdst).1, if_pos hdst, Function.update_self,
      Function.update_self] at hvalue
  · intro heq i hi
    by_cases hdst : 2#3 ≤ dst
    · rw [if_pos ((two_le_iff _).mp hdst).1, if_pos hdst, heq hdst]
    · have hne : i ≠ dst := by
        rintro rfl
        exact hdst hi
      rw [if_neg hdst]
      split_ifs
      · exact Function.update_of_ne hne _ _
      · rfl

/-- ALU instructions: the effects are the same if and only if the results are,
or the result is not written. -/
theorem sameEffect_alu (h : Ready sp) (hpc : sp.spro.pc.toNat < 65535)
    (halu : sp.fields.isAlu = true) {v v' : Word}
    (hv : MultiCycle.exec0Aluout sp.fields.op sp.alu0 sp.alu1 = .ok v)
    (hv' : aluResult sp.fields sp.latched.alu0 sp.latched.alu1 = some v') :
    SameEffect sp ↔ (2#3 ≤ sp.fields.dst → v = v') := by
  obtain ⟨hld, hst, hhlt⟩ := Fields.op_of_isAlu halu
  obtain ⟨sp₆, hrun, -, hr, hpc₆, hdata⟩ := six_clocks h
    (inRange_iff.mpr (by omega)) hv (by simp [hld, hst]) hhlt
    (MultiCycle.ctlExec1_alu halu _)
  rw [sameEffect_iff (sixClocks_of_run hrun)
    (execStages_latched (by simp [hld, hst]))]
  have hlatched : sp.latched.fields.isAlu = true := by rw [latched_fields]; exact halu
  have happly := apply_alu rfl hlatched (by rw [latched_fields]; exact hv')
    sp.sram.data sp.spro.r
  rw [latched_fields] at happly
  have hwrite : sp₆.spro.r = if sp.fields.dst ≠ 0 then
      Function.update sp.spro.r sp.fields.dst v else sp.spro.r := hr
  have hnext : sp₆.spro.pc = sp.latched.nextPc := by
    rw [hpc₆, nextPc_of_alu hlatched]
    exact pcPlusOne_eq hpc
  have hmem : sp₆.sram.data = memoryAfter sp.latched sp.sram.data := by
    rw [hdata, MultiCycle.Sp.dataAfter, if_neg hst]
    simp [memoryAfter, latched_fields, hst]
  rw [← writes_agree_iff sp.spro.r]
  constructor
  · intro hsame i hi
    rw [← hwrite, ← happly]
    exact hsame.r i hi
  · intro hwrites
    refine ⟨?_, ?_, hmem⟩
    · rw [if_neg hhlt, hnext]
    · intro i hi
      show sp₆.spro.r i = sp.latched.apply sp.sram.data sp.spro.r i
      rw [hwrite, happly]
      exact hwrites i hi

theorem dataAfter_eq (hlhi : sp.fields.op ≠ .LHI) :
    sp.dataAfter = memoryAfter sp.latched sp.sram.data := by
  rw [MultiCycle.Sp.dataAfter, memoryAfter, latched_fields, alu0_eq_latched hlhi,
    alu1_eq_latched hlhi]
  by_cases hop : sp.fields.op = .ST
  · rw [if_pos hop, if_pos (by rw [hop]; rfl)]
  · rw [if_neg hop, if_neg (by simpa using hop)]

/-- Six clocks whose EXEC1 leaves what the pipeline's stages leave. -/
theorem sameEffect_of_clocks (h : Ready sp) (hpc : sp.spro.pc.toNat < 65535)
    (hclass : sp.fields.op ≠ .LHI ∧ sp.fields.op ≠ .HLT) {aluout : Word}
    {s₆ : MultiCycle.SpRegisters}
    (halu : MultiCycle.exec0Aluout sp.fields.op sp.alu0 sp.alu1 = .ok aluout)
    (haddr : sp.fields.op = .LD ∨ sp.fields.op = .ST → InRange sp.latched.alu1)
    (hexec1 : MultiCycle.ctlExec1 (sp.atExec1 aluout)
      (sp.sram.data sp.alu1.toNat) = .ok s₆) :
    SameEffect sp ↔ s₆.pc = sp.latched.nextPc ∧
      ∀ i, 2#3 ≤ i → s₆.r i = sp.latched.apply sp.sram.data sp.spro.r i := by
  obtain ⟨hlhi, hhlt⟩ := hclass
  obtain ⟨sp₆, hrun, -, hr, hpc₆, hdata⟩ := six_clocks h
    (inRange_iff.mpr (by omega)) halu (by rw [alu1_eq_latched hlhi]; exact haddr)
    hhlt hexec1
  rw [sameEffect_iff (sixClocks_of_run hrun) (execStages_latched haddr), if_neg hhlt]
  constructor
  · rintro ⟨hnext, hregs, -⟩
    exact ⟨hpc₆.symm.trans (Option.some.inj hnext), fun i hi => hr ▸ hregs i hi⟩
  · rintro ⟨hnext, hregs⟩
    refine ⟨congrArg some (hpc₆.trans hnext), ?_, hdata.trans (dataAfter_eq hlhi)⟩
    intro i hi
    rw [hr]
    exact hregs i hi

theorem sameEffect_load (h : Ready sp) (hpc : sp.spro.pc.toNat < 65535)
    (hop : sp.fields.op = .LD) (haddr : InRange sp.latched.alu1) :
    SameEffect sp := by
  have hopAt : (sp.atExec1 0).fields.op = .LD := hop
  have hopL : sp.latched.fields.op = .LD := by rw [latched_fields, hop]
  rw [sameEffect_of_clocks h hpc (by simp [hop]) (by rw [hop]; rfl)
    (fun _ => haddr) (by unfold MultiCycle.ctlExec1; simp only [hopAt]; rfl)]
  constructor
  · rw [ExecLatch.nextPc, ExecLatch.branch, branchOf, hopL]
    exact pcPlusOne_eq hpc
  · intro i hi
    have hwrites : sp.latched.writes =
        if 2#3 ≤ sp.fields.dst then some sp.fields.dst else none := by
      unfold ExecLatch.writes
      rw [if_pos (latched_active sp), hopL, latched_fields]
      simp
    show Function.update sp.spro.r sp.fields.dst (sp.sram.data sp.alu1.toNat) i = _
    rw [alu1_eq_latched (by simp [hop])]
    by_cases hdst : i = sp.fields.dst
    · rw [ExecLatch.apply_of_writes (by rw [hwrites, if_pos (hdst ▸ hi), hdst]),
        ExecLatch.value, if_pos hopL, hdst, Function.update_self]
    · rw [Function.update_of_ne hdst, ExecLatch.apply_of_ne]
      rw [hwrites]
      split_ifs
      · exact fun heq => hdst (Option.some.inj heq).symm
      · simp

/-- ST and the undefined opcodes write no register. -/
theorem sameEffect_nonwriter (h : Ready sp) (hpc : sp.spro.pc.toNat < 65535)
    (hop : sp.fields.op = .ST ∨ sp.fields.op = .U)
    (haddr : sp.fields.op = .ST → InRange sp.latched.alu1) : SameEffect sp := by
  have hwrites : sp.latched.writes = none := by
    unfold ExecLatch.writes ExecLatch.branch branchOf Fields.isAlu
    rw [latched_fields]
    rcases hop with hop | hop <;> simp [hop]
  have hnext : sp.latched.nextPc = sp.spro.pc + 1 := by
    rw [ExecLatch.nextPc, ExecLatch.branch, branchOf, latched_fields]
    rcases hop with hop | hop <;> rw [hop] <;> rfl
  have hexec1 : ∀ aluout d, MultiCycle.ctlExec1 (sp.atExec1 aluout) d = .ok
      { sp.atExec1 aluout with
        pc := (sp.atExec1 aluout).pcPlusOne, ctlState := .FETCH0 } := by
    intro aluout d
    unfold MultiCycle.ctlExec1
    have hfields : (sp.atExec1 aluout).fields = sp.fields := rfl
    rcases hop with hop | hop <;> simp only [hfields, hop]
  have halu : ∃ aluout, MultiCycle.exec0Aluout sp.fields.op sp.alu0 sp.alu1 =
      .ok aluout := by
    rcases hop with hop | hop <;> rw [hop] <;> exact ⟨_, rfl⟩
  obtain ⟨aluout, halu⟩ := halu
  rw [sameEffect_of_clocks h hpc (by rcases hop with hop | hop <;> simp [hop]) halu
    (fun hmem => haddr (by rcases hop with hop | hop <;> simp [hop] at hmem ⊢))
    (hexec1 aluout _)]
  refine ⟨(pcPlusOne_eq hpc).trans hnext.symm, ?_⟩
  intro i _
  rw [ExecLatch.apply_of_ne (by simp [hwrites])]
  rfl

/-- Both processors save the address of the jump itself. -/
theorem sameEffect_jump (h : Ready sp) (hpc : sp.spro.pc.toNat < 65535)
    (hjump : MultiCycle.isCondJump sp.fields.op = true) : SameEffect sp := by
  obtain ⟨hlhi, hld, hst, hhlt, -, -⟩ := MultiCycle.op_of_isCondJump hjump
  have hnoalu : sp.fields.isAlu = false := by
    unfold MultiCycle.isCondJump at hjump
    cases hop : sp.fields.op <;> simp [hop, Fields.isAlu] at hjump ⊢
  have hbranch : sp.latched.branch =
      if sp.fields.op.condHolds sp.alu0 sp.alu1 then
        some (sp.fields.immediate &&& 0xFFFF) else none := by
    unfold MultiCycle.isCondJump at hjump
    rw [ExecLatch.branch, branchOf, latched_fields, alu0_eq_latched hlhi,
      alu1_eq_latched hlhi]
    cases hop : sp.fields.op <;> simp [hop] at hjump ⊢
  have hwrites : sp.latched.writes =
      if sp.fields.op.condHolds sp.alu0 sp.alu1 then some 7 else none := by
    unfold ExecLatch.writes
    rw [if_pos (latched_active sp), latched_fields, hnoalu, hbranch]
    have hop : (sp.fields.op == .LD) = false := by simpa using hld
    cases sp.fields.op.condHolds sp.alu0 sp.alu1 <;> simp [hop]
  have hvalue : sp.latched.value sp.sram.data = sp.spro.pc := by
    rw [ExecLatch.value, latched_fields, if_neg hld, aluResult_none hnoalu]
    rfl
  rw [sameEffect_of_clocks h hpc ⟨hlhi, hhlt⟩ (MultiCycle.exec0Aluout_jump hjump _ _)
    (by simp [hld, hst]) (MultiCycle.ctlExec1_jump hjump _)]
  cases hcond : sp.fields.op.condHolds sp.alu0 sp.alu1 with
  | true =>
      rw [hcond] at hbranch hwrites
      constructor
      · rw [ExecLatch.nextPc, hbranch]
        rfl
      · intro i _
        show Function.update sp.spro.r 7 sp.spro.pc i = _
        rw [ExecLatch.apply, hwrites, hvalue]
        rfl
  | false =>
      rw [hcond] at hbranch hwrites
      constructor
      · rw [ExecLatch.nextPc, hbranch]
        exact pcPlusOne_eq hpc
      · intro i _
        rw [ExecLatch.apply, hwrites]
        rfl

/-- The pipeline jumps to its operand, the multi-cycle processor to what the
register of that number holds. -/
theorem sameEffect_jin (h : Ready sp) (hpc : sp.spro.pc.toNat < 65535)
    (hop : sp.fields.op = .JIN) :
    SameEffect sp ↔ sp.latched.alu0.toNat < 8 ∧
      sp.spro.r (sp.latched.alu0.setWidth 3) &&& 0xFFFF = sp.latched.alu0 := by
  have halu : MultiCycle.exec0Aluout sp.fields.op sp.alu0 sp.alu1 = .ok 0 := by
    rw [hop]
    rfl
  have hexec1 := @MultiCycle.ctlExec1_jin (sp.atExec1 0) hop
    (sp.sram.data sp.alu1.toNat)
  have halu0 : (sp.atExec1 0).alu0 = sp.latched.alu0 :=
    alu0_eq_latched (by simp [hop])
  rw [halu0] at hexec1
  have hbranch : sp.latched.branch = some sp.latched.alu0 := by
    rw [ExecLatch.branch, branchOf, latched_fields, hop]
  unfold MultiCycle.readReg at hexec1
  by_cases hindex : sp.latched.alu0.toNat < 8
  · rw [if_pos hindex] at hexec1
    rw [sameEffect_of_clocks h hpc (by simp [hop]) halu (by simp [hop]) hexec1]
    have happly : ∀ i, sp.latched.apply sp.sram.data sp.spro.r i =
        Function.update sp.spro.r 7 sp.spro.pc i := by
      intro i
      unfold ExecLatch.apply ExecLatch.writes ExecLatch.value
      rw [if_pos (latched_active sp), latched_fields, hbranch]
      simp [Fields.isAlu, hop, aluResult]
      rfl
    rw [ExecLatch.nextPc, hbranch]
    constructor
    · rintro ⟨hnext, -⟩
      exact ⟨hindex, hnext⟩
    · rintro ⟨-, hnext⟩
      exact ⟨hnext, fun i _ => (happly i).symm⟩
  · rw [if_neg hindex] at hexec1
    obtain ⟨sp₅, hrun₅, herror⟩ := MultiCycle.six_clocks_error h
      (inRange_iff.mpr (by omega)) halu (by simp [hop]) hexec1
    constructor
    · rintro ⟨e, e', he, -⟩
      simp [sixClocks, hrun₅, herror] at he
    · rintro ⟨hc, -⟩
      exact absurd hc hindex

theorem sameEffect_halt (h : Ready sp) (hpc : sp.spro.pc.toNat < 65535)
    (hop : sp.fields.op = .HLT) : SameEffect sp := by
  obtain ⟨sp₅, -, hrun₅, -, -, -, sp₆, hclock, hstop, hr, hdata⟩ :=
    MultiCycle.halt_clocks h (inRange_iff.mpr (by omega)) hop
  have hsix : sixClocks sp = some ⟨none, sp.spro.r, sp.sram.data⟩ := by
    simp [sixClocks, hrun₅, hclock, hstop, hr, hdata]
  have hwrites : sp.latched.writes = none := by
    unfold ExecLatch.writes ExecLatch.branch branchOf Fields.isAlu
    rw [latched_fields]
    simp [hop]
  rw [sameEffect_iff hsix (execStages_latched (by simp [hop])), if_pos hop]
  refine ⟨rfl, ?_, ?_⟩
  · intro i _
    exact (ExecLatch.apply_of_ne (by simp [hwrites]) _ _).symm
  · simp [memoryAfter, latched_fields, hop]

/-! ## ALU results -/

theorem shiftMask_of_lt {n : Word} (h : n.toNat < 32) :
    (n &&& 31).toNat = n.toNat := by
  rw [BitVec.toNat_and]
  exact (Nat.and_two_pow_sub_one_eq_mod n.toNat 5).trans (Nat.mod_eq_of_lt h)

/-- The two right shifts differ for negative words only. -/
theorem shiftRight_eq_iff {x n : Word} (h : n.toNat < 32) :
    x.sshiftRight n.toNat = x >>> n.toNat ↔ x.msb = false ∨ n = 0 := by
  constructor
  · intro heq
    by_contra hno
    simp only [not_or, Bool.not_eq_false] at hno
    have hpos : 0 < n.toNat := by
      by_contra hzero
      exact hno.2 (BitVec.eq_of_toNat_eq (by simpa using hzero))
    have hmsb := congrArg BitVec.msb heq
    rw [BitVec.msb_sshiftRight, hno.1, BitVec.msb_eq_getLsbD_last,
      BitVec.getLsbD_ushiftRight, BitVec.getLsbD_of_ge _ _ (by omega)] at hmsb
    exact Bool.noConfusion hmsb
  · rintro (hmsb | rfl)
    · exact BitVec.sshiftRight_eq_of_msb_false hmsb
    · simp

/-- Outside RSF and LHI both compute the same result. -/
theorem aluResults_eq {f : Fields} (halu : f.isAlu = true)
    (hop : f.op ≠ .RSF ∧ f.op ≠ .LHI) {a b : Word}
    (hshift : f.op = .LSF → b.toNat < 32) :
    ∃ v, MultiCycle.exec0Aluout f.op a b = .ok v ∧ aluResult f a b = some v := by
  obtain ⟨hrsf, hlhi⟩ := hop
  unfold Fields.isAlu at halu
  unfold MultiCycle.exec0Aluout aluResult
  cases hcase : f.op <;> simp only [hcase, Bool.false_eq_true] at halu hshift ⊢
  case RSF => exact absurd hcase hrsf
  case LHI => exact absurd hcase hlhi
  case LSF =>
    have hlt := hshift trivial
    refine ⟨a <<< b.toNat, ?_, ?_⟩
    · rw [shiftAmount, if_pos hlt]
      rfl
    · rw [shiftMask_of_lt hlt]
  all_goals exact ⟨_, rfl, rfl⟩

theorem sameEffect_rsf (h : Ready sp) (hpc : sp.spro.pc.toNat < 65535)
    (hop : sp.fields.op = .RSF) (hshift : sp.latched.alu1.toNat < 32) :
    SameEffect sp ↔ (2#3 ≤ sp.fields.dst →
      sp.latched.alu0.msb = false ∨ sp.latched.alu1 = 0) := by
  have halu : sp.fields.isAlu = true := by rw [Fields.isAlu, hop]
  have hlhi : sp.fields.op ≠ .LHI := by simp [hop]
  have hv : MultiCycle.exec0Aluout sp.fields.op sp.alu0 sp.alu1 =
      .ok (sp.latched.alu0.sshiftRight sp.latched.alu1.toNat) := by
    rw [alu0_eq_latched hlhi, alu1_eq_latched hlhi, hop]
    simp only [MultiCycle.exec0Aluout, shiftAmount, if_pos hshift]
    rfl
  have hv' : aluResult sp.fields sp.latched.alu0 sp.latched.alu1 =
      some (sp.latched.alu0 >>> sp.latched.alu1.toNat) := by
    simp only [aluResult, hop, shiftMask_of_lt hshift]
  rw [sameEffect_alu h hpc halu hv hv', shiftRight_eq_iff hshift]

theorem sameEffect_lhi (h : Ready sp) (hpc : sp.spro.pc.toNat < 65535)
    (hop : sp.fields.op = .LHI) :
    SameEffect sp ↔
      (2#3 ≤ sp.fields.dst → sp.latched.alu0 &&& 0xFFFF = 0) := by
  have halu : sp.fields.isAlu = true := by rw [Fields.isAlu, hop]
  have hv' : aluResult sp.fields sp.latched.alu0 sp.latched.alu1 =
      some (((sp.fields.immediate &&& 0xFFFF) <<< 16) |||
        (sp.latched.alu0 &&& 0xFFFF)) := by
    simp only [aluResult, hop]
  have hhigh : sp.fields.immediate &&& 0xFFFF =
      sp.fields.immediate &&& 0xFFFF &&& 0xFFFF := by
    rw [BitVec.and_assoc, BitVec.and_self]
  rw [sameEffect_alu h hpc halu (MultiCycle.Sp.exec0Aluout_lhi hop) hv',
    halves_eq_iff]
  constructor
  · intro hsame hdst
    exact (hsame hdst).2.symm
  · intro hzero hdst
    exact ⟨hhigh, (hzero hdst).symm⟩

/-! ## The exact agreement -/

/-- The instructions that both processors execute to the same effect. -/
def EffectAgrees (sp : MultiCycle.Sp) : Prop :=
  match sp.fields.op with
  | .RSF => 2#3 ≤ sp.fields.dst →
      sp.latched.alu0.msb = false ∨ sp.latched.alu1 = 0
  | .LHI => 2#3 ≤ sp.fields.dst → sp.latched.alu0 &&& 0xFFFF = 0
  | .JIN => sp.latched.alu0.toNat < 8 ∧
      sp.spro.r (sp.latched.alu0.setWidth 3) &&& 0xFFFF = sp.latched.alu0
  | _ => True

/-- **The two processors execute the same instruction set, except** RSF of a
negative word, LHI over a non-zero low half and JIN, unless the register whose
number the operand is holds that number. -/
theorem sameEffect_iff_agrees (h : Ready sp) (hpc : sp.spro.pc.toNat ≤ 65534)
    (hdma : sp.fields.op ≠ .DMA_START ∧ sp.fields.op ≠ .DMA_STATUS)
    (haddr : sp.fields.op = .LD ∨ sp.fields.op = .ST → InRange sp.latched.alu1)
    (hshift : sp.fields.op = .LSF ∨ sp.fields.op = .RSF →
      sp.latched.alu1.toNat < 32) :
    SameEffect sp ↔ EffectAgrees sp := by
  have hlow : sp.spro.pc.toNat < 65535 := by omega
  unfold EffectAgrees
  cases hop : sp.fields.op
  case RSF => exact sameEffect_rsf h hlow hop (hshift (Or.inr hop))
  case LHI => exact sameEffect_lhi h hlow hop
  case JIN => exact sameEffect_jin h hlow hop
  case LD => exact iff_true_intro (sameEffect_load h hlow hop (haddr (Or.inl hop)))
  case ST =>
    exact iff_true_intro
      (sameEffect_nonwriter h hlow (Or.inl hop) fun hst => haddr (Or.inr hst))
  case U =>
    have hnost : sp.fields.op ≠ .ST := by simp [hop]
    exact iff_true_intro
      (sameEffect_nonwriter h hlow (Or.inr hop) fun hst => absurd hst hnost)
  case HLT => exact iff_true_intro (sameEffect_halt h hlow hop)
  case JLT | JLE | JEQ | JNE =>
    exact iff_true_intro (sameEffect_jump h hlow (by rw [hop]; rfl))
  case DMA_START => exact absurd hop hdma.1
  case DMA_STATUS => exact absurd hop hdma.2
  all_goals
    have halu : sp.fields.isAlu = true := by rw [Fields.isAlu, hop]
    have hlhi : sp.fields.op ≠ .LHI := by simp [hop]
    obtain ⟨v, hv, hv'⟩ := @aluResults_eq sp.fields halu (by simp [hop])
      sp.latched.alu0 sp.latched.alu1 (fun hlsf => hshift (Or.inl hlsf))
    rw [← alu0_eq_latched hlhi, ← alu1_eq_latched hlhi] at hv
    exact iff_true_intro ((sameEffect_alu h hlow halu hv hv').mpr fun _ => rfl)

end Instructions

/-- `LD r2, [16]`. -/
def loadImage : Mem := imageOf [0x10810010]

theorem sameEffect_iff_agrees_load :
    ∃ sp, MultiCycle.clockState loadImage 1 = some sp ∧
      (SameEffect sp ↔ EffectAgrees sp) :=
  ⟨_, rfl, sameEffect_iff_agrees ⟨rfl, rfl, rfl⟩ (by decide +kernel)
    (by decide +kernel) (by decide +kernel) (by decide +kernel)⟩

/-- `JIN imm 5`. -/
def jinImage : Mem := imageOf [0x28080005]

/-- The pipeline goes to 5, the multi-cycle processor to the contents of r5. -/
theorem effect_differs_jin :
    ∃ sp, MultiCycle.clockState jinImage 1 = some sp ∧ MultiCycle.Ready sp ∧
      sp.spro.r 0 = 0 ∧ sp.spro.r 1 = 0 ∧ sp.spro.pc.toNat ≤ 65534 ∧
      sp.fields.op = .JIN ∧ ¬SameEffect sp := by
  refine ⟨_, rfl, ⟨rfl, rfl, rfl⟩, rfl, rfl, by decide +kernel, by decide +kernel,
    ?_⟩
  rw [sameEffect_jin ⟨rfl, rfl, rfl⟩ (by decide +kernel) (by decide +kernel)]
  decide +kernel

end SuperscalarProcessor
