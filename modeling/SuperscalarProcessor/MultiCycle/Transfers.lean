import SuperscalarProcessor.MultiCycle.Simulation

/-!
# LHI and control transfers against the ISS

One instruction on both sides from the same pc, registers and memory. The two
implementations part in three places: LHI drops its operands on the processor,
taken jumps save different return addresses, and JIN uses its operand as a
register number.
-/

namespace SuperscalarProcessor.MultiCycle

open Llsim Foundation

/-- The ISS on the processor's pc, registers and memory. -/
def Sp.iss (sp : Sp) : Iss.State := ⟨sp.sram.data, sp.spro.r, sp.spro.pc, false⟩

/-- LHI and the jumps. -/
def isTransfer (op : Opcode) : Bool := isCondJump op || op == .LHI || op == .JIN

/-- Six clocks and one iteration end with the same pc and registers from r2 on. -/
def SameTransfer (sp : Sp) : Prop :=
  ∃ sp' s', runFor tick 6 sp = some sp' ∧ Iss.step sp.iss = some s' ∧
    sp'.spro.pc = s'.pc ∧ ∀ i, 2#3 ≤ i → sp'.spro.r i = s'.reg i

theorem sameTransfer_iff {sp sp' : Sp} {s' : Iss.State}
    (hclocks : runFor tick 6 sp = some sp') (hstep : Iss.step sp.iss = some s') :
    SameTransfer sp ↔
      sp'.spro.pc = s'.pc ∧ ∀ i, 2#3 ≤ i → sp'.spro.r i = s'.reg i := by
  constructor
  · rintro ⟨sp₁, s₁, hclocks₁, hstep₁, hsame⟩
    obtain rfl := Option.some.inj (hclocks.symm.trans hclocks₁)
    obtain rfl := Option.some.inj (hstep.symm.trans hstep₁)
    exact hsame
  · intro hsame
    exact ⟨sp', s', hclocks, hstep, hsame⟩

section Transfers

variable {sp : Sp}

theorem Sp.iss_fields (sp : Sp) : sp.iss.fields = sp.fields :=
  (decodeFields_eq_decode sp.word).symm

theorem Sp.iss_val0 (hop : sp.fields.op ≠ .LHI) : sp.iss.val0 = sp.alu0 := by
  rw [Iss.State.val0, sp.iss_fields, Sp.alu0, decOperands, if_neg hop]
  rfl

theorem Sp.iss_val1 (hop : sp.fields.op ≠ .LHI) : sp.iss.val1 = sp.alu1 := by
  rw [Iss.State.val1, sp.iss_fields, Sp.alu1, decOperands, if_neg hop]
  rfl

theorem Sp.iss_step {s' : Iss.State} (hpc : sp.spro.pc.toNat < 65536)
    (hit : Iss.iteration sp.iss = .ok s') : Iss.step sp.iss = some s' := by
  rw [Iss.step, if_pos ⟨rfl, hpc⟩, hit]
  rfl

/-- The two sides never save the same link. -/
theorem link_ne (r : RegFile) (pc : Word) :
    ¬∀ i, 2#3 ≤ i →
      Function.update r 7 pc i = Function.update r 7 (pc + 1) i := by
  rw [update_same_iff (by decide)]
  intro h
  have hnat := congrArg BitVec.toNat h
  rw [BitVec.toNat_add] at hnat
  have hone : (1 : Word).toNat = 1 := rfl
  have := pc.isLt
  omega

/-! ## LHI -/

/-- ALU instructions agree if and only if the results do. -/
theorem sameTransfer_alu (h : Ready sp) (hpc : sp.spro.pc.toNat < 65535)
    (halu : sp.fields.isAlu = true) (hdst : 2#3 ≤ sp.fields.dst) {v v' : Word}
    (hv : exec0Aluout sp.fields.op sp.alu0 sp.alu1 = .ok v)
    (hv' : Iss.result sp.fields.op sp.iss.val0 sp.iss.val1 = .ok v') :
    SameTransfer sp ↔ v = v' := by
  obtain ⟨hld, hst, hhlt⟩ := Fields.op_of_isAlu halu
  obtain ⟨sp', hclocks, -, hr, hpc', -⟩ := six_clocks h (inRange_iff.mpr (by omega))
    hv (by simp [hld, hst]) hhlt (ctlExec1_alu halu _)
  have hit : Iss.iteration sp.iss = .ok
      { sp.iss with
        reg := Function.update sp.spro.r sp.fields.dst v', pc := sp.spro.pc + 1 } := by
    rw [Iss.iteration_alu (by rw [sp.iss_fields]; exact halu), sp.iss_fields, hv']
    rfl
  have hdst0 : sp.fields.dst ≠ 0 := ((two_le_iff _).mp hdst).1
  have hwrite : sp'.spro.r = Function.update sp.spro.r sp.fields.dst v :=
    hr.trans (if_pos hdst0)
  have hnext : sp'.spro.pc = sp.spro.pc + 1 := hpc'.trans (pcPlusOne_eq hpc)
  rw [sameTransfer_iff hclocks (Sp.iss_step (by omega) hit), hwrite, hnext,
    update_same_iff hdst]
  exact and_iff_right rfl

/-- The ALU output of LHI, whatever its source fields name. -/
theorem Sp.exec0Aluout_lhi (hop : sp.fields.op = .LHI) :
    exec0Aluout sp.fields.op sp.alu0 sp.alu1 =
      .ok ((sp.fields.immediate <<< 16) ||| ((0 : Word) &&& 0xFFFF)) := by
  rw [hop, Sp.alu0, Sp.alu1, decOperands, if_pos hop]
  rfl

/-- The processor shifts in the immediate and clears the low half. -/
theorem sameTransfer_lhi (h : Ready sp) (hpc : sp.spro.pc.toNat < 65535)
    (hop : sp.fields.op = .LHI) (hdst : 2#3 ≤ sp.fields.dst) :
    SameTransfer sp ↔ sp.iss.val0 &&& 0xFFFF = 0 ∧
      sp.iss.val1 &&& 0xFFFF = sp.fields.immediate &&& 0xFFFF := by
  have halu : sp.fields.isAlu = true := by rw [Fields.isAlu, hop]
  have hv' : Iss.result sp.fields.op sp.iss.val0 sp.iss.val1 =
      .ok ((sp.iss.val1 <<< 16) ||| (sp.iss.val0 &&& 0xFFFF)) := by
    rw [hop]
    rfl
  rw [sameTransfer_alu h hpc halu hdst (Sp.exec0Aluout_lhi hop) hv', halves_eq_iff]
  constructor
  · rintro ⟨himm, hlow⟩
    exact ⟨hlow.symm, himm.symm⟩
  · rintro ⟨hlow, himm⟩
    exact ⟨himm.symm, hlow.symm⟩

/-! ## Jumps -/

/-- A taken jump saves its own pc here and its successor there. -/
theorem sameTransfer_jump (h : Ready sp) (hpc : sp.spro.pc.toNat < 65535)
    (hjump : isCondJump sp.fields.op = true) :
    SameTransfer sp ↔ sp.fields.op.condHolds sp.iss.val0 sp.iss.val1 = false := by
  obtain ⟨hlhi, hld, hst, hhlt, -, -⟩ := op_of_isCondJump hjump
  have halu := exec0Aluout_jump hjump sp.alu0 sp.alu1
  have hjumpAt : ∀ aluout, isCondJump (sp.atExec1 aluout).fields.op = true :=
    fun _ => hjump
  obtain ⟨sp', hclocks, -, hr, hpc', -⟩ := six_clocks h (inRange_iff.mpr (by omega))
    halu (by simp [hld, hst]) hhlt (ctlExec1_jump (hjumpAt _) _)
  have hit := @iteration_jump sp.iss (by rw [sp.iss_fields]; exact hjump)
  rw [sameTransfer_iff hclocks (Sp.iss_step (by omega) hit), hr, hpc',
    sp.iss_fields, Sp.iss_val0 hlhi, Sp.iss_val1 hlhi]
  cases hcond : sp.fields.op.condHolds sp.alu0 sp.alu1 with
  | true =>
      constructor
      · rintro ⟨-, hsame⟩
        exact absurd hsame (link_ne _ _)
      · intro hno
        exact Bool.noConfusion hno
  | false =>
      constructor
      · intro _
        rfl
      · intro _
        exact ⟨pcPlusOne_eq hpc, fun i _ => rfl⟩

/-- JIN reads a register by number, and saves its own pc. -/
theorem not_sameTransfer_jin (h : Ready sp) (hpc : sp.spro.pc.toNat < 65535)
    (hop : sp.fields.op = .JIN) : ¬SameTransfer sp := by
  have halu : exec0Aluout sp.fields.op sp.alu0 sp.alu1 = .ok 0 := by rw [hop]; rfl
  have hin : InRange sp.spro.pc := inRange_iff.mpr (by omega)
  have hexec1 := @ctlExec1_jin (sp.atExec1 0) hop (sp.sram.data sp.alu1.toNat)
  cases hread : readReg (sp.atExec1 0).r (sp.atExec1 0).alu0 with
  | error f =>
      rw [hread] at hexec1
      rintro ⟨sp', s', hclocks, -⟩
      obtain ⟨sp₅, hrun₅, herror⟩ :=
        six_clocks_error h hin halu (by simp [hop]) hexec1
      rw [runFor_succ_of_eq hrun₅, tick_of_error herror] at hclocks
      cases hclocks
  | ok target =>
      rw [hread] at hexec1
      obtain ⟨sp', hclocks, -, hr, -, -⟩ :=
        six_clocks h hin halu (by simp [hop]) (by simp [hop]) hexec1
      have hit : ∃ s', Iss.iteration sp.iss = .ok s' ∧
          s'.reg = Function.update sp.spro.r 7 (sp.spro.pc + 1) := by
        unfold Iss.iteration
        simp only [sp.iss_fields, hop]
        exact ⟨_, rfl, rfl⟩
      obtain ⟨s', hit, hreg⟩ := hit
      rw [sameTransfer_iff hclocks (Sp.iss_step (by omega) hit), hr, hreg]
      rintro ⟨-, hsame⟩
      exact link_ne _ _ hsame

/-! ## The exact agreement -/

/-- The instructions on which the two implementations agree. -/
def TransferAgrees (s : Iss.State) : Prop :=
  match s.fields.op with
  | .LHI => s.val0 &&& 0xFFFF = 0 ∧
      s.val1 &&& 0xFFFF = s.fields.immediate &&& 0xFFFF
  | .JIN => False
  | _ => s.fields.op.condHolds s.val0 s.val1 = false

/-- **LHI and control transfers, exactly when they agree.** LHI: the low half
of the first operand is zero and that of the second is the immediate's; a
conditional jump: it is not taken; JIN: never. -/
theorem sameTransfer_iff_agrees (h : Ready sp) (hpc : sp.spro.pc.toNat ≤ 65534)
    (htransfer : isTransfer sp.fields.op = true) (hdst : 2#3 ≤ sp.fields.dst) :
    SameTransfer sp ↔ TransferAgrees sp.iss := by
  have hlow : sp.spro.pc.toNat < 65535 := by omega
  unfold TransferAgrees
  rw [sp.iss_fields]
  cases hop : sp.fields.op
  case LHI => exact sameTransfer_lhi h hlow hop hdst
  case JIN => exact iff_false_intro (not_sameTransfer_jin h hlow hop)
  case JLT | JLE | JEQ | JNE =>
    rw [sameTransfer_jump h hlow (by rw [hop]; rfl), hop]
  all_goals
    rw [hop] at htransfer
    cases htransfer

end Transfers

/-! ## Runs with LHI -/

/-- The ISS executes a supported instruction, or an LHI to the processor's effect. -/
def Followed (s : Iss.State) : Prop :=
  Supported s ∨ (s.fields.op = .LHI ∧ s.pc.toNat < 65535 ∧ TransferAgrees s)

theorem Agrees.next_lhi {s s' : Iss.State} {sp : Sp} (h : Agrees s sp)
    (hop : s.fields.op = .LHI) (hpc : s.pc.toNat < 65535) (hsame : TransferAgrees s)
    (hit : Iss.iteration s = .ok s') :
    ∃ sp', runFor tick 6 sp = some sp' ∧ Agrees s' sp' := by
  have halu : s.fields.isAlu = true := by rw [Fields.isAlu, hop]
  have hfields := h.fields
  have hres : Iss.result s.fields.op s.val0 s.val1 =
      .ok ((s.fields.immediate <<< 16) ||| ((0 : Word) &&& 0xFFFF)) := by
    unfold TransferAgrees at hsame
    simp only [hop] at hsame
    rw [hop]
    exact congrArg Except.ok (halves_eq_iff.mpr ⟨hsame.2, hsame.1⟩)
  have halu' : (sp.atExec1 ((s.fields.immediate <<< 16) ||| (0 &&& 0xFFFF))).fields.isAlu =
      true := by
    show sp.fields.isAlu = true
    rw [hfields]
    exact halu
  rw [Iss.iteration_alu halu, hres] at hit
  obtain rfl := Except.ok.inj hit
  refine h.clocks (by omega) ?_ (by simp [hop]) (by simp [hop]) (ctlExec1_alu halu' _)
    ?_ ?_ ?_
  · have hlhi := @Sp.exec0Aluout_lhi sp (by rw [hfields, hop])
    rwa [hfields] at hlhi
  · show (sp.spro.pc + 1) &&& 0xFFFF = s.pc + 1
    rw [h.pc, pcPlusOne_eq hpc]
  · exact fun i htwo hseven => h.writeAluout _ htwo hseven
  · exact h.dataAfter (by simp [hop])

/-- Six clocks follow one iteration. -/
theorem Agrees.follow {s s' : Iss.State} {sp : Sp} (h : Agrees s sp) (hs : Followed s)
    (hstep : Iss.step s = some s') (hlive : s'.halted = false) :
    ∃ sp', runFor tick 6 sp = some sp' ∧ Agrees s' sp' := by
  rcases hs with hs | ⟨hop, hpc, hsame⟩
  · exact h.next hs hstep hlive
  · exact h.next_lhi hop hpc hsame (Iss.step_eq_some hstep).2.2

/-- `LHI r2, 0, imm 5`. -/
def lhiImage : Mem := imageOf [0x0E810005]

theorem sameTransfer_iff_agrees_lhi :
    ∃ sp, clockState lhiImage 1 = some sp ∧
      (SameTransfer sp ↔ TransferAgrees sp.iss) :=
  ⟨_, rfl, sameTransfer_iff_agrees ⟨rfl, rfl, rfl⟩ (by decide +kernel)
    (by decide +kernel) (by decide +kernel)⟩

/-- `JEQ 0, 0, 3` with destination field 2. -/
def linkImage : Mem := imageOf [0x24800003]

/-- The jump at 0 leaves 0 in r7 on the processor and 1 in the ISS. -/
theorem link_differs_jump :
    ∃ sp, clockState linkImage 1 = some sp ∧ Ready sp ∧ sp.spro.r 0 = 0 ∧
      sp.spro.r 1 = 0 ∧ sp.spro.pc.toNat ≤ 65534 ∧
      isTransfer sp.fields.op = true ∧ 2#3 ≤ sp.fields.dst ∧ ¬SameTransfer sp := by
  refine ⟨_, rfl, ⟨rfl, rfl, rfl⟩, rfl, rfl, by decide +kernel, by decide +kernel,
    by decide +kernel, ?_⟩
  rw [sameTransfer_jump ⟨rfl, rfl, rfl⟩ (by decide +kernel) (by decide +kernel)]
  decide +kernel

end SuperscalarProcessor.MultiCycle
