import SuperscalarProcessor.Foundation.HaltingRuns
import SuperscalarProcessor.Pipeline.Halting
import SuperscalarProcessor.Pipeline.Sequential

/-!
# The pipeline refines the bypass machine

What lab3_A executes for every program, its forwarding network taken as it is.
The bypass machine executes one whole instruction in each step, like the
sequential machine, but remembers the two instructions that stand in EXEC0 and
EXEC1 when the next one leaves DEC1. A source register named by the one in
EXEC1 is read from there, even if it is older than the register or was never
written.
-/

namespace SuperscalarProcessor.Pipeline

open Llsim Foundation

/-! ## The bypass machine -/

/-- An instruction in flight: its fields and the word EXEC1 forwards for it. -/
structure Slot where
  fields : Fields
  word : Word
deriving DecidableEq

/-- What DEC1 takes from it for the source field `src`. -/
def Slot.offer (p : Slot) (src : BitVec 3) : Option Word :=
  if 2#3 ≤ p.fields.dst ∧ p.fields.dst = src then some p.word else none

/-- What stands in EXEC0 and EXEC1 when an instruction leaves DEC1. -/
structure Window where
  exec0 : Option Slot
  exec1 : Option Slot
deriving DecidableEq

def Window.empty : Window := ⟨none, none⟩

/-- The consumer of a load waits for one clock; the load moves on to EXEC1. -/
def Window.await (w : Window) (f : Fields) : Window :=
  match w.exec0 with
  | none => w
  | some p => if loadUse p.fields f then ⟨none, some p⟩ else w

/-- EXEC1's word if it offers one, else what the register is about to hold. -/
def Window.operand (w : Window) (r : RegFile) (immediate : Word)
    (src : BitVec 3) : Word :=
  (w.exec1.bind (Slot.offer · src)).getD
    (SuperscalarProcessor.operand r immediate src)

structure Bypass where
  arch : Arch
  window : Window

/-- The fields of the instruction at `pc`. -/
def Arch.decoded (imem : Mem) (a : Arch) : Fields := decodeFields (imem a.pc.toNat)

/-- The window when the instruction at `pc` leaves DEC1. -/
def Bypass.awaited (imem : Mem) (b : Bypass) : Window :=
  b.window.await (b.arch.decoded imem)

/-- The instruction at `pc` with the operands that DEC1 latches for it. -/
def Bypass.issue (imem : Mem) (b : Bypass) : ExecLatch where
  active := true
  pc := b.arch.pc
  inst := imem b.arch.pc.toNat
  fields := b.arch.decoded imem
  alu0 := (b.awaited imem).operand b.arch.r (b.arch.decoded imem).immediate
    (b.arch.decoded imem).src0
  alu1 := (b.awaited imem).operand b.arch.r (b.arch.decoded imem).immediate
    (b.arch.decoded imem).src1
  aluout := 0

/-- An executed instruction as its successors meet it. For an instruction that
writes nothing EXEC1 forwards its idle ALU output. -/
def ExecLatch.slot (e : ExecLatch) (mem : Mem) : Slot where
  fields := e.fields
  word :=
    if e.fields.op = .LD then mem e.alu1.toNat
    else (aluResult e.fields e.alu0 e.alu1).getD 0

/-- A taken jump leaves the stages behind it empty. -/
def Bypass.next (imem : Mem) (b : Bypass) : Bypass where
  arch := (b.issue imem).effect b.arch
  window :=
    if (b.issue imem).branch.isSome then Window.empty
    else ⟨some ((b.issue imem).slot b.arch.mem), (b.awaited imem).exec0⟩

def Bypass.halted (imem : Mem) (b : Bypass) : Bool :=
  (b.arch.decoded imem).op == .HLT

def bypassInit (dmem : Mem) : Bypass := ⟨seqInit dmem, Window.empty⟩

/-- The state before instruction `k`, if the machine gets there. -/
def bypassState (imem dmem : Mem) (k : ℕ) : Option Bypass :=
  runFor (untilHalt (Bypass.halted imem) (Bypass.next imem)) k (bypassInit dmem)

/-- The same run carried on over HLT. -/
def bypassTrace (imem dmem : Mem) (k : ℕ) : Bypass :=
  (Bypass.next imem)^[k] (bypassInit dmem)

theorem bypassTrace_succ (imem dmem : Mem) (k : ℕ) :
    bypassTrace imem dmem (k + 1) = (bypassTrace imem dmem k).next imem :=
  Function.iterate_succ_apply' _ _ _

theorem bypassState_iff {imem dmem : Mem} {k : ℕ} {b : Bypass} :
    bypassState imem dmem k = some b ↔
      (∀ j < k, (bypassTrace imem dmem j).halted imem = false) ∧
        bypassTrace imem dmem k = b :=
  runFor_untilHalt_iff

theorem bypassState_eq_trace {imem dmem : Mem} {k : ℕ} {b : Bypass}
    (h : bypassState imem dmem k = some b) : b = bypassTrace imem dmem k :=
  eq_iterate_of_runFor h

/-! ## What DEC1 latches, without any condition -/

/-- The instruction in EXEC1 as the forwarding network sees it. -/
def Sp.slot (sp : Sp) : Option Slot :=
  if sp.spro.exec1.active then
    some ⟨sp.spro.exec1.fields,
      if sp.spro.exec1.fields.op = .LD then sp.sramd.dataout
      else sp.spro.exec1.aluout⟩
  else none

theorem Sp.slot_of_bubble {sp : Sp} (h : sp.spro.exec1.active = false) :
    sp.slot = none := by
  rw [Sp.slot, h, if_neg Bool.false_ne_true]

theorem forwardExec1_eq (sp : Sp) (src : BitVec 3) :
    forwardExec1 sp.spro sp.sramd.dataout src =
      sp.slot.bind (Slot.offer · src) := by
  unfold forwardExec1 Sp.slot
  cases sp.spro.exec1.active with
  | false => simp
  | true => simp [Slot.offer]

/-- An instruction behind which DEC1 is occupied has not jumped. -/
theorem FrontEnd.exec1_branch {imem : Mem} {s : SpRegisters}
    (h : FrontEnd imem s) (hact : s.exec1.active = true)
    (hdec : s.dec1.active = true) : s.exec1.branch = none := by
  obtain ⟨-, -, -, hover⟩ := h.exec1 hact
  rcases hover with ⟨-, hbranch, -⟩ | ⟨-, -, huse⟩ | ⟨-, hno, -, -, -, -⟩
  · exact hbranch
  · exact branch_of_loadUse huse
  · rw [hdec] at hno
    cases hno

/-- **The forwarding network.** In a plain clock DEC1 latches EXEC1's offer or,
without one, the value the register has behind both instructions in flight. -/
theorem Invariant.latchedOperand_offer {imem : Mem} {sp : Sp}
    (h : Invariant imem sp) (hdec : sp.spro.dec1.active = true)
    (hplain : PlainClock sp) {src : BitVec 3}
    (huse : src = sp.spro.dec1.fields.src0 ∨ src = sp.spro.dec1.fields.src1) :
    latchedOperand sp src = (sp.slot.bind (Slot.offer · src)).getD
      (operand (freshRegisters sp) sp.spro.dec1.fields.immediate src) := by
  rw [← forwardExec1_eq]
  by_cases hsrc : 2#3 ≤ src
  · rw [latchedOperand, forward, if_pos hdec]
    cases hoffer : forwardExec1 sp.spro sp.sramd.dataout src with
    | some v => rfl
    | none =>
        have hexec0 := forwardExec0_eq sp.spro sp.sramd.data
          (fun hact hop => hplain.load hsrc hdec huse hact hop)
          (fun hact => hplain.branch hact)
        have hno : sp.spro.exec1.writes ≠ some src := by
          intro hw
          have hact : sp.spro.exec1.active = true := by
            by_contra hno
            simp [ExecLatch.writes, hno] at hw
          obtain ⟨-, hdst, -⟩ :=
            ExecLatch.of_writes (h.frontEnd.exec1_branch hact hdec) hw
          rw [forwardExec1_some hsrc hact hdst] at hoffer
          cases hoffer
        rw [Option.none_or, hexec0, operand_of_two_le hsrc, operand_of_two_le hsrc,
          Option.getD_none, freshRegisters_eq, if_neg hno]
        split_ifs <;> rfl
  · have hnone : forwardExec1 sp.spro sp.sramd.dataout src = none := by
      unfold forwardExec1
      rw [if_neg]
      intro hcond
      simp only [Bool.and_eq_true, beq_iff_eq, decide_eq_true_eq] at hcond
      exact hsrc (hcond.2 ▸ hcond.1.2)
    rw [hnone, Option.getD_none]
    exact latchedOperand_of_lt hsrc _

/-! ## The simulation relation -/

/-- The pipe stands before instruction `m` of the bypass machine: the head is at
its pc, memory is its memory, its registers are those behind EXEC1, and EXEC1 is
the slot of its window that the head will see. -/
structure Tracks (imem : Mem) (B : ℕ → Bypass) (m : ℕ) (sp : Sp) : Prop where
  headPc : sp.spro.headPc = (B m).arch.pc
  mem : sp.sramd.data = (B m).arch.mem
  regs : sp.spro.exec1.apply sp.sramd.data sp.spro.r = (B m).arch.r
  exec1 : sp.spro.exec1.active = true → ∃ k, m = k + 1 ∧
    sp.spro.exec1 = promoteExec0 ((B k).issue imem) ∧ sp.spro.r = (B k).arch.r
  exec0 : sp.spro.exec0.active = true →
    sp.spro.exec0 = (B m).issue imem ∧ ((B m).awaited imem).exec0 = sp.slot
  gap : sp.spro.exec0.active = false →
    (B m).awaited imem = ⟨none, if sp.spro.dec1.active then sp.slot else none⟩

theorem Tracks.init (imem dmem : Mem) :
    Tracks imem (bypassTrace imem dmem) 0 (resetState imem dmem) where
  headPc := rfl
  mem := rfl
  regs := rfl
  exec1 h := by cases h
  exec0 h := by cases h
  gap _ := rfl

section Simulation

variable {imem dmem : Mem} {m : ℕ} {sp sp' : Sp}

/-- What enters EXEC0 is the bypass machine's instruction at the head. -/
theorem next_exec0_issue (hinv : Invariant imem sp) (ht : tick sp = some sp')
    (hact : sp'.spro.exec0.active = true) {b : Bypass}
    (hpc : sp'.spro.headPc = b.arch.pc) (hregs : freshRegisters sp = b.arch.r)
    (hwindow : (b.awaited imem).exec1 = sp.slot) :
    sp'.spro.exec0 = b.issue imem := by
  have hnext := (hinv.ticks ht).regs
  obtain ⟨-, -, hinst, hfields⟩ := (hinv.next ht).frontEnd.exec0 hact
  rw [SpRegisters.headPc, if_pos hact] at hpc
  obtain ⟨hplain, hdec⟩ := plainClock_of_next_exec0 (hnext ▸ hact)
  have hexec0 := congrArg SpRegisters.exec0 hnext
  rw [hplain.next_exec0, hdec, hinv.exec0Alu,
    hinv.latchedOperand_offer hdec hplain (Or.inl rfl),
    hinv.latchedOperand_offer hdec hplain (Or.inr rfl), hregs,
    ← hwindow] at hexec0
  rw [hexec0] at hpc hinst hfields ⊢
  simp only at hpc hinst hfields
  rw [hfields, hinst, hpc]
  rfl

/-- A bubble passes: nothing has been executed. -/
theorem Tracks.next_bubble (h : Tracks imem (bypassTrace imem dmem) m sp)
    (hinv : Invariant imem sp) (ht : tick sp = some sp')
    (hbubble : sp.spro.exec0.active = false) :
    Tracks imem (bypassTrace imem dmem) m sp' := by
  have hs := hinv.ticks ht
  obtain ⟨-, hhead, hnone⟩ := Pipeline.next_bubble
    sp.sramd.dataout sp.srami sp.spro.dma hbubble
  obtain ⟨-, -, -, -, -, hdec, -⟩ := @next_advance sp.spro sp.sramd.dataout
    sp.srami sp.spro.dma (loadUseStall_of_bubble hbubble)
    (by simp [detectHazards_branch, hbubble])
  rw [← hs.regs] at hhead hnone hdec
  have hmem : sp'.sramd.data = sp.sramd.data := by
    rw [hs.dmem, memoryAfter_of_bubble hbubble]
  have hr : sp'.spro.r = (bypassTrace imem dmem m).arch.r := by
    rw [hs.regs, next_r, hinv.writeBack_eq, h.regs]
  have hpc := hhead.trans h.headPc
  have hwindow := h.gap hbubble
  refine ⟨hpc, hmem.trans h.mem, ?_, ?_, ?_, ?_⟩
  · rw [ExecLatch.apply_of_bubble hnone, hr]
  · intro hact
    rw [hnone] at hact
    cases hact
  · intro hact
    rw [hdec] at hact
    rw [hact, if_pos rfl] at hwindow
    refine ⟨next_exec0_issue hinv ht (hdec.trans hact) hpc ?_ ?_, ?_⟩
    · rw [freshRegisters, ExecLatch.apply_of_bubble hbubble, h.regs]
    · rw [hwindow]
    · rw [hwindow, Sp.slot_of_bubble hnone]
  · intro hno
    rw [hdec] at hno
    rw [hno, if_neg Bool.false_ne_true] at hwindow
    rw [hwindow, Sp.slot_of_bubble hnone, ite_self]

/-- The window that the executed instruction leaves. -/
theorem Tracks.window_succ (h : Tracks imem (bypassTrace imem dmem) m sp)
    (hact : sp.spro.exec0.active = true) :
    (bypassTrace imem dmem (m + 1)).window =
      if sp.spro.exec0.branch.isSome then Window.empty
      else ⟨some (sp.spro.exec0.slot sp.sramd.data), sp.slot⟩ := by
  obtain ⟨hexec0, hslot⟩ := h.exec0 hact
  rw [bypassTrace_succ, hexec0, h.mem, ← hslot]
  rfl

/-- An instruction that has moved on to EXEC1 is in the slot it leaves. -/
theorem Invariant.slot_next (hinv : Invariant imem sp) (ht : tick sp = some sp')
    (hact : sp.spro.exec0.active = true) :
    sp'.slot = some (sp.spro.exec0.slot sp.sramd.data) := by
  have hs := hinv.ticks ht
  have hexec1 : sp'.spro.exec1 = promoteExec0 sp.spro.exec0 := by
    rw [hs.regs, next_exec1]
  have hact' : sp'.spro.exec1.active = true := by rw [hexec1]; exact hact
  have halu := (hinv.next ht).exec1Alu hact'
  rw [Sp.slot, if_pos hact', halu, hexec1, promoteExec0_fields, ExecLatch.slot]
  by_cases hop : sp.spro.exec0.fields.op = .LD
  · rw [if_pos hop, if_pos hop, hs.loaded hact hop]
  · rw [if_neg hop, if_neg hop]
    rfl

/-- What the step of the instruction in EXEC0 makes of the machine: the registers are
those that EXEC0 has been given and, behind it, the step's own. -/
structure Stepped (imem dmem : Mem) (m : ℕ) (sp sp' : Sp) : Prop where
  exec1 : sp'.spro.exec1 = promoteExec0 ((bypassTrace imem dmem m).issue imem)
  pc : sp'.spro.headPc = (bypassTrace imem dmem (m + 1)).arch.pc
  mem : sp'.sramd.data = (bypassTrace imem dmem (m + 1)).arch.mem
  before : sp'.spro.r = (bypassTrace imem dmem m).arch.r
  fresh : freshRegisters sp = (bypassTrace imem dmem (m + 1)).arch.r

theorem Tracks.stepped (h : Tracks imem (bypassTrace imem dmem) m sp)
    (hinv : Invariant imem sp) (ht : tick sp = some sp')
    (hact : sp.spro.exec0.active = true) : Stepped imem dmem m sp sp' := by
  have hs := hinv.ticks ht
  have hexec0 := (h.exec0 hact).1
  have hexec1 : sp'.spro.exec1 = promoteExec0 sp.spro.exec0 := by
    rw [hs.regs, next_exec1]
  have hact' : sp'.spro.exec1.active = true := by rw [hexec1]; exact hact
  obtain ⟨-, -, hhead, -⟩ := (hinv.next ht).frontEnd.exec1 hact'
  refine ⟨by rw [hexec1, hexec0], ?_, ?_, ?_, ?_⟩
  · rw [hhead, hexec1, promoteExec0_nextPc, ExecLatch.nextPc_eq, hexec0,
      bypassTrace_succ]
    rfl
  · rw [hs.dmem, bypassTrace_succ, hexec0, h.mem]
    rfl
  · rw [hs.regs, next_r, hinv.writeBack_eq, h.regs]
  · rw [freshRegisters, h.regs, hexec0, h.mem, bypassTrace_succ]
    rfl

/-- The instruction in EXEC0 takes its step. -/
theorem Tracks.next_retire (h : Tracks imem (bypassTrace imem dmem) m sp)
    (hinv : Invariant imem sp) (ht : tick sp = some sp')
    (hact : sp.spro.exec0.active = true) :
    Tracks imem (bypassTrace imem dmem) (m + 1) sp' := by
  have hs := hinv.ticks ht
  have hfront := (hinv.next ht).frontEnd
  have hexec0 := (h.exec0 hact).1
  have hexec1 : sp'.spro.exec1 = promoteExec0 sp.spro.exec0 := by
    rw [hs.regs, next_exec1]
  have hact' : sp'.spro.exec1.active = true := by rw [hexec1]; exact hact
  obtain ⟨hissued, hpc, hmem, hr, hfresh⟩ := h.stepped hinv ht hact
  obtain ⟨-, -, -, hover⟩ := hfront.exec1 hact'
  have hfields : headFields imem sp'.spro =
      (bypassTrace imem dmem (m + 1)).arch.decoded imem := by
    rw [headFields, hpc]
    rfl
  have hwindow := h.window_succ hact
  have hslot := hinv.slot_next ht hact
  have hawait : (bypassTrace imem dmem (m + 1)).awaited imem =
      (if sp.spro.exec0.branch.isSome then Window.empty
        else ⟨sp'.slot, sp.slot⟩).await (headFields imem sp'.spro) := by
    rw [Bypass.awaited, hwindow, hfields, hslot]
  refine ⟨hpc, hmem, ?_, ?_, ?_, ?_⟩
  · rw [hexec1, promoteExec0_apply, hs.dmem, ExecLatch.apply_memoryAfter, hr,
      hexec0, h.mem, bypassTrace_succ]
    rfl
  · intro _
    exact ⟨m, rfl, hissued, hr⟩
  · intro hnext
    rcases hover with ⟨-, hbranch, huse⟩ | ⟨hno, -, -⟩ | ⟨hno, -, -, -, -, -⟩
    · rw [hexec1, promoteExec0_branch] at hbranch
      rw [hexec1, promoteExec0_fields, ← hfront.headFields_exec0 hnext] at huse
      have hfull : (bypassTrace imem dmem (m + 1)).awaited imem =
          ⟨sp'.slot, sp.slot⟩ := by
        rw [hawait, hbranch, hslot]
        simp [Window.await, ExecLatch.slot, huse]
      rw [hfull]
      refine ⟨next_exec0_issue hinv ht hnext hpc hfresh ?_, rfl⟩
      rw [hfull]
    · rw [hnext] at hno
      cases hno
    · rw [hnext] at hno
      cases hno
  · intro hno
    rcases hover with ⟨hnext, -, -⟩ | ⟨-, hdec, huse⟩ | ⟨-, hdec, -, -, -, htaken⟩
    · rw [hnext] at hno
      cases hno
    · have hbranch := branch_of_loadUse huse
      rw [hexec1, promoteExec0_branch] at hbranch
      rw [hexec1, promoteExec0_fields, ← hfront.headFields_dec1 hno hdec] at huse
      rw [hawait, hbranch, hslot, hdec]
      simp [Window.await, ExecLatch.slot, huse]
    · rw [hexec1, promoteExec0_branch] at htaken
      rw [hawait, htaken, hdec]
      rfl

/-- **The relation holds in every clock of every run.** -/
theorem tracks {t : ℕ} (h : clockState imem dmem t = some sp) :
    Tracks imem (bypassTrace imem dmem) (retired imem dmem (t + 1)).length sp := by
  induction t generalizing sp with
  | zero =>
      obtain rfl := Option.some.inj h
      exact Tracks.init imem dmem
  | succ t ih =>
      obtain ⟨sp₀, h₀, ht⟩ := clockState_pred h
      have hinv := invariant_of_clockState h₀
      have hregs := (hinv.ticks ht).regs
      cases hact : sp₀.spro.exec0.active with
      | false =>
          have hnone : sp.spro.exec1.active = false := by rw [hregs]; exact hact
          rw [retired_succ_of_bubble h hnone]
          exact (ih h₀).next_bubble hinv ht hact
      | true =>
          have hact' : sp.spro.exec1.active = true := by rw [hregs]; exact hact
          rw [retired_succ_of_active h hact', List.length_append,
            List.length_singleton]
          exact (ih h₀).next_retire hinv ht hact

end Simulation

/-! ## The log is the bypass machine's -/

/-- The first `n` instructions of the bypass machine, as EXEC1 shows them. -/
def bypassPath (imem dmem : Mem) (n : ℕ) : List ExecLatch :=
  (List.range n).map fun k => promoteExec0 ((bypassTrace imem dmem k).issue imem)

theorem bypassPath_succ (imem dmem : Mem) (n : ℕ) :
    bypassPath imem dmem (n + 1) = bypassPath imem dmem n ++
      [promoteExec0 ((bypassTrace imem dmem n).issue imem)] := by
  simp [bypassPath, List.range_succ]

@[simp] theorem bypassPath_length (imem dmem : Mem) (n : ℕ) :
    (bypassPath imem dmem n).length = n := by
  simp [bypassPath]

section Log

variable {imem dmem : Mem} {t : ℕ} {sp : Sp}

/-- EXEC1 shows the next instruction of the bypass machine. -/
theorem exec1_issue (h : clockState imem dmem t = some sp)
    (hact : sp.spro.exec1.active = true) :
    sp.spro.exec1 = promoteExec0
        ((bypassTrace imem dmem (retired imem dmem t).length).issue imem) ∧
      sp.spro.r = (bypassTrace imem dmem (retired imem dmem t).length).arch.r := by
  obtain ⟨k, hk, hexec1, hr⟩ := (tracks h).exec1 hact
  rw [retired_succ_of_active h hact, List.length_append,
    List.length_singleton] at hk
  obtain rfl : (retired imem dmem t).length = k := by omega
  exact ⟨hexec1, hr⟩

theorem retired_eq_bypassPath (h : clockState imem dmem t = some sp) :
    retired imem dmem (t + 1) =
      bypassPath imem dmem (retired imem dmem (t + 1)).length := by
  induction t generalizing sp with
  | zero =>
      obtain rfl := Option.some.inj h
      rw [retired_succ_of_bubble h rfl]
      rfl
  | succ t ih =>
      obtain ⟨sp₀, h₀, -⟩ := clockState_pred h
      have before := ih h₀
      cases hact : sp.spro.exec1.active with
      | false =>
          rw [retired_succ_of_bubble h hact]
          exact before
      | true =>
          rw [retired_succ_of_active h hact, List.length_append,
            List.length_singleton, bypassPath_succ, ← before,
            ← (exec1_issue h hact).1]

/-- The bypass machine gets as far as the pipeline: before HLT's clock nothing in
the log is HLT. -/
theorem bypassState_of_running (h : clockState imem dmem t = some sp)
    (hrun : sp.spro.halts = false) :
    bypassState imem dmem (retired imem dmem (t + 1)).length =
      some (bypassTrace imem dmem (retired imem dmem (t + 1)).length) := by
  refine bypassState_iff.mpr ⟨?_, rfl⟩
  intro j hj
  have hmem : promoteExec0 ((bypassTrace imem dmem j).issue imem) ∈
      retired imem dmem (t + 1) := by
    rw [retired_eq_bypassPath h]
    exact List.mem_map_of_mem (List.mem_range.mpr hj)
  exact beq_eq_false_iff_ne.mpr (not_halt_of_retired h hrun _ hmem)

theorem bypassState_of_clockState (h : clockState imem dmem t = some sp) :
    bypassState imem dmem (retired imem dmem t).length =
      some (bypassTrace imem dmem (retired imem dmem t).length) := by
  cases t with
  | zero => rfl
  | succ t =>
      obtain ⟨sp₀, h₀, ht⟩ := clockState_pred h
      exact bypassState_of_running h₀
        ((invariant_of_clockState h₀).ticks ht).running

end Log

/-! ## Refinement -/

/-- Clock state `sp` shows the instruction that the bypass machine issues in
`b`, before its effect on `b`'s registers; HLT dumps `b`'s memory. -/
structure Issues (imem : Mem) (b : Bypass) (sp : Sp) : Prop where
  exec1 : sp.spro.exec1 = promoteExec0 (b.issue imem)
  regs : sp.spro.r = b.arch.r
  dump : b.halted imem = true →
    ∃ sp', spRun false sp = .ok sp' ∧ sp'.sramdOut = some (memoryDump b.arch.mem)

theorem issues_of_active {imem dmem : Mem} {t : ℕ} {sp : Sp}
    (h : clockState imem dmem t = some sp) (hact : sp.spro.exec1.active = true) :
    ∃ b, bypassState imem dmem (retired imem dmem t).length = some b ∧
      Issues imem b sp := by
  obtain ⟨hexec1, hr⟩ := exec1_issue h hact
  refine ⟨_, bypassState_of_clockState h, hexec1, hr, ?_⟩
  intro hhalted
  have hop : sp.spro.exec1.fields.op = .HLT := by
    rw [hexec1]
    exact beq_iff_eq.mp hhalted
  obtain ⟨sp', hrun, hdump⟩ := (invariant_of_clockState h).dump_of_halts
    ((SpRegisters.halts_iff _).mpr ⟨hact, hop⟩)
  refine ⟨sp', hrun, ?_⟩
  have hmem := (tracks h).mem
  rw [retired_succ_of_active h hact, List.length_append, List.length_singleton,
    bypassTrace_succ] at hmem
  -- HLT itself does not change the memory
  have hlast : ((bypassTrace imem dmem (retired imem dmem t).length).issue
      imem).fields.op = .HLT := beq_iff_eq.mp hhalted
  rw [hdump, hmem]
  simp [Bypass.next, ExecLatch.effect, memoryAfter, hlast]

/-- **The pipeline refines the bypass machine.** In every clock of every run of
every image the instructions retired so far are the bypass machine's, on its
operands, and leave its registers and memory; the one in EXEC1 is its next one. -/
theorem pipeline_refines_bypass {imem dmem : Mem} {t : ℕ} {sp : Sp}
    (h : clockState imem dmem t = some sp) :
    retired imem dmem (t + 1) =
        bypassPath imem dmem (retired imem dmem (t + 1)).length ∧
      sp.sramd.data =
        (bypassTrace imem dmem (retired imem dmem (t + 1)).length).arch.mem ∧
      sp.spro.exec1.apply sp.sramd.data sp.spro.r =
        (bypassTrace imem dmem (retired imem dmem (t + 1)).length).arch.r ∧
      (sp.spro.exec1.active = true →
        ∃ b, bypassState imem dmem (retired imem dmem t).length = some b ∧
          Issues imem b sp) :=
  ⟨retired_eq_bypassPath h, (tracks h).mem, (tracks h).regs, issues_of_active h⟩

/-- The stale operand of the third instruction is the bypass machine's. -/
theorem pipeline_refines_bypass_rewrite :
    ∃ sp, clockState rewriteImage rewriteImage 8 = some sp ∧
      retired rewriteImage rewriteImage 9 =
        bypassPath rewriteImage rewriteImage
          (retired rewriteImage rewriteImage 9).length ∧
      sp.sramd.data = (bypassTrace rewriteImage rewriteImage
        (retired rewriteImage rewriteImage 9).length).arch.mem ∧
      sp.spro.exec1.apply sp.sramd.data sp.spro.r =
        (bypassTrace rewriteImage rewriteImage
          (retired rewriteImage rewriteImage 9).length).arch.r ∧
      (sp.spro.exec1.active = true →
        ∃ b, bypassState rewriteImage rewriteImage
            (retired rewriteImage rewriteImage 8).length = some b ∧
          Issues rewriteImage b sp) := by
  have hclock := @clockState_eq_stateAt rewriteImage rewriteImage 8
    (by decide +kernel)
  exact ⟨_, hclock, @pipeline_refines_bypass rewriteImage rewriteImage 8 _ hclock⟩

end SuperscalarProcessor.Pipeline
