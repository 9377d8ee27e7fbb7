import SuperscalarProcessor.Foundation.Adjacent
import SuperscalarProcessor.Pipeline.Runs

/-!
# The retired path and its timing

The log of a run is a path of the program: it starts at 0 and each instruction
is followed by its successor on its own latched operands. The clock count is
exact: depth of the pipe, one clock for each retired instruction, one more for
each load-use pair and four more for each taken jump.
-/

namespace SuperscalarProcessor.Pipeline

open Llsim Foundation

/-- The successor of an instruction, by its opcode and latched operands. -/
def ExecLatch.successorPc (e : ExecLatch) : Word :=
  if e.fields.op.condHolds e.alu0 e.alu1 then e.fields.immediate &&& 0xFFFF
  else if e.fields.op = .JIN then e.alu0
  else e.pc + 1

/-- The target that `detect_hazards` computes is the architectural one. -/
theorem ExecLatch.nextPc_eq (e : ExecLatch) : e.nextPc = e.successorPc := by
  unfold ExecLatch.nextPc ExecLatch.branch ExecLatch.successorPc branchOf
  cases e.fields.op with
  | JIN => simp [Opcode.condHolds]
  | JLT | JLE | JEQ | JNE => simp only [reduceCtorEq, if_false]; split_ifs <;> rfl
  | _ => simp [Opcode.condHolds]

/-- An instruction is the one that memory holds at its pc. -/
def ExecLatch.Genuine (imem : Mem) (e : ExecLatch) : Prop :=
  e.inst = imem e.pc.toNat ∧ e.fields = decodeFields e.inst

/-- A path of the program in instruction memory, from pc 0. -/
structure IsPath (imem : Mem) (path : List ExecLatch) : Prop where
  genuine : ∀ e ∈ path, e.Genuine imem
  start : ∀ e, path.head? = some e → e.pc = 0
  chain : path.IsChain (fun e e' => e'.pc = e.successorPc)

/-- The pc that continues a path. -/
def expectedPc (path : List ExecLatch) : Word :=
  match path.getLast? with
  | none => 0
  | some e => e.successorPc

@[simp] theorem expectedPc_concat (path : List ExecLatch) (e : ExecLatch) :
    expectedPc (path ++ [e]) = e.successorPc := by
  simp [expectedPc]

theorem IsPath.nil (imem : Mem) : IsPath imem [] :=
  ⟨by simp, by simp, List.isChain_nil⟩

theorem IsPath.concat {imem : Mem} {path : List ExecLatch} {e : ExecLatch}
    (h : IsPath imem path) (hgen : e.Genuine imem)
    (hpc : e.pc = expectedPc path) : IsPath imem (path ++ [e]) := by
  refine ⟨?_, ?_, ?_⟩
  · intro x hx
    rcases List.mem_append.mp hx with hx | hx
    · exact h.genuine x hx
    · obtain rfl := List.mem_singleton.mp hx
      exact hgen
  · intro x hx
    cases path with
    | nil =>
        obtain rfl : e = x := by simpa using hx
        exact hpc
    | cons y ys => exact h.start x (by simpa using hx)
  · refine isChain_concat h.chain ?_
    intro a ha
    rw [hpc, expectedPc, ha]

/-! ## Timing -/

/-- Retired instruction `a` is a load and the next one, `b`, names its
destination as a source. -/
def loadUsePair (a b : ExecLatch) : Bool := loadUse a.fields b.fields

def loadUses (path : List ExecLatch) : ℕ := countAdjacent loadUsePair path

def takenJumps (path : List ExecLatch) : ℕ :=
  path.countP (fun e => e.branch.isSome)

@[simp] theorem takenJumps_concat (path : List ExecLatch) (e : ExecLatch) :
    takenJumps (path ++ [e]) = takenJumps path + e.branch.isSome.toNat := by
  cases h : e.branch <;> simp [takenJumps, h]

/-- The fields of the instruction at the head of the pipe. -/
def headFields (imem : Mem) (s : SpRegisters) : Fields :=
  decodeFields (imem s.headPc.toNat)

/-- The clock number, given what has retired up to and including this clock. -/
def clockCount (imem : Mem) (path : List ExecLatch) (s : SpRegisters) : ℕ :=
  s.depth + path.length + loadUses path +
    pending (fun e => loadUse e.fields (headFields imem s)) path +
    4 * takenJumps path

/-- What ties the log to the state of the pipe. -/
structure LogInvariant (imem : Mem) (t : ℕ) (log : List ExecLatch) (sp : Sp) :
    Prop where
  state : Invariant imem sp
  path : IsPath imem log
  head : sp.spro.headPc = expectedPc log
  count : t = clockCount imem log sp.spro
  cycleCounter : sp.spro.cycleCounter = BitVec.ofNat 32 t

theorem loadUse_of_branch {e : ExecLatch} (g : Fields)
    (h : e.branch.isSome = true) : loadUse e.fields g = false := by
  by_contra huse
  rw [branch_of_loadUse (Bool.not_eq_false _ ▸ huse)] at h
  exact Bool.noConfusion h

/-- The stage behind EXEC1 holds the fields of the head. -/
theorem FrontEnd.headFields_exec0 {imem : Mem} {s : SpRegisters}
    (h : FrontEnd imem s) (hact : s.exec0.active = true) :
    headFields imem s = s.exec0.fields := by
  obtain ⟨-, -, hi, hf⟩ := h.exec0 hact
  rw [headFields, SpRegisters.headPc, if_pos hact, ← hi, hf]

theorem FrontEnd.headFields_dec1 {imem : Mem} {s : SpRegisters}
    (h : FrontEnd imem s) (hbubble : s.exec0.active = false)
    (hact : s.dec1.active = true) : headFields imem s = s.dec1.fields := by
  obtain ⟨-, -, hi, hf⟩ := h.dec1 hact
  rw [headFields, SpRegisters.headPc, hbubble, if_neg Bool.false_ne_true,
    if_pos hact, ← hi, hf]

/-- The three ways a successor stands behind EXEC1 cost the same in depth,
stalls and jumps: 5, 4 + 1 and 1 + 4. -/
theorem handover_cost {imem : Mem} {s : SpRegisters} (h : FrontEnd imem s)
    (hact : s.exec1.active = true) :
    s.depth + (loadUse s.exec1.fields (headFields imem s)).toNat +
      4 * s.exec1.branch.isSome.toNat = 5 := by
  obtain ⟨-, -, -, hover⟩ := h.exec1 hact
  rcases hover with ⟨hnext, hbranch, huse⟩ | ⟨hbubble, hnext, huse⟩ |
    ⟨he0, hd1, hd0, hf1, hnext, hbranch⟩
  · rw [h.headFields_exec0 hnext, huse, hbranch]
    simp [SpRegisters.depth, hnext]
  · rw [h.headFields_dec1 hbubble hnext, huse, branch_of_loadUse huse]
    simp [SpRegisters.depth, hbubble, hnext]
  · rw [loadUse_of_branch _ hbranch, hbranch]
    simp [SpRegisters.depth, he0, hd1, hd0, hf1, hnext]

theorem LogInvariant.init (imem dmem : Mem) :
    LogInvariant imem 0 [] (resetState imem dmem) where
  state := Invariant.init imem dmem
  path := IsPath.nil imem
  head := rfl
  count := rfl
  cycleCounter := rfl

theorem LogInvariant.next {imem : Mem} {t : ℕ} {log : List ExecLatch}
    {sp sp' : Sp} (h : LogInvariant imem t log sp) (ht : tick sp = some sp') :
    LogInvariant imem (t + 1) (log ++ sp'.retiring.toList) sp' := by
  have hregs := (h.state.ticks ht).regs
  have hstate := h.state.next ht
  have hcycle : sp'.spro.cycleCounter = BitVec.ofNat 32 (t + 1) := by
    rw [hregs, next_cycleCounter, h.cycleCounter, BitVec.ofNat_add]
    rfl
  cases hact : sp.spro.exec0.active with
  | false =>
      obtain ⟨hdepth, hhead, hbubble⟩ := next_bubble
        sp.sramd.dataout sp.srami sp.spro.dma hact
      rw [← hregs] at hdepth hhead hbubble
      have hnone : sp'.retiring.toList = [] := by simp [Sp.retiring, hbubble]
      rw [hnone, List.append_nil]
      refine ⟨hstate, h.path, hhead.trans h.head, ?_, hcycle⟩
      have hcount := h.count
      simp only [clockCount, headFields, hhead, hdepth] at hcount ⊢
      omega
  | true =>
      have hact' : sp'.spro.exec1.active = true := by rw [hregs]; exact hact
      have hsome : sp'.retiring.toList = [sp'.spro.exec1] := by
        simp [Sp.retiring, hact']
      obtain ⟨hinst, hfields, hhead, -⟩ := hstate.frontEnd.exec1 hact'
      rw [hsome]
      refine ⟨hstate, h.path.concat ⟨hinst, hfields⟩ ?_, ?_, ?_, hcycle⟩
      · rw [← h.head, hregs, SpRegisters.headPc, if_pos hact]
        rfl
      · rw [expectedPc_concat, hhead, ExecLatch.nextPc_eq]
      · have hdepth := SpRegisters.depth_eq_five.mpr hact
        have hcost := handover_cost hstate.frontEnd hact'
        have hpend : pending (loadUsePair · sp'.spro.exec1) log =
            pending (fun e => loadUse e.fields (headFields imem sp.spro)) log := by
          refine pending_congr fun e => ?_
          rw [loadUsePair, h.state.frontEnd.headFields_exec0 hact, hregs]
          rfl
        have hcount := h.count
        simp only [clockCount, loadUses, countAdjacent_concat, hpend,
          pending_concat, takenJumps_concat, List.length_append,
          List.length_singleton, hdepth] at hcount ⊢
        omega

theorem logInvariant {imem dmem : Mem} {t : ℕ} {sp : Sp}
    (h : clockState imem dmem t = some sp) :
    LogInvariant imem t (retired imem dmem (t + 1)) sp := by
  have init : LogInvariant imem 0 (resetState imem dmem).retiring.toList
      (resetState imem dmem) := LogInvariant.init imem dmem
  exact runFor_invariant Sp.retiring (LogInvariant imem) init
    (fun _ _ _ _ hinv ht => hinv.next ht) h

/-! ## Control flow -/

/-- **Control-flow correctness.** In every run of every image the instructions
active in EXEC1 form a path of the program, none missing and none repeated, and
one retires at least every six clocks. -/
theorem retired_isPath {imem dmem : Mem} {t : ℕ} {sp : Sp}
    (h : clockState imem dmem t = some sp) :
    IsPath imem (retired imem dmem (t + 1)) ∧
      t ≤ 6 * (retired imem dmem (t + 1)).length + 5 := by
  have hinv := logInvariant h
  refine ⟨hinv.path, ?_⟩
  have hcount := hinv.count
  have hdepth := sp.spro.depth_le
  have huse := countAdjacent_add_pending_le loadUsePair
    (fun e => loadUse e.fields (headFields imem sp.spro))
    (retired imem dmem (t + 1))
  have htaken : takenJumps (retired imem dmem (t + 1)) ≤
      (retired imem dmem (t + 1)).length := List.countP_le_length
  simp only [clockCount, loadUses] at hcount
  omega

/-- `ADD r2, imm 5; JEQ 0, 0, 3; (skipped); HLT`. -/
def skipImage : Mem := imageOf [0x00880005, 0x24000003, 0xFFFFFFFF, 0x30000000]

theorem retired_isPath_skip :
    IsPath skipImage (retired skipImage skipImage 13) ∧
      12 ≤ 6 * (retired skipImage skipImage 13).length + 5 :=
  retired_isPath (clockState_eq_stateAt (by decide +kernel))

/-! ## Cycle accounting -/

/-- **Exact cycle accounting.** The `k`-th retired instruction is active in
EXEC1 in clock `6 + k + S + 4 T`: `S` load-use pairs up to it, `T` taken jumps
before it. The 32-bit cycle counter holds the clock number. -/
theorem retired_clock {imem dmem : Mem} {n k : ℕ} {e : ExecLatch}
    (h : (retired imem dmem n)[k]? = some e) :
    ∃ sp, clockState imem dmem
        (6 + k + loadUses ((retired imem dmem n).take (k + 1)) +
          4 * takenJumps ((retired imem dmem n).take k)) = some sp ∧
      sp.spro.exec1 = e ∧ sp.spro.exec1.active = true ∧
      sp.spro.cycleCounter = BitVec.ofNat 32
        (6 + k + loadUses ((retired imem dmem n).take (k + 1)) +
          4 * takenJumps ((retired imem dmem n).take k)) := by
  obtain ⟨t, sp, -, hrun, hobs, htake⟩ := exists_step_of_observed h
  have hclock : clockState imem dmem t = some sp := hrun
  have hbefore : retired imem dmem t = (retired imem dmem n).take k := htake
  have hk : (retired imem dmem t).length = k := by
    have hlt := (List.getElem?_eq_some_iff.mp h).1
    rw [hbefore, List.length_take]
    omega
  have hact : sp.spro.exec1.active = true := by
    by_contra hne
    simp [Sp.retiring, hne] at hobs
  have he : sp.spro.exec1 = e := by
    simpa [Sp.retiring, hact] using hobs
  have hlog := retired_succ_of_active hclock hact
  have hupto : (retired imem dmem n).take (k + 1) =
      retired imem dmem t ++ [sp.spro.exec1] := by
    rw [List.take_add_one, h, hbefore, he]
    rfl
  have hinv := logInvariant hclock
  have hcost := handover_cost hinv.state.frontEnd hact
  have ht : t = 6 + k + loadUses ((retired imem dmem n).take (k + 1)) +
      4 * takenJumps ((retired imem dmem n).take k) := by
    have hcount := hinv.count
    rw [clockCount, hlog, pending_concat, takenJumps_concat,
      List.length_append, List.length_singleton] at hcount
    rw [hupto, ← hbefore]
    omega
  rw [← ht]
  exact ⟨sp, hclock, he, hact, hinv.cycleCounter⟩

/-- The skip program's HLT: third to retire, behind one taken jump. -/
theorem retired_clock_skip :
    ∃ e sp, (retired skipImage skipImage 13)[2]? = some e ∧
      clockState skipImage skipImage
        (6 + 2 + loadUses ((retired skipImage skipImage 13).take 3) +
          4 * takenJumps ((retired skipImage skipImage 13).take 2)) = some sp ∧
      sp.spro.exec1 = e ∧ sp.spro.exec1.active = true ∧
      sp.spro.cycleCounter = BitVec.ofNat 32
        (6 + 2 + loadUses ((retired skipImage skipImage 13).take 3) +
          4 * takenJumps ((retired skipImage skipImage 13).take 2)) := by
  have hlt : 2 < (retired skipImage skipImage 13).length := by decide +kernel
  have he := List.getElem?_eq_getElem hlt
  obtain ⟨sp, hsp⟩ := retired_clock he
  exact ⟨_, sp, he, hsp⟩

end SuperscalarProcessor.Pipeline
