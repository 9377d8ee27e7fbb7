import SuperscalarProcessor.Pipeline.Retirement

/-!
# What happens behind HLT

A request to the data memory is made in EXEC0, one clock before its instruction
retires. Taken jumps clear the stages behind them in time, but HLT stops the
simulation only when it is in EXEC1 itself: the instruction behind it is then in
EXEC0 and makes its request, after the memory has been dumped.
-/

namespace SuperscalarProcessor.Pipeline

open Llsim Foundation

/-! ## The contract -/

/-- The request of clock `t` belongs to the next instruction of the program, no
HLT comes before it, and it retires in the next clock if there is one. -/
structure RequestInOrder (imem dmem : Mem) (t : ℕ) (sp : Sp) : Prop where
  beforeHlt : ∀ e ∈ retired imem dmem (t + 1), e.fields.op ≠ .HLT
  inOrder : IsPath imem
    (retired imem dmem (t + 1) ++ [promoteExec0 sp.spro.exec0])
  retires : ∀ sp', clockState imem dmem (t + 1) = some sp' →
    retired imem dmem (t + 2) =
      retired imem dmem (t + 1) ++ [promoteExec0 sp.spro.exec0]

/-- No instruction behind the first HLT has an effect on the data memory. -/
structure NoEffectPastHlt (imem dmem : Mem) : Prop where
  requests : ∀ t sp, clockState imem dmem t = some sp →
    sp.spro.exec0.accesses = true → RequestInOrder imem dmem t sp
  dump : ∀ t sp sp', clockState imem dmem t = some sp →
    sp.spro.halts = true → llsimRunClock false sp = .ok sp' →
    sp'.sramdOut = some (memoryDump sp'.sramd.data)

/-- The word behind the instruction in EXEC1 is a load or a store. -/
def AccessFollows (imem : Mem) (s : SpRegisters) : Prop :=
  (decodeFields (imem (s.exec1.pc + 1).toNat)).op = .LD ∨
    (decodeFields (imem (s.exec1.pc + 1).toNat)).op = .ST

/-! ## The halting clock -/

/-- HLT has its neighbour right behind it. -/
theorem FrontEnd.behind_halt {imem : Mem} {s : SpRegisters} (h : FrontEnd imem s)
    (hhalt : s.halts = true) : s.exec0.active = true ∧
      s.exec0.fields = decodeFields (imem (s.exec1.pc + 1).toNat) := by
  obtain ⟨hact, hop⟩ := (SpRegisters.halts_iff s).mp hhalt
  obtain ⟨-, -, hhead, hover⟩ := h.exec1 hact
  have hbranch : s.exec1.branch = none := by
    simp [ExecLatch.branch, branchOf, hop]
  rcases hover with ⟨hnext, -, -⟩ | ⟨-, -, huse⟩ | ⟨-, -, -, -, -, hjump⟩
  · obtain ⟨-, -, hinst, hfields⟩ := h.exec0 hnext
    rw [SpRegisters.headPc, if_pos hnext, ExecLatch.nextPc, hbranch] at hhead
    refine ⟨hnext, ?_⟩
    rw [hfields, hinst, hhead]
    rfl
  · simp [loadUse, hop] at huse
  · rw [hbranch] at hjump
    cases hjump

/-- It makes a request exactly when it is a load or a store. -/
theorem FrontEnd.accesses_behind_halt {imem : Mem} {s : SpRegisters}
    (h : FrontEnd imem s) (hhalt : s.halts = true) :
    s.exec0.accesses = true ↔ AccessFollows imem s := by
  obtain ⟨hact, hfields⟩ := h.behind_halt hhalt
  rw [ExecLatch.accesses, hact, hfields, AccessFollows]
  simp

/-- A clock without a request leaves the data memory alone. -/
theorem memoryAfter_of_not_accesses {e : ExecLatch} (h : e.accesses = false)
    (data : Mem) : memoryAfter e data = data := by
  unfold ExecLatch.accesses at h
  unfold memoryAfter
  rw [if_neg]
  intro hst
  simp only [Bool.and_eq_true, beq_iff_eq] at hst
  simp [hst.1, hst.2] at h

/-- What the halting clock dumps, and what it leaves. -/
theorem Invariant.halting_clock {imem : Mem} {sp sp' : Sp} (h : Invariant imem sp)
    (hhalt : sp.spro.halts = true) (hclock : llsimRunClock false sp = .ok sp') :
    sp'.sramdOut = some (memoryDump sp.sramd.data) ∧
      sp'.sramd.data = memoryAfter sp.spro.exec0 sp.sramd.data := by
  obtain ⟨⟨m, hissue, hd⟩, -, -, -, hdump⟩ := served_of_clock h.dma hclock
  exact ⟨hdump hhalt, (memPhase_issue_spec hissue hd).1⟩

/-! ## When the contract holds -/

/-- Before the last clock of a run no HLT has been in EXEC1. -/
theorem not_halt_of_retired {imem dmem : Mem} {t : ℕ} {sp : Sp}
    (h : clockState imem dmem t = some sp) (hrun : sp.spro.halts = false) :
    ∀ e ∈ retired imem dmem (t + 1), e.fields.op ≠ .HLT := by
  induction t generalizing sp with
  | zero =>
      obtain rfl := Option.some.inj h
      rw [retired_succ_of_bubble h rfl]
      intro e he
      cases he
  | succ t ih =>
      obtain ⟨sp₀, h₀, ht⟩ := clockState_pred h
      have before := ih h₀ ((invariant_of_clockState h₀).ticks ht).running
      cases hact : sp.spro.exec1.active with
      | false =>
          rw [retired_succ_of_bubble h hact]
          exact before
      | true =>
          rw [retired_succ_of_active h hact]
          intro e he
          rcases List.mem_append.mp he with he | he
          · exact before e he
          · obtain rfl := List.mem_singleton.mp he
            intro hop
            have hhalt := (SpRegisters.halts_iff _).mpr ⟨hact, hop⟩
            rw [hrun] at hhalt
            exact Bool.noConfusion hhalt

/-- In every other clock the request is the next instruction's. -/
theorem requestInOrder {imem dmem : Mem} {t : ℕ} {sp : Sp}
    (h : clockState imem dmem t = some sp) (hrun : sp.spro.halts = false)
    (hact : sp.spro.exec0.active = true) : RequestInOrder imem dmem t sp := by
  have hinv := logInvariant h
  refine ⟨not_halt_of_retired h hrun, ?_, ?_⟩
  · obtain ⟨-, -, hinst, hfields⟩ := hinv.state.frontEnd.exec0 hact
    refine hinv.path.concat ⟨hinst, hfields⟩ ?_
    rw [← hinv.head, SpRegisters.headPc, if_pos hact]
    rfl
  · intro sp' h'
    have hnext : sp'.spro.exec1 = promoteExec0 sp.spro.exec0 := by
      rw [clockState_succ h] at h'
      rw [(hinv.state.ticks h').regs, next_exec1]
    rw [retired_succ_of_active h' (by rw [hnext]; exact hact), hnext]

/-- **No effect past HLT, exactly when.** In every run of every image, all
requests to the data memory belong to instructions before the first HLT and the
halting clock leaves what it dumps, if and only if the word behind that HLT
decodes to neither LD nor ST. -/
theorem noEffectPastHlt_iff (imem dmem : Mem) :
    NoEffectPastHlt imem dmem ↔
      ∀ t sp, clockState imem dmem t = some sp → sp.spro.halts = true →
        ¬AccessFollows imem sp.spro := by
  constructor
  · rintro ⟨hrequests, -⟩ t sp h hhalt hfollows
    obtain ⟨hact, hop⟩ := (SpRegisters.halts_iff _).mp hhalt
    have hfront := (invariant_of_clockState h).frontEnd
    have hrequest :=
      hrequests t sp h ((hfront.accesses_behind_halt hhalt).mpr hfollows)
    refine hrequest.beforeHlt sp.spro.exec1 ?_ hop
    rw [retired_succ_of_active h hact]
    exact List.mem_append_right _ (List.mem_singleton.mpr rfl)
  · intro hquiet
    constructor
    · intro t sp h hacc
      have hfront := (invariant_of_clockState h).frontEnd
      have hrun : sp.spro.halts = false := by
        by_contra hhalt
        rw [Bool.not_eq_false] at hhalt
        exact hquiet t sp h hhalt ((hfront.accesses_behind_halt hhalt).mp hacc)
      refine requestInOrder h hrun ?_
      simp only [ExecLatch.accesses, Bool.and_eq_true] at hacc
      exact hacc.1
    · intro t sp sp' h hhalt hclock
      have hinv := invariant_of_clockState h
      have hno : sp.spro.exec0.accesses = false := by
        by_contra hacc
        rw [Bool.not_eq_false] at hacc
        exact hquiet t sp h hhalt
          ((hinv.frontEnd.accesses_behind_halt hhalt).mp hacc)
      obtain ⟨hdump, hdata⟩ := hinv.halting_clock hhalt hclock
      rw [hdump, hdata, memoryAfter_of_not_accesses hno]

/-- `HLT; ST imm 5 → MEM[imm 5]`. -/
def storeBehindHlt : Mem := imageOf [0x30000000, 0x12090005]

/-- The halting clock leaves 5 at address 5 and dumps 0 there. -/
theorem store_behind_hlt_takes_effect :
    ¬NoEffectPastHlt storeBehindHlt storeBehindHlt := by
  rintro ⟨-, hdump⟩
  have hclock := @clockState_eq_stateAt storeBehindHlt storeBehindHlt 6
    (by decide +kernel)
  have hend : (llsimRunClock false
      (stateAt storeBehindHlt storeBehindHlt 6)).toOption.map
        (fun sp => (sp.sramdOut.map (· ⟨5, by decide⟩), sp.sramd.data 5)) =
      some (some 0, 5) := by decide +kernel
  cases hrun : llsimRunClock false (stateAt storeBehindHlt storeBehindHlt 6) with
  | error f =>
      rw [hrun] at hend
      cases hend
  | ok sp' =>
      rw [hrun] at hend
      obtain ⟨hout, hdata⟩ := Prod.mk.inj (Option.some.inj hend)
      rw [hdump 6 _ sp' hclock (by decide +kernel) hrun, Option.map_some,
        memoryDump] at hout
      have hsame : sp'.sramd.data 5 = 0 := Option.some.inj hout
      rw [hdata] at hsame
      exact absurd hsame (by decide)

end SuperscalarProcessor.Pipeline
