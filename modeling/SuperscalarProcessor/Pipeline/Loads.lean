import SuperscalarProcessor.Pipeline.Operands

/-!
# The data of a load

A load requests its word in EXEC0 and finds it in `dataout` one clock later, in
EXEC1. EXEC0 makes at most one request in a clock, so no other access comes in
between, and a store in front of the load has been served before.
-/

namespace SuperscalarProcessor.Pipeline

open Llsim Foundation

/-- The data memory behind the stores of some instructions, in order. -/
def storesOf (dmem : Mem) (l : List ExecLatch) : Mem :=
  l.foldl (fun mem e => memoryAfter e mem) dmem

theorem storesOf_concat (dmem : Mem) (l : List ExecLatch) (e : ExecLatch) :
    storesOf dmem (l ++ [e]) = memoryAfter e (storesOf dmem l) := by
  rw [storesOf, List.foldl_append]
  rfl

/-- The load in EXEC1 has its word: the one at its address, in the memory that
all stores in front of it have left. Write-back and forwarding use it. -/
structure LoadValid (imem dmem : Mem) (t : ℕ) (sp : Sp) : Prop where
  inRange : InRange sp.spro.exec1.alu1
  latch : sp.sramd.dataout = sp.sramd.data sp.spro.exec1.alu1.toNat
  memory : sp.sramd.data = storesOf dmem (retired imem dmem t)
  lastStore : ∀ l e, retired imem dmem t = l ++ [e] → e.fields.op = .ST →
    e.alu1 = sp.spro.exec1.alu1 → sp.sramd.dataout = e.alu0
  writeBack : ∀ sp', llsimRunClock false sp = .ok sp' → 2#3 ≤ sp.spro.exec1.fields.dst →
    sp'.spro.r sp.spro.exec1.fields.dst = sp.sramd.data sp.spro.exec1.alu1.toNat
  forwardAlu0 : sp.spro.dec1.active = true → 2#3 ≤ sp.spro.exec1.fields.dst →
    sp.spro.dec1.fields.src0 = sp.spro.exec1.fields.dst →
    (detectHazards sp.spro sp.sramd.dataout).forwardAlu0 =
      some (sp.sramd.data sp.spro.exec1.alu1.toNat)
  forwardAlu1 : sp.spro.dec1.active = true → 2#3 ≤ sp.spro.exec1.fields.dst →
    sp.spro.dec1.fields.src1 = sp.spro.exec1.fields.dst →
    (detectHazards sp.spro sp.sramd.dataout).forwardAlu1 =
      some (sp.sramd.data sp.spro.exec1.alu1.toNat)

/-! ## The memory between clocks -/

theorem memoryAfter_promoteExec0 (e : ExecLatch) (data : Mem) :
    memoryAfter (promoteExec0 e) data = memoryAfter e data := rfl

/-- The stores retired so far, EXEC1's included, have been served. -/
theorem data_eq_storesOf {imem dmem : Mem} {t : ℕ} {sp : Sp}
    (h : clockState imem dmem t = some sp) :
    sp.sramd.data = storesOf dmem (retired imem dmem (t + 1)) := by
  induction t generalizing sp with
  | zero =>
      obtain rfl := Option.some.inj h
      rw [retired_succ_of_bubble h rfl]
      rfl
  | succ t ih =>
      obtain ⟨sp₀, h₀, ht⟩ := clockState_pred h
      have hs := (invariant_of_clockState h₀).ticks ht
      have hexec1 : sp.spro.exec1 = promoteExec0 sp₀.spro.exec0 := by
        rw [hs.regs, next_exec1]
      rw [hs.dmem, ih h₀]
      cases hact : sp.spro.exec1.active with
      | true =>
          rw [retired_succ_of_active h hact, storesOf_concat, hexec1,
            memoryAfter_promoteExec0]
      | false =>
          rw [retired_succ_of_bubble h hact, memoryAfter_of_bubble]
          rw [hexec1] at hact
          exact hact

/-- What is in EXEC1 has made its request in range. -/
theorem exec1_inRange {imem dmem : Mem} {t : ℕ} {sp : Sp}
    (h : clockState imem dmem t = some sp) (hacc : sp.spro.exec1.accesses = true) :
    InRange sp.spro.exec1.alu1 := by
  cases t with
  | zero =>
      obtain rfl := Option.some.inj h
      cases hacc
  | succ t =>
      obtain ⟨sp₀, h₀, ht⟩ := clockState_pred h
      have hs := (invariant_of_clockState h₀).ticks ht
      have hexec1 : sp.spro.exec1 = promoteExec0 sp₀.spro.exec0 := by
        rw [hs.regs, next_exec1]
      rw [hexec1] at hacc ⊢
      exact hs.dataAddr hacc

/-- A load changes nothing. -/
theorem memoryAfter_of_load {e : ExecLatch} (h : e.fields.op = .LD) (data : Mem) :
    memoryAfter e data = data := by
  simp [memoryAfter, h]

theorem memoryAfter_of_store {e : ExecLatch} (hact : e.active = true)
    (h : e.fields.op = .ST) (data : Mem) :
    memoryAfter e data e.alu1.toNat = e.alu0 := by
  simp [memoryAfter, hact, h]

/-- Only active instructions retire. -/
theorem active_of_mem_retired {imem dmem : Mem} {t : ℕ} {e : ExecLatch}
    (h : e ∈ retired imem dmem t) : e.active = true := by
  obtain ⟨k, hk⟩ := List.mem_iff_getElem?.mp h
  obtain ⟨_, sp, -, -, hobs, -⟩ := exists_step_of_observed hk
  unfold Sp.retiring at hobs
  split_ifs at hobs with hact
  obtain rfl := Option.some.inj hobs
  exact hact

/-! ## The load in EXEC1 -/

/-- EXEC1 comes first, so its word is what DEC1 gets. -/
theorem forward_of_load {s : SpRegisters} {d : Word} {src : BitVec 3}
    (hact : s.exec1.active = true) (hop : s.exec1.fields.op = .LD)
    (hdec1 : s.dec1.active = true) (hdst : 2#3 ≤ s.exec1.fields.dst)
    (hsrc : src = s.exec1.fields.dst) : forward s d src = some d := by
  rw [forward, if_pos hdec1, forwardExec1_some (hsrc ▸ hdst) hact hsrc.symm, if_pos hop]
  rfl

theorem writeBack_of_load {e : ExecLatch} (hact : e.active = true)
    (hop : e.fields.op = .LD) (hdst : 2#3 ≤ e.fields.dst) (d : Word) (r : RegFile) :
    writeBack e d r e.fields.dst = d := by
  simp [writeBack, hact, hop, hdst]

/-- **A load has its data.** In every reachable state with a load in EXEC1, the
`dataout` latch holds the word at the load's address, as all stores in front of
the load have left it, and write-back and forwarding take that word. -/
theorem loadValid {imem dmem : Mem} {t : ℕ} {sp : Sp}
    (h : clockState imem dmem t = some sp) (hact : sp.spro.exec1.active = true)
    (hop : sp.spro.exec1.fields.op = .LD) : LoadValid imem dmem t sp := by
  have hinv := invariant_of_clockState h
  have hlatch := hinv.loaded hact hop
  have hmemory : sp.sramd.data = storesOf dmem (retired imem dmem t) := by
    rw [data_eq_storesOf h, retired_succ_of_active h hact, storesOf_concat,
      memoryAfter_of_load hop]
  refine
    { inRange := exec1_inRange h (by simp [ExecLatch.accesses, hact, hop])
      latch := hlatch
      memory := hmemory
      lastStore := ?_
      writeBack := ?_
      forwardAlu0 := ?_
      forwardAlu1 := ?_ }
  · intro l e hlog hst haddr
    have hstored : e.active = true := by
      apply active_of_mem_retired
      rw [hlog]
      exact List.mem_append_right l (List.mem_singleton.mpr rfl)
    rw [hlatch, hmemory, hlog, storesOf_concat, ← haddr, memoryAfter_of_store hstored hst]
  · intro sp' hclock hdst
    rw [(served_of_clock hinv.dma hclock).regs, ← hlatch]
    exact writeBack_of_load hact hop hdst _ _
  · intro hdec1 hdst hsrc
    rw [← hlatch]
    exact forward_of_load hact hop hdec1 hdst hsrc
  · intro hdec1 hdst hsrc
    rw [← hlatch]
    exact forward_of_load hact hop hdec1 hdst hsrc

/-- `ADD r2, imm 9, 0; ST r2 → MEM[imm 5]; LD r3 ← MEM[imm 5]; HLT`. -/
def storeLoadImage : Mem := imageOf [0x00880009, 0x12110005, 0x10C10005, 0x30000000]

/-- The load right behind the store finds 9. -/
theorem loadValid_storeLoad :
    ∃ sp, clockState storeLoadImage storeLoadImage 8 = some sp ∧
      LoadValid storeLoadImage storeLoadImage 8 sp ∧ sp.sramd.dataout = 9 := by
  have hclock := @clockState_eq_stateAt storeLoadImage storeLoadImage 8
    (by decide +kernel)
  exact ⟨_, hclock, loadValid hclock (by decide +kernel) (by decide +kernel),
    by decide +kernel⟩

end SuperscalarProcessor.Pipeline
