import Mathlib.Algebra.BigOperators.Group.Finset.Basic
import Mathlib.Data.BitVec
import SuperscalarProcessor.Programs.OnPipeline

/-!
# The prefix sums (`lab2/example.bin`)

The example image of both processors: a loop that replaces each of the eight words
from address 15 by the sum up to it. No instruction reads a stale word, so all
simulators dump the sums, whatever the words are.
-/

namespace SuperscalarProcessor.Programs

open Llsim Foundation Iss

/-- The words of the program, up to HLT. -/
def exampleWords : List Word :=
  [0x0088000F, 0x00C80001, 0x01080008, 0x241C000B, 0x11420000, 0x00910001,
    0x11820000, 0x01B50000, 0x12320000, 0x00D90001, 0x24000003, 0x30000000]

def exampleImage (data : Mem) : Mem := withData exampleWords data

/-- The program as it is decoded. -/
def exampleCode : List Fields :=
  [instr .ADD 2 1 0 15,
   instr .ADD 3 1 0 1,
   instr .ADD 4 1 0 8,
   -- the loop
   instr .JEQ 0 3 4 11,
   instr .LD 5 0 2 0,
   instr .ADD 2 2 1 1,
   instr .LD 6 0 2 0,
   instr .ADD 6 6 5 0,
   instr .ST 0 6 2 0,
   instr .ADD 3 3 1 1,
   instr .JEQ 0 0 0 3,
   instr .HLT 0 0 0 0]

theorem exampleImage_resident (data : Mem) : Resident exampleCode (exampleImage data) where
  installed := withData_installed (by decide +kernel) (by decide) data
  room := by decide
  plain := by decide

theorem exampleImage_data (data : Mem) {i : ℕ} (hi : 12 ≤ i) :
    exampleImage data i = data i :=
  withData_of_le data hi

/-! ## The sums -/

def prefixSum (data : Mem) (j : ℕ) : Word := ∑ k ∈ Finset.range (j + 1), data (15 + k)

/-- The memory after `j` turns of the loop. -/
def sumsAfter (data : Mem) (j : ℕ) : Mem := fun i =>
  if 15 ≤ i ∧ i ≤ 15 + j then prefixSum data (i - 15) else exampleImage data i

theorem sumsAfter_zero (data : Mem) : sumsAfter data 0 = exampleImage data := by
  funext i
  unfold sumsAfter
  split_ifs with hi
  · obtain rfl : i = 15 := by omega
    rw [exampleImage_data data (by decide)]
    simp [prefixSum]
  · rfl

theorem sumsAfter_last (data : Mem) (j : ℕ) :
    sumsAfter data j (15 + j) = prefixSum data j := by
  rw [sumsAfter, if_pos (by omega), Nat.add_sub_cancel_left]

theorem sumsAfter_next (data : Mem) (j : ℕ) :
    sumsAfter data j (15 + (j + 1)) = data (15 + (j + 1)) := by
  rw [sumsAfter, if_neg (by omega), exampleImage_data data (by omega)]

/-- A turn adds the sum in front to the next word. -/
theorem sumsAfter_succ (data : Mem) (j : ℕ) :
    sumsAfter data (j + 1) = Function.update (sumsAfter data j) (15 + (j + 1))
      (sumsAfter data j (15 + (j + 1)) + sumsAfter data j (15 + j)) := by
  funext i
  by_cases hi : i = 15 + (j + 1)
  · subst hi
    rw [Function.update_self, sumsAfter_last, sumsAfter_last, sumsAfter_next, prefixSum,
      Finset.sum_range_succ, add_comm]
    rfl
  · rw [Function.update_of_ne hi]
    unfold sumsAfter
    refine if_congr ?_ rfl rfl
    omega

theorem sumsAfter_intact (data : Mem) (j : ℕ) :
    Intact exampleCode (exampleImage data) (sumsAfter data j) := by
  intro i hi
  have hlen : exampleCode.length = 12 := rfl
  rw [sumsAfter, if_neg (by omega)]

/-! ## The loop -/

/-- At the head of the loop after `j` turns. -/
def LoopHead (data : Mem) (j : ℕ) (s : State) : Prop :=
  ∃ reg, s = live (sumsAfter data j) reg 3 ∧ reg 2 = BitVec.ofNat 32 (15 + j) ∧
    reg 3 = BitVec.ofNat 32 (1 + j) ∧ reg 4 = 8

/-- The registers at the first turn. -/
def loopRegs : RegFile :=
  Function.update (Function.update (Function.update (fun _ => 0) 2 15) 3 1) 4 8

theorem loopHead_zero (data : Mem) :
    LoopHead data 0 (live (exampleImage data) loopRegs 3) :=
  ⟨loopRegs, by rw [sumsAfter_zero], rfl, rfl, rfl⟩

section Loop

variable {here : ℕ → Prop} (data : Mem)

theorem reaches_loop (hhere : ∀ i < 12, here i) :
    Segment step (Plain (exampleImage data) here) 3 (init (exampleImage data))
      (live (exampleImage data) loopRegs 3) := by
  have code := exampleImage_resident data
  have hmem := Intact.refl exampleCode (exampleImage data)
  refine code.cons_plain hmem 0 rfl (by decide) (hhere 0 (by decide)) rfl ?_
  refine code.cons_plain hmem 1 rfl (by decide) (hhere 1 (by decide)) rfl ?_
  refine code.cons_plain hmem 2 rfl (by decide) (hhere 2 (by decide)) rfl ?_
  exact .refl _

theorem loop_turn (hhere : ∀ i < 12, here i) (j : ℕ) (hj : j < 7) (s : State)
    (hs : LoopHead data j s) :
    ∃ s', Segment step (Plain (exampleImage data) here) 8 s s' ∧
      LoopHead data (j + 1) s' := by
  obtain ⟨reg, rfl, h2, h3, h4⟩ := hs
  have code := exampleImage_resident data
  have hmem := sumsAfter_intact data j
  have hcount : reg 3 ≠ reg 4 := by
    rw [h3, h4]
    intro heq
    have hnat := congrArg BitVec.toNat heq
    rw [toNat_address (by omega)] at hnat
    have : (8 : Word).toNat = 8 := rfl
    omega
  have hnext : reg 2 + 1 = BitVec.ofNat 32 (15 + (j + 1)) := by rw [h2, address_succ]; rfl
  have hcount' : reg 3 + 1 = BitVec.ofNat 32 (1 + (j + 1)) := by rw [h3, address_succ]; rfl
  have hmem' := sumsAfter_intact data (j + 1)
  have hsum := sumsAfter_succ data j
  refine ⟨live (sumsAfter data (j + 1)) ?regs 3, ?run, ?regs, rfl, ?pointer, ?count,
    ?bound⟩
  case run =>
    refine code.cons_jump hmem 3 4 rfl rfl (hhere 3 (by decide))
      (Or.inr ⟨beq_eq_false_iff_ne.mpr hcount, rfl⟩) ?_
    refine code.cons_load hmem 4 (15 + j) rfl rfl (hhere 4 (by decide)) h2
      (by omega) ?_
    refine code.cons_result hmem 5 (reg 2 + 1) rfl rfl nofun (hhere 5 (by decide))
      (by rfl) ?_
    refine code.cons_load hmem 6 (15 + (j + 1)) rfl rfl (hhere 6 (by decide))
      (by exact hnext) (by omega) ?_
    refine code.cons_result hmem 7
      (sumsAfter data j (15 + (j + 1)) + sumsAfter data j (15 + j)) rfl rfl nofun
      (hhere 7 (by decide)) (by rfl) ?_
    refine code.cons_store hmem 8 (15 + (j + 1)) rfl rfl (hhere 8 (by decide))
      (by exact hnext) (by omega) (by exact hsum.symm) ?_
    refine code.cons_result hmem' 9 (reg 3 + 1) rfl rfl nofun
      (hhere 9 (by decide)) (by rfl) ?_
    refine code.cons_jump hmem' 10 3 rfl rfl (hhere 10 (by decide)) (Or.inl ⟨rfl, rfl⟩) ?_
    exact .refl _
  case pointer => exact hnext
  case count => exact hcount'
  case bound => exact h4

/-- Sixty instructions lead to HLT. -/
theorem reaches_halt (hhere : ∀ i < 12, here i) :
    ∃ reg, Segment step (Plain (exampleImage data) here) 60 (init (exampleImage data))
      (live (sumsAfter data 7) reg 11) := by
  have code := exampleImage_resident data
  obtain ⟨s, hturns, reg, rfl, -, h3, h4⟩ :=
    Segment.loop (loop_turn data hhere) (loopHead_zero data)
  have hlast : Segment step (Plain (exampleImage data) here) 1
      (live (sumsAfter data 7) reg 3) (live (sumsAfter data 7) reg 11) := by
    refine code.cons_jump (sumsAfter_intact data 7) 3 11 rfl rfl (hhere 3 (by decide))
      (Or.inl ⟨?_, rfl⟩) (.refl _)
    show (reg 3 == reg 4) = true
    rw [h3, h4]
    decide
  exact ⟨reg, (reaches_loop data hhere).trans (hturns.trans hlast)⟩

end Loop

theorem exampleImage_clear (data : Mem) : ∀ i < 12, Clear (exampleImage data) i := by
  have hwords : ∀ i < 12, Clear (withData exampleWords fun _ => 0) i := by decide +kernel
  exact fun i hi => clear_withData hi data (hwords i hi)

/-- **The example sums up any data on every simulator.** Eight words from address 15
are replaced by their prefix sums, nothing else is. -/
theorem example_sums (data : Mem) :
    SequentialDumps (exampleImage data) 60 (memoryDump (sumsAfter data 7)) ∧
      Pipeline.DumpsAt (exampleImage data) (exampleImage data)
        (Pipeline.bypassClock (exampleImage data) (exampleImage data) 60)
        (memoryDump (sumsAfter data 7)) := by
  have code := exampleImage_resident data
  have hmem := sumsAfter_intact data 7
  constructor
  · obtain ⟨reg, hrun⟩ := @reaches_halt (fun _ => True) data fun _ _ => trivial
    exact code.sequentialDumps hmem rfl rfl hrun
  · obtain ⟨reg, hrun⟩ := reaches_halt data (exampleImage_clear data)
    have hat := (PipelineAt.init (exampleImage data)).segment hrun
    rw [Nat.zero_add] at hat
    exact code.pipeline_dumpsAt hmem rfl rfl hat

end SuperscalarProcessor.Programs
