import Mathlib.Data.Nat.Sqrt
import SuperscalarProcessor.Programs.Machine

/-!
# The square root program (`lab #1/sqrtq_asm.c`)

The loop that looks for the first bit jumps over its own shift and counter
while `4 * bit` is below the input, so it never ends for an input above 4. Up to
4 the program answers 1, which is one too small for 4 itself.
-/

namespace SuperscalarProcessor.Programs

open Llsim Foundation Iss StateTransition

/-- `assemble_program`. -/
def sqrtProgram : StateM Assembler Unit := do
  asmCmd .LD 2 0 1 1000
  asmCmd .JEQ 0 2 0 ((← pc) + 20)
  asmCmd .ADD 4 0 0 0
  asmCmd .ADD 3 1 0 1
  asmCmd .ADD 7 1 0 16
  let bitloopStart ← pc
  asmCmd .LSF 5 3 1 2
  asmCmd .JLT 0 5 2 ((← pc) + 4)
  asmCmd .JEQ 0 0 0 ((← pc) + 5)
  asmCmd .LSF 3 3 1 1
  asmCmd .SUB 7 7 1 1
  asmCmd .JNE 0 7 0 bitloopStart
  let mainloopAddr ← pc
  asmCmd .JEQ 0 3 0 ((← pc) + 12)
  asmCmd .ADD 6 4 3 0
  asmCmd .SUB 6 2 6 0
  asmCmd .JLT 0 6 0 ((← pc) + 6)
  asmCmd .SUB 2 2 4 0
  asmCmd .SUB 2 2 3 0
  asmCmd .RSF 4 4 1 1
  asmCmd .ADD 4 4 3 0
  asmCmd .JEQ 0 0 0 ((← pc) + 2)
  asmCmd .RSF 4 4 1 1
  asmCmd .RSF 3 3 1 2
  asmCmd .JEQ 0 0 0 mainloopAddr
  asmCmd .ST 0 4 1 1001
  asmCmd .HLT 0 0 0 0

/-- The image with `n` in place of the sample input 3000. -/
def sqrtImage (n : Word) : Mem := imageWith sqrtProgram n 0

/-- The program as it is decoded, with its jump targets. -/
def sqrtCode : List Fields :=
  [instr .LD 2 0 1 1000,
   instr .JEQ 0 2 0 21,
   instr .ADD 4 0 0 0,
   instr .ADD 3 1 0 1,
   instr .ADD 7 1 0 16,
   -- bitloop_start
   instr .LSF 5 3 1 2,
   instr .JLT 0 5 2 10,
   instr .JEQ 0 0 0 12,
   instr .LSF 3 3 1 1,
   instr .SUB 7 7 1 1,
   instr .JNE 0 7 0 5,
   -- mainloop_addr
   instr .JEQ 0 3 0 23,
   instr .ADD 6 4 3 0,
   instr .SUB 6 2 6 0,
   instr .JLT 0 6 0 20,
   instr .SUB 2 2 4 0,
   instr .SUB 2 2 3 0,
   instr .RSF 4 4 1 1,
   instr .ADD 4 4 3 0,
   instr .JEQ 0 0 0 21,
   instr .RSF 4 4 1 1,
   instr .RSF 3 3 1 2,
   instr .JEQ 0 0 0 11,
   instr .ST 0 4 1 1001,
   instr .HLT 0 0 0 0]

theorem sqrtImage_installed (n : Word) : Installed sqrtCode (sqrtImage n) :=
  imageWith_installed (installed_of_decode (by decide) (by decide +kernel)) (by decide) n 0

/-! ## The loop for the first bit -/

/-- At the head of the loop, which has changed nothing. -/
def BitloopHead (n : Word) (s : State) : Prop :=
  ∃ reg, s = live (sqrtImage n) reg 5 ∧ reg 2 = n ∧ reg 3 = 1 ∧ reg 7 = 16

/-- While `4 * bit` is below the input, a turn of the loop changes nothing. -/
theorem bitloop_turn {n : Word} (hn : (4#32).slt n = true) {s : State}
    (hs : BitloopHead n s) : ∃ s', Reaches₁ step s s' ∧ BitloopHead n s' := by
  obtain ⟨reg, rfl, h2, h3, h7⟩ := hs
  have code := sqrtImage_installed n
  refine ⟨live (sqrtImage n) (Function.update reg 5 (reg 3 <<< 2)) 5, ?_, _, rfl,
    h2, h3, h7⟩
  refine Relation.TransGen.head' (code.next 5 rfl rfl) ?_
  refine ((code.branch 6 rfl rfl).1 ?_).trans ?_
  · show (reg 3 <<< 2).slt (reg 2) = true
    rw [h2, h3]
    exact hn
  refine ((code.branch 10 rfl rfl).1 ?_).trans .refl
  show (reg 7 != 0) = true
  rw [h7]
  decide

/-! ## The start of the program -/

theorem exec_loadInput (mem : Mem) (reg : RegFile) :
    exec (instr .LD 2 0 1 1000) (live mem reg 0) =
      .ok (live mem (Function.update reg 2 (mem 1000)) 1) := by
  have haddr : (1000#32 &&& 0xFFFF).toNat = 1000 := rfl
  have hload : exec (instr .LD 2 0 1 1000) (live mem reg 0) =
      .ok (live mem (Function.update reg 2 (mem (1000#32 &&& 0xFFFF).toNat)) 1) :=
    rfl
  rw [hload, haddr]

theorem exec_storeResult (mem : Mem) (reg : RegFile) :
    exec (instr .ST 0 4 1 1001) (live mem reg 23) =
      .ok (live (Function.update mem 1001 (reg 4)) reg 24) := by
  have haddr : (1001#32 &&& 0xFFFF).toNat = 1001 := rfl
  have hstore : exec (instr .ST 0 4 1 1001) (live mem reg 23) = .ok (live
      (Function.update mem (1001#32 &&& 0xFFFF).toNat (reg 4)) reg 24) := rfl
  rw [hstore, haddr]

/-- The input alone in r2. -/
def inputRegs (n : Word) : RegFile := Function.update (fun _ => 0) 2 n

/-- The registers before the loop for the first bit. -/
def bitloopRegs (n : Word) : RegFile :=
  Function.update (Function.update (Function.update (inputRegs n) 4 0) 3 1) 7 16

theorem reaches_input (n : Word) :
    Reaches step (init (sqrtImage n)) (live (sqrtImage n) (inputRegs n) 1) := by
  have hload := exec_loadInput (sqrtImage n) fun _ => 0
  have hinput : sqrtImage n 1000 = n := imageWith_fst sqrtProgram n 0
  rw [hinput] at hload
  exact (sqrtImage_installed n).reaches 0 rfl hload

theorem reaches_bitloop {n : Word} (hn : n ≠ 0) :
    Reaches step (init (sqrtImage n)) (live (sqrtImage n) (bitloopRegs n) 5) := by
  have code := sqrtImage_installed n
  refine (reaches_input n).trans ?_
  refine ((code.branch 1 rfl rfl).2 ?_).trans ?_
  · show (n == 0) = false
    simpa using hn
  refine (code.reaches 2 rfl rfl).trans ?_
  refine (code.reaches 3 rfl rfl).trans ?_
  exact code.reaches 4 rfl rfl

/-- **An input above 4 keeps the program in its first loop.** -/
theorem sqrt_diverges {n : Word} (hn : (4#32).slt n = true) {s : State} :
    s ∉ eval step (init (sqrtImage n)) := by
  have hne : n ≠ 0 := by
    rintro rfl
    revert hn
    decide
  rw [reaches_eval (reaches_bitloop hne)]
  have head : BitloopHead n (live (sqrtImage n) (bitloopRegs n) 5) :=
    ⟨_, rfl, rfl, rfl, rfl⟩
  exact not_mem_eval_of_loop (fun _ => bitloop_turn hn) head

/-! ## The inputs that get through -/

/-- The state in which the program halts with `r` as its answer. -/
def sqrtHalted (n : Word) (reg : RegFile) : State :=
  ⟨Function.update (sqrtImage n) 1001 (reg 4), reg, 25, true⟩

/-- With no bit left the result is stored. -/
theorem reaches_done (n : Word) {reg : RegFile} (h3 : reg 3 = 0) :
    Reaches step (live (sqrtImage n) reg 11) (sqrtHalted n reg) := by
  have code := sqrtImage_installed n
  refine ((code.branch 11 rfl rfl).1 ?_).trans ?_
  · show (reg 3 == 0) = true
    rw [h3]
    decide
  refine (code.reaches 23 rfl (exec_storeResult _ _)).trans ?_
  exact (code.store (by decide) (reg 4)).reaches 24 rfl rfl

theorem reaches_zero :
    Reaches step (init (sqrtImage 0))
      (sqrtHalted 0 (Function.update (inputRegs 0) 3 0)) := by
  have code := sqrtImage_installed 0
  refine (reaches_input 0).trans ?_
  refine ((code.branch 1 rfl rfl).1 rfl).trans ?_
  refine (code.reaches 21 rfl rfl).trans ?_
  refine ((code.branch 22 rfl rfl).1 rfl).trans ?_
  exact reaches_done 0 rfl

/-- From 1 to 4 the main loop is left after one turn, with 1 as the result. -/
theorem reaches_one {n : Word} (hlow : n ≠ 0) (hhigh : (4#32).slt n = false)
    (hsub : (n - (0 + 1)).slt 0 = false) :
    ∃ reg, Reaches step (init (sqrtImage n)) (sqrtHalted n reg) ∧ reg 4 = 1 := by
  have code := sqrtImage_installed n
  refine ⟨?reg, ?run, ?result⟩
  case run =>
    refine (reaches_bitloop hlow).trans ?_
    refine (code.reaches 5 rfl rfl).trans ?_
    refine ((code.branch 6 rfl rfl).2 ?_).trans ?_
    · exact hhigh
    refine ((code.branch 7 rfl rfl).1 rfl).trans ?_
    refine (code.reaches 12 rfl rfl).trans ?_
    refine (code.reaches 13 rfl rfl).trans ?_
    refine ((code.branch 14 rfl rfl).2 ?_).trans ?_
    · exact hsub
    refine (code.reaches 15 rfl rfl).trans ?_
    refine (code.reaches 16 rfl rfl).trans ?_
    refine (code.reaches 17 rfl rfl).trans ?_
    refine (code.reaches 18 rfl rfl).trans ?_
    refine ((code.branch 19 rfl rfl).1 rfl).trans ?_
    refine (code.reaches 21 rfl rfl).trans ?_
    refine ((code.branch 22 rfl rfl).1 rfl).trans ?_
    refine reaches_done n ?_
    show (1#32).sshiftRight 2 = 0
    decide
  case result =>
    show (0#32).sshiftRight 1 + 1 = 1
    decide

/-- The main loop compares signed. -/
theorem four_slt_iff {n : Word} (hn : n.toNat < 2 ^ 31) :
    (4#32).slt n = true ↔ 4 < n.toNat := by
  have hsigned : n.toInt = n.toNat := BitVec.toInt_eq_toNat_of_lt (by omega)
  rw [BitVec.slt_iff_toInt_lt, hsigned]
  exact Int.ofNat_lt

theorem pred_slt_zero {n : Word} (hpos : 0 < n.toNat) (hn : n.toNat < 2 ^ 31) :
    (n - (0 + 1)).slt 0 = false := by
  have hless : (n - (0 + 1)).toNat = n.toNat - 1 := by
    rw [BitVec.toNat_sub]
    show (2 ^ 32 - 1 + n.toNat) % 2 ^ 32 = n.toNat - 1
    omega
  rw [Bool.eq_false_iff, Ne, BitVec.slt_iff_toInt_lt,
    BitVec.toInt_eq_toNat_of_lt (by omega)]
  exact not_lt.mpr (Int.natCast_nonneg _)

/-- From 0 to 4 the program halts. -/
theorem reaches_halted {n : Word} (hn : n.toNat ≤ 4) :
    ∃ reg, Reaches step (init (sqrtImage n)) (sqrtHalted n reg) ∧
      reg 4 = if n = 0 then 0 else 1 := by
  by_cases hzero : n = 0
  · subst hzero
    exact ⟨_, reaches_zero, rfl⟩
  · have hpos := BitVec.toNat_pos_of_ne_zero hzero
    have hhigh : (4#32).slt n = false := by
      rw [Bool.eq_false_iff, Ne, four_slt_iff (by omega)]
      omega
    rw [if_neg hzero]
    exact reaches_one hzero hhigh (pred_slt_zero hpos (by omega))

/-! ## The answer -/

/-- The run reaches HLT with the square root of `n`, rounded down, in 1001. -/
def SqrtCorrect (n : Word) : Prop :=
  ∃ s ∈ eval step (init (sqrtImage n)), s.halted = true ∧
    s.mem 1001 = BitVec.ofNat 32 (Nat.sqrt n.toNat)

/-- The answer of a run that halts. -/
theorem sqrtCorrect_of_reaches {n : Word} {reg : RegFile}
    (h : Reaches step (init (sqrtImage n)) (sqrtHalted n reg)) :
    SqrtCorrect n ↔ reg 4 = BitVec.ofNat 32 (Nat.sqrt n.toNat) := by
  have hend := mem_eval_of_halted h rfl
  have hout : (sqrtHalted n reg).mem 1001 = reg 4 := by
    show Function.update (sqrtImage n) 1001 (reg 4) 1001 = reg 4
    rw [Function.update_self]
  constructor
  · rintro ⟨s, hs, -, hmem⟩
    obtain rfl := Part.mem_unique hs hend
    exact hout.symm.trans hmem
  · intro hroot
    exact ⟨_, hend, rfl, hout.trans hroot⟩

/-- The only root that the program computes for an input from 1. -/
theorem one_eq_sqrt_iff {m : ℕ} (hpos : 0 < m) (hlt : m < 2 ^ 32) :
    (1 : Word) = BitVec.ofNat 32 (Nat.sqrt m) ↔ m ≤ 3 := by
  have hle := Nat.sqrt_le_self m
  have hword : (1 : Word) = BitVec.ofNat 32 (Nat.sqrt m) ↔ 1 = Nat.sqrt m := by
    rw [← BitVec.toNat_inj, BitVec.toNat_ofNat, Nat.mod_eq_of_lt (by omega)]
    rfl
  rw [hword, Nat.eq_sqrt]
  omega

/-- **The square root program works up to 3, and nowhere else.** -/
theorem sqrtCorrect_iff {n : Word} (hn : n.toNat < 2 ^ 31) :
    SqrtCorrect n ↔ n.toNat ≤ 3 := by
  rcases Nat.lt_or_ge 4 n.toNat with hlarge | hsmall
  · refine iff_of_false ?_ (by omega)
    rintro ⟨s, hs, -⟩
    exact sqrt_diverges ((four_slt_iff hn).mpr hlarge) hs
  · obtain ⟨reg, hreach, hreg⟩ := reaches_halted hsmall
    rw [sqrtCorrect_of_reaches hreach, hreg]
    by_cases hzero : n = 0
    · subst hzero
      exact iff_of_true rfl (by decide)
    · rw [if_neg hzero]
      exact one_eq_sqrt_iff (BitVec.toNat_pos_of_ne_zero hzero) n.isLt

theorem sqrtCorrect_iff_sample : SqrtCorrect 3000 ↔ (3000 : Word).toNat ≤ 3 :=
  sqrtCorrect_iff (by decide)

/-- The sample input itself keeps the program running. -/
theorem sqrt_sample_fails : ¬SqrtCorrect 3000 := by
  rintro ⟨s, hs, -⟩
  exact sqrt_diverges (by decide) hs

end SuperscalarProcessor.Programs
