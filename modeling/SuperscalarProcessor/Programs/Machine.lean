import Mathlib.Computability.StateTransition
import SuperscalarProcessor.Iss

/-!
# The first assembler and its simulator (`lab #1`)

Each assembler is a C program that calls `asm_cmd` once for every instruction,
with jump targets computed from the assembler's own `pc`. The simulator decodes
like the later one; its LHI merges into the destination, and its jumps save no
return address.
-/

namespace SuperscalarProcessor.Programs

open Llsim Foundation Iss StateTransition

/-! ## The assembler -/

/-- The globals `mem` and `pc`. -/
structure Assembler where
  mem : Mem
  pc : Word

/-- The `#define`d numbers. -/
def number : Opcode → Word
  | .ADD => 0
  | .SUB => 1
  | .LSF => 2
  | .RSF => 3
  | .AND => 4
  | .OR => 5
  | .XOR => 6
  | .LHI => 7
  | .LD => 8
  | .ST => 9
  | .JLT => 16
  | .JLE => 17
  | .JEQ => 18
  | .JNE => 19
  | .JIN => 20
  | .HLT => 24
  -- no `#define` here
  | .DMA_START | .DMA_STATUS | .U => 31

def inst (opcode : Opcode) (dst src0 src1 immediate : Word) : Word :=
  asmInst (number opcode) dst src0 src1 immediate

def asmCmd (opcode : Opcode) (dst src0 src1 immediate : Word) :
    StateM Assembler Unit :=
  modify fun a =>
    { mem := Function.update a.mem a.pc.toNat (inst opcode dst src0 src1 immediate)
      pc := a.pc + 1 }

/-- The current `pc`, from which the programs compute their jump targets. -/
def pc : StateM Assembler Word := do return (← get).pc

/-- What the assembler's `mem` holds when the last instruction is emitted. -/
def assembled (program : StateM Assembler Unit) : Mem :=
  (program.run ⟨fun _ => 0, 0⟩).2.mem

/-- The file has a line for every address up to 1002; the simulator's memory
behind them stays zero. -/
def imageFile (mem : Mem) : Mem := fun i => if i ≤ 1002 then mem i else 0

/-- The image of a program with its data at 1000 and 1001. -/
def imageWith (program : StateM Assembler Unit) (a b : Word) : Mem :=
  imageFile (Function.update (Function.update (assembled program) 1000 a) 1001 b)

/-! ## The simulator -/

/-- The `switch`, after `pc++`. -/
def exec (f : Fields) (s : State) : Except Fault State :=
  let pc := s.pc + 1
  let val0 := operand s.reg f.immediate f.src0
  let val1 := operand s.reg f.immediate f.src1
  match f.op with
  | .ADD | .SUB | .LSF | .RSF | .AND | .OR | .XOR =>
      (result f.op val0 val1).map fun value =>
        { s with reg := Function.update s.reg f.dst value, pc := pc }
  | .LHI => .ok
      { s with
        reg := Function.update s.reg f.dst
          ((f.immediate <<< 16) ||| (s.reg f.dst &&& 0xFFFF))
        pc := pc }
  | .LD => .ok
      { s with
        reg := Function.update s.reg f.dst (s.mem (val1 &&& 0xFFFF).toNat)
        pc := pc }
  | .ST => .ok
      { s with
        mem := Function.update s.mem (val1 &&& 0xFFFF).toNat (s.reg f.src0)
        pc := pc }
  | .JLT | .JLE | .JEQ | .JNE => .ok
      (if f.op.condHolds val0 val1 then { s with pc := f.immediate &&& 0xFFFF }
      else { s with pc := pc })
  | .JIN => .ok { s with pc := s.reg f.src0 &&& 0xFFFF }
  | .HLT => .ok { s with pc := pc, halted := true }
  | _ => .ok { s with pc := pc }

/-- One turn of `while (!halted && pc < MEM_SIZE)`. -/
def step (s : State) : Option State :=
  if s.halted = false ∧ s.pc.toNat < 65536 then (exec s.fields s).toOption
  else none

/-! ## Running decoded code -/

/-- A decoded instruction. -/
def instr (opcode : Opcode) (dst src0 src1 : BitVec 3) (immediate : Word) : Fields :=
  ⟨(number opcode).setWidth 5, dst, src0, src1, immediate⟩

/-- The memory starts with `code`. -/
structure Installed (code : List Fields) (mem : Mem) : Prop where
  fits : code.length ≤ 65536
  decodes : ∀ i f, code[i]? = some f → decode (mem i) = f

/-- A live state at address `i`. -/
def live (mem : Mem) (reg : RegFile) (i : ℕ) : State :=
  ⟨mem, reg, BitVec.ofNat 32 i, false⟩

/-- A memory is checked against the code by decoding it. -/
theorem installed_of_decode {code : List Fields} {mem : Mem}
    (hfits : code.length ≤ 65536)
    (h : (List.range code.length).map (fun i => decode (mem i)) = code) :
    Installed code mem := by
  refine ⟨hfits, ?_⟩
  intro i f hf
  have hi := (List.getElem?_eq_some_iff.mp hf).1
  rw [← h, List.getElem?_map, List.getElem?_range hi] at hf
  exact Option.some.inj hf

/-- A store behind the code leaves it alone. -/
theorem Installed.store {code : List Fields} {mem : Mem} (h : Installed code mem)
    {addr : ℕ} (haddr : code.length ≤ addr) (v : Word) :
    Installed code (Function.update mem addr v) := by
  refine ⟨h.fits, ?_⟩
  intro i f hf
  have hi := (List.getElem?_eq_some_iff.mp hf).1
  rw [Function.update_of_ne (by omega)]
  exact h.decodes i f hf

theorem Installed.imageFile {code : List Fields} {mem : Mem}
    (h : Installed code mem) (hlen : code.length ≤ 1003) :
    Installed code (imageFile mem) := by
  refine ⟨h.fits, ?_⟩
  intro i f hf
  have hi := (List.getElem?_eq_some_iff.mp hf).1
  rw [Programs.imageFile, if_pos (by omega)]
  exact h.decodes i f hf

theorem imageWith_installed {program : StateM Assembler Unit} {code : List Fields}
    (h : Installed code (assembled program)) (hlen : code.length ≤ 1000)
    (a b : Word) : Installed code (imageWith program a b) :=
  ((h.store hlen a).store (Nat.le_succ_of_le hlen) b).imageFile
    (Nat.le_trans hlen (by decide))

theorem imageWith_fst (program : StateM Assembler Unit) (a b : Word) :
    imageWith program a b 1000 = a := by
  rw [imageWith, imageFile, if_pos (by decide), Function.update_of_ne (by decide),
    Function.update_self]

theorem imageWith_snd (program : StateM Assembler Unit) (a b : Word) :
    imageWith program a b 1001 = b := by
  rw [imageWith, imageFile, if_pos (by decide), Function.update_self]

/-- The opcodes that write a `result`. -/
def hasResult : Opcode → Bool
  | .ADD | .SUB | .LSF | .RSF | .AND | .OR | .XOR => true
  | _ => false

section Code

variable {code : List Fields} {mem : Mem} {reg : RegFile} {f : Fields}

/-- An instruction that does not fault leads to the next state. -/
theorem Installed.next (h : Installed code mem) (i : ℕ)
    (hf : code[i]? = some f) {s : State} (hexec : exec f (live mem reg i) = .ok s) :
    s ∈ step (live mem reg i) := by
  have hi : i < 65536 :=
    Nat.lt_of_lt_of_le (List.getElem?_eq_some_iff.mp hf).1 h.fits
  have hpc : (BitVec.ofNat 32 i).toNat = i := by
    rw [BitVec.toNat_ofNat]
    omega
  have hfields : (live mem reg i).fields = f := by
    rw [State.fields, live, hpc]
    exact h.decodes i f hf
  show step (live mem reg i) = some s
  rw [step, hfields, hexec, if_pos]
  · rfl
  · exact ⟨rfl, by rw [live, hpc]; exact hi⟩

theorem Installed.reaches (h : Installed code mem) (i : ℕ)
    (hf : code[i]? = some f) {s : State} (hexec : exec f (live mem reg i) = .ok s) :
    Reaches step (live mem reg i) s :=
  .single (h.next i hf hexec)

/-- An instruction that only writes a register. -/
theorem Installed.writes (h : Installed code mem) (i : ℕ)
    (hf : code[i]? = some f) {reg' : RegFile}
    (hexec : exec f (live mem reg i) =
      .ok ⟨mem, reg', (live mem reg i).pc + 1, false⟩) :
    Reaches step (live mem reg i) (live mem reg' (i + 1)) := by
  have hpc : (⟨mem, reg', (live mem reg i).pc + 1, false⟩ : State) =
      live mem reg' (i + 1) := by
    rw [live, live, BitVec.ofNat_add]
    rfl
  rw [hpc] at hexec
  exact h.reaches i hf hexec

/-- ADD to XOR write their result. -/
theorem Installed.alu (h : Installed code mem) (i : ℕ) (v : Word)
    (hf : code[i]? = some f) (hop : hasResult f.op = true)
    (hv : result f.op (operand reg f.immediate f.src0)
      (operand reg f.immediate f.src1) = .ok v) :
    Reaches step (live mem reg i) (live mem (Function.update reg f.dst v) (i + 1)) := by
  refine h.writes i hf ?_
  unfold hasResult at hop
  unfold exec
  cases hcase : f.op <;> simp only [hcase, Bool.false_eq_true] at hop hv ⊢
  all_goals
    simp only [live, hv, Except.map]

/-- LHI merges the immediate into its destination. -/
theorem Installed.lhi (h : Installed code mem) (i : ℕ) (v : Word)
    (hf : code[i]? = some f) (hop : f.op = .LHI)
    (hv : (f.immediate <<< 16) ||| (reg f.dst &&& 0xFFFF) = v) :
    Reaches step (live mem reg i) (live mem (Function.update reg f.dst v) (i + 1)) := by
  refine h.writes i hf ?_
  rw [← hv]
  simp only [exec, hop, live]

theorem Installed.load (h : Installed code mem) (i addr : ℕ) (v : Word)
    (hf : code[i]? = some f) (hop : f.op = .LD)
    (haddr : (operand reg f.immediate f.src1 &&& 0xFFFF).toNat = addr)
    (hv : mem addr = v) :
    Reaches step (live mem reg i) (live mem (Function.update reg f.dst v) (i + 1)) := by
  refine h.writes i hf ?_
  rw [← hv, ← haddr]
  simp only [exec, hop, live]

/-- JEQ to address `j`. -/
theorem Installed.jeq (h : Installed code mem) (i j : ℕ)
    {dst src0 src1 : BitVec 3} {immediate : Word}
    (hf : code[i]? = some (instr .JEQ dst src0 src1 immediate))
    (hj : immediate &&& 0xFFFF = BitVec.ofNat 32 j) :
    (operand reg immediate src0 = operand reg immediate src1 →
      Reaches step (live mem reg i) (live mem reg j)) ∧
    (operand reg immediate src0 ≠ operand reg immediate src1 →
      Reaches step (live mem reg i) (live mem reg (i + 1))) := by
  have hexec : exec (instr .JEQ dst src0 src1 immediate) (live mem reg i) = .ok
      (if operand reg immediate src0 == operand reg immediate src1 then
        ⟨mem, reg, immediate &&& 0xFFFF, false⟩
      else ⟨mem, reg, (live mem reg i).pc + 1, false⟩) := rfl
  constructor <;> intro hcond
  · rw [hj, beq_iff_eq.mpr hcond, if_pos rfl] at hexec
    exact h.reaches i hf hexec
  · rw [beq_eq_false_iff_ne.mpr hcond, if_neg Bool.false_ne_true] at hexec
    exact h.writes i hf hexec

/-- A branch whose condition is known. -/
theorem Installed.branch (h : Installed code mem) (i : ℕ)
    (hf : code[i]? = some f) {c : Bool} {s₁ s₂ : State}
    (hexec : exec f (live mem reg i) = .ok (if c then s₁ else s₂)) :
    (c = true → Reaches step (live mem reg i) s₁) ∧
      (c = false → Reaches step (live mem reg i) s₂) := by
  constructor <;> rintro rfl <;> exact h.reaches i hf hexec

/-- A state reached that has halted is where the run ends. -/
theorem mem_eval_of_halted {s s' : State} (h : Reaches step s s')
    (hhalt : s'.halted = true) : s' ∈ eval step s := by
  refine mem_eval.mpr ⟨h, ?_⟩
  rw [step, hhalt]
  rfl

end Code

end SuperscalarProcessor.Programs
