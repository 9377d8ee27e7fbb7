import SuperscalarProcessor.Foundation.StepRuns
import SuperscalarProcessor.Isa

/-!
# The instruction set simulator (`lab2/iss.c`)

One iteration of the loop in `main` executes one instruction. The program
counter is incremented at the fetch, before the instruction is executed.
-/

namespace SuperscalarProcessor.Iss

open Llsim Foundation

/-- The globals `mem`, `reg` and `pc` with the flag `halted`. -/
structure State where
  mem : Mem
  reg : RegFile
  pc : Word
  halted : Bool

/-- The fields of the unsigned word `inst`. -/
def decode (inst : Word) : Fields where
  opcode := (inst >>> 25 &&& 0x1F).setWidth 5
  dst := (inst >>> 22 &&& 0x07).setWidth 3
  src0 := (inst >>> 19 &&& 0x07).setWidth 3
  src1 := (inst >>> 16 &&& 0x07).setWidth 3
  immediate := ((inst &&& 0xFFFF).setWidth 16).signExtend 32

/-- What ADD to LHI write to `reg[dst]`. -/
def result (op : Opcode) (val0 val1 : Word) : Except Fault Word :=
  match op with
  | .ADD => .ok (val0 + val1)
  | .SUB => .ok (val0 - val1)
  | .LSF => (shiftAmount val1).map fun n => val0 <<< n
  | .RSF => (shiftAmount val1).map fun n => val0.sshiftRight n
  | .AND => .ok (val0 &&& val1)
  | .OR => .ok (val0 ||| val1)
  | .XOR => .ok (val0 ^^^ val1)
  | .LHI => .ok ((val1 <<< 16) ||| (val0 &&& 0xFFFF))
  | _ => .ok 0

/-- The instruction at `pc`. -/
def State.fields (s : State) : Fields := decode (s.mem s.pc.toNat)

def State.val0 (s : State) : Word :=
  operand s.reg s.fields.immediate s.fields.src0

def State.val1 (s : State) : Word :=
  operand s.reg s.fields.immediate s.fields.src1

/-- The body of the loop. -/
def iteration (s : State) : Except Fault State :=
  -- pc++
  let pc := s.pc + 1
  match s.fields.op with
  | .ADD | .SUB | .LSF | .RSF | .AND | .OR | .XOR | .LHI =>
      (result s.fields.op s.val0 s.val1).map fun value =>
        { s with reg := Function.update s.reg s.fields.dst value, pc := pc }
  | .LD => .ok
      { s with
        reg := Function.update s.reg s.fields.dst (s.mem (s.val1 &&& 0xFFFF).toNat)
        pc := pc }
  | .ST => .ok
      { s with
        mem := Function.update s.mem (s.val1 &&& 0xFFFF).toNat (s.reg s.fields.src0)
        pc := pc }
  | .JLT | .JLE | .JEQ | .JNE => .ok
      (if s.fields.op.condHolds s.val0 s.val1 then
        { s with
          reg := Function.update s.reg 7 pc
          pc := s.fields.immediate &&& 0xFFFF }
      else { s with pc := pc })
  | .JIN =>
      let reg := Function.update s.reg 7 pc
      .ok { s with reg := reg, pc := reg s.fields.src0 &&& 0xFFFF }
  | .HLT => .ok { s with pc := pc, halted := true }
  | _ => .ok { s with pc := pc }

/-- `while (!halted && pc < MEM_SIZE)`. -/
def step (s : State) : Option State :=
  if s.halted = false ∧ s.pc.toNat < 65536 then (iteration s).toOption else none

def init (image : Mem) : State := ⟨image, fun _ => 0, 0, false⟩

/-- The state after `n` iterations, if there are that many. -/
def stateAfter (image : Mem) (n : ℕ) : Option State :=
  runFor step n (init image)

/-! ## Iterations -/

theorem step_eq_some {s s' : State} (h : step s = some s') :
    s.halted = false ∧ s.pc.toNat < 65536 ∧ iteration s = .ok s' := by
  unfold step at h
  split_ifs at h with hc
  refine ⟨hc.1, hc.2, ?_⟩
  cases hit : iteration s with
  | error f => rw [hit] at h; cases h
  | ok s₁ =>
      rw [hit] at h
      obtain rfl := Option.some.inj h
      rfl

theorem iteration_alu {s : State} (h : s.fields.isAlu = true) :
    iteration s = (result s.fields.op s.val0 s.val1).map fun value =>
      { s with reg := Function.update s.reg s.fields.dst value, pc := s.pc + 1 } := by
  unfold Fields.isAlu at h
  unfold iteration
  cases hop : s.fields.op <;> simp only [hop, Bool.false_eq_true] at h ⊢

/-- HLT halts, and nothing else does. -/
theorem halted_iff {s s' : State} (h : step s = some s') :
    s'.halted = true ↔ s.fields.op = .HLT := by
  obtain ⟨hlive, -, hit⟩ := step_eq_some h
  unfold iteration at hit
  cases hop : s.fields.op <;> simp only [hop] at hit
  case ADD | SUB | LSF | RSF | AND | OR | XOR | LHI =>
    cases hres : result s.fields.op s.val0 s.val1 <;>
      rw [hop] at hres <;> simp only [hres, Except.map] at hit
    · cases hit
    · obtain rfl := Except.ok.inj hit
      simp [hlive]
  case JLT | JLE | JEQ | JNE =>
    obtain rfl := Except.ok.inj hit
    split_ifs <;> simp [hlive]
  all_goals
    obtain rfl := Except.ok.inj hit
    simp [hlive]

/-- No state before a live one is halted. -/
theorem live_of_le {image : Mem} {m n : ℕ} {s s' : State}
    (h : stateAfter image n = some s) (hlive : s.halted = false) (hmn : m ≤ n)
    (hm : stateAfter image m = some s') : s'.halted = false := by
  rcases Nat.eq_or_lt_of_le hmn with rfl | hlt
  · obtain rfl := Option.some.inj (h.symm.trans hm)
    exact hlive
  · obtain ⟨s₁, hs₁⟩ := runFor_isSome_of_le (Nat.succ_le_of_lt hlt) h
    obtain ⟨s₂, hs₂, hstep⟩ := runFor_pred hs₁
    obtain rfl := Option.some.inj (hm.symm.trans hs₂)
    exact (step_eq_some hstep).1

end SuperscalarProcessor.Iss
