import SuperscalarProcessor.Llsim.Memory

/-!
# The instruction set

Opcode numbers, operand selection and jump conditions that the simulators and
the ISS spell out alike. Opcodes 10 and 11 exist in lab2 only; everywhere else
they fall into the `default` branches with the undefined ones.
-/

namespace SuperscalarProcessor

open Llsim

/-- The `#define`d opcodes; `U` stands for every undefined number, as in the
table `opcode_name`. -/
inductive Opcode where
  | ADD | SUB | LSF | RSF | AND | OR | XOR | LHI
  | LD | ST
  | DMA_START | DMA_STATUS
  | JLT | JLE | JEQ | JNE | JIN
  | HLT
  | U
deriving DecidableEq, Repr

/-- The meaning of an opcode field, a number below 32. -/
def Opcode.ofField (field : ℕ) : Opcode :=
  match field with
  | 0 => .ADD
  | 1 => .SUB
  | 2 => .LSF
  | 3 => .RSF
  | 4 => .AND
  | 5 => .OR
  | 6 => .XOR
  | 7 => .LHI
  | 8 => .LD
  | 9 => .ST
  | 10 => .DMA_START
  | 11 => .DMA_STATUS
  | 16 => .JLT
  | 17 => .JLE
  | 18 => .JEQ
  | 19 => .JNE
  | 20 => .JIN
  | 24 => .HLT
  | _ => .U

/-- The decoded fields of an instruction word. -/
structure Fields where
  opcode : BitVec 5
  dst : BitVec 3
  src0 : BitVec 3
  src1 : BitVec 3
  immediate : Word
deriving DecidableEq

def Fields.op (f : Fields) : Opcode := Opcode.ofField f.opcode.toNat

/-- The word that `asm_cmd` stores. -/
def asmInst (opcode dst src0 src1 immediate : Word) : Word :=
  ((opcode &&& 0x1F) <<< 25) ||| ((dst &&& 7) <<< 22) ||| ((src0 &&& 7) <<< 19) |||
    ((src1 &&& 7) <<< 16) ||| (immediate &&& 0xFFFF)

/-- The opcodes ADD to LHI, which write back the ALU output. -/
def Fields.isAlu (f : Fields) : Bool :=
  match f.op with
  | .ADD | .SUB | .LSF | .RSF | .AND | .OR | .XOR | .LHI => true
  | _ => false

/-- `int r[8]`. -/
abbrev RegFile := BitVec 3 → Word

/-- Source field 0 is the constant zero, 1 the immediate, the others name a
register. -/
def operand (r : RegFile) (immediate : Word) (src : BitVec 3) : Word :=
  if src = 0 then 0 else if src = 1 then immediate else r src

/-- The shift amount, where C defines the shift. -/
def shiftAmount (amount : Word) : Except Fault ℕ :=
  if amount.toNat < 32 then .ok amount.toNat else .error (.undefinedShift amount)

/-- The condition of a conditional jump; false for every other opcode. -/
def Opcode.condHolds (opcode : Opcode) (alu0 alu1 : Word) : Bool :=
  match opcode with
  | .JLT => alu0.slt alu1
  | .JLE => alu0.sle alu1
  | .JEQ => alu0 == alu1
  | .JNE => alu0 != alu1
  | _ => false

/-- What writes back the ALU output neither accesses memory nor stops. -/
theorem Fields.op_of_isAlu {f : Fields} (h : f.isAlu = true) :
    f.op ≠ .LD ∧ f.op ≠ .ST ∧ f.op ≠ .HLT := by
  unfold Fields.isAlu at h
  cases hop : f.op <;> simp [hop] at h ⊢

/-- Fields 0 and 1 are the ones that name no register. -/
theorem two_le_iff : ∀ src : BitVec 3, 2#3 ≤ src ↔ src ≠ 0 ∧ src ≠ 1 := by
  decide

theorem operand_of_two_le {r : RegFile} {immediate : Word} {src : BitVec 3}
    (h : 2#3 ≤ src) : operand r immediate src = r src := by
  obtain ⟨h0, h1⟩ := (two_le_iff src).mp h
  rw [operand, if_neg h0, if_neg h1]

/-- Operands depend on the registers from 2 on only. -/
theorem operand_congr {r r' : RegFile} {immediate : Word} {src : BitVec 3}
    (h : 2#3 ≤ src → r src = r' src) :
    operand r immediate src = operand r' immediate src := by
  unfold operand
  split_ifs with h0 h1
  · rfl
  · rfl
  · exact h ((two_le_iff src).mpr ⟨h0, h1⟩)

/-- Two writes to one register agree from r2 on if and only if the values do. -/
theorem update_same_iff {r : RegFile} {dst : BitVec 3} (h : 2#3 ≤ dst)
    (v v' : Word) :
    (∀ i, 2#3 ≤ i → Function.update r dst v i = Function.update r dst v' i) ↔
      v = v' := by
  constructor
  · intro hsame
    have hdst := hsame dst h
    rwa [Function.update_self, Function.update_self] at hdst
  · rintro rfl i _
    rfl

end SuperscalarProcessor
