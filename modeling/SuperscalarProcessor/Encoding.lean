import SuperscalarProcessor.Comparison
import SuperscalarProcessor.MultiCycle.Simulation
import SuperscalarProcessor.Programs.Machine

/-!
# Instruction words

`asm_cmd` packs five fields into a word; the ISS and the two processors unpack
them again, each with its own shifts and its own sign extension. The two top
bits of a word belong to no field.
-/

namespace SuperscalarProcessor

open Llsim Foundation

/-- The decoders of the ISS, of lab2 and of lab3_A. -/
def decoders : List (Word → Fields) :=
  [Iss.decode, MultiCycle.decodeFields, Pipeline.decodeFields]

/-- The fields are the arguments of `asm_cmd`, the immediate its low half with
the sign extended. -/
structure Unpacks (f : Fields) (opcode dst src0 src1 immediate : Word) : Prop where
  opcode : f.opcode.setWidth 32 = opcode
  dst : f.dst.setWidth 32 = dst
  src0 : f.src0.setWidth 32 = src0
  src1 : f.src1.setWidth 32 = src1
  immediate : f.immediate = (immediate.setWidth 16).signExtend 32

/-- `asm_cmd` called on the fields of an instruction. -/
def reencode (f : Fields) : Word :=
  asmInst (f.opcode.setWidth 32) (f.dst.setWidth 32) (f.src0.setWidth 32)
    (f.src1.setWidth 32) f.immediate

/-! ## Bit by bit -/

theorem getLsbD_asmInst (opcode dst src0 src1 immediate : Word) {i : ℕ} (hi : i < 32) :
    (asmInst opcode dst src0 src1 immediate).getLsbD i =
      ((decide (25 ≤ i ∧ i < 25 + 5) && opcode.getLsbD (i - 25)) ||
        (decide (22 ≤ i ∧ i < 22 + 3) && dst.getLsbD (i - 22)) ||
        (decide (19 ≤ i ∧ i < 19 + 3) && src0.getLsbD (i - 19)) ||
        (decide (16 ≤ i ∧ i < 16 + 3) && src1.getLsbD (i - 16)) ||
        (decide (0 ≤ i ∧ i < 0 + 16) && immediate.getLsbD (i - 0))) := by
  have h5 : (0x1F : Word) = lowMask 32 5 := rfl
  have h3 : (7 : Word) = lowMask 32 3 := rfl
  have h16 : (immediate &&& 0xFFFF : Word) = (immediate &&& lowMask 32 16) <<< 0 := by
    rw [BitVec.shiftLeft_zero]
    rfl
  rw [asmInst, h5, h3, h16]
  simp only [BitVec.getLsbD_or, getLsbD_place _ _ _ hi]

theorem decode_eq (inst : Word) : Iss.decode inst =
    { opcode := inst.extractLsb' 25 5
      dst := inst.extractLsb' 22 3
      src0 := inst.extractLsb' 19 3
      src1 := inst.extractLsb' 16 3
      immediate := (inst.setWidth 16).signExtend 32 } := by
  have himm : (inst &&& 0xFFFF).setWidth 16 = inst.setWidth 16 := by
    have hmask : ((0xFFFF : Word).setWidth 16) = BitVec.allOnes 16 := by decide
    rw [BitVec.setWidth_and, hmask, BitVec.and_allOnes]
  rw [Iss.decode, Fields.mk.injEq]
  exact ⟨shiftRight_and_lowMask inst (by decide), shiftRight_and_lowMask inst (by decide),
    shiftRight_and_lowMask inst (by decide), shiftRight_and_lowMask inst (by decide),
    congrArg (BitVec.signExtend 32) himm⟩

/-! ## The round trips -/

/-- All decoders compute the same fields. -/
theorem eq_decode_of_mem {decode : Word → Fields} (h : decode ∈ decoders) (inst : Word) :
    decode inst = Iss.decode inst := by
  simp only [decoders, List.mem_cons, List.not_mem_nil, or_false] at h
  rcases h with rfl | rfl | rfl
  · rfl
  · exact MultiCycle.decodeFields_eq_decode inst
  · rw [decodeFields_eq, MultiCycle.decodeFields_eq_decode]

/-- Decoding a word that `asm_cmd` has built. -/
theorem decode_asmInst (opcode dst src0 src1 immediate : Word) :
    Iss.decode (asmInst opcode dst src0 src1 immediate) =
      { opcode := opcode.setWidth 5
        dst := dst.setWidth 3
        src0 := src0.setWidth 3
        src1 := src1.setWidth 3
        immediate := (immediate.setWidth 16).signExtend 32 } := by
  have himm : (asmInst opcode dst src0 src1 immediate).setWidth 16 =
      immediate.setWidth 16 := by
    rw [BitVec.setWidth_eq_extractLsb' (by decide)]
    apply extractLsb'_eq_setWidth
    intro i _ hi
    rw [getLsbD_asmInst _ _ _ _ _ (by omega)]
    grind
  rw [decode_eq, Fields.mk.injEq]
  refine ⟨extractLsb'_eq_setWidth ?_, extractLsb'_eq_setWidth ?_,
    extractLsb'_eq_setWidth ?_, extractLsb'_eq_setWidth ?_,
    congrArg (BitVec.signExtend 32) himm⟩
  -- in each field one disjunct of the word survives
  all_goals
    intro i hlo hhi
    rw [getLsbD_asmInst _ _ _ _ _ (by omega)]
    grind

/-- Building a word again from its fields. -/
theorem reencode_decode (word : Word) :
    reencode (Iss.decode word) = word &&& 0x3FFFFFFF := by
  have hmask : (0x3FFFFFFF : Word) = lowMask 32 30 := rfl
  have himm : ∀ i, i < 16 →
      ((word.setWidth 16).signExtend 32).getLsbD i = word.getLsbD i := by
    intro i hi
    have hi' : i < 32 := by omega
    rw [BitVec.getLsbD_signExtend, BitVec.getLsbD_setWidth]
    simp [hi, hi']
  rw [decode_eq, hmask]
  apply BitVec.eq_of_getLsbD_eq
  intro i hi
  rw [reencode, getLsbD_asmInst _ _ _ _ _ hi, BitVec.getLsbD_and, getLsbD_lowMask]
  simp only [BitVec.getLsbD_setWidth, BitVec.getLsbD_extractLsb']
  by_cases hlow : i < 16
  · rw [Nat.sub_zero, himm i hlow]
    grind
  · grind

/-- **Encoding and decoding are inverse.** For all arguments in their fields'
ranges, each decoder gives back what `asm_cmd` packed; for all words, the
decoders agree and packing the fields again clears bits 31 and 30 only. -/
theorem encoding_roundTrip :
    (∀ opcode dst src0 src1 immediate : Word, opcode.toNat ≤ 31 → dst.toNat ≤ 7 →
      src0.toNat ≤ 7 → src1.toNat ≤ 7 → ∀ decode ∈ decoders,
        Unpacks (decode (asmInst opcode dst src0 src1 immediate))
          opcode dst src0 src1 immediate) ∧
    ∀ word : Word, (∀ decode ∈ decoders, ∀ decode' ∈ decoders,
      decode word = decode' word) ∧
      ∀ decode ∈ decoders, reencode (decode word) = word &&& 0x3FFFFFFF := by
  have hnarrow : ∀ (x : Word) (len : ℕ), x.toNat < 2 ^ len →
      (x.setWidth len).setWidth 32 = x := by
    intro x len hx
    apply BitVec.eq_of_toNat_eq
    rw [BitVec.toNat_setWidth, BitVec.toNat_setWidth, Nat.mod_eq_of_lt hx,
      Nat.mod_eq_of_lt x.isLt]
  constructor
  · intro opcode dst src0 src1 immediate hopcode hdst hsrc0 hsrc1 decode hdecode
    rw [eq_decode_of_mem hdecode, decode_asmInst]
    exact ⟨hnarrow _ 5 (by omega), hnarrow _ 3 (by omega), hnarrow _ 3 (by omega),
      hnarrow _ 3 (by omega), rfl⟩
  · intro word
    constructor
    · intro decode hdecode decode' hdecode'
      rw [eq_decode_of_mem hdecode, eq_decode_of_mem hdecode']
    · intro decode hdecode
      rw [eq_decode_of_mem hdecode, reencode_decode]

/-- The first instruction of the addition program, decoded by the pipeline. -/
theorem encoding_roundTrip_lhi :
    Unpacks (Pipeline.decodeFields (asmInst 7 5 1 0 0x8000)) 7 5 1 0 0x8000 :=
  encoding_roundTrip.1 7 5 1 0 0x8000 (by decide) (by decide) (by decide) (by decide)
    Pipeline.decodeFields (by simp [decoders])

end SuperscalarProcessor
