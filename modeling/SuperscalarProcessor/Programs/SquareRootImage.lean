import SuperscalarProcessor.Foundation.DigitRoot
import SuperscalarProcessor.Foundation.SmallWords
import SuperscalarProcessor.Programs.OnPipeline

/-!
# The square root image (`lab2/sqrtq.bin`)

The later square root program finds the root of a word below `2 ^ 30` bit by bit.
Both versions of the ISS and the multi-cycle processor do so. Its instruction 15
reads a stale word: on the pipeline every bit is set.
-/

namespace SuperscalarProcessor.Programs

open Llsim Foundation Iss

/-- The words of the program. -/
def rootWords : List Word :=
  [0x108103E8, 0x02910001, 0x01010001, 0x24100018, 0x108103E8, 0x01000000,
    0x01500000, 0x00C80001, 0x2013000B, 0x04D90002, 0x24000008, 0x06D90002,
    0x24180018, 0x01A30000, 0x03960000, 0x20300015, 0x02940000, 0x02930000,
    0x07210001, 0x01230000, 0x24000016, 0x07210001, 0x06D90002, 0x2400000C,
    0x122103E9, 0x30000000]

/-- The image with any data behind the program; the argument is at 1000. -/
def rootImage (data : Mem) : Mem := withData rootWords data

/-- The program as it is decoded. -/
def rootCode : List Fields :=
  [instr .LD 2 0 1 1000,
   -- an argument of 1 is its own root
   instr .SUB 2 2 1 1,
   instr .ADD 4 0 1 1,
   instr .JEQ 0 2 0 24,
   instr .LD 2 0 1 1000,
   instr .ADD 4 0 0 0,
   instr .ADD 5 2 0 0,
   instr .ADD 3 1 0 1,
   -- the first bit above the argument
   instr .JLT 0 2 3 11,
   instr .LSF 3 3 1 2,
   instr .JEQ 0 0 0 8,
   -- the next bit
   instr .RSF 3 3 1 2,
   instr .JEQ 0 3 0 24,
   instr .ADD 6 4 3 0,
   instr .SUB 6 2 6 0,
   instr .JLT 0 6 0 21,
   instr .SUB 2 2 4 0,
   instr .SUB 2 2 3 0,
   instr .RSF 4 4 1 1,
   instr .ADD 4 4 3 0,
   instr .JEQ 0 0 0 22,
   instr .RSF 4 4 1 1,
   instr .RSF 3 3 1 2,
   instr .JEQ 0 0 0 12,
   -- the root
   instr .ST 0 4 1 1001,
   instr .HLT 0 0 0 0]

theorem rootImage_resident (data : Mem) : Resident rootCode (rootImage data) where
  installed := withData_installed (by decide +kernel) (by decide) data
  room := by decide
  plain := by decide

/-- The argument as a number. -/
theorem argument_eq (data : Mem) : data 1000 = BitVec.ofNat 32 (data 1000).toNat := by
  rw [BitVec.ofNat_toNat, BitVec.setWidth_eq]

theorem argument_ne_one {data : Mem} (h : 1 < (data 1000).toNat) : data 1000 ≠ 1 := by
  rintro heq
  rw [heq] at h
  exact absurd h (by decide)

theorem rootImage_input (data : Mem) : rootImage data 1000 = data 1000 :=
  withData_of_le data (by decide)

/-- The memory with the answer in 1001. -/
def rootOutput (data : Mem) (answer : Word) : Mem :=
  Function.update (rootImage data) 1001 answer

/-! ## Segments of the program -/

/-- The addresses at which nothing stale is read. -/
def steady (i : ℕ) : Bool := i < 26 && i != 15

section Segments

variable {here : ℕ → Prop} (data : Mem) {N : ℕ}

/-- An argument of 1 leads straight to the end. -/
theorem reaches_answer_of_one (hhere : ∀ i, steady i = true → here i)
    (hone : data 1000 = 1) :
    ∃ reg, Segment step (Plain (rootImage data) here) 4 (init (rootImage data))
      (live (rootImage data) reg 24) ∧ reg 4 = 1 := by
  have code := rootImage_resident data
  have hmem := Intact.refl rootCode (rootImage data)
  have hinput : rootImage data 1000 = 1 := (rootImage_input data).trans hone
  refine ⟨?reg, ?run, ?answer⟩
  case run =>
    refine code.cons_load hmem 0 1000 rfl rfl (hhere 0 rfl) rfl (by decide) ?_
    rw [hinput]
    refine code.cons_result hmem 1 0 rfl rfl nofun (hhere 1 rfl) (by rfl) ?_
    refine code.cons_result hmem 2 1 rfl rfl nofun (hhere 2 rfl) (by rfl) ?_
    refine code.cons_jump hmem 3 24 rfl rfl (hhere 3 rfl) (Or.inl ⟨rfl, rfl⟩) ?_
    exact .refl _
  case answer => rfl

/-- At the loop that moves the bit up. -/
def ScaleHead (N j : ℕ) (s : State) : Prop :=
  ∃ reg, s = live (rootImage data) reg 8 ∧ reg 2 = BitVec.ofNat 32 N ∧ reg 4 = 0 ∧
    reg 3 = BitVec.ofNat 32 (4 ^ j)

/-- Every other argument is loaded again, with a bit to be moved up. -/
theorem reaches_scale (hhere : ∀ i, steady i = true → here i)
    (hdata : data 1000 = BitVec.ofNat 32 N) (hone : data 1000 ≠ 1) :
    ∃ s, Segment step (Plain (rootImage data) here) 8 (init (rootImage data)) s ∧
      ScaleHead data N 0 s := by
  have code := rootImage_resident data
  have hmem := Intact.refl rootCode (rootImage data)
  have hless : (rootImage data 1000 - 1 == 0) = false := by
    rw [rootImage_input, beq_eq_false_iff_ne, ne_eq, sub_eq_zero]
    exact hone
  refine ⟨live (rootImage data) ?reg 8, ?run, ?reg, rfl, ?argument, ?root, ?bit⟩
  case run =>
    refine code.cons_load hmem 0 1000 rfl rfl (hhere 0 rfl) rfl (by decide) ?_
    refine code.cons_result hmem 1 (rootImage data 1000 - 1) rfl rfl nofun (hhere 1 rfl)
      (by rfl) ?_
    refine code.cons_result hmem 2 1 rfl rfl nofun (hhere 2 rfl) (by rfl) ?_
    refine code.cons_jump hmem 3 4 rfl rfl (hhere 3 rfl)
      (Or.inr ⟨by exact hless, rfl⟩) ?_
    refine code.cons_load hmem 4 1000 rfl rfl (hhere 4 rfl) (by rfl) (by decide) ?_
    refine code.cons_result hmem 5 0 rfl rfl nofun (hhere 5 rfl) (by rfl) ?_
    refine code.cons_result hmem 6 (rootImage data 1000 + 0) rfl rfl nofun (hhere 6 rfl)
      (by rfl) ?_
    refine code.cons_result hmem 7 1 rfl rfl nofun (hhere 7 rfl) (by rfl) ?_
    exact .refl _
  case argument => exact (rootImage_input data).trans hdata
  case root => rfl
  case bit => rfl

/-- As long as the argument is not below the bit, the bit moves up. -/
theorem scale_turn (hhere : ∀ i, steady i = true → here i) (j : ℕ)
    (hj : (BitVec.ofNat 32 N).slt (BitVec.ofNat 32 (4 ^ j)) = false) (s : State)
    (hs : ScaleHead data N j s) :
    ∃ s', Segment step (Plain (rootImage data) here) 3 s s' ∧
      ScaleHead data N (j + 1) s' := by
  obtain ⟨reg, rfl, h2, h4, h3⟩ := hs
  have code := rootImage_resident data
  have hmem := Intact.refl rootCode (rootImage data)
  have hless : (reg 2).slt (reg 3) = false := by rw [h2, h3, hj]
  refine ⟨live (rootImage data) ?reg 8, ?run, ?reg, rfl, ?argument, ?root, ?bit⟩
  case run =>
    refine code.cons_jump hmem 8 9 rfl rfl (hhere 8 rfl) (Or.inr ⟨by exact hless, rfl⟩) ?_
    refine code.cons_result hmem 9 (reg 3 <<< 2) rfl rfl nofun (hhere 9 rfl) (by rfl) ?_
    refine code.cons_jump hmem 10 8 rfl rfl (hhere 10 rfl) (Or.inl ⟨rfl, rfl⟩) ?_
    exact .refl _
  case argument => exact h2
  case root => exact h4
  case bit =>
    show reg 3 <<< 2 = _
    rw [h3, shiftLeft_ofNat]
    rfl

theorem size_sqrt_le {N : ℕ} (hN : N < 2 ^ 30) : (Nat.sqrt N).size ≤ 15 := by
  by_contra hlarge
  have hle := four_pow_le_iff.mpr (not_le.mp hlarge)
  omega

/-- The bit goes back to the highest one that the root can have. -/
theorem reaches_bits (hhere : ∀ i, steady i = true → here i) {m : ℕ}
    (hm : (BitVec.ofNat 32 N).slt (BitVec.ofNat 32 (4 ^ m)) = true) (hle : m ≤ 15)
    {s : State} (hs : ScaleHead data N m s) :
    ∃ reg, Segment step (Plain (rootImage data) here) 2 s (live (rootImage data) reg 12) ∧
      reg 2 = BitVec.ofNat 32 N ∧ reg 4 = 0 ∧ reg 3 = BitVec.ofNat 32 (4 ^ m / 4) := by
  obtain ⟨reg, rfl, h2, h4, h3⟩ := hs
  have code := rootImage_resident data
  have hmem := Intact.refl rootCode (rootImage data)
  have hpow : 4 ^ m ≤ 4 ^ 15 := Nat.pow_le_pow_right (by decide) hle
  have hless : (reg 2).slt (reg 3) = true := by rw [h2, h3, hm]
  refine ⟨?reg, ?run, ?argument, ?root, ?bit⟩
  case run =>
    refine code.cons_jump hmem 8 11 rfl rfl (hhere 8 rfl) (Or.inl ⟨by exact hless, rfl⟩) ?_
    refine code.cons_result hmem 11 ((reg 3).sshiftRight 2) rfl rfl (fun _ => ?_)
      (hhere 11 rfl) (by rfl) ?_
    · show (reg 3).msb = false
      rw [h3]
      exact msb_ofNat_of_lt (by omega)
    exact .refl _
  case argument => exact h2
  case root => exact h4
  case bit =>
    show (reg 3).sshiftRight 2 = _
    rw [h3, sshiftRight_ofNat (by omega)]
    rfl

/-- The loop for the bits is reached with one bit for each bit of the root. -/
theorem reaches_bits_from_init (hhere : ∀ i, steady i = true → here i) (hN : N < 2 ^ 30)
    (hdata : data 1000 = BitVec.ofNat 32 N) (hone : data 1000 ≠ 1) :
    ∃ n reg, Segment step (Plain (rootImage data) here) n (init (rootImage data))
        (live (rootImage data) reg 12) ∧
      reg 2 = BitVec.ofNat 32 N ∧ reg 4 = 0 ∧
      reg 3 = BitVec.ofNat 32 (4 ^ (Nat.sqrt N).size / 4) := by
  obtain ⟨s, hstart, hhead⟩ := reaches_scale data hhere hdata hone
  have hsize := size_sqrt_le hN
  have hless : ∀ j ≤ (Nat.sqrt N).size,
      (BitVec.ofNat 32 N).slt (BitVec.ofNat 32 (4 ^ j)) = decide (N < 4 ^ j) := by
    intro j hj
    have hpow : 4 ^ j ≤ 4 ^ 15 := Nat.pow_le_pow_right (by decide) (by omega)
    exact slt_ofNat (by omega) (by omega)
  obtain ⟨s', hscale, hhead'⟩ := Segment.loop (fun j hj => scale_turn data hhere j
    ((hless j (Nat.le_of_lt hj)).trans
      (decide_eq_false (not_lt.mpr (four_pow_le_iff.mpr hj))))) hhead
  obtain ⟨reg, hbits, hregs⟩ := reaches_bits data hhere
    ((hless _ le_rfl).trans (decide_eq_true (lt_four_pow_size N))) hsize hhead'
  exact ⟨_, reg, hstart.trans (hscale.trans hbits), hregs⟩

/-! ## The loop for the bits -/

/-- The bit is set: the argument loses it, the root gains it. -/
theorem bit_set (hhere : ∀ i, steady i = true → here i) {reg : RegFile}
    (h4 : (reg 4).msb = false) (h3 : (reg 3).msb = false) :
    ∃ reg', Segment step (Plain (rootImage data) here) 7 (live (rootImage data) reg 16)
        (live (rootImage data) reg' 12) ∧
      reg' 2 = reg 2 - reg 4 - reg 3 ∧ reg' 4 = (reg 4).sshiftRight 1 + reg 3 ∧
      reg' 3 = (reg 3).sshiftRight 2 := by
  have code := rootImage_resident data
  have hmem := Intact.refl rootCode (rootImage data)
  refine ⟨?reg, ?run, ?argument, ?root, ?bit⟩
  case run =>
    refine code.cons_result hmem 16 (reg 2 - reg 4) rfl rfl nofun (hhere 16 rfl)
      (by rfl) ?_
    refine code.cons_result hmem 17 (reg 2 - reg 4 - reg 3) rfl rfl nofun (hhere 17 rfl)
      (by rfl) ?_
    refine code.cons_result hmem 18 ((reg 4).sshiftRight 1) rfl rfl
      (fun _ => by exact h4) (hhere 18 rfl) (by rfl) ?_
    refine code.cons_result hmem 19 ((reg 4).sshiftRight 1 + reg 3) rfl rfl nofun
      (hhere 19 rfl) (by rfl) ?_
    refine code.cons_jump hmem 20 22 rfl rfl (hhere 20 rfl) (Or.inl ⟨rfl, rfl⟩) ?_
    refine code.cons_result hmem 22 ((reg 3).sshiftRight 2) rfl rfl
      (fun _ => by exact h3) (hhere 22 rfl) (by rfl) ?_
    refine code.cons_jump hmem 23 12 rfl rfl (hhere 23 rfl) (Or.inl ⟨rfl, rfl⟩) ?_
    exact .refl _
  case argument => rfl
  case root => rfl
  case bit => rfl

/-- The bit is not set. -/
theorem bit_clear (hhere : ∀ i, steady i = true → here i) {reg : RegFile}
    (h4 : (reg 4).msb = false) (h3 : (reg 3).msb = false) :
    ∃ reg', Segment step (Plain (rootImage data) here) 3 (live (rootImage data) reg 21)
        (live (rootImage data) reg' 12) ∧
      reg' 2 = reg 2 ∧ reg' 4 = (reg 4).sshiftRight 1 ∧
      reg' 3 = (reg 3).sshiftRight 2 := by
  have code := rootImage_resident data
  have hmem := Intact.refl rootCode (rootImage data)
  refine ⟨?reg, ?run, ?argument, ?root, ?bit⟩
  case run =>
    refine code.cons_result hmem 21 ((reg 4).sshiftRight 1) rfl rfl
      (fun _ => by exact h4) (hhere 21 rfl) (by rfl) ?_
    refine code.cons_result hmem 22 ((reg 3).sshiftRight 2) rfl rfl
      (fun _ => by exact h3) (hhere 22 rfl) (by rfl) ?_
    refine code.cons_jump hmem 23 12 rfl rfl (hhere 23 rfl) (Or.inl ⟨rfl, rfl⟩) ?_
    exact .refl _
  case argument => rfl
  case root => rfl
  case bit => rfl

/-- With no bit left the loop ends. -/
theorem bits_end (hhere : ∀ i, steady i = true → here i) {reg : RegFile}
    (h3 : reg 3 = 0) :
    Segment step (Plain (rootImage data) here) 1 (live (rootImage data) reg 12)
      (live (rootImage data) reg 24) := by
  have code := rootImage_resident data
  exact code.cons_jump (.refl _ _) 12 24 rfl rfl (hhere 12 rfl)
    (Or.inl ⟨beq_iff_eq.mpr h3, rfl⟩) (.refl _)

/-- The root is stored. -/
theorem reaches_halt_of_answer (hhere : ∀ i, steady i = true → here i) (reg : RegFile) :
    Segment step (Plain (rootImage data) here) 1 (live (rootImage data) reg 24)
      (live (rootOutput data (reg 4)) reg 25) := by
  have code := rootImage_resident data
  refine code.cons_store (Intact.refl _ _) 24 1001 rfl rfl (hhere 24 rfl) rfl (by decide)
    rfl ?_
  exact .refl _

end Segments

/-! ## The sequential simulators -/

section Sequential

variable (data : Mem) {N : ℕ}

/-- At the loop for the bits with `j` of them left. -/
def BitsHead (N j : ℕ) (s : State) : Prop :=
  ∃ reg root rest, s = live (rootImage data) reg 12 ∧ j ≤ 15 ∧
    reg 2 = BitVec.ofNat 32 rest.1 ∧ reg 4 = BitVec.ofNat 32 rest.2 ∧
    reg 3 = BitVec.ofNat 32 (4 ^ j / 4) ∧ RootPrefix N j root rest

/-- The bit is tried: what would be left of the argument is in r6. -/
theorem bit_tried {reg : RegFile} (hbit : reg 3 ≠ 0) :
    ∃ reg', Segment step (Plain (rootImage data) Anywhere) 3
        (live (rootImage data) reg 12) (live (rootImage data) reg' 15) ∧
      reg' 6 = reg 2 - (reg 4 + reg 3) ∧ reg' 2 = reg 2 ∧ reg' 4 = reg 4 ∧
      reg' 3 = reg 3 := by
  have code := rootImage_resident data
  have hmem := Intact.refl rootCode (rootImage data)
  refine ⟨?reg, ?run, ?tried, ?argument, ?root, ?bit⟩
  case run =>
    refine code.cons_jump hmem 12 13 rfl rfl trivial
      (Or.inr ⟨beq_eq_false_iff_ne.mpr hbit, rfl⟩) ?_
    refine code.cons_result hmem 13 (reg 4 + reg 3) rfl rfl nofun trivial (by rfl) ?_
    refine code.cons_result hmem 14 (reg 2 - (reg 4 + reg 3)) rfl rfl nofun trivial
      (by rfl) ?_
    exact .refl _
  case tried => rfl
  case argument => rfl
  case root => rfl
  case bit => rfl

theorem bit_ne_zero {j : ℕ} (hj : j ≤ 14) : BitVec.ofNat 32 (4 ^ j) ≠ 0 := by
  have hpow : 4 ^ j ≤ 4 ^ 14 := Nat.pow_le_pow_right (by decide) hj
  have hpos : 0 < 4 ^ j := Nat.pow_pos (by decide)
  intro hzero
  have hnat := congrArg BitVec.toNat hzero
  rw [BitVec.toNat_ofNat, Nat.mod_eq_of_lt (by omega)] at hnat
  exact absurd hnat hpos.ne'

theorem four_pow_pred (j : ℕ) : 4 ^ (j + 1) / 4 = 4 ^ j := by
  rw [Nat.pow_succ, Nat.mul_div_cancel _ (by decide)]

/-- One bit of the root. -/
theorem bit_turn (hN : N < 2 ^ 30) (j : ℕ) (s : State) (hs : BitsHead data N (j + 1) s) :
    ∃ n s', Segment step (Plain (rootImage data) Anywhere) n s s' ∧
      BitsHead data N j s' := by
  obtain ⟨reg, root, rest, rfl, hj, h2, h4, h3, hprefix⟩ := hs
  have code := rootImage_resident data
  have hmem := Intact.refl rootCode (rootImage data)
  obtain ⟨root', hprefix'⟩ := hprefix.step
  obtain ⟨hrest, hroot⟩ := hprefix.bounds hN hj
  have hpow : 4 ^ j ≤ 4 ^ 14 := Nat.pow_le_pow_right (by decide) (by omega)
  rw [four_pow_pred] at h3
  have hbit : reg 3 ≠ 0 := by
    rw [h3]
    exact bit_ne_zero (by omega)
  have h4msb : (reg 4).msb = false := by
    rw [h4]
    exact msb_ofNat_of_lt (by omega)
  have h3msb : (reg 3).msb = false := by
    rw [h3]
    exact msb_ofNat_of_lt (by omega)
  obtain ⟨reg₁, htried, h6, h2', h4', h3'⟩ := bit_tried data hbit
  have hless : (reg₁ 6).slt 0 = decide (rest.1 < rest.2 + 4 ^ j) := by
    rw [h6, h2, h4, h3, ← BitVec.ofNat_add]
    exact slt_sub_ofNat (by omega) (by omega)
  have hshift4 : (reg₁ 4).sshiftRight 1 = BitVec.ofNat 32 (rest.2 / 2) := by
    rw [h4', h4, sshiftRight_ofNat (by omega)]
    rfl
  have hshift3 : (reg₁ 3).sshiftRight 2 = BitVec.ofNat 32 (4 ^ j / 4) := by
    rw [h3', h3, sshiftRight_ofNat (by omega)]
    rfl
  rw [← h4'] at h4msb
  rw [← h3'] at h3msb
  rcases Nat.lt_or_ge rest.1 (rest.2 + 4 ^ j) with hlow | hhigh
  · have hjump : Segment step (Plain (rootImage data) Anywhere) 1
        (live (rootImage data) reg₁ 15) (live (rootImage data) reg₁ 21) :=
      code.cons_jump hmem 15 21 rfl rfl trivial
        (Or.inl ⟨hless.trans (decide_eq_true hlow), rfl⟩) (.refl _)
    obtain ⟨reg', hrun, h2'', h4'', h3''⟩ :=
      @bit_clear Anywhere data (fun _ _ => trivial) reg₁ h4msb h3msb
    rw [rootStep, if_pos hlow] at hprefix'
    refine ⟨_, _, htried.trans (hjump.trans hrun), reg', root', _, rfl, by omega, ?_,
      h4''.trans hshift4, h3''.trans hshift3, hprefix'⟩
    rw [h2'', h2', h2]
  · have hjump : Segment step (Plain (rootImage data) Anywhere) 1
        (live (rootImage data) reg₁ 15) (live (rootImage data) reg₁ 16) :=
      code.cons_jump hmem 15 16 rfl rfl trivial
        (Or.inr ⟨hless.trans (decide_eq_false (not_lt.mpr hhigh)), rfl⟩) (.refl _)
    obtain ⟨reg', hrun, h2'', h4'', h3''⟩ :=
      @bit_set Anywhere data (fun _ _ => trivial) reg₁ h4msb h3msb
    rw [rootStep, if_neg (not_lt.mpr hhigh)] at hprefix'
    refine ⟨_, _, htried.trans (hjump.trans hrun), reg', root', _, rfl, by omega, ?_, ?_,
      h3''.trans hshift3, hprefix'⟩
    · rw [h2'', h2', h4', h3', h2, h4, h3, sub_sub, ← BitVec.ofNat_add, sub_ofNat hhigh]
    · rw [h4'', hshift4, h3', h3, ← BitVec.ofNat_add]

/-- With all bits found the root is in r4. -/
theorem reaches_answer (hN : N < 2 ^ 30) (hdata : data 1000 = BitVec.ofNat 32 N)
    (hone : data 1000 ≠ 1) :
    ∃ n reg, Segment step (Plain (rootImage data) Anywhere) n (init (rootImage data))
      (live (rootImage data) reg 24) ∧ reg 4 = BitVec.ofNat 32 (Nat.sqrt N) := by
  obtain ⟨n, reg, hstart, h2, h4, h3⟩ :=
    @reaches_bits_from_init Anywhere data N (fun _ _ => trivial) hN hdata hone
  have hhead : BitsHead data N (Nat.sqrt N).size (live (rootImage data) reg 12) :=
    ⟨reg, 0, (N, 0), rfl, size_sqrt_le hN, h2, h4, h3, .init (lt_four_pow_size N)⟩
  obtain ⟨n', s, hbits, reg', root, rest, rfl, -, -, h4', h3', hprefix⟩ :=
    Segment.countdown (fun j s hs => bit_turn data hN j s hs) hhead
  have hlast := @bits_end Anywhere data (fun _ _ => trivial) reg' h3'
  exact ⟨_, reg', hstart.trans (hbits.trans hlast), by rw [h4', hprefix.eq_sqrt]⟩

end Sequential

/-- **The sequential simulators find the square root** of every word below `2 ^ 30`;
the rest of the memory is as it was. -/
theorem root_sequential {data : Mem} (hN : (data 1000).toNat < 2 ^ 30) :
    ∃ n, SequentialDumps (rootImage data) n (memoryDump
      (rootOutput data (BitVec.ofNat 32 (Nat.sqrt (data 1000).toNat)))) := by
  have code := rootImage_resident data
  have hdata := argument_eq data
  obtain ⟨n, reg, hrun, h4⟩ : ∃ n reg, Segment step (Plain (rootImage data) Anywhere) n
      (init (rootImage data)) (live (rootImage data) reg 24) ∧
      reg 4 = BitVec.ofNat 32 (Nat.sqrt (data 1000).toNat) := by
    by_cases hone : data 1000 = 1
    · obtain ⟨reg, hrun, h4⟩ :=
        @reaches_answer_of_one Anywhere data (fun _ _ => trivial) hone
      exact ⟨4, reg, hrun, by rw [h4, hone]; rfl⟩
    · exact reaches_answer data hN hdata hone
  have hlast := @reaches_halt_of_answer Anywhere data (fun _ _ => trivial) reg
  rw [← h4]
  exact ⟨_, code.sequentialDumps ((Intact.refl _ _).store (by decide) _) rfl rfl
    (hrun.trans hlast)⟩

/-- The argument of the shipped image. -/
def shippedData : Mem := fun i => if i = 1000 then 0x00500000 else 0

theorem root_sequential_shipped :
    ∃ n, SequentialDumps (rootImage shippedData) n
      (memoryDump (rootOutput shippedData 0x8F1)) := by
  have hroot : BitVec.ofNat 32 (Nat.sqrt (shippedData 1000).toNat) = 0x8F1 := by
    decide +kernel
  rw [← hroot]
  exact @root_sequential shippedData (by decide)

/-! ## The pipeline -/

section Pipeline

variable (data : Mem)

theorem rootImage_clear : ∀ i, steady i = true → Clear (rootImage data) i := by
  have hwords : ∀ i < 26, i ≠ 15 → Clear (withData rootWords fun _ => 0) i := by
    decide +kernel
  intro i hi
  simp only [steady, Bool.and_eq_true, decide_eq_true_eq, bne_iff_ne] at hi
  exact clear_withData hi.1 data (hwords i hi.1 hi.2)

/-- At the loop for the bits with `j` of `m` left and all others set. -/
def FilledHead (m j : ℕ) (reg : RegFile) : Prop :=
  reg 4 = BitVec.ofNat 32 ((2 ^ m - 2 ^ j) * 2 ^ j) ∧ reg 3 = BitVec.ofNat 32 (4 ^ j / 4)

/-- Instruction 15 compares the sum of instruction 13 with zero, not what would be
left of the argument. -/
theorem jump_reads_sum {reg : RegFile} {k : ℕ}
    (h : PipelineAt (rootImage data) (live (rootImage data) reg 13) k)
    (hsum : (reg 4 + reg 3).slt 0 = false) :
    ∃ reg', PipelineAt (rootImage data) (live (rootImage data) reg' 16) (k + 3) ∧
      reg' 4 = reg 4 ∧ reg' 3 = reg 3 := by
  have code := rootImage_resident data
  have hclear := rootImage_clear data
  have hstale := code.jump_stale (Intact.refl _ _) h rfl rfl rfl ⟨rfl, nofun⟩
    ⟨rfl, nofun⟩ rfl (hclear 13 rfl) (hclear 14 rfl) ⟨by decide, rfl, rfl⟩ rfl rfl hsum
  exact ⟨_, hstale, rfl, rfl⟩

/-- The sum is not negative, so the bit is set. -/
theorem filled_turn {m j : ℕ} (hm : m ≤ 15) (hj : j < m) {reg : RegFile} {k : ℕ}
    (h : PipelineAt (rootImage data) (live (rootImage data) reg 12) k)
    (hhead : FilledHead m (j + 1) reg) :
    ∃ reg' k', PipelineAt (rootImage data) (live (rootImage data) reg' 12) k' ∧
      FilledHead m j reg' := by
  obtain ⟨h4, h3⟩ := hhead
  have code := rootImage_resident data
  have hclear := rootImage_clear data
  have hfilled : (2 ^ m - 2 ^ (j + 1)) * 2 ^ (j + 1) < 4 ^ 15 := filled_lt hj hm
  have hpow : 4 ^ j ≤ 4 ^ 14 := Nat.pow_le_pow_right (by decide) (by omega)
  rw [four_pow_pred] at h3
  have hbit : reg 3 ≠ 0 := by
    rw [h3]
    exact bit_ne_zero (by omega)
  have hsum : (reg 4 + reg 3).slt 0 = false := by
    rw [h4, h3, ← BitVec.ofNat_add]
    exact (slt_ofNat (by omega) (by decide)).trans (decide_eq_false (Nat.not_lt_zero _))
  have hgo : Segment step (Plain (rootImage data) (Clear (rootImage data))) 1
      (live (rootImage data) reg 12) (live (rootImage data) reg 13) :=
    code.cons_jump (.refl _ _) 12 13 rfl rfl (hclear 12 rfl)
      (Or.inr ⟨beq_eq_false_iff_ne.mpr hbit, rfl⟩) (.refl _)
  obtain ⟨reg₁, h₁, h4₁, h3₁⟩ := jump_reads_sum data (h.segment hgo) hsum
  have h4msb : (reg₁ 4).msb = false := by
    rw [h4₁, h4]
    exact msb_ofNat_of_lt (by omega)
  have h3msb : (reg₁ 3).msb = false := by
    rw [h3₁, h3]
    exact msb_ofNat_of_lt (by omega)
  obtain ⟨reg', hrun, -, h4', h3'⟩ := bit_set data hclear h4msb h3msb
  refine ⟨reg', _, h₁.segment hrun, ?_, ?_⟩
  · rw [h4', h4₁, h3₁, h4, h3, sshiftRight_ofNat (by omega), ← BitVec.ofNat_add,
      ← filled_step hj]
    rfl
  · rw [h3', h3₁, h3, sshiftRight_ofNat (by omega)]
    rfl

theorem filled_loop {m : ℕ} (hm : m ≤ 15) : ∀ j ≤ m, ∀ {reg : RegFile} {k : ℕ},
    PipelineAt (rootImage data) (live (rootImage data) reg 12) k → FilledHead m j reg →
      ∃ reg' k', PipelineAt (rootImage data) (live (rootImage data) reg' 12) k' ∧
        FilledHead m 0 reg' := by
  intro j
  induction j with
  | zero => exact fun _ reg k h hhead => ⟨reg, k, h, hhead⟩
  | succ j ih =>
      intro hj reg k h hhead
      obtain ⟨reg', k', h', hhead'⟩ := filled_turn data hm hj h hhead
      exact ih (Nat.le_of_succ_le hj) h' hhead'

theorem reaches_filled {N : ℕ} (hN : N < 2 ^ 30) (hdata : data 1000 = BitVec.ofNat 32 N)
    (hone : data 1000 ≠ 1) :
    ∃ reg k, PipelineAt (rootImage data) (live (rootImage data) reg 24) k ∧
      reg 4 = BitVec.ofNat 32 (2 ^ (Nat.sqrt N).size - 1) := by
  have hclear := rootImage_clear data
  obtain ⟨n, reg, hstart, -, h4, h3⟩ :=
    reaches_bits_from_init data hclear hN hdata hone
  have hhead : FilledHead (Nat.sqrt N).size (Nat.sqrt N).size reg := by
    refine ⟨?_, h3⟩
    rw [h4, Nat.sub_self, Nat.zero_mul]
    rfl
  obtain ⟨reg', k', h', h4', h3'⟩ := filled_loop data (size_sqrt_le hN) _ le_rfl
    ((PipelineAt.init (rootImage data)).segment hstart) hhead
  refine ⟨reg', _, h'.segment (bits_end data hclear h3'), ?_⟩
  rw [h4', Nat.pow_zero, Nat.mul_one]

end Pipeline

/-- **The pipeline sets every bit** that the square root could have: for a word below
`2 ^ 30` it stores as many ones as the root has digits. -/
theorem root_pipeline {data : Mem} (hN : (data 1000).toNat < 2 ^ 30) :
    ∃ t, Pipeline.DumpsAt (rootImage data) (rootImage data) t (memoryDump
      (rootOutput data
        (BitVec.ofNat 32 (2 ^ (Nat.sqrt (data 1000).toNat).size - 1)))) := by
  have code := rootImage_resident data
  have hclear := rootImage_clear data
  have hdata := argument_eq data
  obtain ⟨reg, k, hat, h4⟩ : ∃ reg k,
      PipelineAt (rootImage data) (live (rootImage data) reg 24) k ∧
      reg 4 = BitVec.ofNat 32 (2 ^ (Nat.sqrt (data 1000).toNat).size - 1) := by
    by_cases hone : data 1000 = 1
    · obtain ⟨reg, hrun, h4⟩ := reaches_answer_of_one data hclear hone
      refine ⟨reg, _, (PipelineAt.init _).segment hrun, ?_⟩
      rw [h4, hone]
      decide
    · exact reaches_filled data hN hdata hone
  rw [← h4]
  exact ⟨_, code.pipeline_dumpsAt ((Intact.refl _ _).store (by decide) _) rfl rfl
    (hat.segment (reaches_halt_of_answer data hclear reg))⟩

theorem root_pipeline_shipped :
    ∃ t, Pipeline.DumpsAt (rootImage shippedData) (rootImage shippedData) t
      (memoryDump (rootOutput shippedData 0xFFF)) := by
  have hroot : BitVec.ofNat 32 (2 ^ (Nat.sqrt (shippedData 1000).toNat).size - 1) =
      0xFFF := by
    decide +kernel
  rw [← hroot]
  exact @root_pipeline shippedData (by decide)

/-! ## Arguments from `2 ^ 30` -/

/-- Above `2 ^ 30` the bit is shifted out before it passes the argument. -/
theorem never_above {N : ℕ} (hlow : 2 ^ 30 ≤ N) (hhigh : N < 2 ^ 31) (j : ℕ) :
    (BitVec.ofNat 32 N).slt (BitVec.ofNat 32 (4 ^ j)) = false := by
  rcases Nat.lt_or_ge j 16 with hj | hj
  · have hpow : 4 ^ j ≤ 4 ^ 15 := Nat.pow_le_pow_right (by decide) (by omega)
    rw [slt_ofNat (by omega) (by omega), decide_eq_false (by omega)]
  · have hzero : BitVec.ofNat 32 (4 ^ j) = 0 := by
      obtain ⟨i, rfl⟩ := Nat.exists_eq_add_of_le hj
      apply BitVec.eq_of_toNat_eq
      rw [BitVec.toNat_ofNat, Nat.pow_add]
      exact Nat.mul_mod_right (4 ^ 16) (4 ^ i)
    rw [hzero]
    exact (slt_ofNat (by omega) (by decide)).trans (decide_eq_false (Nat.not_lt_zero _))

/-- **From `2 ^ 30` to `2 ^ 31` the program never ends**, on any simulator. -/
theorem root_never_ends {data : Mem} (hlow : 2 ^ 30 ≤ (data 1000).toNat)
    (hhigh : (data 1000).toNat < 2 ^ 31) : NeverEnds (rootImage data) := by
  refine neverEnds_of_segments fun m => ?_
  have hdata := argument_eq data
  have hone := argument_ne_one (show 1 < (data 1000).toNat by omega)
  obtain ⟨s, hstart, hhead⟩ := reaches_scale data (rootImage_clear data) hdata hone
  obtain ⟨s', hturns, -⟩ := @Segment.loop _ _ _ (ScaleHead data _) m 3 (fun j _ =>
    scale_turn data (rootImage_clear data) j (never_above hlow hhigh j)) s hhead
  exact ⟨_, s', by omega, hstart.trans hturns⟩

theorem root_never_ends_above : NeverEnds (rootImage fun _ => 0x40000000) :=
  @root_never_ends (fun _ => 0x40000000) (by decide) (by decide)

/-- A negative argument is below the first bit, which is then shifted out. -/
theorem reaches_answer_of_negative {data : Mem} {here : ℕ → Prop}
    (hhere : ∀ i, steady i = true → here i) (hneg : 2 ^ 31 ≤ (data 1000).toNat) :
    ∃ n reg, Segment step (Plain (rootImage data) here) n (init (rootImage data))
      (live (rootImage data) reg 24) ∧ reg 4 = 0 := by
  have hdata := argument_eq data
  have hone := argument_ne_one (show 1 < (data 1000).toNat by omega)
  have hless : (data 1000).slt 1 = true := by
    have hlt := (data 1000).isLt
    have hint : (1 : Word).toInt = 1 := by decide
    rw [BitVec.slt_iff_toInt_lt, BitVec.toInt_eq_toNat_cond, if_neg (by omega)]
    omega
  obtain ⟨s, hstart, hhead⟩ := reaches_scale data hhere hdata hone
  obtain ⟨reg, hbits, -, h4, h3⟩ :=
    reaches_bits data hhere (hdata ▸ hless) (Nat.zero_le 15) hhead
  exact ⟨_, reg, hstart.trans (hbits.trans (bits_end data hhere h3)), h4⟩

/-- **A negative argument has the answer 0**, on every simulator. -/
theorem root_negative {data : Mem} (hneg : 2 ^ 31 ≤ (data 1000).toNat) :
    (∃ n, SequentialDumps (rootImage data) n (memoryDump (rootOutput data 0))) ∧
      ∃ t, Pipeline.DumpsAt (rootImage data) (rootImage data) t
        (memoryDump (rootOutput data 0)) := by
  have code := rootImage_resident data
  have hclear := rootImage_clear data
  obtain ⟨n, reg, hrun, h4⟩ := reaches_answer_of_negative hclear hneg
  have hall := hrun.trans (reaches_halt_of_answer data hclear reg)
  have hmem := (Intact.refl rootCode (rootImage data)).store
    (show rootCode.length ≤ 1001 by decide) (reg 4)
  rw [← h4]
  exact ⟨⟨_, code.sequentialDumps hmem rfl rfl hall⟩,
    _, code.pipeline_dumpsAt hmem rfl rfl ((PipelineAt.init _).segment hall)⟩

theorem root_negative_lowest :
    (∃ n, SequentialDumps (rootImage fun _ => 0x80000000) n
      (memoryDump (rootOutput (fun _ => 0x80000000) 0))) ∧
    ∃ t, Pipeline.DumpsAt (rootImage fun _ => 0x80000000) (rootImage fun _ => 0x80000000)
      t (memoryDump (rootOutput (fun _ => 0x80000000) 0)) :=
  @root_negative (fun _ => 0x80000000) (by decide)

end SuperscalarProcessor.Programs
