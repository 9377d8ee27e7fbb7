import SuperscalarProcessor.MemoryImage
import SuperscalarProcessor.ProgramRuns
import SuperscalarProcessor.Programs.Addition
import SuperscalarProcessor.Programs.SquareRoot

/-!
# From the program file to the dump file

Every simulator reads the text of a program and writes the text of a dump. The
loader of the processors can spoil the entry behind the last word, which that of
the ISS leaves clear; on all other entries they agree, and a program that all
simulators run alike is turned into the same file. The two programs of `lab #1`
are followed from the files that their assemblers write.
-/

namespace SuperscalarProcessor

open Llsim Foundation Stdio

open Pipeline (StaleRead bypassClock)

/-! ## Starting from a file -/

/-- The members as `sp_init` allocates them, before the loader runs. -/
def allocatedImage : SpImage where
  memoryImage := fun _ => 0
  memoryImageSize := 0
  srami := llsimAllocateMemory .srami fun _ => 0
  sramd := llsimAllocateMemory .sramd fun _ => 0

/-- `sp_init` of lab3_A, loader included. -/
def Pipeline.spInitFrom (program : List Char) : Pipeline.Sp :=
  let image := spGenerateSramMemoryImage allocatedImage program
  { Pipeline.spInit (fun _ => 0) fun _ => 0 with
    srami := image.srami
    sramd := image.sramd }

/-- `sp_generate_sram_memory_image` of lab2: the array, its size and the memory. -/
def MultiCycle.spGenerateSramMemoryImage (memoryImage : Mem) (sram : Memory)
    (program : List Char) : Mem × ℕ × Memory :=
  let image := readImage spSramHeight 0 (openFile program) memoryImage
  (image.1, image.2, injectImage image.1 image.2 sram)

/-- `sp_init` of lab2, loader included. -/
def MultiCycle.spInitFrom (program : List Char) : MultiCycle.Sp :=
  { MultiCycle.spInit fun _ => 0 with
    sram := (MultiCycle.spGenerateSramMemoryImage (fun _ => 0)
      (llsimAllocateMemory .sram fun _ => 0) program).2.2 }

theorem Pipeline.spInitFrom_srami (program : List Char) :
    (Pipeline.spInitFrom program).srami =
      (spGenerateSramMemoryImage allocatedImage program).srami := rfl

theorem Pipeline.spInitFrom_sramd (program : List Char) :
    (Pipeline.spInitFrom program).sramd =
      (spGenerateSramMemoryImage allocatedImage program).sramd := rfl

/-- lab2's memory is loaded as either one of lab3_A is. -/
theorem MultiCycle.spInitFrom_sram (program : List Char) :
    (MultiCycle.spInitFrom program).sram = (SuperscalarProcessor.spGenerateSramMemoryImage
      { allocatedImage with sramd := llsimAllocateMemory .sram fun _ => 0 }
      program).sramd := rfl

/-- The memory in which `main` of the ISS starts. -/
def issImage (program : List Char) : Mem := issMemory program fun _ => 0

/-! ## What the loaders leave -/

/-- The entry behind a last word that is negative. -/
def Spoiled (words : List Word) (i : ℕ) : Prop :=
  i = words.length ∧ ∃ hne, (words.getLast hne).msb = true

/-- The image that the processors' loader makes of a file with `words`. -/
def processorImage (words : List Word) : Mem := fun i =>
  if i < words.length then imageOf words i
  else if i = words.length ∧ spilledInto (imageOf words) words.length then
    BitVec.allOnes 32
  else 0

/-- Injecting changes nothing but the contents. -/
theorem injectImage_eq (image : Mem) (n : ℕ) (memory : Memory) :
    injectImage image n memory =
      { memory with data := (injectImage image n memory).data } := by
  induction n with
  | zero => rfl
  | succ n ih =>
      rw [injectImage, llsimMemInject, ih]

section Loaded

variable {words : List Word}

theorem writeFrom_cleared (words : List Word) :
    writeFrom 0 words (fun _ => 0) = imageOf words := by
  funext i
  rcases Nat.lt_or_ge i words.length with hi | hi
  · rw [writeFrom_zero _ hi]
    simp [imageOf, hi]
  · rw [writeFrom_outside _ (Or.inr (by omega))]
    simp [imageOf, hi]

theorem imageOf_of_le {i : ℕ} (hi : words.length ≤ i) : imageOf words i = 0 := by
  simp [imageOf, hi]

theorem injectImage_allocated (name : MemName) (hlen : words.length ≤ spSramHeight) :
    injectImage (imageOf words) words.length (llsimAllocateMemory name fun _ => 0) =
      llsimAllocateMemory name (processorImage words) := by
  rw [injectImage_eq]
  show llsimAllocateMemory name _ = _
  congr 1
  funext i
  exact injectImage_data _ _ hlen i

/-- **The loader of lab3_A** starts the pipeline on `processorImage`, in both
memories. -/
theorem Pipeline.spInitFrom_hexText (hne : words ≠ [])
    (hlen : words.length ≤ spSramHeight) :
    Pipeline.spInitFrom (hexText words) =
      Pipeline.spInit (processorImage words) (processorImage words) := by
  rw [Pipeline.spInitFrom, spGenerateSramMemoryImage_hexText _ hne hlen]
  simp only [allocatedImage, writeFrom_cleared, injectImage_allocated _ hlen]
  rfl

/-- **The loader of lab2.** -/
theorem MultiCycle.spInitFrom_hexText (hne : words ≠ [])
    (hlen : words.length ≤ spSramHeight) :
    MultiCycle.spInitFrom (hexText words) = MultiCycle.spInit (processorImage words) := by
  rw [MultiCycle.spInitFrom, MultiCycle.spGenerateSramMemoryImage]
  simp only [readImage_hexText hne hlen, Nat.zero_add, writeFrom_cleared,
    injectImage_allocated _ hlen]
  rfl

theorem issImage_hexText (hlen : words.length ≤ spSramHeight) :
    issImage (hexText words) = imageOf words := by
  rw [issImage, issMemory, issLoad_hexText hlen, writeFrom_cleared]

theorem spoiled_iff (words : List Word) (i : ℕ) :
    Spoiled words i ↔
      i = words.length ∧ spilledInto (imageOf words) words.length = true := by
  rw [← writeFrom_cleared]
  constructor
  · rintro ⟨rfl, hne, hneg⟩
    exact ⟨rfl, (spilledInto_length _ hne).trans hneg⟩
  · rintro ⟨rfl, hspill⟩
    have hne : words ≠ [] := by
      rintro rfl
      cases hspill
    exact ⟨rfl, hne, (spilledInto_length _ hne).symm.trans hspill⟩

/-- The images differ in a spoiled entry and nowhere else. -/
theorem processorImage_eq_iff (words : List Word) (i : ℕ) :
    processorImage words i = imageOf words i ↔ ¬Spoiled words i := by
  rw [spoiled_iff, processorImage]
  split_ifs with hlt hspill
  · refine iff_of_true rfl ?_
    rintro ⟨heq, -⟩
    omega
  · rw [imageOf_of_le (Nat.le_of_eq hspill.1.symm)]
    exact iff_of_false (by decide) (not_not_intro hspill)
  · rw [imageOf_of_le (Nat.le_of_not_lt hlt)]
    exact iff_of_true rfl hspill

/-- Ones on the processors, zero on the ISS. -/
theorem images_of_spoiled {i : ℕ} (h : Spoiled words i) :
    processorImage words i = BitVec.allOnes 32 ∧ imageOf words i = 0 := by
  obtain ⟨rfl, hspill⟩ := (spoiled_iff words i).mp h
  refine ⟨?_, imageOf_of_le le_rfl⟩
  rw [processorImage, if_neg (Nat.lt_irrefl _), if_pos ⟨rfl, hspill⟩]

end Loaded

/-- **The loaders agree on all entries but a spoiled one**, which has ones on the
processors and zero on the ISS. -/
theorem loaders_agree_iff {words : List Word} (hne : words ≠ [])
    (hlen : words.length ≤ spSramHeight) (i : ℕ) :
    ((Pipeline.spInitFrom (hexText words)).srami.data i = issImage (hexText words) i ↔
      ¬Spoiled words i) ∧
    ((Pipeline.spInitFrom (hexText words)).sramd.data i = issImage (hexText words) i ↔
      ¬Spoiled words i) ∧
    ((MultiCycle.spInitFrom (hexText words)).sram.data i = issImage (hexText words) i ↔
      ¬Spoiled words i) ∧
    (Spoiled words i →
      (Pipeline.spInitFrom (hexText words)).srami.data i = BitVec.allOnes 32 ∧
      (Pipeline.spInitFrom (hexText words)).sramd.data i = BitVec.allOnes 32 ∧
      (MultiCycle.spInitFrom (hexText words)).sram.data i = BitVec.allOnes 32 ∧
      issImage (hexText words) i = 0) := by
  rw [Pipeline.spInitFrom_hexText hne hlen, MultiCycle.spInitFrom_hexText hne hlen,
    issImage_hexText hlen]
  refine ⟨processorImage_eq_iff words i, processorImage_eq_iff words i,
    processorImage_eq_iff words i, fun hspoiled => ?_⟩
  obtain ⟨hones, hzero⟩ := images_of_spoiled hspoiled
  exact ⟨hones, hones, hones, hzero⟩

/-- A file of two words, the second one negative: entry 2 is spoiled. -/
theorem loaders_agree_iff_negative :
    let program := hexText [0x30000000, 0x80000000]
    (Pipeline.spInitFrom program).srami.data 2 = BitVec.allOnes 32 ∧
      (Pipeline.spInitFrom program).sramd.data 2 = BitVec.allOnes 32 ∧
      (MultiCycle.spInitFrom program).sram.data 2 = BitVec.allOnes 32 ∧
      issImage program 2 = 0 :=
  (@loaders_agree_iff [0x30000000, 0x80000000] (by decide) (by decide) 2).2.2.2
    ⟨rfl, by decide, by decide⟩

/-! ## The programs of `lab #1` -/

section Assemblers

open Programs StateTransition

/-- The file that an assembler of `lab #1` writes: a line for every address up to
1002, with the data at 1000 and 1001. -/
def assemblerFile (program : StateM Assembler Unit) (a b : Word) : List Char :=
  hexText ((List.range 1003).map
    (Function.update (Function.update (assembled program) 1000 a) 1001 b))

/-- The simulator starts on the assembled program. -/
theorem issImage_assemblerFile (program : StateM Assembler Unit) (a b : Word) :
    issImage (assemblerFile program a b) = imageWith program a b := by
  have hlength : ∀ mem : Mem, ((List.range 1003).map mem).length = 1003 := by
    intro mem
    rw [List.length_map, List.length_range]
  rw [assemblerFile, issImage_hexText (by rw [hlength]; decide), imageWith]
  funext i
  rw [imageFile]
  split_ifs with hi
  · simp [imageOf, Nat.lt_succ_of_le hi]
  · exact imageOf_of_le (by rw [hlength]; omega)

/-- The state in which the run of a program file ends, if it does. -/
def fileRun (program : List Char) : Part Iss.State :=
  eval Programs.step (Iss.init (issImage program))

/-- **From the assemblers' files to the results.** On the file that its assembler
writes the addition program halts for all operands, with `addResult` in 1002. The
square root program halts up to 4, with 1 in 1001 or 0 for the root of 0, and from 5 on
it runs for ever. -/
theorem results_from_files :
    (∀ a b : Word, ∃ s ∈ fileRun (assemblerFile addProgram a b),
      s.halted = true ∧ s.mem 1002 = addResult a b) ∧
    (∀ n : Word, n.toNat ≤ 4 → ∃ s ∈ fileRun (assemblerFile sqrtProgram n 0),
      s.halted = true ∧ s.mem 1001 = if n = 0 then 0 else 1) ∧
    (∀ n : Word, 4 < n.toNat → n.toNat < 2 ^ 31 →
      ∀ s, s ∉ fileRun (assemblerFile sqrtProgram n 0)) := by
  simp only [fileRun, issImage_assemblerFile]
  refine ⟨add_halts, fun n hn => ?_, fun n hlarge hn s => ?_⟩
  · obtain ⟨reg, hreach, hreg⟩ := reaches_halted hn
    refine ⟨_, mem_eval_of_halted hreach rfl, rfl, ?_⟩
    show Function.update (sqrtImage n) 1001 (reg 4) 1001 = _
    rw [Function.update_self, hreg]
  · exact sqrt_diverges ((four_slt_iff hn).mpr hlarge)

/-- The data that the assemblers write. -/
theorem results_from_files_samples :
    (∃ s ∈ fileRun (assemblerFile addProgram 0x00000120 0x80000140),
      s.halted = true ∧ s.mem 1002 = 0x80000020) ∧
    ∀ s, s ∉ fileRun (assemblerFile sqrtProgram 3000 0) :=
  ⟨results_from_files.1 0x00000120 0x80000140,
    results_from_files.2.2 3000 (by decide) (by decide)⟩

end Assemblers

/-! ## Whole runs -/

/-- The loop of an ISS ends after `n` iterations and `dump_sram` writes `text`. -/
def Iss.WritesAfter (step : Iss.State → Option Iss.State) (program : List Char) (n : ℕ)
    (text : List Char) : Prop :=
  ∃ out, Programs.DumpsAfter step (issImage program) n out ∧ dumpFile out = text

/-- HLT writes `text` to `sram_out.txt` in clock `t`. -/
def MultiCycle.WritesAt (program : List Char) (t : ℕ) (text : List Char) : Prop :=
  ∃ sp sp' out, (MultiCycle.resetClocks 5 (MultiCycle.spInitFrom program)).bind
      (runFor MultiCycle.tick t) = some sp ∧ sp.spro.halts = true ∧
    MultiCycle.spRun false sp = .ok sp' ∧ sp'.sramOut = some out ∧ dumpFile out = text

/-- HLT writes `text` to `sramd_out.txt` in clock `t`. -/
def Pipeline.WritesAt (program : List Char) (t : ℕ) (text : List Char) : Prop :=
  ∃ sp sp' out, (Pipeline.resetClocks 5 (Pipeline.spInitFrom program)).bind
      (runFor Pipeline.tracedTick t) = some sp ∧ sp.spro.halts = true ∧
    Pipeline.spRun false sp = .ok sp' ∧ sp'.sramdOut = some out ∧ dumpFile out = text

section Files

variable {words : List Word}

theorem processorImage_of_not_spoiled (h : ∀ i, ¬Spoiled words i) :
    processorImage words = imageOf words :=
  funext fun i => (processorImage_eq_iff words i).mpr (h i)

theorem MultiCycle.writesAt_hexText (hne : words ≠ [])
    (hlen : words.length ≤ spSramHeight) {t : ℕ} {out : Dump}
    (h : MultiCycle.DumpsAt (processorImage words) t out) :
    MultiCycle.WritesAt (hexText words) t (dumpFile out) := by
  obtain ⟨sp, sp', hclock, hhalt, hrun, hout⟩ := h
  refine ⟨sp, sp', out, ?_, hhalt, hrun, hout, rfl⟩
  rw [MultiCycle.spInitFrom_hexText hne hlen]
  exact hclock

theorem Pipeline.writesAt_hexText (hne : words ≠ [])
    (hlen : words.length ≤ spSramHeight) {t : ℕ} {out : Dump}
    (h : Pipeline.DumpsAt (processorImage words) (processorImage words) t out) :
    Pipeline.WritesAt (hexText words) t (dumpFile out) := by
  obtain ⟨sp, sp', hclock, hhalt, hrun, hout⟩ := h
  refine ⟨sp, sp', out, ?_, hhalt, hrun, hout, rfl⟩
  rw [Pipeline.spInitFrom_hexText hne hlen]
  exact hclock

/-- What every simulator loads from a file. -/
structure LoadsAs (text : List Char) (mem : Mem) : Prop where
  iss : ∀ i < spSramHeight, issImage text i = mem i
  multiCycle : ∀ i < spSramHeight, (MultiCycle.spInitFrom text).sram.data i = mem i
  srami : ∀ i < spSramHeight, (Pipeline.spInitFrom text).srami.data i = mem i
  sramd : ∀ i < spSramHeight, (Pipeline.spInitFrom text).sramd.data i = mem i

theorem loadsAs_dumpFile (mem : Mem) : LoadsAs (dumpFile (memoryDump mem)) mem := by
  have hback := restores_memoryDump mem
  refine ⟨hback.iss fun _ => 0, ?_, ?_, ?_⟩
  · rw [MultiCycle.spInitFrom_sram]
    exact hback.sramd _
  · rw [Pipeline.spInitFrom_srami]
    exact hback.srami _
  · rw [Pipeline.spInitFrom_sramd]
    exact hback.sramd _

end Files

/-- **All four simulators turn a program file into the same dump file**, and each of
them loads that file as the memory the program has left. -/
theorem simulators_write_same {words : List Word} (hne : words ≠ [])
    (hlen : words.length ≤ spSramHeight) (hlast : (words.getLast hne).msb = false)
    {n : ℕ} {s s' : Iss.State} (h : SupportedRun (imageOf words) n s s')
    (hsuits : ∀ k a, k ≤ n → Programs.stateAfter (imageOf words) k = some a →
      SuitsPipeline (imageOf words) a)
    (hfresh : ∀ i, i + 2 ≤ n → ¬StaleRead (imageOf words) (imageOf words) i) :
    ∃ text, Iss.WritesAfter Programs.step (hexText words) (n + 1) text ∧
      Iss.WritesAfter Iss.step (hexText words) (n + 1) text ∧
      MultiCycle.WritesAt (hexText words) (6 + 6 * n) text ∧
      Pipeline.WritesAt (hexText words)
        (bypassClock (imageOf words) (imageOf words) n) text ∧
      LoadsAs text s'.mem := by
  have himage : processorImage words = imageOf words := by
    refine processorImage_of_not_spoiled fun i hspoiled => ?_
    obtain ⟨-, hne, hneg⟩ := hspoiled
    cases hlast.symm.trans hneg
  have hiss := issImage_hexText hlen
  refine ⟨dumpFile (memoryDump s'.mem), ⟨_, ?_, rfl⟩, ⟨_, ?_, rfl⟩, ?_, ?_,
    loadsAs_dumpFile s'.mem⟩
  · rw [hiss]
    exact h.earlier_dumpsAfter
  · rw [hiss]
    exact h.later_dumpsAfter
  · refine MultiCycle.writesAt_hexText hne hlen ?_
    rw [himage]
    exact h.multiCycle_dumpsAt
  · refine Pipeline.writesAt_hexText hne hlen ?_
    rw [himage]
    exact h.pipeline_dumpsAt hsuits hfresh

/-- The words of `storeJumpImage`. -/
def storeJumpWords : List Word :=
  [0x00910001, 0x12110010, 0x20020004, 0xFFFFFFFF, 0x30000000]

theorem simulators_write_same_storeJump :
    ∃ (s' : Iss.State) (text : List Char),
      Iss.WritesAfter Programs.step (hexText storeJumpWords) (3 + 1) text ∧
      Iss.WritesAfter Iss.step (hexText storeJumpWords) (3 + 1) text ∧
      MultiCycle.WritesAt (hexText storeJumpWords) (6 + 6 * 3) text ∧
      Pipeline.WritesAt (hexText storeJumpWords)
        (bypassClock MultiCycle.storeJumpImage MultiCycle.storeJumpImage 3) text ∧
      LoadsAs text s'.mem := by
  obtain ⟨s, s', hrun, hsuits⟩ := supportedRun_storeJump
  exact ⟨s', @simulators_write_same storeJumpWords (by decide) (by decide) (by decide) 3
    s s' hrun hsuits fresh_storeJump⟩

end SuperscalarProcessor
