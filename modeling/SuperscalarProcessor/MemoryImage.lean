import SuperscalarProcessor.Foundation.Copy
import SuperscalarProcessor.Iss
import SuperscalarProcessor.Llsim.FieldAccess
import SuperscalarProcessor.Programs.Machine
import SuperscalarProcessor.Stdio

/-!
# Memory images on file

The assemblers and the dumps write one word in a line. lab3_A reads the lines
into an array and injects that into both memories, entry by entry; an injected
word with bit 31 set spills into the entry behind it, which the next turn of the
loop overwrites. The ISS reads line by line into its memory.
-/

namespace SuperscalarProcessor

open Llsim Foundation Stdio

/-- The text of a dump file. -/
def dumpFile (dump : Dump) : List Char := hexText (List.ofFn dump)

/-! ## The loader of lab3_A -/

/-- The members of `sp_t` that the loader sets. -/
structure SpImage where
  memoryImage : Mem
  memoryImageSize : ℕ
  srami : Memory
  sramd : Memory

/-- The loop around `fscanf`, with `n` turns to go: the array and its size. -/
def readImage : ℕ → ℕ → InputFile → Mem → Mem × ℕ
  | 0, addr, _, image => (image, addr)
  | n + 1, addr, fp, image =>
      let image := match (fscanfHexLine fp).1 with
        | some word => Function.update image addr word
        | none => image
      if (fscanfHexLine fp).2.eof then (image, addr + 1)
      else readImage n (addr + 1) (fscanfHexLine fp).2 image

/-- The first `n` turns of the loop that injects the array, for one memory. -/
def injectImage (image : Mem) : ℕ → Memory → Memory
  | 0, memory => memory
  | n + 1, memory =>
      llsimMemInject (injectImage image n memory) (BitVec.ofNat 32 n) (image n) 31 0

/-- `sp_generate_sram_memory_image` on a file with the text `program`. -/
def spGenerateSramMemoryImage (sp : SpImage) (program : List Char) : SpImage :=
  let image := readImage spSramHeight 0 (openFile program) sp.memoryImage
  { memoryImage := image.1
    memoryImageSize := image.2
    srami := injectImage image.1 image.2 sp.srami
    sramd := injectImage image.1 image.2 sp.sramd }

/-! ## The loader of the ISS -/

/-- The loop around `fgets` in `main`, with `n` turns to go. -/
def issLoad : ℕ → ℕ → List Char → Mem → Mem
  | 0, _, _, mem => mem
  | n + 1, i, input, mem =>
      match fgets 64 input with
      | none => mem
      | some (line, input) =>
          issLoad n (i + 1) input
            (match sscanfHex line with
              | some word => Function.update mem i word
              | none => mem)

/-- The memory of the ISS loaded from a file with the text `program`. -/
def issMemory (program : List Char) (mem : Mem) : Mem := issLoad spSramHeight 0 program mem

/-! ## Reading the words of a file -/

/-- The file's words are all read, one to each address. -/
theorem readImage_hexText {words : List Word} : ∀ {n addr : ℕ} {image : Mem},
    words ≠ [] → words.length ≤ n →
      readImage n addr (openFile (hexText words)) image =
        (writeFrom addr words image, addr + words.length) := by
  induction words with
  | nil =>
      intro n addr image hne
      exact absurd rfl hne
  | cons word words ih =>
      intro n addr image _ hlen
      cases n with
      | zero => cases hlen
      | succ n =>
          rw [readImage, fscanfHexLine_hexText]
          cases words with
          | nil => rfl
          | cons next words =>
              have hrest := @ih n (addr + 1) (Function.update image addr word)
                (List.cons_ne_nil _ _) (Nat.le_of_succ_le_succ hlen)
              have hsize : addr + 1 + (next :: words).length =
                  addr + (word :: next :: words).length := by
                simp only [List.length_cons]
                omega
              rw [hsize] at hrest
              exact hrest

theorem issLoad_hexText {words : List Word} : ∀ {n i : ℕ} {mem : Mem},
    words.length ≤ n → issLoad n i (hexText words) mem = writeFrom i words mem := by
  induction words with
  | nil =>
      intro n i mem _
      cases n <;> rfl
  | cons word words ih =>
      intro n i mem hlen
      cases n with
      | zero => cases hlen
      | succ n =>
          rw [issLoad, fgets_hexText]
          simp only [sscanfHex_hexLine]
          exact ih (Nat.le_of_succ_le_succ hlen)

/-! ## Injecting them -/

/-- Bit 31 of the word before entry `n`: that word's injection spilled into it. -/
def spilledInto (image : Mem) : ℕ → Bool
  | 0 => false
  | n + 1 => (image n).msb

/-- One turn writes its entry, and ones behind it for a negative word. -/
theorem injectImage_succ (image : Mem) {n : ℕ} (memory : Memory) (hn : n < spSramHeight) :
    (injectImage image (n + 1) memory).data =
      Function.update
        (Function.update (injectImage image n memory).data n (image n)) (n + 1)
        (if spilledInto image (n + 1) then BitVec.allOnes 32
          else (injectImage image n memory).data (n + 1)) := by
  have hspill : Spills (image n) (31 : Fin 32) (0 : Fin 32) ↔
      spilledInto image (n + 1) = true := by
    simp [Spills, spilledInto, BitVec.msb_eq_getLsbD_last]
  have hword : ∀ val : Word, rbs val (image n) (31 : Fin 32) (0 : Fin 32) = image n :=
    fun val => rbs_word val (image n)
  rw [injectImage, llsimMemInject_data _ _ _ (by decide), toNat_ofNat_index hn, hword]
  simp only [hspill]

/-- **The injection loop.** Each turn repairs the entry that the turn before
spilled into, so that only the entry behind the last one can be spoiled. -/
theorem injectImage_data (image : Mem) {n : ℕ} (memory : Memory) (hn : n ≤ spSramHeight)
    (j : ℕ) : (injectImage image n memory).data j =
      if j < n then image j
      else if j = n ∧ spilledInto image n then BitVec.allOnes 32
      else memory.data j := by
  induction n generalizing j with
  | zero => simp [injectImage, spilledInto]
  | succ n ih =>
      have hbefore := ih (Nat.le_of_succ_le hn)
      rw [injectImage_succ image memory hn]
      rcases Nat.lt_trichotomy j (n + 1) with hlt | rfl | hgt
      · rw [Function.update_of_ne (by omega), if_pos hlt]
        rcases Nat.lt_succ_iff_lt_or_eq.mp hlt with hlow | rfl
        · rw [Function.update_of_ne (by omega), hbefore, if_pos hlow]
        · rw [Function.update_self]
      · have hplain : (injectImage image n memory).data (n + 1) =
            memory.data (n + 1) := by
          rw [hbefore, if_neg (by omega), if_neg (by omega)]
        rw [Function.update_self, hplain, if_neg (Nat.lt_irrefl _)]
        simp only [true_and]
      · rw [Function.update_of_ne (by omega), Function.update_of_ne (by omega), hbefore,
          if_neg (by omega), if_neg (by omega), if_neg (by omega), if_neg (by omega)]

/-! ## Loading what was dumped -/

section Loaded

variable {words : List Word}

theorem spGenerateSramMemoryImage_hexText (sp : SpImage) (hne : words ≠ [])
    (hlen : words.length ≤ spSramHeight) :
    spGenerateSramMemoryImage sp (hexText words) =
      { memoryImage := writeFrom 0 words sp.memoryImage
        memoryImageSize := words.length
        srami := injectImage (writeFrom 0 words sp.memoryImage) words.length sp.srami
        sramd := injectImage (writeFrom 0 words sp.memoryImage) words.length sp.sramd } := by
  unfold spGenerateSramMemoryImage
  simp only [readImage_hexText hne hlen, Nat.zero_add]

theorem writeFrom_zero (image : Mem) {i : ℕ} (hi : i < words.length) :
    writeFrom 0 words image i = words[i] := by
  have hget : writeFrom 0 words image (0 + i) = words[i] := writeFrom_get image hi
  rwa [Nat.zero_add] at hget

theorem injectImage_get (image : Mem) (memory : Memory)
    (hlen : words.length ≤ spSramHeight) {i : ℕ} (hi : i < words.length) :
    (injectImage (writeFrom 0 words image) words.length memory).data i = words[i] := by
  rw [injectImage_data _ _ hlen, if_pos hi, writeFrom_zero image hi]

theorem spilledInto_length (image : Mem) (hne : words ≠ []) :
    spilledInto (writeFrom 0 words image) words.length = (words.getLast hne).msb := by
  have hlast := words.getLast_eq_getElem hne
  cases hsize : words.length with
  | zero => exact absurd (List.eq_nil_of_length_eq_zero hsize) hne
  | succ n =>
      have hn : n < words.length := by omega
      rw [spilledInto, writeFrom_zero image hn, hlast]
      simp [hsize]

end Loaded

/-- The loaders leave the words in the memories, whatever was there before, and
no access of the injections leaves the array. -/
structure LoadsBack (words : List Word) : Prop where
  inArray : ∀ i, i < words.length → AccessInArray (BitVec.ofNat 32 i) 0
  srami : ∀ (sp : SpImage) (i : ℕ) (hi : i < words.length),
    (spGenerateSramMemoryImage sp (hexText words)).srami.data i = words[i]
  sramd : ∀ (sp : SpImage) (i : ℕ) (hi : i < words.length),
    (spGenerateSramMemoryImage sp (hexText words)).sramd.data i = words[i]
  iss : ∀ (mem : Mem) (i : ℕ) (hi : i < words.length),
    issMemory (hexText words) mem i = words[i]

/-- Loading the file of a dump restores the memory that was dumped. -/
structure Restores (dump : Dump) (dumped : Mem) : Prop where
  srami : ∀ (sp : SpImage) (i : ℕ), i < spSramHeight →
    (spGenerateSramMemoryImage sp (dumpFile dump)).srami.data i = dumped i
  sramd : ∀ (sp : SpImage) (i : ℕ), i < spSramHeight →
    (spGenerateSramMemoryImage sp (dumpFile dump)).sramd.data i = dumped i
  iss : ∀ (mem : Mem) (i : ℕ), i < spSramHeight →
    issMemory (dumpFile dump) mem i = dumped i

theorem loadsBack {words : List Word} (hne : words ≠ [])
    (hlen : words.length ≤ spSramHeight) : LoadsBack words where
  inArray := by
    intro i hi
    have hheight : i < spSramHeight := Nat.lt_of_lt_of_le hi hlen
    have hin : InRange (BitVec.ofNat 32 i) := by
      rw [inRange_iff, toNat_ofNat_index hheight]
      exact hheight
    exact (accessInArray_iff hin (by decide)).mpr (Or.inr (by decide))
  srami := by
    intro sp i hi
    rw [spGenerateSramMemoryImage_hexText sp hne hlen]
    exact injectImage_get sp.memoryImage sp.srami hlen hi
  sramd := by
    intro sp i hi
    rw [spGenerateSramMemoryImage_hexText sp hne hlen]
    exact injectImage_get sp.memoryImage sp.sramd hlen hi
  iss := by
    intro mem i hi
    rw [issMemory, issLoad_hexText hlen]
    exact writeFrom_zero mem hi

/-- A dump has a line for every entry. -/
theorem restores_memoryDump (mem : Mem) : Restores (memoryDump mem) mem := by
  have hlength : (List.ofFn (memoryDump mem)).length = spSramHeight := List.length_ofFn
  have hne : List.ofFn (memoryDump mem) ≠ [] := by
    intro hnil
    rw [hnil] at hlength
    cases hlength
  have hback := loadsBack hne hlength.le
  have hline : ∀ (i : ℕ) (hi : i < (List.ofFn (memoryDump mem)).length),
      (List.ofFn (memoryDump mem))[i] = mem i := by
    intro i hi
    rw [List.getElem_ofFn]
    rfl
  refine ⟨?_, ?_, ?_⟩
  · intro sp i hi
    rw [← hlength] at hi
    rw [dumpFile, hback.srami sp i hi, hline i hi]
  · intro sp i hi
    rw [← hlength] at hi
    rw [dumpFile, hback.sramd sp i hi, hline i hi]
  · intro m i hi
    rw [← hlength] at hi
    rw [dumpFile, hback.iss m i hi, hline i hi]

/-- **Loading inverts dumping.** For every list of one to `spSramHeight` words,
and for every dump, of a simulated memory or of the ISS. -/
theorem dump_load_inverse :
    (∀ words : List Word, 1 ≤ words.length → words.length ≤ spSramHeight →
      LoadsBack words) ∧
    (∀ sram : Memory, Restores (dumpSram sram) sram.data) ∧
    (∀ mem : Mem, Restores (memoryDump mem) mem) := by
  refine ⟨?_, ?_, restores_memoryDump⟩
  · intro words hpos hlen
    exact loadsBack (List.ne_nil_of_length_pos hpos) hlen
  · intro sram
    rw [dumpSram_eq]
    exact restores_memoryDump sram.data

/-- A negative word in front of another one. -/
theorem dump_load_inverse_negative : LoadsBack [0x80000000, 5] :=
  dump_load_inverse.1 _ (by decide) (by decide)

end SuperscalarProcessor
