import SuperscalarProcessor.Foundation.Numerals
import SuperscalarProcessor.Llsim.BitFields

/-!
# Hexadecimal text (`stdio.h`)

The conversions that the dumps and the loaders use, as the C standard describes
them: `%08x` on output, `%x` with and without a field width on input, and
`fgets`. A text file is the list of its characters.
-/

namespace SuperscalarProcessor.Stdio

open Llsim Foundation

/-! ## Output -/

/-- `fprintf(fp, "%08x\n", word)`. -/
def hexLine (word : Word) : List Char := paddedNumeral 16 8 word.toNat ++ ['\n']

/-- The lines of some words. -/
def hexText (words : List Word) : List Char := words.flatMap hexLine

/-! ## Input -/

/-- A `FILE` opened for reading: what has not been read yet, and the end-of-file
indicator that `feof` tests. -/
structure InputFile where
  rest : List Char
  eof : Bool
deriving DecidableEq

def openFile (text : List Char) : InputFile := ⟨text, false⟩

def isSpace (c : Char) : Bool :=
  [' ', '\t', '\n', '\x0b', '\x0c', '\r'].contains c

/-- A white-space directive reads up to the first other character; the indicator
is set when the file ends before one comes. -/
def skipSpace (fp : InputFile) : InputFile :=
  let rest := fp.rest.dropWhile isSpace
  ⟨rest, fp.eof || rest.isEmpty⟩

def isHexDigit (c : Char) : Bool :=
  c.isDigit || ['a', 'b', 'c', 'd', 'e', 'f', 'A', 'B', 'C', 'D', 'E', 'F'].contains c

/-- The value of a hexadecimal digit, in either case. -/
def hexDigit (c : Char) : ℕ :=
  if c.isDigit then c.toNat - 48
  else if c.isLower then c.toNat - 87
  else c.toNat - 55

/-- The parts of an input item for `%x`: sign, `0x` and digits. -/
structure HexItem where
  sign : List Char
  marker : List Char
  digits : List Char

def signOf : List Char → List Char
  | c :: _ => if c = '+' ∨ c = '-' then [c] else []
  | [] => []

def markerOf : List Char → List Char
  | c :: d :: _ => if c = '0' ∧ (d = 'x' ∨ d = 'X') then [c, d] else []
  | _ => []

/-- The longest item in front of `cs`. -/
def hexItem (cs : List Char) : HexItem :=
  let sign := signOf cs
  let unsigned := cs.drop sign.length
  let marker := markerOf unsigned
  ⟨sign, marker, (unsigned.drop marker.length).takeWhile isHexDigit⟩

def HexItem.length (item : HexItem) : ℕ :=
  item.sign.length + item.marker.length + item.digits.length

/-- The converted number; an item without digits does not match. -/
def HexItem.value (item : HexItem) : Option Word :=
  if item.digits = [] then none
  else
    let n := BitVec.ofNat 32 (numeralValue 16 hexDigit 0 item.digits)
    some (if item.sign = ['-'] then -n else n)

/-- `fscanf(fp, "%08x\n", &word)`: at most eight characters after white space,
then white space. Without a match nothing behind the item is read. -/
def fscanfHexLine (fp : InputFile) : Option Word × InputFile :=
  let fp := skipSpace fp
  let item := hexItem (fp.rest.take 8)
  let rest := fp.rest.drop item.length
  -- an item that ends before its width has met the end of the file
  let fp : InputFile := ⟨rest, fp.eof || (rest.isEmpty && item.length < 8)⟩
  match item.value with
  | none => (none, fp)
  | some word => (some word, skipSpace fp)

/-- `sscanf(line, "%x", &word)`. -/
def sscanfHex (line : List Char) : Option Word :=
  (hexItem (line.dropWhile isSpace)).value

/-- The characters up to the end of the line, at most `n`. -/
def readLine : ℕ → List Char → List Char × List Char
  | 0, cs => ([], cs)
  | _ + 1, [] => ([], [])
  | n + 1, c :: cs =>
      if c = '\n' then ([c], cs)
      else ((c :: (readLine n cs).1), (readLine n cs).2)

/-- `fgets(line, size, fp)`, with what is left of the file; `NULL` at its end. -/
def fgets (size : ℕ) (cs : List Char) : Option (List Char × List Char) :=
  if cs = [] then none else some (readLine (size - 1) cs)

/-! ## The characters of a word -/

/-- A digit as `%08x` prints it. -/
def Printed (c : Char) : Prop := ∃ d < 16, c = Nat.digitChar d

theorem hexDigit_digitChar : ∀ d < 16, hexDigit (Nat.digitChar d) = d := by decide

theorem Printed.isHexDigit {c : Char} (h : Printed c) : isHexDigit c = true := by
  obtain ⟨d, hd, rfl⟩ := h
  revert d
  decide

theorem Printed.isSpace {c : Char} (h : Printed c) : isSpace c = false := by
  obtain ⟨d, hd, rfl⟩ := h
  revert d
  decide

theorem Printed.plain {c : Char} (h : Printed c) :
    (c ≠ '+' ∧ c ≠ '-') ∧ (c ≠ 'x' ∧ c ≠ 'X') ∧ c ≠ '\n' := by
  obtain ⟨d, hd, rfl⟩ := h
  revert d
  decide

theorem printed_of_mem {word : Word} {c : Char}
    (h : c ∈ paddedNumeral 16 8 word.toNat) : Printed c :=
  mem_paddedNumeral (by decide) h

theorem length_word (word : Word) : (paddedNumeral 16 8 word.toNat).length = 8 :=
  length_paddedNumeral (by decide) (by decide) word.isLt

theorem value_word (word : Word) :
    numeralValue 16 hexDigit 0 (paddedNumeral 16 8 word.toNat) = word.toNat :=
  numeralValue_paddedNumeral (by decide) hexDigit_digitChar

/-! ## Reading a word back -/

theorem space_plain {c : Char} (h : isSpace c = true) :
    isHexDigit c = false ∧ c ≠ 'x' ∧ c ≠ 'X' := by
  simp only [isSpace, List.contains_iff_mem, List.mem_cons, List.not_mem_nil,
    or_false] at h
  rcases h with rfl | rfl | rfl | rfl | rfl | rfl <;> decide

/-- An item of digits only, with white space or nothing behind it. -/
theorem hexItem_printed {c : Char} {cs tail : List Char}
    (hcs : ∀ d ∈ c :: cs, Printed d) (htail : ∀ d ∈ tail.head?, isSpace d = true) :
    hexItem (c :: cs ++ tail) = ⟨[], [], c :: cs⟩ := by
  have hsign : signOf (c :: cs ++ tail) = [] := by
    have hplain := (hcs c List.mem_cons_self).plain.1
    simp [signOf, hplain]
  have hmarker : markerOf (c :: cs ++ tail) = [] := by
    cases cs with
    | cons d ds =>
        have hplain := (hcs d (by simp)).plain.2.1
        simp [markerOf, hplain]
    | nil =>
        cases tail with
        | nil => rfl
        | cons d ds =>
            have hplain := (space_plain (htail d rfl)).2
            simp [markerOf, hplain]
  have hdigits : (c :: cs ++ tail).takeWhile isHexDigit = c :: cs := by
    rw [List.takeWhile_append_of_pos fun d hd => (hcs d hd).isHexDigit]
    cases tail with
    | nil => simp
    | cons d ds => simp [(space_plain (htail d rfl)).1]
  unfold hexItem
  simp only [hsign, List.length_nil, List.drop_zero, hmarker, hdigits]

/-- The digits of a word are not none. -/
theorem word_cons (word : Word) : ∃ c cs, paddedNumeral 16 8 word.toNat = c :: cs ∧
    ∀ d ∈ c :: cs, Printed d := by
  cases hdigits : paddedNumeral 16 8 word.toNat with
  | nil =>
      have hlen := length_word word
      rw [hdigits] at hlen
      cases hlen
  | cons c cs =>
      refine ⟨c, cs, rfl, ?_⟩
      intro d hd
      rw [← hdigits] at hd
      exact printed_of_mem hd

/-- What `%x` makes of them. -/
theorem hexItem_word (word : Word) {tail : List Char}
    (htail : ∀ d ∈ tail.head?, isSpace d = true) :
    hexItem (paddedNumeral 16 8 word.toNat ++ tail) =
      ⟨[], [], paddedNumeral 16 8 word.toNat⟩ := by
  obtain ⟨c, cs, hdigits, hprinted⟩ := word_cons word
  rw [hdigits]
  exact hexItem_printed hprinted htail

theorem HexItem.value_word (word : Word) :
    HexItem.value ⟨[], [], paddedNumeral 16 8 word.toNat⟩ = some word := by
  have hne : paddedNumeral 16 8 word.toNat ≠ [] := by
    obtain ⟨c, cs, hdigits, -⟩ := word_cons word
    simp [hdigits]
  rw [HexItem.value, if_neg hne]
  simp [Stdio.value_word]

/-- There is no white space in front of a line. -/
theorem dropWhile_word (word : Word) (tail : List Char) :
    (paddedNumeral 16 8 word.toNat ++ tail).dropWhile isSpace =
      paddedNumeral 16 8 word.toNat ++ tail := by
  obtain ⟨c, cs, hdigits, hprinted⟩ := word_cons word
  rw [hdigits, List.cons_append, List.dropWhile_cons,
    (hprinted c List.mem_cons_self).isSpace]
  rfl

/-- **`sscanf` inverts `fprintf`.** -/
theorem sscanfHex_hexLine (word : Word) : sscanfHex (hexLine word) = some word := by
  have htail : ∀ d ∈ ['\n'].head?, isSpace d = true := by
    intro d hd
    obtain rfl := Option.mem_some.mp hd
    rfl
  rw [sscanfHex, hexLine, dropWhile_word, hexItem_word word htail, HexItem.value_word]

/-! ## Reading line by line -/

theorem hexText_cons (word : Word) (words : List Word) :
    hexText (word :: words) =
      paddedNumeral 16 8 word.toNat ++ '\n' :: hexText words := by
  show hexLine word ++ hexText words = _
  rw [hexLine, List.append_assoc, List.singleton_append]

theorem skipSpace_hexText (words : List Word) :
    skipSpace (openFile (hexText words)) = ⟨hexText words, words.isEmpty⟩ := by
  cases words with
  | nil => rfl
  | cons word words =>
      have hrest : (hexText (word :: words)).dropWhile isSpace =
          hexText (word :: words) := by
        rw [hexText_cons, dropWhile_word]
      obtain ⟨c, cs, hdigits, -⟩ := word_cons word
      have hne : (hexText (word :: words)).isEmpty = false := by
        rw [hexText_cons, hdigits]
        rfl
      unfold skipSpace openFile
      simp only [hrest, hne, Bool.or_false, List.isEmpty_cons]

/-- **`fscanf` inverts `fprintf`**, and finds the end of the file behind the last
line. -/
theorem fscanfHexLine_hexText (word : Word) (words : List Word) :
    fscanfHexLine (openFile (hexText (word :: words))) =
      (some word, ⟨hexText words, words.isEmpty⟩) := by
  have hitem : hexItem ((hexText (word :: words)).take 8) =
      ⟨[], [], paddedNumeral 16 8 word.toNat⟩ := by
    have hnil := @hexItem_word word [] fun d hd => absurd hd (Option.not_mem_none d)
    rw [List.append_nil] at hnil
    rw [hexText_cons, List.take_left' (length_word word), hnil]
  have hdrop : (hexText (word :: words)).drop 8 = '\n' :: hexText words := by
    rw [hexText_cons, List.drop_left' (length_word word)]
  have hspace : skipSpace ⟨'\n' :: hexText words, false⟩ =
      ⟨hexText words, words.isEmpty⟩ := by
    rw [← skipSpace_hexText]
    rfl
  have hlen : HexItem.length ⟨[], [], paddedNumeral 16 8 word.toNat⟩ = 8 := by
    rw [HexItem.length, length_word]
    rfl
  unfold fscanfHexLine
  simp only [skipSpace_hexText, hitem, hlen, hdrop, HexItem.value_word,
    List.isEmpty_cons, Bool.false_or, Bool.false_and, hspace]

/-- A line that fits is read to its end. -/
theorem readLine_line {n : ℕ} {cs rest : List Char} (hcs : ∀ c ∈ cs, c ≠ '\n')
    (hlen : cs.length < n) :
    readLine n (cs ++ '\n' :: rest) = (cs ++ ['\n'], rest) := by
  induction n generalizing cs with
  | zero => omega
  | succ n ih =>
      cases cs with
      | nil => rfl
      | cons c cs =>
          have hc := hcs c List.mem_cons_self
          have hrest := ih (fun d hd => hcs d (List.mem_cons_of_mem c hd))
            (Nat.lt_of_succ_lt_succ hlen)
          simp only [List.cons_append, readLine, if_neg hc, hrest]

theorem fgets_hexText (word : Word) (words : List Word) :
    fgets 64 (hexText (word :: words)) = some (hexLine word, hexText words) := by
  have hne : hexText (word :: words) ≠ [] := by
    rw [hexText_cons]
    simp
  rw [fgets, if_neg hne, hexText_cons, readLine_line, hexLine]
  · intro c hc
    exact (printed_of_mem hc).plain.2.2
  · rw [length_word]
    decide

end SuperscalarProcessor.Stdio
