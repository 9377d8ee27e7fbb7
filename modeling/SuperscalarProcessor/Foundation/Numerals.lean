import Mathlib.Algebra.Order.Ring.Nat
import Mathlib.Tactic.Common

/-!
# Numerals of a fixed width

A number printed in base `b` and padded with zeros, and the value a numeral is
read as by a function that knows the digits. Reading what was printed gives the
number back.
-/

namespace SuperscalarProcessor.Foundation

/-- The numeral of `n`, with zeros in front up to `width` characters. -/
def paddedNumeral (b width n : ℕ) : List Char :=
  List.replicate (width - (Nat.toDigits b n).length) '0' ++ Nat.toDigits b n

/-- What `cs` adds to a numeral of value `acc`. -/
def numeralValue (b : ℕ) (digit : Char → ℕ) (acc : ℕ) (cs : List Char) : ℕ :=
  cs.foldl (fun acc c => b * acc + digit c) acc

theorem numeralValue_append (b : ℕ) (digit : Char → ℕ) (acc : ℕ) (cs ds : List Char) :
    numeralValue b digit acc (cs ++ ds) =
      numeralValue b digit (numeralValue b digit acc cs) ds :=
  List.foldl_append

/-! ## The numeral of a number -/

section

variable {b width n : ℕ} (hb : 1 < b)
include hb

theorem length_paddedNumeral (hwidth : 0 < width) (hn : n < b ^ width) :
    (paddedNumeral b width n).length = width := by
  have hle := (Nat.length_toDigits_le_iff hb hwidth).mpr hn
  rw [paddedNumeral, List.length_append, List.length_replicate]
  omega

/-- Every character is a digit. -/
theorem mem_toDigits {c : Char} (h : c ∈ Nat.toDigits b n) :
    ∃ d < b, c = Nat.digitChar d := by
  induction n using Nat.base_induction b hb with
  | single m hm =>
      rw [Nat.toDigits_of_lt_base hm] at h
      exact ⟨m, hm, List.mem_singleton.mp h⟩
  | digit m k hk hm ih =>
      rw [← Nat.toDigits_append_toDigits hb hm hk, Nat.toDigits_of_lt_base hk] at h
      rcases List.mem_append.mp h with h | h
      · exact ih h
      · exact ⟨k, hk, List.mem_singleton.mp h⟩

theorem mem_paddedNumeral {c : Char} (h : c ∈ paddedNumeral b width n) :
    ∃ d < b, c = Nat.digitChar d := by
  rcases List.mem_append.mp h with h | h
  · exact ⟨0, by omega, List.eq_of_mem_replicate h⟩
  · exact mem_toDigits hb h

/-! ## Reading it -/

variable {digit : Char → ℕ} (hdigit : ∀ d < b, digit (Nat.digitChar d) = d)
include hdigit

theorem numeralValue_toDigits : numeralValue b digit 0 (Nat.toDigits b n) = n := by
  induction n using Nat.base_induction b hb with
  | single m hm =>
      rw [Nat.toDigits_of_lt_base hm]
      show b * 0 + digit (Nat.digitChar m) = m
      rw [hdigit m hm, Nat.mul_zero, Nat.zero_add]
  | digit m k hk hm ih =>
      rw [← Nat.toDigits_append_toDigits hb hm hk, Nat.toDigits_of_lt_base hk,
        numeralValue_append, ih]
      show b * m + digit (Nat.digitChar k) = _
      rw [hdigit k hk]

/-- **Reading a padded numeral** gives the number. -/
theorem numeralValue_paddedNumeral :
    numeralValue b digit 0 (paddedNumeral b width n) = n := by
  have hzeros : ∀ k, numeralValue b digit 0 (List.replicate k '0') = 0 := by
    intro k
    induction k with
    | zero => rfl
    | succ k ih =>
        rw [List.replicate_succ', numeralValue_append, ih]
        show b * 0 + digit (Nat.digitChar 0) = 0
        rw [hdigit 0 (by omega), Nat.mul_zero]
  rw [paddedNumeral, numeralValue_append, hzeros, numeralValue_toDigits hb hdigit]

end

end SuperscalarProcessor.Foundation
