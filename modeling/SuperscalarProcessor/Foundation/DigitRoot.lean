import Mathlib.Data.Nat.Size
import Mathlib.Data.Nat.Sqrt
import Mathlib.Tactic.Linarith
import Mathlib.Tactic.Ring

/-!
# Square roots bit by bit

The restoring algorithm: `m` bits of the root are still to be found, the first
component is what is left of the argument, and the second is the root found so
far, shifted up by `m` bits. A step tries the next bit, which stands at `4 ^ m`.
-/

namespace SuperscalarProcessor.Foundation

/-- One bit: it is set if the rest allows it. -/
def rootStep (bit : ℕ) (s : ℕ × ℕ) : ℕ × ℕ :=
  if s.1 < s.2 + bit then (s.1, s.2 / 2) else (s.1 - (s.2 + bit), s.2 / 2 + bit)

/-- The bits of `root` above the lowest `m` are those of the square root of `N`,
and `s` is what the algorithm holds of both. -/
structure RootPrefix (N m root : ℕ) (s : ℕ × ℕ) : Prop where
  rest : s.1 + root * root = N
  shifted : s.2 = root * 2 ^ m
  upper : N < (root + 2 ^ m) * (root + 2 ^ m)

theorem four_pow (m : ℕ) : 4 ^ m = 2 ^ m * 2 ^ m := by
  rw [← Nat.mul_pow]

theorem half_shifted (root m : ℕ) : root * 2 ^ (m + 1) / 2 = root * 2 ^ m := by
  rw [Nat.pow_succ, ← Nat.mul_assoc]
  exact Nat.mul_div_cancel _ (by decide)

theorem RootPrefix.init {N m : ℕ} (h : N < 4 ^ m) : RootPrefix N m 0 (N, 0) := by
  refine ⟨rfl, (Nat.zero_mul _).symm, ?_⟩
  rwa [Nat.zero_add, ← four_pow]

/-- The tried root squares to what has been subtracted and what is tried. -/
theorem square_add (root p : ℕ) :
    (root + p) * (root + p) = root * root + (root * (2 * p) + p * p) := by
  ring

theorem RootPrefix.step {N m root : ℕ} {s : ℕ × ℕ} (h : RootPrefix N (m + 1) root s) :
    ∃ root', RootPrefix N m root' (rootStep (4 ^ m) s) := by
  obtain ⟨hrest, hshifted, hupper⟩ := h
  have hpow : 2 ^ (m + 1) = 2 * 2 ^ m := by rw [Nat.pow_succ, Nat.mul_comm]
  have hhalf : s.2 / 2 = root * 2 ^ m := by rw [hshifted, half_shifted]
  have htried : s.2 + 4 ^ m = root * (2 * 2 ^ m) + 2 ^ m * 2 ^ m := by
    rw [hshifted, hpow, four_pow]
  have hsquare := square_add root (2 ^ m)
  unfold rootStep
  split_ifs with hlow
  · refine ⟨root, hrest, hhalf, ?_⟩
    rw [htried] at hlow
    show N < _
    omega
  · refine ⟨root + 2 ^ m, ?_, ?_, ?_⟩
    · rw [htried] at hlow ⊢
      show s.1 - _ + _ = N
      omega
    · show s.2 / 2 + 4 ^ m = _
      rw [hhalf, four_pow, ← Nat.add_mul]
    · rw [hpow, Nat.two_mul, ← Nat.add_assoc] at hupper
      exact hupper

/-- **With no bit left the root is found.** -/
theorem RootPrefix.eq_sqrt {N root : ℕ} {s : ℕ × ℕ} (h : RootPrefix N 0 root s) :
    s.2 = Nat.sqrt N := by
  obtain ⟨hrest, hshifted, hupper⟩ := h
  rw [hshifted, Nat.pow_zero, Nat.mul_one]
  exact Nat.eq_sqrt.mpr ⟨by omega, hupper⟩

/-- Below `4 ^ n` nothing that the algorithm holds reaches it. -/
theorem RootPrefix.bounds {N m n root : ℕ} {s : ℕ × ℕ} (h : RootPrefix N m root s)
    (hN : N < 4 ^ n) (hm : m ≤ n) : s.1 ≤ N ∧ s.2 < 4 ^ n := by
  obtain ⟨hrest, hshifted, -⟩ := h
  refine ⟨by omega, ?_⟩
  have hroot : root < 2 ^ n := by
    by_contra hlarge
    have hsquare := Nat.mul_le_mul (not_lt.mp hlarge) (not_lt.mp hlarge)
    rw [← four_pow] at hsquare
    omega
  have hpow : 2 ^ m ≤ 2 ^ n := Nat.pow_le_pow_right (by decide) hm
  calc s.2 = root * 2 ^ m := hshifted
    _ ≤ root * 2 ^ n := Nat.mul_le_mul_left root hpow
    _ < 2 ^ n * 2 ^ n := Nat.mul_lt_mul_of_pos_right hroot (Nat.two_pow_pos n)
    _ = 4 ^ n := (four_pow n).symm

/-- The highest bit of the root is where the argument still reaches it. -/
theorem four_pow_le_iff {N j : ℕ} : 4 ^ j ≤ N ↔ j < (Nat.sqrt N).size := by
  rw [Nat.lt_size, Nat.le_sqrt, four_pow]

theorem lt_four_pow_size (N : ℕ) : N < 4 ^ (Nat.sqrt N).size :=
  not_le.mp fun hle => absurd (four_pow_le_iff.mp hle) (lt_irrefl _)

/-- When every bit is set, the root found so far has ones above the lowest `j`. -/
theorem filled_step {m j : ℕ} (h : j < m) :
    (2 ^ m - 2 ^ (j + 1)) * 2 ^ (j + 1) / 2 + 4 ^ j = (2 ^ m - 2 ^ j) * 2 ^ j := by
  have hle : 2 ^ (j + 1) ≤ 2 ^ m := Nat.pow_le_pow_right (by decide) h
  have hroot : 2 ^ m - 2 ^ j = 2 ^ m - 2 ^ (j + 1) + 2 ^ j := by
    rw [Nat.pow_succ] at hle ⊢
    omega
  rw [half_shifted, four_pow, hroot, Nat.add_mul]

theorem filled_lt {m n j : ℕ} (hj : j ≤ m) (hm : m ≤ n) :
    (2 ^ m - 2 ^ j) * 2 ^ j < 4 ^ n := by
  have hpow : 2 ^ m ≤ 2 ^ n := Nat.pow_le_pow_right (by decide) hm
  have hpos := Nat.two_pow_pos j
  have hle : 2 ^ j ≤ 2 ^ m := Nat.pow_le_pow_right (by decide) hj
  calc (2 ^ m - 2 ^ j) * 2 ^ j ≤ (2 ^ m - 2 ^ j) * 2 ^ n :=
        Nat.mul_le_mul_left _ (Nat.le_trans hle hpow)
    _ < 2 ^ n * 2 ^ n := Nat.mul_lt_mul_of_pos_right (by omega) (Nat.two_pow_pos n)
    _ = 4 ^ n := (four_pow n).symm

end SuperscalarProcessor.Foundation
