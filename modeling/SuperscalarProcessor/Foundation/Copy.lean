import Mathlib.Logic.Function.Basic
import Mathlib.Tactic.Common

/-!
# Writing and copying word by word, in ascending order

`copyUp src dst n m` copies `n` entries from `src` to `dst`, the lowest first,
each one read when its turn comes. Where the ranges overlap a later entry can be
read after it was written: with the destination above the source the first
`dst - src` entries repeat. `writeFrom addr l m` writes a list.
-/

namespace SuperscalarProcessor.Foundation

universe u

variable {α : Type u}

/-- The memory after the first `n` entries have been copied. -/
def copyUp (src dst : ℕ) : ℕ → (ℕ → α) → ℕ → α
  | 0, m => m
  | n + 1, m =>
      Function.update (copyUp src dst n m) (dst + n) (copyUp src dst n m (src + n))

@[simp] theorem copyUp_zero (src dst : ℕ) (m : ℕ → α) :
    copyUp src dst 0 m = m := rfl

theorem copyUp_succ (src dst n : ℕ) (m : ℕ → α) :
    copyUp src dst (n + 1) m =
      Function.update (copyUp src dst n m) (dst + n)
        (copyUp src dst n m (src + n)) := rfl

/-- Entries outside the destination keep their value. -/
theorem copyUp_outside {src dst n a : ℕ} (m : ℕ → α)
    (h : a < dst ∨ dst + n ≤ a) : copyUp src dst n m a = m a := by
  induction n with
  | zero => rfl
  | succ n ih =>
      rw [copyUp_succ, Function.update_of_ne (by omega)]
      exact ih (by omega)

/-- An entry of the destination is what its turn read. -/
theorem copyUp_dst {src dst n i : ℕ} (m : ℕ → α) (h : i < n) :
    copyUp src dst n m (dst + i) = copyUp src dst i m (src + i) := by
  induction n with
  | zero => omega
  | succ n ih =>
      rw [copyUp_succ]
      rcases Nat.lt_succ_iff_lt_or_eq.mp h with hlt | rfl
      · rw [Function.update_of_ne (by omega)]
        exact ih hlt
      · rw [Function.update_self]

/-- Nothing is overwritten before it is read when the destination starts at or
below the source, or above its last entry. -/
theorem copyUp_initial {src dst n i : ℕ} (m : ℕ → α)
    (hsep : dst ≤ src ∨ src + n ≤ dst) (h : i < n) :
    copyUp src dst n m (dst + i) = m (src + i) := by
  rw [copyUp_dst m h]
  exact copyUp_outside m (by omega)

/-- With the destination above the source the entries before it repeat. -/
theorem copyUp_periodic {src dst : ℕ} (m : ℕ → α) (habove : src < dst)
    (i : ℕ) : ∀ {n : ℕ}, i < n →
      copyUp src dst n m (dst + i) = m (src + i % (dst - src)) := by
  induction i using Nat.strongRecOn with
  | ind i ih =>
      intro n h
      rw [copyUp_dst m h]
      rcases Nat.lt_or_ge i (dst - src) with hlt | hge
      · rw [Nat.mod_eq_of_lt hlt]
        exact copyUp_outside m (by omega)
      · -- the entry read was itself written, one period earlier
        have hback : src + i = dst + (i - (dst - src)) := by omega
        rw [hback, ih (i - (dst - src)) (by omega) (by omega),
          ← Nat.mod_eq_sub_mod hge]

/-- With the destination at or above the source both ranges agree at the end. -/
theorem copyUp_agree {src dst n i : ℕ} (m : ℕ → α) (hle : src ≤ dst)
    (h : i < n) :
    copyUp src dst n m (dst + i) = copyUp src dst n m (src + i) := by
  rcases Nat.lt_or_ge (src + i) dst with hlt | hge
  · rw [copyUp_dst m h, copyUp_outside m (Or.inl hlt), copyUp_outside m (Or.inl hlt)]
  · rcases Nat.eq_or_lt_of_le hle with rfl | habove
    · rfl
    · have hback : src + i = dst + (i - (dst - src)) := by omega
      rw [hback, copyUp_periodic m habove i h,
        copyUp_periodic m habove (i - (dst - src)) (by omega),
        ← Nat.mod_eq_sub_mod (by omega)]

/-- What an ascending copy of `len` entries turns `m` into. -/
structure AscendingCopy (src dst len : ℕ) (m m' : ℕ → α) : Prop where
  outside : ∀ a, a < dst ∨ dst + len ≤ a → m' a = m a
  initial : dst ≤ src ∨ src + len ≤ dst → ∀ i < len, m' (dst + i) = m (src + i)
  periodic : src < dst → dst < src + len → ∀ i < len,
    m' (dst + i) = m (src + i % (dst - src))
  agree : src ≤ dst → ∀ i < len, m' (dst + i) = m' (src + i)

theorem ascendingCopy_copyUp (src dst len : ℕ) (m : ℕ → α) :
    AscendingCopy src dst len m (copyUp src dst len m) where
  outside := fun _ h => copyUp_outside m h
  initial := fun hsep _ h => copyUp_initial m hsep h
  periodic := fun habove _ i h => copyUp_periodic m habove i h
  agree := fun hle _ h => copyUp_agree m hle h

/-! ## Writing a list -/

/-- The memory with a list written from `addr` up. -/
def writeFrom : ℕ → List α → (ℕ → α) → ℕ → α
  | _, [], m => m
  | addr, a :: l, m => writeFrom (addr + 1) l (Function.update m addr a)

theorem writeFrom_outside {addr i : ℕ} {l : List α} (m : ℕ → α)
    (h : i < addr ∨ addr + l.length ≤ i) : writeFrom addr l m i = m i := by
  induction l generalizing addr m with
  | nil => rfl
  | cons a l ih =>
      rw [List.length_cons] at h
      rw [writeFrom, ih _ (by omega), Function.update_of_ne (by omega)]

theorem writeFrom_get {addr i : ℕ} {l : List α} (m : ℕ → α) (h : i < l.length) :
    writeFrom addr l m (addr + i) = l[i] := by
  induction l generalizing addr i m with
  | nil => cases h
  | cons a l ih =>
      rw [writeFrom]
      cases i with
      | zero =>
          rw [writeFrom_outside _ (Or.inl (by omega)), Nat.add_zero,
            Function.update_self]
          rfl
      | succ i =>
          have hshift : addr + (i + 1) = addr + 1 + i := by omega
          rw [hshift, ih _ (Nat.lt_of_succ_lt_succ h)]
          rfl

end SuperscalarProcessor.Foundation
