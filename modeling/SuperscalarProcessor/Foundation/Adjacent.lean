import Mathlib.Data.List.Basic
import Mathlib.Data.List.Chain
import Mathlib.Tactic.Common

/-!
# Neighbours in a list

Counting the neighbouring pairs with a property, for lists that grow at the end
as the log of a run does.
-/

namespace SuperscalarProcessor.Foundation

universe u

variable {α : Type u}

/-- The number of positions `i` with `p l[i] l[i+1]`. -/
def countAdjacent (p : α → α → Bool) : List α → ℕ
  | [] => 0
  | [_] => 0
  | a :: b :: l => (p a b).toNat + countAdjacent p (b :: l)

/-- Whether the last element forms such a pair with what comes next. -/
def pending (p : α → Bool) (l : List α) : ℕ :=
  match l.getLast? with
  | none => 0
  | some a => (p a).toNat

@[simp] theorem pending_concat (p : α → Bool) (l : List α) (a : α) :
    pending p (l ++ [a]) = (p a).toNat := by
  simp [pending]

theorem pending_congr {p q : α → Bool} {l : List α}
    (h : ∀ a, p a = q a) : pending p l = pending q l := by
  rw [show p = q from funext h]

theorem countAdjacent_concat (p : α → α → Bool) (x : α) : ∀ l : List α,
    countAdjacent p (l ++ [x]) = countAdjacent p l + pending (p · x) l
  | [] => rfl
  | [a] => by simp [countAdjacent, pending]
  | a :: b :: l => by
      have ih := countAdjacent_concat p x (b :: l)
      simp only [List.cons_append] at ih
      simp only [List.cons_append, countAdjacent, ih, pending,
        List.getLast?_cons_cons, Nat.add_assoc]

/-- Every element starts at most one pair, the last one with what comes next. -/
theorem countAdjacent_add_pending_le (p : α → α → Bool) (q : α → Bool) :
    ∀ l : List α, countAdjacent p l + pending q l ≤ l.length
  | [] => le_rfl
  | [a] => by
      have hq := Bool.toNat_le (q a)
      simpa [countAdjacent, pending] using hq
  | a :: b :: l => by
      have ih := countAdjacent_add_pending_le p q (b :: l)
      have hp := Bool.toNat_le (p a b)
      simp only [countAdjacent, pending, List.getLast?_cons_cons,
        List.length_cons] at ih ⊢
      omega

/-- Elements that cost `m`, and pairs that cost one, cost at most `m` each time
when no element with the first cost starts a pair. -/
theorem countAdjacent_add_countP_le {p : α → α → Bool} {q c : α → Bool} {m : ℕ}
    (hp : ∀ a b, (p a b).toNat + m * (c a).toNat ≤ m)
    (hq : ∀ a, (q a).toNat + m * (c a).toNat ≤ m) :
    ∀ l : List α, countAdjacent p l + pending q l + m * l.countP c ≤ m * l.length
  | [] => by simp [countAdjacent, pending]
  | [a] => by
      have hlast := hq a
      cases hc : c a <;> simp [countAdjacent, pending, hc] at hlast ⊢ <;> omega
  | a :: b :: l => by
      have ih := countAdjacent_add_countP_le hp hq (b :: l)
      have hpair := hp a b
      have hcount : (a :: b :: l).countP c = (c a).toNat + (b :: l).countP c := by
        rw [List.countP_cons, Nat.add_comm]
        cases c a <;> rfl
      rw [hcount, Nat.mul_add]
      simp only [countAdjacent, pending, List.getLast?_cons_cons,
        List.length_cons, Nat.mul_add] at ih ⊢
      omega

/-- A chain grows by an element related to its last one. -/
theorem isChain_concat {R : α → α → Prop} {l : List α} {x : α}
    (h : l.IsChain R) (hx : ∀ a, l.getLast? = some a → R a x) :
    (l ++ [x]).IsChain R := by
  rw [List.isChain_append]
  refine ⟨h, List.isChain_singleton x, ?_⟩
  intro a ha b hb
  obtain rfl : x = b := by simpa using hb
  exact hx a ha

end SuperscalarProcessor.Foundation
