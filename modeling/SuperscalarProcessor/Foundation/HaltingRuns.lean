import Mathlib.Logic.Function.Iterate
import SuperscalarProcessor.Foundation.StepRuns

/-!
# Machines that stop at a halting state

`untilHalt halted next` steps with the total function `next` and stops where
`halted` holds. Its run is the orbit of `next`, cut off behind the first halting
state: the orbit names every state, the run says which of them are reached.
-/

namespace SuperscalarProcessor.Foundation

universe u v

variable {σ : Type u} {τ : Type v} {halted : σ → Bool} {next : σ → σ}

def untilHalt (halted : σ → Bool) (next : σ → σ) (s : σ) : Option σ :=
  if halted s then none else some (next s)

theorem untilHalt_eq_some_iff {s s' : σ} :
    untilHalt halted next s = some s' ↔ halted s = false ∧ next s = s' := by
  unfold untilHalt
  cases halted s <;> simp

/-- **The run is the orbit up to the first halting state.** -/
theorem runFor_untilHalt_iff {n : ℕ} {s s' : σ} :
    runFor (untilHalt halted next) n s = some s' ↔
      (∀ k < n, halted (next^[k] s) = false) ∧ next^[n] s = s' := by
  induction n generalizing s' with
  | zero => simp
  | succ n ih =>
      rw [runFor_succ, Option.bind_eq_some_iff]
      constructor
      · rintro ⟨a, ha, hstep⟩
        obtain ⟨hbefore, rfl⟩ := ih.mp ha
        obtain ⟨hno, rfl⟩ := untilHalt_eq_some_iff.mp hstep
        refine ⟨?_, Function.iterate_succ_apply' next n s⟩
        intro k hk
        rcases Nat.lt_succ_iff_lt_or_eq.mp hk with hk | rfl
        · exact hbefore k hk
        · exact hno
      · rintro ⟨hbefore, rfl⟩
        refine ⟨next^[n] s, ih.mpr ⟨?_, rfl⟩, ?_⟩
        · intro k hk
          exact hbefore k (Nat.lt_succ_of_lt hk)
        · rw [untilHalt_eq_some_iff, Function.iterate_succ_apply']
          exact ⟨hbefore n (Nat.lt_succ_self n), rfl⟩

theorem eq_iterate_of_runFor {n : ℕ} {s s' : σ}
    (h : runFor (untilHalt halted next) n s = some s') : s' = next^[n] s :=
  (runFor_untilHalt_iff.mp h).2.symm

/-- A run that has reached a halting state in step `n` has no later step. -/
theorem le_of_runFor_of_halted {m n : ℕ} {s s' : σ}
    (h : runFor (untilHalt halted next) m s = some s')
    (hhalt : halted (next^[n] s) = true) : m ≤ n := by
  by_contra hlt
  have hno := (runFor_untilHalt_iff.mp h).1 n (not_le.mp hlt)
  rw [hhalt] at hno
  cases hno

end SuperscalarProcessor.Foundation
