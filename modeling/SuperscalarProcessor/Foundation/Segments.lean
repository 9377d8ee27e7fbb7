import SuperscalarProcessor.Foundation.StepRuns

/-!
# Segments of a run

A segment leads from one state to another and knows of every state it leaves that
it satisfies `P`. Programs are put together from segments: one instruction, two
segments in a row, the turns of a loop. What holds of whole runs whose states
satisfy `P` then holds of the program.
-/

namespace SuperscalarProcessor.Foundation

universe u

variable {σ : Type u} {step : σ → Option σ} {P : σ → Prop}

/-- `n` steps lead from `a` to `b`, each of them from a state with `P`. -/
structure Segment (step : σ → Option σ) (P : σ → Prop) (n : ℕ) (a b : σ) : Prop where
  run : runFor step n a = some b
  all : ∀ k c, k < n → runFor step k a = some c → P c

theorem Segment.refl (a : σ) : Segment step P 0 a a :=
  ⟨rfl, fun _ _ hk => absurd hk (Nat.not_lt_zero _)⟩

theorem Segment.single {a b : σ} (hP : P a) (h : step a = some b) :
    Segment step P 1 a b := by
  refine ⟨h, ?_⟩
  intro k c hk hc
  obtain rfl : k = 0 := by omega
  obtain rfl := Option.some.inj hc
  exact hP

theorem Segment.trans {m n : ℕ} {a b c : σ} (h : Segment step P m a b)
    (h' : Segment step P n b c) : Segment step P (m + n) a c := by
  refine ⟨(runFor_add_of_eq h.run).trans h'.run, ?_⟩
  intro k d hk hd
  rcases Nat.lt_or_ge k m with hlow | hhigh
  · exact h.all k d hlow hd
  · obtain ⟨j, rfl⟩ := Nat.exists_eq_add_of_le hhigh
    exact h'.all j d (by omega) ((runFor_add_of_eq h.run).symm.trans hd)

/-- One more step at the front. -/
theorem Segment.cons {n : ℕ} {a b c : σ} (hP : P a) (h : step a = some b)
    (h' : Segment step P n b c) : Segment step P (n + 1) a c := by
  rw [Nat.add_comm]
  exact (Segment.single hP h).trans h'

/-- **A loop with a fixed number of steps in a turn.** -/
theorem Segment.loop {Inv : ℕ → σ → Prop} {m n : ℕ}
    (turn : ∀ j < m, ∀ a, Inv j a → ∃ b, Segment step P n a b ∧ Inv (j + 1) b)
    {a : σ} (h : Inv 0 a) : ∃ b, Segment step P (n * m) a b ∧ Inv m b := by
  induction m with
  | zero => exact ⟨a, .refl a, h⟩
  | succ m ih =>
      obtain ⟨b, hab, hb⟩ := ih fun j hj => turn j (Nat.lt_succ_of_lt hj)
      obtain ⟨c, hbc, hc⟩ := turn m (Nat.lt_succ_self m) b hb
      exact ⟨c, hab.trans hbc, hc⟩

/-- **A loop whose turns take what they take.** The variant counts down. -/
theorem Segment.countdown {Inv : ℕ → σ → Prop} {m : ℕ}
    (turn : ∀ j a, Inv (j + 1) a → ∃ n b, Segment step P n a b ∧ Inv j b)
    {a : σ} (h : Inv m a) : ∃ n b, Segment step P n a b ∧ Inv 0 b := by
  induction m generalizing a with
  | zero => exact ⟨0, a, .refl a, h⟩
  | succ m ih =>
      obtain ⟨n, b, hab, hb⟩ := turn m a h
      obtain ⟨n', c, hbc, hc⟩ := ih hb
      exact ⟨n + n', c, hab.trans hbc, hc⟩

/-- **Along a segment.** What every step from a state with `P` keeps, counting the
steps, the segment keeps. -/
theorem Segment.keeps {R : ℕ → σ → Prop}
    (next : ∀ k a b, P a → step a = some b → R k a → R (k + 1) b)
    {m n : ℕ} {a b : σ} (h : Segment step P n a b) (h0 : R m a) : R (m + n) b := by
  have upTo : ∀ k ≤ n, ∀ c, runFor step k a = some c → R (m + k) c := by
    intro k
    induction k with
    | zero =>
        intro _ c hc
        obtain rfl := Option.some.inj hc
        exact h0
    | succ k ih =>
        intro hk c hc
        obtain ⟨d, hd, hstep⟩ := runFor_pred hc
        exact next _ d c (h.all k d hk hd) hstep (ih (Nat.le_of_succ_le hk) d hd)
  exact upTo n le_rfl b h.run

end SuperscalarProcessor.Foundation
