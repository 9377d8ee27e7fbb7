import Mathlib.Computability.StateTransition
import Mathlib.Data.List.Basic
import Mathlib.Data.List.Induction
import Mathlib.Data.Option.Basic
import Mathlib.Order.Basic
import Mathlib.Tactic.Common

/-!
# Runs of a partial step function

A machine is a function `step : σ → Option σ`; `none` means that it makes no
further step. `runFor step n s` is the state after `n` steps. The rules below
are the ones every later argument about runs goes through: an invariant that
may mention the number of steps and the observations made so far, a simulation
in which one abstract step is a fixed number of concrete ones, and a lockstep
coupling of two runs.
-/

namespace SuperscalarProcessor.Foundation

universe u v w

variable {σ : Type u} {τ : Type v} {α : Type w}

/-- The state after `n` steps from `s`, if the machine makes that many. -/
def runFor (step : σ → Option σ) : ℕ → σ → Option σ
  | 0, s => some s
  | n + 1, s => (runFor step n s).bind step

@[simp] theorem runFor_zero (step : σ → Option σ) (s : σ) :
    runFor step 0 s = some s := rfl

theorem runFor_succ (step : σ → Option σ) (n : ℕ) (s : σ) :
    runFor step (n + 1) s = (runFor step n s).bind step := rfl

theorem runFor_succ_of_eq {step : σ → Option σ} {n : ℕ} {s s' : σ}
    (h : runFor step n s = some s') : runFor step (n + 1) s = step s' := by
  rw [runFor_succ, h]
  rfl

theorem runFor_add (step : σ → Option σ) (m n : ℕ) (s : σ) :
    runFor step (m + n) s = (runFor step m s).bind (runFor step n) := by
  induction n with
  | zero => cases runFor step m s <;> rfl
  | succ n ih =>
      rw [← Nat.add_assoc, runFor_succ, ih]
      cases runFor step m s <;> rfl

theorem runFor_add_of_eq {step : σ → Option σ} {m n : ℕ} {s s' : σ}
    (h : runFor step m s = some s') :
    runFor step (m + n) s = runFor step n s' := by
  rw [runFor_add, h]
  rfl

/-- A run that has reached step `n + 1` went through step `n`. -/
theorem runFor_pred {step : σ → Option σ} {n : ℕ} {s s'' : σ}
    (h : runFor step (n + 1) s = some s'') :
    ∃ s', runFor step n s = some s' ∧ step s' = some s'' := by
  rw [runFor_succ] at h
  exact Option.bind_eq_some_iff.mp h

theorem runFor_none_of_le {step : σ → Option σ} {m n : ℕ} {s : σ}
    (hmn : m ≤ n) (h : runFor step m s = none) : runFor step n s = none := by
  obtain ⟨k, rfl⟩ := Nat.exists_eq_add_of_le hmn
  rw [runFor_add, h]
  rfl

theorem runFor_isSome_of_le {step : σ → Option σ} {m n : ℕ} {s s' : σ}
    (hmn : m ≤ n) (h : runFor step n s = some s') :
    ∃ s'', runFor step m s = some s'' := by
  cases hm : runFor step m s with
  | none => rw [runFor_none_of_le hmn hm] at h; cases h
  | some s'' => exact ⟨s'', rfl⟩

/-! ## Observations along a run -/

/-- What `obs` sees in the states at steps `0, …, n - 1`, in order. -/
def observed (step : σ → Option σ) (obs : σ → Option α) : ℕ → σ → List α
  | 0, _ => []
  | n + 1, s => observed step obs n s ++ ((runFor step n s).bind obs).toList

@[simp] theorem observed_zero (step : σ → Option σ) (obs : σ → Option α)
    (s : σ) : observed step obs 0 s = [] := rfl

theorem observed_succ_of_eq {step : σ → Option σ} {obs : σ → Option α}
    {n : ℕ} {s s' : σ} (h : runFor step n s = some s') :
    observed step obs (n + 1) s = observed step obs n s ++ (obs s').toList := by
  simp [observed, h]

theorem observed_succ_of_none {step : σ → Option σ} {obs : σ → Option α}
    {n : ℕ} {s : σ} (h : runFor step n s = none) :
    observed step obs (n + 1) s = observed step obs n s := by
  simp [observed, h]

theorem observed_length_le {step : σ → Option σ} {obs : σ → Option α} {m n : ℕ}
    (hmn : m ≤ n) (s : σ) :
    (observed step obs m s).length ≤ (observed step obs n s).length := by
  induction hmn with
  | refl => exact le_rfl
  | step _ ih =>
      rw [observed, List.length_append]
      exact ih.trans (Nat.le_add_right _ _)

/-- The `k`-th observation was made at one step, after exactly the first `k`. -/
theorem exists_step_of_observed {step : σ → Option σ} {obs : σ → Option α}
    {s : σ} {k : ℕ} {a : α} : ∀ {n : ℕ},
    (observed step obs n s)[k]? = some a →
    ∃ t s', t < n ∧ runFor step t s = some s' ∧ obs s' = some a ∧
      observed step obs t s = (observed step obs n s).take k
  | 0, h => by simp at h
  | n + 1, h => by
      have earlier : (observed step obs n s)[k]? = some a →
          ∀ l, ∃ t s', t < n + 1 ∧ runFor step t s = some s' ∧
            obs s' = some a ∧
            observed step obs t s = (observed step obs n s ++ l).take k := by
        intro hk l
        obtain ⟨t, s', ht, hrun, hobs, htake⟩ := exists_step_of_observed hk
        have hlen := (List.getElem?_eq_some_iff.mp hk).1
        refine ⟨t, s', by omega, hrun, hobs, ?_⟩
        rw [List.take_append_of_le_length (Nat.le_of_lt hlen)]
        exact htake
      cases hrun : runFor step n s with
      | none =>
          rw [observed_succ_of_none hrun] at h ⊢
          simpa using earlier h []
      | some s' =>
          rw [observed_succ_of_eq hrun] at h ⊢
          rcases Nat.lt_or_ge k (observed step obs n s).length with hk | hk
          · rw [List.getElem?_append_left hk] at h
            exact earlier h _
          · rw [List.getElem?_append_right hk] at h
            -- the new observation is a single one, at the end of the log
            cases hobs : obs s' with
            | none => simp [hobs] at h
            | some b =>
                simp only [hobs, Option.toList_some] at h ⊢
                have hlen := (List.getElem?_eq_some_iff.mp h).1
                simp only [List.length_singleton] at hlen
                have hk' : k = (observed step obs n s).length := by omega
                subst hk'
                simp only [Nat.sub_self, List.getElem?_cons_zero] at h
                exact ⟨n, s', Nat.lt_succ_self n, hrun, hobs.trans h,
                  (List.take_left' rfl).symm⟩

/-- **Run invariants.** What holds at the start and is preserved by every step
holds in every state reached; the invariant may mention the step number and
everything observed up to and including the present state. -/
theorem runFor_invariant {step : σ → Option σ} (obs : σ → Option α)
    (P : ℕ → List α → σ → Prop) {s : σ}
    (init : P 0 (obs s).toList s)
    (preserved : ∀ n l a b, P n l a → step a = some b →
      P (n + 1) (l ++ (obs b).toList) b) :
    ∀ {n : ℕ} {s' : σ}, runFor step n s = some s' →
      P n (observed step obs (n + 1) s) s' := by
  intro n
  induction n with
  | zero =>
      intro s' h
      cases h
      simpa [observed] using init
  | succ n ih =>
      intro s'' h
      obtain ⟨s', hn, hstep⟩ := runFor_pred h
      rw [observed_succ_of_eq h]
      exact preserved n _ s' s'' (ih hn) hstep

/-- The observation-free special case: an inductive predicate holds of every
state reached. -/
theorem runFor_inductive {step : σ → Option σ} (P : σ → Prop) {s : σ}
    (init : P s) (preserved : ∀ a b, P a → step a = some b → P b)
    {n : ℕ} {s' : σ} (h : runFor step n s = some s') : P s' :=
  runFor_invariant (fun _ => (none : Option Unit)) (fun _ _ a => P a) init
    (fun _ _ a b => preserved a b) h

/-- A run that ends by step `n` has a property throughout if it has it in the
steps before. -/
theorem runFor_forall {step : σ → Option σ} {p : σ → Bool} {s : σ} (n : ℕ)
    (hend : (runFor step n s).isNone)
    (hall : ∀ t < n, (runFor step t s).all p) {t : ℕ} {s' : σ}
    (h : runFor step t s = some s') : p s' = true := by
  rcases Nat.lt_or_ge t n with ht | ht
  · have hp := hall t ht
    rw [h] at hp
    exact hp
  · obtain ⟨_, hn⟩ := runFor_isSome_of_le ht h
    cases (Option.isNone_iff_eq_none.mp hend).symm.trans hn

/-! ## Guarded steps -/

section Guarded

variable (p : σ → Prop) [DecidablePred p] {step : σ → Option σ}

/-- `f` where `p` holds, and nothing elsewhere. -/
def guarded (f : σ → Option τ) (s : σ) : Option τ :=
  if p s then f s else none

variable {p}

theorem guarded_of_pos {f : σ → Option τ} {s : σ} (h : p s) :
    guarded p f s = f s := if_pos h

/-- **A guarded run is a run that has passed every guard.** -/
theorem runFor_guarded_iff {n : ℕ} {s s' : σ} :
    runFor (guarded p step) n s = some s' ↔
      runFor step n s = some s' ∧ ∀ k < n, ∀ a, runFor step k s = some a → p a := by
  induction n generalizing s' with
  | zero => simp
  | succ n ih =>
      constructor
      · intro h
        obtain ⟨a, ha, hstep⟩ := runFor_pred h
        obtain ⟨hrun, hbefore⟩ := ih.mp ha
        unfold guarded at hstep
        split_ifs at hstep with hp
        refine ⟨(runFor_succ_of_eq hrun).trans hstep, ?_⟩
        intro k hk b hb
        rcases Nat.lt_succ_iff_lt_or_eq.mp hk with hk | rfl
        · exact hbefore k hk b hb
        · obtain rfl := Option.some.inj (hrun.symm.trans hb)
          exact hp
      · rintro ⟨h, hall⟩
        obtain ⟨a, ha, hstep⟩ := runFor_pred h
        have hguarded := ih.mpr ⟨ha, fun k hk => hall k (Nat.lt_succ_of_lt hk)⟩
        rw [runFor_succ_of_eq hguarded, guarded_of_pos (hall n (Nat.lt_succ_self n) a ha)]
        exact hstep

end Guarded

/-! ## Simulation and coupling -/

/-- **Simulation, `k` concrete steps for one abstract step.** The step rule may
use where in the abstract run it is applied. -/
theorem runFor_simulation {step : σ → Option σ} {astep : τ → Option τ} {k : ℕ}
    {R : τ → σ → Prop} {n : ℕ} {a a' : τ} {s : σ} (h0 : R a s)
    (sim : ∀ m b b' t, m < n → runFor astep m a = some b → astep b = some b' →
      R b t → ∃ t', runFor step k t = some t' ∧ R b' t')
    (h : runFor astep n a = some a') :
    ∃ s', runFor step (k * n) s = some s' ∧ R a' s' := by
  induction n generalizing a' with
  | zero =>
      cases h
      exact ⟨s, rfl, h0⟩
  | succ n ih =>
      obtain ⟨b, hb, hstep⟩ := runFor_pred h
      obtain ⟨t, ht, hR⟩ :=
        ih (fun m b b' t hm => sim m b b' t (Nat.lt_succ_of_lt hm)) hb
      obtain ⟨t', ht', hR'⟩ := sim n b a' t (Nat.lt_succ_self n) hb hstep hR
      refine ⟨t', ?_, hR'⟩
      rw [Nat.mul_succ, runFor_add_of_eq ht]
      exact ht'

theorem rel_imp {R S : σ → τ → Prop} {x : Option σ} {y : Option τ}
    (h : Option.Rel R x y) (himp : ∀ a b, x = some a → R a b → S a b) :
    Option.Rel S x y := by
  cases h with
  | none => exact .none
  | some hR => exact .some (himp _ _ rfl hR)

theorem rel_bind {R : σ → τ → Prop} {x : Option σ} {y : Option τ}
    {f : σ → Option σ} {g : τ → Option τ} (h : Option.Rel R x y)
    (hnext : ∀ a b, x = some a → y = some b → R a b → Option.Rel R (f a) (g b)) :
    Option.Rel R (x.bind f) (y.bind g) := by
  cases h with
  | none => exact .none
  | some hR => exact hnext _ _ rfl rfl hR

theorem exists_right_of_rel {R : σ → τ → Prop} {x : Option σ} {y : Option τ}
    {a : σ} (h : Option.Rel R x y) (ha : x = some a) : ∃ b, y = some b ∧ R a b := by
  cases h with
  | none => cases ha
  | some hR =>
      obtain rfl := Option.some.inj ha
      exact ⟨_, rfl, hR⟩

theorem exists_left_of_rel {R : σ → τ → Prop} {x : Option σ} {y : Option τ}
    {b : τ} (h : Option.Rel R x y) (hb : y = some b) : ∃ a, x = some a ∧ R a b := by
  cases h with
  | none => cases hb
  | some hR =>
      obtain rfl := Option.some.inj hb
      exact ⟨_, rfl, hR⟩

/-- **Lockstep coupling.** Two runs related at the start stay related, and stop
together, when related states step to related states or both stop. The step
rule may use that the first state has been reached. -/
theorem runFor_coupling {step₁ : σ → Option σ} {step₂ : τ → Option τ}
    {R : σ → τ → Prop} {s : σ} {t : τ} (h0 : R s t)
    (couple : ∀ n a b, runFor step₁ n s = some a → R a b →
      Option.Rel R (step₁ a) (step₂ b)) (n : ℕ) :
    Option.Rel R (runFor step₁ n s) (runFor step₂ n t) := by
  induction n with
  | zero => exact .some h0
  | succ n ih =>
      rw [runFor_succ, runFor_succ]
      cases h₁ : runFor step₁ n s with
      | none =>
          rw [h₁] at ih
          cases h₂ : runFor step₂ n t with
          | none => exact .none
          | some b => rw [h₂] at ih; cases ih
      | some a =>
          rw [h₁] at ih
          cases h₂ : runFor step₂ n t with
          | none => rw [h₂] at ih; cases ih
          | some b =>
              rw [h₂] at ih
              cases ih with
              | some hR => exact couple n a b h₁ hR

/-- The first `n` steps of a coupling; the step rule is used there only. -/
theorem runFor_coupling_of_lt {step₁ : σ → Option σ} {step₂ : τ → Option τ}
    {R : σ → τ → Prop} {s : σ} {t : τ} {n : ℕ} (h0 : R s t)
    (couple : ∀ m a b, m < n → runFor step₁ m s = some a → R a b →
      Option.Rel R (step₁ a) (step₂ b)) :
    Option.Rel R (runFor step₁ n s) (runFor step₂ n t) := by
  induction n with
  | zero => exact .some h0
  | succ n ih =>
      have before := ih fun m a b hm => couple m a b (Nat.lt_succ_of_lt hm)
      exact rel_bind before fun a b ha _ => couple n a b (Nat.lt_succ_self n) ha

/-- **Bisimulation, `k` concrete steps for one abstract step.** Related states
step to related states, or neither the abstract step nor all concrete ones are
made. The step rule may use where in the concrete run it is applied. -/
theorem runFor_bisimulation {step : σ → Option σ} {astep : τ → Option τ} {k : ℕ}
    {R : τ → σ → Prop} {a : τ} {s : σ} (h0 : R a s)
    (couple : ∀ n b t, runFor step (k * n) s = some t → R b t →
      Option.Rel R (astep b) (runFor step k t)) (n : ℕ) :
    Option.Rel R (runFor astep n a) (runFor step (k * n) s) := by
  induction n with
  | zero => exact .some h0
  | succ n ih =>
      rw [runFor_succ, Nat.mul_succ, runFor_add]
      exact rel_bind ih fun b t _ ht => couple n b t ht

/-! ## Runs that never end -/

/-- **Divergence of a loop.** When every turn takes a step and leads back to a
loop head, no run from a loop head ends. -/
theorem not_mem_eval_of_loop {step : σ → Option σ} {P : σ → Prop}
    (turn : ∀ a, P a → ∃ b, StateTransition.Reaches₁ step a b ∧ P b)
    {a b : σ} (ha : P a) : b ∉ StateTransition.eval step a := by
  -- every state of the run is on its way to a loop head
  have advance : ∀ c, (∃ d, StateTransition.Reaches step c d ∧ P d) →
      ∃ c', step c = some c' ∧ ∃ d, StateTransition.Reaches step c' d ∧ P d := by
    rintro c ⟨d, hcd, hd⟩
    rcases Relation.ReflTransGen.cases_head hcd with rfl | ⟨c', hc', hrest⟩
    · obtain ⟨e, hturn, he⟩ := turn c hd
      obtain ⟨c', hc', hrest⟩ := Relation.TransGen.head'_iff.mp hturn
      exact ⟨c', hc', e, hrest, he⟩
    · exact ⟨c', hc', d, hrest, hd⟩
  intro hb
  obtain ⟨hab, hend⟩ := StateTransition.mem_eval.mp hb
  have onWay : ∃ d, StateTransition.Reaches step b d ∧ P d := by
    clear hb hend
    induction hab with
    | refl => exact ⟨a, .refl, ha⟩
    | tail _ hstep ih =>
        obtain ⟨c', hc', hd⟩ := advance _ ih
        obtain rfl := Option.mem_unique hstep hc'
        exact hd
  obtain ⟨c', hc', -⟩ := advance b onWay
  cases hend.symm.trans hc'

end SuperscalarProcessor.Foundation
