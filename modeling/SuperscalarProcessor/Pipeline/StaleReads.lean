import SuperscalarProcessor.Pipeline.Completion

/-!
# When the pipeline is sequential, exactly

An instruction reads a stale word if the one two places before it is in EXEC1
when it leaves DEC1, names one of its source registers as destination, and
offers another word than the register holds. The log of a run is the sequential
machine's if and only if no instruction on the sequential path does so.
-/

namespace SuperscalarProcessor.Pipeline

open Llsim Foundation

variable {imem dmem : Mem}

/-! ## The sequential run with its window -/

/-- Instruction `k` of the sequential machine. -/
def seqFetch (imem dmem : Mem) (k : ℕ) : ExecLatch :=
  (seqTrace imem dmem k).fetch imem

/-- The first `n` of them, as EXEC1 shows them. -/
def seqPath (imem dmem : Mem) (n : ℕ) : List ExecLatch :=
  (List.range n).map fun k => promoteExec0 (seqFetch imem dmem k)

/-- What stands in EXEC0 and EXEC1 behind `k` sequential instructions. -/
def seqWindow (imem dmem : Mem) : ℕ → Window
  | 0 => Window.empty
  | k + 1 =>
      if (seqFetch imem dmem k).branch.isSome then Window.empty
      else ⟨some ((seqFetch imem dmem k).slot (seqTrace imem dmem k).mem),
        ((seqWindow imem dmem k).await (seqFetch imem dmem k).fields).exec0⟩

def seqBypass (imem dmem : Mem) (k : ℕ) : Bypass :=
  ⟨seqTrace imem dmem k, seqWindow imem dmem k⟩

/-- Instructions `i`, `i + 1` and `i + 2` follow each other without a jump or a
stall between them, and the last names the destination of the first, whose word
is not the one the register holds by then. -/
structure StaleRead (imem dmem : Mem) (i : ℕ) : Prop where
  jumps : (seqFetch imem dmem i).branch = none ∧
    (seqFetch imem dmem (i + 1)).branch = none
  stalls : loadUsePair (seqFetch imem dmem i) (seqFetch imem dmem (i + 1)) = false ∧
    loadUsePair (seqFetch imem dmem (i + 1)) (seqFetch imem dmem (i + 2)) = false
  register : 2#3 ≤ (seqFetch imem dmem i).fields.dst
  use : (seqFetch imem dmem (i + 2)).fields.src0 =
      (seqFetch imem dmem i).fields.dst ∨
    (seqFetch imem dmem (i + 2)).fields.src1 = (seqFetch imem dmem i).fields.dst
  word : ((seqFetch imem dmem i).slot (seqTrace imem dmem i).mem).word ≠
    (seqTrace imem dmem (i + 2)).r (seqFetch imem dmem i).fields.dst

/-! ## The window that the next instruction meets -/

theorem seqBypass_awaited_succ (k : ℕ) :
    (seqBypass imem dmem (k + 1)).awaited imem =
      if (seqFetch imem dmem k).branch.isSome then Window.empty
      else if loadUsePair (seqFetch imem dmem k) (seqFetch imem dmem (k + 1)) then
        ⟨none, some ((seqFetch imem dmem k).slot (seqTrace imem dmem k).mem)⟩
      else ⟨some ((seqFetch imem dmem k).slot (seqTrace imem dmem k).mem),
        ((seqBypass imem dmem k).awaited imem).exec0⟩ := by
  show (seqWindow imem dmem (k + 1)).await _ = _
  rw [seqWindow]
  split_ifs with hbranch huse
  · rfl
  · exact if_pos huse
  · exact if_neg huse

/-- Latching from the window makes no difference if and only if what EXEC1
offers for a source field is what the operand is anyway. -/
theorem issue_eq_fetch_iff (b : Bypass) :
    b.issue imem = b.arch.fetch imem ↔
      ∀ src, src = (b.arch.decoded imem).src0 ∨ src = (b.arch.decoded imem).src1 →
        (b.awaited imem).operand b.arch.r (b.arch.decoded imem).immediate src =
          operand b.arch.r (b.arch.decoded imem).immediate src := by
  constructor
  · intro heq src huse
    rcases huse with rfl | rfl
    · exact congrArg ExecLatch.alu0 heq
    · exact congrArg ExecLatch.alu1 heq
  · intro hsame
    unfold Bypass.issue
    rw [hsame _ (Or.inl rfl), hsame _ (Or.inr rfl)]
    rfl

theorem Window.operand_of_none {w : Window} (h : w.exec1 = none) (r : RegFile)
    (immediate : Word) (src : BitVec 3) :
    w.operand r immediate src = SuperscalarProcessor.operand r immediate src := by
  rw [Window.operand, h]
  rfl

/-- An offer is for a register, so it replaces that register's value. -/
theorem Window.operand_eq_iff {w : Window} {p : Slot} (h : w.exec1 = some p)
    (r : RegFile) (immediate : Word) (src : BitVec 3) :
    w.operand r immediate src = SuperscalarProcessor.operand r immediate src ↔
      (2#3 ≤ p.fields.dst → p.fields.dst = src → p.word = r src) := by
  rw [Window.operand, h, Option.bind_some, Slot.offer]
  split_ifs with hoffer
  · obtain ⟨hdst, rfl⟩ := hoffer
    rw [operand_of_two_le hdst, Option.getD_some]
    exact ⟨fun heq _ _ => heq, fun himp => himp hdst rfl⟩
  · simp only [Option.getD_none, true_iff]
    intro hdst hsrc
    exact absurd ⟨hdst, hsrc⟩ hoffer

/-- The word of a load is what it has written. -/
theorem word_of_load {k : ℕ} {f : Fields}
    (huse : loadUse (seqFetch imem dmem k).fields f = true) :
    ((seqFetch imem dmem k).slot (seqTrace imem dmem k).mem).word =
      (seqTrace imem dmem (k + 1)).r (seqFetch imem dmem k).fields.dst := by
  simp only [loadUse, Bool.and_eq_true, beq_iff_eq, decide_eq_true_eq] at huse
  obtain ⟨⟨hop, hdst⟩, -⟩ := huse
  have hwrites : (seqFetch imem dmem k).writes =
      some (seqFetch imem dmem k).fields.dst := by
    have hact : (seqFetch imem dmem k).active = true := rfl
    simp [ExecLatch.writes, hact, hop, hdst]
  have happly := ExecLatch.apply_of_writes hwrites (seqTrace imem dmem k).mem
    (seqTrace imem dmem k).r
  rw [ExecLatch.value, if_pos hop] at happly
  rw [ExecLatch.slot, if_pos hop, ← happly, seqTrace_succ]
  rfl

/-- Only the third of three instructions in a row can read a stale word. -/
theorem issue_eq_fetch_of_lt {k : ℕ} (hk : k < 2) :
    (seqBypass imem dmem k).issue imem = seqFetch imem dmem k := by
  refine (issue_eq_fetch_iff _).mpr ?_
  intro src _
  rcases Nat.lt_succ_iff_lt_or_eq.mp hk with hk | rfl
  · obtain rfl : k = 0 := by omega
    exact Window.operand_of_none rfl _ _ _
  · have hawait := @seqBypass_awaited_succ imem dmem 0
    split_ifs at hawait with hbranch huse
    · exact Window.operand_of_none (by rw [hawait]; rfl) _ _ _
    · refine (Window.operand_eq_iff (by rw [hawait]) _ _ _).mpr ?_
      rintro - rfl
      exact word_of_load huse
    · exact Window.operand_of_none (by rw [hawait]; rfl) _ _ _

theorem issue_eq_fetch_iff_not_stale (i : ℕ) :
    (seqBypass imem dmem (i + 2)).issue imem = seqFetch imem dmem (i + 2) ↔
      ¬StaleRead imem dmem i := by
  have hawait := @seqBypass_awaited_succ imem dmem (i + 1)
  refine (issue_eq_fetch_iff _).trans ?_
  split_ifs at hawait with hbranch huse
  · constructor
    · intro _ hstale
      rw [hstale.jumps.2] at hbranch
      cases hbranch
    · intro _ src _
      exact Window.operand_of_none (by rw [hawait]; rfl) _ _ _
  · constructor
    · intro _ hstale
      rw [hstale.stalls.2] at huse
      cases huse
    · intro _ src _
      refine (Window.operand_eq_iff (by rw [hawait]) _ _ _).mpr ?_
      rintro - rfl
      exact word_of_load huse
  · have hbefore := @seqBypass_awaited_succ imem dmem i
    rw [Bool.not_eq_true] at huse
    split_ifs at hbefore with hbranch₀ huse₀
    · constructor
      · intro _ hstale
        rw [hstale.jumps.1] at hbranch₀
        cases hbranch₀
      · intro _ src _
        exact Window.operand_of_none (by rw [hawait, hbefore]; rfl) _ _ _
    · constructor
      · intro _ hstale
        rw [hstale.stalls.1] at huse₀
        cases huse₀
      · intro _ src _
        exact Window.operand_of_none (by rw [hawait, hbefore]) _ _ _
    · rw [hbefore] at hawait
      have hoffer := fun src => Window.operand_eq_iff
        (congrArg Window.exec1 hawait) (seqTrace imem dmem (i + 2)).r
        (seqFetch imem dmem (i + 2)).fields.immediate src
      rw [Option.not_isSome_iff_eq_none] at hbranch hbranch₀
      rw [Bool.not_eq_true] at huse₀
      constructor
      · rintro hsame ⟨-, -, hdst, hsrc, hword⟩
        refine hword ((hoffer _).mp (hsame _ ?_) hdst rfl)
        exact hsrc.imp Eq.symm Eq.symm
      · intro hfresh src hsrc
        refine (hoffer src).mpr ?_
        rintro hdst rfl
        by_contra hword
        exact hfresh ⟨⟨hbranch₀, hbranch⟩, ⟨huse₀, huse⟩, hdst,
          hsrc.imp Eq.symm Eq.symm, hword⟩

/-! ## The log is sequential -/

theorem seqBypass_succ {k : ℕ}
    (h : (seqBypass imem dmem k).issue imem = seqFetch imem dmem k) :
    (seqBypass imem dmem k).next imem = seqBypass imem dmem (k + 1) := by
  rw [Bypass.next, h, seqBypass, seqBypass, seqTrace_succ, seqWindow]
  rfl

/-- As long as the operands agree, so do the machines. -/
theorem bypassTrace_eq_seqBypass {n : ℕ}
    (h : ∀ k < n, (seqBypass imem dmem k).issue imem = seqFetch imem dmem k) :
    bypassTrace imem dmem n = seqBypass imem dmem n := by
  induction n with
  | zero => rfl
  | succ n ih =>
      rw [bypassTrace_succ, ih fun k hk => h k (Nat.lt_succ_of_lt hk),
        seqBypass_succ (h n (Nat.lt_succ_self n))]

theorem fresh_of_issues {n : ℕ}
    (h : ∀ k < n, (bypassTrace imem dmem k).issue imem = seqFetch imem dmem k) :
    ∀ k < n, (seqBypass imem dmem k).issue imem = seqFetch imem dmem k := by
  intro k
  induction k using Nat.strong_induction_on with
  | _ k ih =>
      intro hk
      rw [← bypassTrace_eq_seqBypass fun j hj => ih j hj (hj.trans hk)]
      exact h k hk

/-- EXEC1's copy of an instruction still tells its operands. -/
theorem promoteExec0_inj {e e' : ExecLatch} (hout : e.aluout = e'.aluout)
    (h : promoteExec0 e = promoteExec0 e') : e = e' := by
  cases e
  cases e'
  simp only [promoteExec0, ExecLatch.mk.injEq] at h hout ⊢
  obtain ⟨h1, h2, h3, h4, h5, h6, -⟩ := h
  exact ⟨h1, h2, h3, h4, h5, h6, hout⟩

theorem bypassPath_eq_seqPath_iff (n : ℕ) :
    bypassPath imem dmem n = seqPath imem dmem n ↔
      ∀ k < n, (seqBypass imem dmem k).issue imem = seqFetch imem dmem k := by
  unfold bypassPath seqPath
  rw [List.map_inj_left]
  constructor
  · intro heq
    refine fresh_of_issues fun k hk => promoteExec0_inj rfl ?_
    exact heq k (List.mem_range.mpr hk)
  · intro hfresh k hk
    rw [List.mem_range] at hk
    rw [bypassTrace_eq_seqBypass fun j hj => hfresh j (hj.trans hk), hfresh k hk]

/-- Without stale reads every instruction is issued with its operands. -/
theorem issues_of_fresh {n : ℕ} (h : ∀ i, i + 2 < n → ¬StaleRead imem dmem i) :
    ∀ k < n, (seqBypass imem dmem k).issue imem = seqFetch imem dmem k := by
  intro k hk
  rcases Nat.lt_or_ge k 2 with hlow | hhigh
  · exact issue_eq_fetch_of_lt hlow
  · obtain ⟨i, rfl⟩ := Nat.exists_eq_add_of_le' hhigh
    exact (issue_eq_fetch_iff_not_stale i).mpr (h i hk)

/-- The log, the memory and the registers of a clock are those of the sequential
machine behind `n` instructions. -/
structure Sequential (imem dmem : Mem) (t : ℕ) (sp : Sp) (n : ℕ) : Prop where
  log : retired imem dmem (t + 1) = seqPath imem dmem n
  mem : sp.sramd.data = (seqTrace imem dmem n).mem
  regs : sp.spro.exec1.apply sp.sramd.data sp.spro.r = (seqTrace imem dmem n).r

theorem sequential_of_issues {t : ℕ} {sp : Sp}
    (h : clockState imem dmem t = some sp)
    (hfresh : ∀ k < (retired imem dmem (t + 1)).length,
      (seqBypass imem dmem k).issue imem = seqFetch imem dmem k) :
    Sequential imem dmem t sp (retired imem dmem (t + 1)).length := by
  have htracks := tracks h
  refine ⟨?_, ?_, ?_⟩
  · exact (retired_eq_bypassPath h).trans ((bypassPath_eq_seqPath_iff _).mpr hfresh)
  · rw [htracks.mem, bypassTrace_eq_seqBypass hfresh]
    rfl
  · rw [htracks.regs, bypassTrace_eq_seqBypass hfresh]
    rfl

/-- The programs that are clear of the two forwarding defects read no stale word,
but the condition is weaker: an overwritten register is harmless when both
instructions write the same value. -/
theorem not_stale_of_clear {i : ℕ}
    (h : ¬ForwardingHazard (seqFetch imem dmem i) (seqFetch imem dmem (i + 1))
      (seqFetch imem dmem (i + 2))) : ¬StaleRead imem dmem i := by
  rintro ⟨⟨hjump, hjump'⟩, ⟨-, hstall⟩, hdst, huse, hword⟩
  refine h ⟨hdst, huse, ?_⟩
  by_contra hquiet
  simp only [not_or, not_not, not_and] at hquiet
  obtain ⟨hwrites, hover⟩ := hquiet
  have hop := (ExecLatch.of_writes hjump hwrites).2.2
  -- the second instruction leaves the register alone, or it is a load that stalls
  have hkeep : (seqFetch imem dmem (i + 1)).writes ≠
      some (seqFetch imem dmem i).fields.dst := by
    intro hagain
    obtain ⟨-, hsame, halu | hload⟩ := ExecLatch.of_writes hjump' hagain
    · exact hover halu hsame
    · have hpair : loadUsePair (seqFetch imem dmem (i + 1))
          (seqFetch imem dmem (i + 2)) = true := by
        rw [loadUsePair, loadUse, hload, hsame]
        simp [hdst, huse.imp Eq.symm Eq.symm]
      rw [hstall] at hpair
      cases hpair
  apply hword
  rw [seqTrace_succ]
  show _ = (seqFetch imem dmem (i + 1)).apply _ _ _
  rw [ExecLatch.apply_of_ne hkeep, seqTrace_succ]
  show _ = (seqFetch imem dmem i).apply _ _ _
  rw [ExecLatch.apply_of_writes hwrites, ExecLatch.slot, ExecLatch.value]
  split_ifs with hld
  · rfl
  · obtain ⟨v, hv⟩ := aluResult_some (hop.resolve_right hld)
      (seqFetch imem dmem i).alu0 (seqFetch imem dmem i).alu1
    rw [hv]
    rfl

end SuperscalarProcessor.Pipeline
