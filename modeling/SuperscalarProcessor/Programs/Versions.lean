import SuperscalarProcessor.Programs.Machine

/-!
# The two versions of the simulator

`lab #1/iss.c` became `lab2/iss.c`: LHI takes both halves from its operands, and
every taken jump saves the return address in r7. A program that does not notice
runs alike on both.
-/

namespace SuperscalarProcessor.Programs

open Llsim Foundation Iss StateTransition

/-! ## What an instruction notices -/

/-- The instruction takes a word from r7, in one version or the other. -/
def readsLink (f : Fields) : Bool :=
  match f.op with
  | .ADD | .SUB | .LSF | .RSF | .AND | .OR | .XOR | .ST
  | .JLT | .JLE | .JEQ | .JNE => f.src0 == 7 || f.src1 == 7
  | .LHI => f.dst == 7 || f.src0 == 7 || f.src1 == 7
  | .LD => f.src1 == 7
  | .JIN => f.src0 == 7
  | _ => false

/-- The halves that the later LHI puts together are those of the earlier one. -/
structure LhiHalves (s : State) : Prop where
  upper : s.val1.setWidth 16 = s.fields.immediate.setWidth 16
  lower : s.val0.setWidth 16 = (s.reg s.fields.dst).setWidth 16

/-- The instruction at `pc` reads no return address, and its LHI is a merge. -/
structure Portable (s : State) : Prop where
  link : readsLink s.fields = false
  lhi : s.fields.op = .LHI → LhiHalves s

instance (s : State) : Decidable (LhiHalves s) :=
  decidable_of_iff
    (s.val1.setWidth 16 = s.fields.immediate.setWidth 16 ∧
      s.val0.setWidth 16 = (s.reg s.fields.dst).setWidth 16)
    ⟨fun ⟨h₁, h₂⟩ => ⟨h₁, h₂⟩, fun h => ⟨h.upper, h.lower⟩⟩

instance (s : State) : Decidable (Portable s) :=
  decidable_of_iff
    (readsLink s.fields = false ∧ (s.fields.op = .LHI → LhiHalves s))
    ⟨fun ⟨h₁, h₂⟩ => ⟨h₁, h₂⟩, fun h => ⟨h.link, h.lhi⟩⟩

/-- The condition of the loop. -/
def running (s : State) : Prop := s.halted = false ∧ s.pc.toNat < 65536

instance (s : State) : Decidable (running s) := by
  unfold running
  infer_instance

/-- The same state, but for the return address in r7. -/
structure SameButLink (s t : State) : Prop where
  mem : s.mem = t.mem
  reg : ∀ i, i ≠ 7 → s.reg i = t.reg i
  pc : s.pc = t.pc
  halted : s.halted = t.halted

/-! ## The two versions of LHI -/

/-- A shifted upper half over a masked lower half. -/
theorem halves_eq (upper lower : Word) :
    (upper <<< 16) ||| (lower &&& 0xFFFF) =
      upper.setWidth 16 ++ lower.setWidth 16 := by
  apply BitVec.eq_of_getLsbD_eq
  intro i hi
  have hmask : (0xFFFF : Word) = lowMask 32 16 := rfl
  rw [hmask, BitVec.getLsbD_or, BitVec.getLsbD_shiftLeft, BitVec.getLsbD_and,
    getLsbD_lowMask, BitVec.getLsbD_append, BitVec.getLsbD_setWidth,
    BitVec.getLsbD_setWidth]
  by_cases hlow : i < 16
  · simp [hlow, hi]
  · have hupper : i - 16 < 16 := by omega
    simp [hlow, hi, hupper]

theorem halves_eq_iff (upper upper' lower lower' : Word) :
    (upper <<< 16) ||| (lower &&& (0xFFFF : Word)) =
        (upper' <<< 16) ||| (lower' &&& (0xFFFF : Word)) ↔
      upper.setWidth 16 = upper'.setWidth 16 ∧
        lower.setWidth 16 = lower'.setWidth 16 := by
  rw [halves_eq, halves_eq]
  constructor
  · intro heq
    have hupper := congrArg (BitVec.extractLsb' 16 16) heq
    have hlower := congrArg (BitVec.extractLsb' 0 16) heq
    rw [BitVec.extractLsb'_append_eq_left, BitVec.extractLsb'_append_eq_left]
      at hupper
    rw [BitVec.extractLsb'_append_eq_right, BitVec.extractLsb'_append_eq_right]
      at hlower
    exact ⟨hupper, hlower⟩
  · rintro ⟨hupper, hlower⟩
    rw [hupper, hlower]

/-- What the two versions of LHI write. -/
theorem lhi_eq_iff (s : State) :
    (s.fields.immediate <<< 16) ||| (s.reg s.fields.dst &&& (0xFFFF : Word)) =
        (s.val1 <<< 16) ||| (s.val0 &&& (0xFFFF : Word)) ↔ LhiHalves s := by
  rw [halves_eq_iff]
  exact ⟨fun ⟨h₁, h₂⟩ => ⟨h₁.symm, h₂.symm⟩, fun h => ⟨h.upper.symm, h.lower.symm⟩⟩

/-! ## One instruction -/

/-- The instruction jumps. -/
def taken (s : State) : Bool :=
  s.fields.op == .JIN || s.fields.op.condHolds s.val0 s.val1

section Instruction

variable {s t : State}

theorem SameButLink.fields (h : SameButLink s t) : t.fields = s.fields := by
  unfold State.fields
  rw [h.mem, h.pc]

theorem SameButLink.running_iff (h : SameButLink s t) : running s ↔ running t := by
  unfold running
  rw [h.halted, h.pc]

theorem SameButLink.operand (h : SameButLink s t) {src : BitVec 3} (hsrc : src ≠ 7)
    (immediate : Word) :
    SuperscalarProcessor.operand t.reg immediate src =
      SuperscalarProcessor.operand s.reg immediate src :=
  operand_congr fun _ => (h.reg src hsrc).symm

/-- A write keeps the registers alike. -/
theorem SameButLink.update (h : SameButLink s t) (dst : BitVec 3) (value : Word) :
    ∀ i, i ≠ 7 → Function.update s.reg dst value i = Function.update t.reg dst value i := by
  intro i hi
  rcases eq_or_ne i dst with rfl | hne
  · rw [Function.update_self, Function.update_self]
  · rw [Function.update_of_ne hne, Function.update_of_ne hne, h.reg i hi]

/-- So does the return address on one side. -/
theorem SameButLink.link (h : SameButLink s t) (value : Word) :
    ∀ i, i ≠ 7 → s.reg i = Function.update t.reg 7 value i := by
  intro i hi
  rw [Function.update_of_ne hi, h.reg i hi]

theorem toOption_map_eq_some {value : Except Fault Word} {f : Word → State} {s' : State}
    (h : (value.map f).toOption = some s') : ∃ v, value = .ok v ∧ f v = s' := by
  cases value with
  | error => cases h
  | ok v => exact ⟨v, rfl, Option.some.inj h⟩

/-- A result that is the same in both versions. -/
theorem rel_map {value : Except Fault Word} {f g : Word → State}
    (h : ∀ v, SameButLink (f v) (g v)) :
    Option.Rel SameButLink (value.map f).toOption (value.map g).toOption := by
  cases value with
  | error => exact .none
  | ok v => exact .some (h v)

theorem rel_ok {s' t' : State} (h : SameButLink s' t') :
    Option.Rel SameButLink (Except.toOption (.ok s' : Except Fault State))
      (Except.toOption (.ok t' : Except Fault State)) :=
  .some h

/-- A portable instruction has the same effect in both versions, the return
address apart. -/
theorem SameButLink.exec (h : SameButLink s t) (hs : Portable s) :
    Option.Rel SameButLink (exec s.fields s).toOption (iteration t).toOption := by
  have hfields := h.fields
  have hpc : t.pc + 1 = s.pc + 1 := by rw [h.pc]
  have hlink := hs.link
  have hval : ∀ src, src ≠ 7 →
      SuperscalarProcessor.operand t.reg s.fields.immediate src =
        SuperscalarProcessor.operand s.reg s.fields.immediate src :=
    fun src hsrc => h.operand hsrc _
  have written : ∀ value, SameButLink
      { s with reg := Function.update s.reg s.fields.dst value, pc := s.pc + 1 }
      { t with reg := Function.update t.reg s.fields.dst value, pc := s.pc + 1 } :=
    fun value => ⟨h.mem, h.update _ value, rfl, h.halted⟩
  unfold readsLink at hlink
  unfold Programs.exec iteration
  simp only [State.val0, State.val1, hfields, hpc]
  cases hop : s.fields.op <;> simp only [hop, Bool.or_eq_false_iff, beq_eq_false_iff_ne]
    at hlink ⊢
  case ADD | SUB | LSF | RSF | AND | OR | XOR =>
    rw [hval _ hlink.1, hval _ hlink.2]
    exact rel_map written
  case LHI =>
    have hlhi := (lhi_eq_iff s).mpr (hs.lhi hop)
    rw [hval _ hlink.1.2, hval _ hlink.2]
    refine rel_ok ?_
    rw [hlhi]
    exact written _
  case LD =>
    rw [hval _ hlink, ← h.mem]
    exact rel_ok ⟨rfl, h.update _ _, rfl, h.halted⟩
  case ST =>
    rw [hval _ hlink.2, ← h.reg _ hlink.1]
    exact rel_ok ⟨congrArg (Function.update · _ _) h.mem, h.reg, rfl, h.halted⟩
  case JLT | JLE | JEQ | JNE =>
    rw [hval _ hlink.1, hval _ hlink.2]
    refine rel_ok ?_
    split_ifs
    · exact ⟨h.mem, h.link _, rfl, h.halted⟩
    · exact ⟨h.mem, h.reg, rfl, h.halted⟩
  case JIN =>
    refine rel_ok ⟨h.mem, h.link _, ?_, h.halted⟩
    rw [h.link _ _ hlink]
  case HLT => exact rel_ok ⟨h.mem, h.reg, rfl, rfl⟩
  all_goals exact rel_ok ⟨h.mem, h.reg, rfl, h.halted⟩

theorem SameButLink.step (h : SameButLink s t) (hs : running s → Portable s) :
    Option.Rel SameButLink (step s) (Iss.step t) := by
  unfold Programs.step Iss.step
  rw [← h.halted, ← h.pc]
  split_ifs with hrun
  · exact h.exec (hs hrun)
  · exact .none

/-- A jump that saves the return address and one that does not. -/
theorem jump_eq_iff (s : State) (c : Bool) (target : Word) :
    (if c then { s with pc := target } else { s with pc := s.pc + 1 }) =
        (if c then
          { s with reg := Function.update s.reg 7 (s.pc + 1), pc := target }
        else { s with pc := s.pc + 1 }) ↔
      (c = true → s.reg 7 = s.pc + 1) := by
  cases c with
  | false => exact iff_of_true rfl nofun
  | true =>
      simp only [if_true, true_implies, State.mk.injEq, true_and, and_true]
      rw [eq_comm, Function.update_eq_self_iff, eq_comm]

/-- **Where the versions differ.** The two loops do the same with an instruction,
r7 included, if and only if LHI meets its own halves and no jump is taken, unless
r7 holds the return address already. -/
theorem versions_agree_iff (s : State) :
    step s = Iss.step s ↔ (running s →
      (s.fields.op = .LHI → LhiHalves s) ∧
        (taken s = true → s.reg 7 = s.pc + 1)) := by
  unfold Programs.step Iss.step running
  split_ifs with hrun
  · rw [forall_prop_of_true hrun]
    unfold Programs.exec iteration taken
    cases hop : s.fields.op
    case LHI =>
      constructor
      · intro heq
        refine ⟨fun _ => (lhi_eq_iff s).mp ?_, nofun⟩
        have hreg := congrArg State.reg (Option.some.inj heq)
        exact Function.update_injective s.reg s.fields.dst hreg
      · rintro ⟨hlhi, -⟩
        have hword := (lhi_eq_iff s).mpr (hlhi rfl)
        exact congrArg (fun value => some
          { s with reg := Function.update s.reg s.fields.dst value, pc := s.pc + 1 })
          hword
    case JLT | JLE | JEQ | JNE =>
      constructor
      · intro heq
        exact ⟨nofun, (jump_eq_iff s _ _).mp (Option.some.inj heq)⟩
      · rintro ⟨-, hsaved⟩
        exact congrArg some ((jump_eq_iff s _ _).mpr hsaved)
    case JIN =>
      constructor
      · intro heq
        have hreg := congrFun (congrArg State.reg (Option.some.inj heq)) 7
        refine ⟨nofun, fun _ => hreg.trans ?_⟩
        exact Function.update_self 7 _ s.reg
      · rintro ⟨-, hsaved⟩
        have hsame : Function.update s.reg 7 (s.pc + 1) = s.reg :=
          Function.update_eq_self_iff.mpr (hsaved rfl).symm
        show some _ = some _
        rw [hsame]
    all_goals exact iff_of_true rfl ⟨nofun, nofun⟩
  · simp [hrun]

end Instruction

/-- Only HLT ends the loop of the earlier version. -/
theorem op_of_halted {s s' : State} (h : step s = some s') (hhalt : s'.halted = true) :
    s.fields.op = .HLT := by
  unfold Programs.step at h
  split_ifs at h with hrun
  obtain ⟨hlive, -⟩ := hrun
  unfold Programs.exec at h
  cases hop : s.fields.op <;> simp only [hop] at h
  case HLT => rfl
  case ADD | SUB | LSF | RSF | AND | OR | XOR =>
    obtain ⟨v, -, rfl⟩ := toOption_map_eq_some h
    cases hlive.symm.trans hhalt
  case JLT | JLE | JEQ | JNE =>
    obtain rfl := Option.some.inj h
    split_ifs at hhalt <;> cases hlive.symm.trans hhalt
  all_goals
    obtain rfl := Option.some.inj h
    cases hlive.symm.trans hhalt

/-! ## Whole runs -/

/-- The state of the earlier version after `n` iterations. -/
def stateAfter (image : Mem) (n : ℕ) : Option State := runFor step n (init image)

/-- The loop ends after `n` iterations, and `dump_sram` prints `out`. -/
def DumpsAfter (step : State → Option State) (image : Mem) (n : ℕ) (out : Dump) :
    Prop :=
  ∃ s, runFor step n (init image) = some s ∧ ¬running s ∧ memoryDump s.mem = out

theorem SameButLink.of_portable {image : Mem} {n : ℕ}
    (h : ∀ k s, k < n → stateAfter image k = some s → running s → Portable s) :
    Option.Rel SameButLink (stateAfter image n) (Iss.stateAfter image n) := by
  refine runFor_coupling_of_lt ⟨rfl, fun _ _ => rfl, rfl, rfl⟩ ?_
  exact fun m a b hm ha hab => hab.step (h m a hm ha)

/-- **Portable programs.** As long as the earlier version executes portable
instructions the later one follows it, r7 apart; both end after the same number
of iterations and dump the same memory. -/
theorem versions_run_alike {image : Mem} {n : ℕ}
    (h : ∀ k s, k < n → stateAfter image k = some s → running s → Portable s) :
    Option.Rel SameButLink (stateAfter image n) (Iss.stateAfter image n) ∧
      ∀ m ≤ n, ∀ out, DumpsAfter step image m out ↔
        DumpsAfter Iss.step image m out := by
  refine ⟨SameButLink.of_portable h, ?_⟩
  intro m hm out
  have hrel : Option.Rel SameButLink (runFor step m (init image))
      (runFor Iss.step m (init image)) :=
    SameButLink.of_portable fun k s hk => h k s (Nat.lt_of_lt_of_le hk hm)
  constructor
  · rintro ⟨s, hs, hend, rfl⟩
    obtain ⟨t, ht, hst⟩ := exists_right_of_rel hrel hs
    exact ⟨t, ht, hst.running_iff.not.mp hend, congrArg memoryDump hst.mem.symm⟩
  · rintro ⟨t, ht, hend, rfl⟩
    obtain ⟨s, hs, hst⟩ := exists_left_of_rel hrel ht
    exact ⟨s, hs, hst.running_iff.not.mpr hend, congrArg memoryDump hst.mem⟩

/-- `LHI r2, r2, imm 0x1234; JEQ 0, 0, 3; (skipped); HLT`. -/
def mergeImage : Mem := imageOf [0x0E911234, 0x24000003, 0xFFFFFFFF, 0x30000000]

theorem versions_run_alike_merge :
    Option.Rel SameButLink (stateAfter mergeImage 3) (Iss.stateAfter mergeImage 3) ∧
      ∀ m ≤ 3, ∀ out, DumpsAfter step mergeImage m out ↔
        DumpsAfter Iss.step mergeImage m out := by
  have hall : ∀ k < 3, (stateAfter mergeImage k).all
      fun s => decide (Portable s) := by decide +kernel
  refine @versions_run_alike mergeImage 3 ?_
  intro k s hk hs _
  have hk := hall k hk
  rw [hs] at hk
  exact of_decide_eq_true hk

end SuperscalarProcessor.Programs
