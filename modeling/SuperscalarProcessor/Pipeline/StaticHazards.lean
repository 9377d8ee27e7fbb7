import SuperscalarProcessor.Pipeline.StaleReads

/-!
# Checking a program for stale reads

Which three words in a row can read a stale word is visible in the words
themselves. Before an instruction that ends no such triple the bypass machine
latches what the registers hold, whatever it has done before; a program without
such triples runs as on the sequential machine.
-/

namespace SuperscalarProcessor.Pipeline

open Llsim Foundation

variable {imem dmem : Mem}

/-! ## What the words tell -/

/-- The instruction puts its result into the register it names. -/
def writer (f : Fields) : Bool := (f.isAlu || f.op == .LD) && 2#3 ≤ f.dst

/-- `z` names the destination of `x`, no load separates the three, and `x` leaves
that register alone or `y` writes it again. -/
structure Conflict (x y z : Fields) : Prop where
  register : 2#3 ≤ x.dst
  use : z.src0 = x.dst ∨ z.src1 = x.dst
  stalls : loadUse x y = false ∧ loadUse y z = false
  word : writer x = false ∨ (y.isAlu = true ∧ y.dst = x.dst)

instance (x y z : Fields) : Decidable (Conflict x y z) :=
  decidable_of_iff
    (2#3 ≤ x.dst ∧ (z.src0 = x.dst ∨ z.src1 = x.dst) ∧
      (loadUse x y = false ∧ loadUse y z = false) ∧
      (writer x = false ∨ (y.isAlu = true ∧ y.dst = x.dst)))
    ⟨fun ⟨h₁, h₂, h₃, h₄⟩ => ⟨h₁, h₂, h₃, h₄⟩,
      fun h => ⟨h.register, h.use, h.stalls, h.word⟩⟩

/-- The words at `p`, `p + 1` and `p + 2` conflict. -/
def HazardAt (imem : Mem) (p : ℕ) : Prop :=
  Conflict (decodeFields (imem p)) (decodeFields (imem (p + 1)))
    (decodeFields (imem (p + 2)))

instance (imem : Mem) (p : ℕ) : Decidable (HazardAt imem p) := by
  unfold HazardAt
  infer_instance

/-- No three of the first `n` words conflict. -/
def Scheduled (imem : Mem) (n : ℕ) : Prop :=
  ∀ p, p + 2 < n → ¬HazardAt imem p

instance (imem : Mem) (n : ℕ) : Decidable (Scheduled imem n) :=
  decidable_of_iff (∀ p < n, p + 2 < n → ¬HazardAt imem p)
    ⟨fun h p hp => h p (by omega) hp, fun h p _ hp => h p hp⟩

/-- Without a taken jump a writer writes, and nothing else does. -/
theorem writes_eq_of_branch {e : ExecLatch} (hact : e.active = true)
    (hbranch : e.branch = none) :
    e.writes = if writer e.fields then some e.fields.dst else none := by
  unfold ExecLatch.writes writer
  rw [hact, hbranch]
  cases e.fields.isAlu || e.fields.op == .LD <;>
    by_cases hdst : 2#3 ≤ e.fields.dst <;> simp [hdst]

/-- A writer whose register is named next, and that is not waited for, is no
load. -/
theorem isAlu_of_writer {y f : Fields} {src : BitVec 3}
    (hwriter : writer y = true) (hdst : y.dst = src)
    (hsrc : src = f.src0 ∨ src = f.src1) (huse : loadUse y f = false) :
    y.isAlu = true := by
  simp only [writer, Bool.and_eq_true, Bool.or_eq_true, beq_iff_eq,
    decide_eq_true_eq] at hwriter
  obtain ⟨hop | hop, hreg⟩ := hwriter
  · exact hop
  · rw [hdst] at hreg
    simp only [loadUse, hop, hdst, hreg, BEq.rfl, decide_true, Bool.true_and,
      Bool.or_eq_false_iff, beq_eq_false_iff_ne] at huse
    exact absurd hsrc (not_or.mpr huse)

/-! ## The window of the bypass machine -/

/-- The window holds the two words in front of the present one. What a writer
among them offers is in its register, unless the other has written it since. -/
structure Windowed (imem : Mem) (b : Bypass) : Prop where
  exec0 : ∀ y, b.window.exec0 = some y → ∃ q, b.arch.pc.toNat = q + 1 ∧
    y.fields = decodeFields (imem q) ∧
    (writer y.fields = true → y.word = b.arch.r y.fields.dst)
  exec1 : ∀ x, b.window.exec1 = some x → ∃ q y, b.window.exec0 = some y ∧
    b.arch.pc.toNat = q + 2 ∧ x.fields = decodeFields (imem q) ∧
    y.fields = decodeFields (imem (q + 1)) ∧
    loadUse x.fields y.fields = false ∧
    (writer x.fields = true → ¬(writer y.fields = true ∧ y.fields.dst = x.fields.dst) →
      x.word = b.arch.r x.fields.dst)

theorem Windowed.init (imem dmem : Mem) : Windowed imem (bypassInit dmem) := by
  constructor <;> intro p hp <;> cases hp

/-- What stays in EXEC0 has not been waited for. -/
theorem exec0_of_await {w : Window} {f : Fields} {y : Slot}
    (h : (w.await f).exec0 = some y) :
    w.exec0 = some y ∧ loadUse y.fields f = false := by
  unfold Window.await at h
  cases hexec0 : w.exec0 with
  | none =>
      rw [hexec0] at h
      cases hexec0.symm.trans h
  | some p =>
      simp only [hexec0] at h
      split_ifs at h with huse
      obtain rfl := Option.some.inj (hexec0.symm.trans h)
      exact ⟨rfl, Bool.not_eq_true _ ▸ huse⟩

section Step

variable {b : Bypass}

theorem issue_writes (hbranch : (b.issue imem).branch = none) :
    (b.issue imem).writes =
      if writer (b.arch.decoded imem) then some (b.arch.decoded imem).dst else none :=
  writes_eq_of_branch rfl hbranch

/-- A writer's word in the window is what it has written. -/
theorem word_of_writer (hbranch : (b.issue imem).branch = none)
    (hwriter : writer (b.arch.decoded imem) = true) :
    ((b.issue imem).slot b.arch.mem).word =
      (b.next imem).arch.r (b.arch.decoded imem).dst := by
  have hwrites := issue_writes hbranch
  rw [if_pos hwriter] at hwrites
  show _ = (b.issue imem).apply b.arch.mem b.arch.r _
  rw [ExecLatch.apply_of_writes hwrites, ExecLatch.slot, ExecLatch.value]
  split_ifs with hload
  · rfl
  · have hop := (ExecLatch.of_writes hbranch hwrites).2.2.resolve_right hload
    obtain ⟨v, hv⟩ := aluResult_some hop (b.issue imem).alu0 (b.issue imem).alu1
    rw [hv]
    rfl

theorem Windowed.next (h : Windowed imem b) (hpc : b.arch.pc.toNat < 65536) :
    Windowed imem (b.next imem) := by
  cases hbranch : (b.issue imem).branch with
  | some target =>
      have hempty : (b.next imem).window = Window.empty := by
        rw [Bypass.next, hbranch]
        rfl
      constructor <;> intro p hp <;> rw [hempty] at hp <;> cases hp
  | none =>
      have hwindow : (b.next imem).window =
          ⟨some ((b.issue imem).slot b.arch.mem), (b.awaited imem).exec0⟩ := by
        rw [Bypass.next, hbranch]
        rfl
      have hnext : (b.next imem).arch.pc.toNat = b.arch.pc.toNat + 1 := by
        have hpc' : (b.next imem).arch.pc = b.arch.pc + 1 := by
          show (b.issue imem).successorPc = _
          rw [← ExecLatch.nextPc_eq, ExecLatch.nextPc, hbranch]
          rfl
        rw [hpc', BitVec.toNat_add]
        show (b.arch.pc.toNat + 1) % 2 ^ 32 = _
        omega
      constructor
      · intro y hy
        rw [hwindow] at hy
        obtain rfl := Option.some.inj hy
        exact ⟨b.arch.pc.toNat, hnext, rfl, word_of_writer hbranch⟩
      · intro x hx
        rw [hwindow] at hx
        obtain ⟨hexec0, huse⟩ := exec0_of_await hx
        obtain ⟨q, hq, hfields, hword⟩ := h.exec0 x hexec0
        refine ⟨q, _, congrArg Window.exec0 hwindow, by rw [hnext, hq], hfields,
          congrArg (fun p => decodeFields (imem p)) hq, huse, ?_⟩
        intro hwriter hover
        -- the present instruction leaves that register alone
        have hkeep : (b.issue imem).writes ≠ some x.fields.dst := by
          rw [issue_writes hbranch]
          intro hagain
          split_ifs at hagain with hw
          exact hover ⟨hw, Option.some.inj hagain⟩
        show _ = (b.issue imem).apply b.arch.mem b.arch.r _
        rw [ExecLatch.apply_of_ne hkeep]
        exact hword hwriter

/-- **An instruction that ends no conflict latches what the registers hold**,
whatever the machine has read before. -/
theorem Windowed.issue_eq_fetch (h : Windowed imem b)
    (hclear : ∀ q, b.arch.pc.toNat = q + 2 → ¬HazardAt imem q) :
    b.issue imem = b.arch.fetch imem := by
  refine (issue_eq_fetch_iff b).mpr ?_
  intro src hsrc
  have hawait : b.awaited imem = b.window.await (b.arch.decoded imem) := rfl
  unfold Window.await at hawait
  cases hexec0 : b.window.exec0 with
  | none =>
      rw [hexec0] at hawait
      cases hexec1 : b.window.exec1 with
      | none => exact Window.operand_of_none (by rw [hawait]; exact hexec1) _ _ _
      | some x =>
          obtain ⟨-, y, hy, -⟩ := h.exec1 x hexec1
          cases hexec0.symm.trans hy
  | some y =>
      simp only [hexec0] at hawait
      split_ifs at hawait with huse
      · -- a load that has been waited for
        refine (Window.operand_eq_iff (by rw [hawait]) _ _ _).mpr ?_
        rintro - rfl
        obtain ⟨-, -, -, hword⟩ := h.exec0 y hexec0
        refine hword ?_
        simp only [loadUse, Bool.and_eq_true, beq_iff_eq] at huse
        simp [writer, huse.1.1, huse.1.2]
      · cases hexec1 : b.window.exec1 with
        | none => exact Window.operand_of_none (by rw [hawait]; exact hexec1) _ _ _
        | some x =>
            rw [Bool.not_eq_true] at huse
            refine (Window.operand_eq_iff (by rw [hawait]; exact hexec1) _ _ _).mpr ?_
            rintro hdst rfl
            obtain ⟨q, y', hy, hpc, hx, hy', huse', hword⟩ := h.exec1 x hexec1
            obtain rfl := Option.some.inj (hexec0.symm.trans hy)
            have hno := hclear q hpc
            rw [HazardAt, ← hx, ← hy', ← hpc] at hno
            by_contra hstale
            refine hno ⟨hdst, hsrc.imp Eq.symm Eq.symm, ⟨huse', huse⟩, ?_⟩
            by_contra hquiet
            rw [not_or, Bool.not_eq_false] at hquiet
            refine hstale (hword hquiet.1 ?_)
            rintro ⟨hwriter, hsame⟩
            exact hquiet.2 ⟨isAlu_of_writer hwriter hsame hsrc huse, hsame⟩

end Step

/-! ## The sequential machine -/

/-- Without a taken jump the next instruction is the next word. -/
theorem seqTrace_pc_succ {k : ℕ} (hbranch : (seqFetch imem dmem k).branch = none)
    (hpc : (seqTrace imem dmem k).pc.toNat < 65536) :
    (seqTrace imem dmem (k + 1)).pc.toNat = (seqTrace imem dmem k).pc.toNat + 1 := by
  have hnext : (seqTrace imem dmem (k + 1)).pc = (seqTrace imem dmem k).pc + 1 := by
    rw [seqTrace_succ]
    show (seqFetch imem dmem k).successorPc = _
    rw [← ExecLatch.nextPc_eq, ExecLatch.nextPc, hbranch]
    rfl
  rw [hnext, BitVec.toNat_add]
  show ((seqTrace imem dmem k).pc.toNat + 1) % 2 ^ 32 = _
  omega

/-- Inside a scheduled program nothing stale is read. -/
theorem Scheduled.fresh {n : ℕ} (h : Scheduled imem n) (hn : n ≤ 65536) {i : ℕ}
    (hstay : ∀ k ≤ i + 2, (seqTrace imem dmem k).pc.toNat < n) :
    ¬StaleRead imem dmem i := by
  intro hstale
  have hin : ∀ k ≤ i + 2, (seqTrace imem dmem k).pc.toNat < 65536 :=
    fun k hk => Nat.lt_of_lt_of_le (hstay k hk) hn
  have hsecond := seqTrace_pc_succ hstale.jumps.1 (hin i (by omega))
  have hthird := seqTrace_pc_succ hstale.jumps.2 (hin (i + 1) (by omega))
  have hfields : ∀ k, (seqFetch imem dmem k).fields =
      decodeFields (imem (seqTrace imem dmem k).pc.toNat) := fun _ => rfl
  have hazard : ForwardingHazard (seqFetch imem dmem i) (seqFetch imem dmem (i + 1))
      (seqFetch imem dmem (i + 2)) := by
    by_contra hno
    exact not_stale_of_clear hno hstale
  have hlast := hstay (i + 2) le_rfl
  rw [hsecond] at hthird
  refine h (seqTrace imem dmem i).pc.toNat (hthird ▸ hlast) ?_
  rw [HazardAt, ← hsecond, show (seqTrace imem dmem i).pc.toNat + 2 = _ from hthird.symm,
    ← hfields, ← hfields, ← hfields]
  refine ⟨hstale.register, hstale.use, hstale.stalls, hazard.conflict.imp_left ?_⟩
  intro hwrites
  rw [writes_eq_of_branch rfl hstale.jumps.1] at hwrites
  by_contra hwriter
  rw [Bool.not_eq_false] at hwriter
  exact hwrites (if_pos hwriter)

/-- **The check is sound.** A program whose code passes it runs as on the
sequential machine, on any data, as long as it stays within that code. -/
theorem scheduled_sequential {n : ℕ} (hn : n ≤ 65536) (hsched : Scheduled imem n)
    {t : ℕ} {sp : Sp} (h : clockState imem dmem t = some sp)
    (hstay : ∀ k < (retired imem dmem (t + 1)).length,
      (seqTrace imem dmem k).pc.toNat < n) :
    Sequential imem dmem t sp (retired imem dmem (t + 1)).length := by
  refine sequential_of_issues h (issues_of_fresh ?_)
  intro i hi
  exact hsched.fresh hn fun k hk => hstay k (by omega)

/-- In clock 9 HLT is in EXEC1. -/
theorem scheduled_sequential_forward :
    ∃ sp, clockState forwardImage forwardImage 9 = some sp ∧
      Sequential forwardImage forwardImage 9 sp
        (retired forwardImage forwardImage 10).length := by
  have hclock := @clockState_eq_stateAt forwardImage forwardImage 9 (by decide +kernel)
  have hlen : (retired forwardImage forwardImage 10).length = 4 := by decide +kernel
  have hpc : ∀ k < 4, (seqTrace forwardImage forwardImage k).pc.toNat < 4 := by
    decide +kernel
  refine ⟨_, hclock, @scheduled_sequential forwardImage forwardImage 4 (by decide)
    (by decide +kernel) 9 _ hclock ?_⟩
  intro k hk
  exact hpc k (hlen ▸ hk)

end SuperscalarProcessor.Pipeline
