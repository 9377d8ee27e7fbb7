import SuperscalarProcessor.Pipeline.Completion
import SuperscalarProcessor.Pipeline.Loads

/-!
# What a run depends on

The words that the retired instructions have been fetched from, and the words they
have loaded before storing them. No other word of either memory has a say in the
run: over any images that agree on these the pipeline retires the same instructions
in the same clocks, and leaves every word that it has not stored as it was.
-/

namespace SuperscalarProcessor.Pipeline

open Llsim Foundation

/-! ## The footprint of a path -/

/-- One of the instructions stores to `i`. -/
def StoresTo (path : List ExecLatch) (i : ℕ) : Prop :=
  ∃ e ∈ path, e.fields.op = .ST ∧ e.alu1.toNat = i

instance (path : List ExecLatch) (i : ℕ) : Decidable (StoresTo path i) := by
  unfold StoresTo
  infer_instance

/-- Wherever the instructions look, both images have the same word: where they are
fetched from, and where they load, unless an earlier one has stored there. -/
structure SameReads (path : List ExecLatch) (imem dmem imem' dmem' : Mem) : Prop where
  fetched : ∀ e ∈ path, imem' e.pc.toNat = imem e.pc.toNat
  loaded : ∀ before e after, path = before ++ e :: after → e.fields.op = .LD →
    StoresTo before e.alu1.toNat ∨ dmem' e.alu1.toNat = dmem e.alu1.toNat

/-- What the path has stored into `mem`, over other data. -/
def overlay (path : List ExecLatch) (mem dmem' : Mem) : Mem := fun i =>
  if StoresTo path i then mem i else dmem' i

/-- The stores one after the other. -/
theorem storesTo_iff {path : List ExecLatch} {i : ℕ} : StoresTo path i ↔
    i ∈ (path.filter fun e => e.fields.op == .ST).map fun e => e.alu1.toNat := by
  simp only [StoresTo, List.mem_map, List.mem_filter, beq_iff_eq, and_assoc]

theorem storesTo_concat {path : List ExecLatch} {e : ExecLatch} {i : ℕ} :
    StoresTo (path ++ [e]) i ↔
      StoresTo path i ∨ (e.fields.op = .ST ∧ e.alu1.toNat = i) := by
  unfold StoresTo
  constructor
  · rintro ⟨f, hf, hstore⟩
    rcases List.mem_append.mp hf with hf | hf
    · exact Or.inl ⟨f, hf, hstore⟩
    · obtain rfl := List.mem_singleton.mp hf
      exact Or.inr hstore
  · rintro (⟨f, hf, hstore⟩ | hstore)
    · exact ⟨f, List.mem_append_left _ hf, hstore⟩
    · exact ⟨e, List.mem_append_right _ (List.mem_singleton_self e), hstore⟩

section Paths

variable {imem dmem imem' dmem' : Mem} {path : List ExecLatch} {e : ExecLatch}

theorem SameReads.before (h : SameReads (path ++ [e]) imem dmem imem' dmem') :
    SameReads path imem dmem imem' dmem' := by
  refine ⟨fun f hf => h.fetched f (List.mem_append_left _ hf), ?_⟩
  rintro pre f post rfl
  exact h.loaded pre f (post ++ [e]) (by simp)

theorem SameReads.last (h : SameReads (path ++ [e]) imem dmem imem' dmem') :
    imem' e.pc.toNat = imem e.pc.toNat ∧ (e.fields.op = .LD →
      StoresTo path e.alu1.toNat ∨ dmem' e.alu1.toNat = dmem e.alu1.toNat) :=
  ⟨h.fetched e (by simp), h.loaded path e [] rfl⟩

/-- Checking them one by one. -/
theorem SameReads.of_getElem (h : ∀ (k : ℕ) (hk : k < path.length),
    imem' path[k].pc.toNat = imem path[k].pc.toNat ∧ (path[k].fields.op = .LD →
      StoresTo (path.take k) path[k].alu1.toNat ∨
        dmem' path[k].alu1.toNat = dmem path[k].alu1.toNat)) :
    SameReads path imem dmem imem' dmem' := by
  constructor
  · intro f hf
    obtain ⟨k, hk, rfl⟩ := List.mem_iff_getElem.mp hf
    exact (h k hk).1
  · rintro pre f post rfl
    have hload := (h pre.length (by simp)).2
    rwa [List.getElem_of_append rfl rfl, List.take_left' rfl] at hload

/-- The next instruction acts on the overlay as on the memory. -/
theorem memoryAfter_overlay (hact : e.active = true) (mem dmem' : Mem) :
    memoryAfter e (overlay path mem dmem') =
      overlay (path ++ [promoteExec0 e]) (memoryAfter e mem) dmem' := by
  funext i
  unfold overlay memoryAfter
  simp only [storesTo_concat, hact, Bool.true_and, beq_iff_eq]
  show _ = if StoresTo path i ∨ (e.fields.op = .ST ∧ e.alu1.toNat = i) then _ else _
  by_cases hop : e.fields.op = .ST
  · rw [if_pos hop, if_pos hop]
    by_cases hi : i = e.alu1.toNat
    · rw [hi, Function.update_self, if_pos (Or.inr ⟨hop, rfl⟩), Function.update_self]
    · rw [Function.update_of_ne hi, Function.update_of_ne hi]
      refine if_congr ?_ rfl rfl
      exact (or_iff_left fun h => hi h.2.symm).symm
  · rw [if_neg hop, if_neg hop]
    refine if_congr ?_ rfl rfl
    exact (or_iff_left fun h => hop h.1).symm

end Paths

/-! ## The same machine on another memory -/

def Bypass.onMemory (b : Bypass) (mem : Mem) : Bypass :=
  ⟨{ b.arch with mem := mem }, b.window⟩

section Machine

variable {imem dmem imem' dmem' : Mem} {b : Bypass} {n : ℕ}

theorem Bypass.issue_onMemory (hfetch : imem' b.arch.pc.toNat = imem b.arch.pc.toNat)
    (mem : Mem) : (b.onMemory mem).issue imem' = b.issue imem := by
  have hdecoded : (b.onMemory mem).arch.decoded imem' = b.arch.decoded imem :=
    congrArg decodeFields hfetch
  have hawaited : (b.onMemory mem).awaited imem' = b.awaited imem := by
    unfold Bypass.awaited
    rw [hdecoded]
    rfl
  unfold Bypass.issue
  rw [hdecoded, hawaited]
  show ExecLatch.mk _ _ (imem' b.arch.pc.toNat) _ _ _ _ = _
  rw [hfetch]
  rfl

/-- A step reads the memory in one place at most. -/
theorem Bypass.next_onMemory (hfetch : imem' b.arch.pc.toNat = imem b.arch.pc.toNat)
    {mem : Mem} (hload : (b.issue imem).fields.op = .LD →
      mem (b.issue imem).alu1.toNat = b.arch.mem (b.issue imem).alu1.toNat) :
    (b.onMemory mem).next imem' =
      (b.next imem).onMemory (memoryAfter (b.issue imem) mem) := by
  have hissue := b.issue_onMemory hfetch mem
  have hawaited : ((b.onMemory mem).awaited imem').exec0 = (b.awaited imem).exec0 := by
    show (b.window.await (decodeFields (imem' b.arch.pc.toNat))).exec0 = _
    rw [hfetch]
    rfl
  have hslot : (b.issue imem).slot mem = (b.issue imem).slot b.arch.mem := by
    unfold ExecLatch.slot
    split_ifs with hop
    · rw [hload hop]
    · rfl
  have hvalue : (b.issue imem).value mem = (b.issue imem).value b.arch.mem := by
    unfold ExecLatch.value
    split_ifs with hop
    · exact hload hop
    · rfl
  have hregs : (b.issue imem).apply mem b.arch.r =
      (b.issue imem).apply b.arch.mem b.arch.r := by
    unfold ExecLatch.apply
    rw [hvalue]
  unfold Bypass.next Bypass.onMemory ExecLatch.effect
  rw [Bypass.onMemory] at hissue hawaited
  simp only [hissue, hawaited, hslot, hregs]

/-- What has not been stored is as it was. -/
theorem mem_of_not_storesTo {i : ℕ} (h : ¬StoresTo (bypassPath imem dmem n) i) :
    (bypassTrace imem dmem n).arch.mem i = dmem i := by
  induction n with
  | zero => rfl
  | succ n ih =>
      rw [bypassPath_succ, storesTo_concat, not_or] at h
      rw [bypassTrace_succ]
      show memoryAfter _ _ i = _
      unfold memoryAfter
      split_ifs with hop
      · rw [Function.update_of_ne]
        · exact ih h.1
        · rintro rfl
          simp only [Bool.and_eq_true, beq_iff_eq] at hop
          exact h.2 ⟨hop.2, rfl⟩
      · exact ih h.1

/-- **The run over the other images.** It differs in the words that have not been
stored. -/
theorem bypassTrace_overlay
    (h : SameReads (bypassPath imem dmem n) imem dmem imem' dmem') :
    bypassTrace imem' dmem' n = (bypassTrace imem dmem n).onMemory
      (overlay (bypassPath imem dmem n) (bypassTrace imem dmem n).arch.mem dmem') := by
  induction n with
  | zero =>
      have hnone : overlay (bypassPath imem dmem 0) dmem dmem' = dmem' := by
        funext i
        exact if_neg (by simp [StoresTo, bypassPath])
      show bypassInit dmem' = (bypassInit dmem).onMemory _
      exact congrArg (Bypass.onMemory (bypassInit dmem)) hnone.symm
  | succ n ih =>
      rw [bypassPath_succ] at h
      obtain ⟨hfetch, hload⟩ := h.last
      rw [bypassTrace_succ, ih h.before, bypassPath_succ, bypassTrace_succ,
        Bypass.next_onMemory hfetch]
      · rw [memoryAfter_overlay rfl]
        rfl
      · intro hop
        unfold overlay
        split_ifs with hstored
        · rfl
        · -- the word is the one that both images start with
          exact ((hload hop).resolve_left hstored).trans (mem_of_not_storesTo hstored).symm

theorem SameReads.take {k : ℕ} (hk : k ≤ n)
    (h : SameReads (bypassPath imem dmem n) imem dmem imem' dmem') :
    SameReads (bypassPath imem dmem k) imem dmem imem' dmem' := by
  induction n with
  | zero => exact Nat.le_zero.mp hk ▸ h
  | succ n ih =>
      rcases Nat.eq_or_lt_of_le hk with rfl | hlt
      · exact h
      · rw [bypassPath_succ] at h
        exact ih (Nat.le_of_lt_succ hlt) h.before

/-- Instruction `k` of the path is fetched from the same word. -/
theorem SameReads.fetch {k : ℕ} (hk : k < n)
    (h : SameReads (bypassPath imem dmem n) imem dmem imem' dmem') :
    imem' (bypassTrace imem dmem k).arch.pc.toNat =
      imem (bypassTrace imem dmem k).arch.pc.toNat :=
  h.fetched (promoteExec0 ((bypassTrace imem dmem k).issue imem))
    (List.mem_map_of_mem (List.mem_range.mpr hk))

theorem SameReads.issue {k : ℕ} (hk : k < n)
    (h : SameReads (bypassPath imem dmem n) imem dmem imem' dmem') :
    (bypassTrace imem' dmem' k).issue imem' = (bypassTrace imem dmem k).issue imem := by
  rw [bypassTrace_overlay (h.take (Nat.le_of_lt hk))]
  exact Bypass.issue_onMemory (h.fetch hk) _

/-- It finds the same registers. -/
theorem SameReads.regs {k : ℕ} (hk : k ≤ n)
    (h : SameReads (bypassPath imem dmem n) imem dmem imem' dmem') :
    (bypassTrace imem' dmem' k).arch.r = (bypassTrace imem dmem k).arch.r := by
  rw [bypassTrace_overlay (h.take hk)]
  rfl

theorem SameReads.path_eq
    (h : SameReads (bypassPath imem dmem n) imem dmem imem' dmem') :
    bypassPath imem' dmem' n = bypassPath imem dmem n :=
  List.map_congr_left fun _ hk => congrArg promoteExec0 (h.issue (List.mem_range.mp hk))

/-- The other run reaches the same instruction, and its instructions fit too. -/
theorem BypassRuns.over (hruns : BypassRuns imem dmem n b)
    (h : SameReads (bypassPath imem dmem (n + 1)) imem dmem imem' dmem') :
    BypassRuns imem' dmem' n (bypassTrace imem' dmem' n) := by
  have hpc : ∀ k ≤ n, (bypassTrace imem' dmem' k).arch.pc =
      (bypassTrace imem dmem k).arch.pc := fun k hk =>
    congrArg ExecLatch.pc (h.issue (Nat.lt_succ_of_le hk))
  constructor
  · refine bypassState_iff.mpr ⟨fun k hk => ?_, rfl⟩
    have hbefore := (bypassState_iff.mp hruns.reaches).1 k hk
    have hfields := congrArg ExecLatch.fields (h.issue (Nat.lt_succ_of_lt hk))
    show (((bypassTrace imem' dmem' k).issue imem').fields.op == .HLT) = false
    rw [hfields]
    exact hbefore
  · intro k hk
    obtain ⟨hroom, hdata, htraced⟩ := hruns.fits k hk
    refine ⟨?_, ?_, ?_⟩
    · rw [hpc k hk]
      exact hroom
    · rw [h.issue (Nat.lt_succ_of_le hk)]
      exact hdata
    · unfold Bypass.TraceInside
      rw [h.issue (Nat.lt_succ_of_le hk), h.regs (Nat.le_succ_of_le hk)]
      exact htraced

theorem SameReads.clock_eq
    (h : SameReads (bypassPath imem dmem (n + 1)) imem dmem imem' dmem') :
    bypassClock imem' dmem' n = bypassClock imem dmem n := by
  unfold bypassClock
  rw [h.path_eq, (h.take (Nat.le_succ n)).path_eq]

/-- Its dump has the words that the path stores, in the same clock. -/
theorem BypassRuns.over_dumpsAt (hruns : BypassRuns imem dmem n b)
    (hhalted : b.halted imem = true)
    (h : SameReads (bypassPath imem dmem (n + 1)) imem dmem imem' dmem') :
    DumpsAt imem' dmem' (bypassClock imem dmem n)
      (memoryDump (overlay (bypassPath imem dmem n) b.arch.mem dmem')) := by
  have hb : b = bypassTrace imem dmem n := bypassState_eq_trace hruns.reaches
  have hhalted' : (bypassTrace imem' dmem' n).halted imem' = true := by
    show (((bypassTrace imem' dmem' n).issue imem').fields.op == .HLT) = true
    rw [h.issue (Nat.lt_succ_self n), ← hb]
    exact hhalted
  have hdump := (hruns.over h).dumpsAt hhalted'
  rwa [h.clock_eq, bypassTrace_overlay (h.take (Nat.le_succ n)), ← hb] at hdump

/-- The log of a run that has reached instruction `n`. -/
theorem BypassRuns.retired_eq (hruns : BypassRuns imem dmem n b) :
    retired imem dmem (bypassClock imem dmem n + 1) = bypassPath imem dmem (n + 1) := by
  obtain ⟨t, sp, hclock, hact, hlen⟩ := hruns.retires le_rfl
  rw [← clock_of_path hclock hact hlen, (retired_eq_path hclock hact).2, hlen]

end Machine

/-- **A run depends on its footprint only.** Where the pipeline dumps `out`, it does
so in the same clock, with the same log, for all images that agree with this one on
the words that the log has fetched, or loaded before storing them; the dump has the
words of `out` where the log stores, and the image's own elsewhere. -/
theorem pipeline_depends_on_footprint {imem dmem imem' dmem' : Mem} {t : ℕ} {out : Dump}
    (h : DumpsAt imem dmem t out)
    (hsame : SameReads (retired imem dmem (t + 1)) imem dmem imem' dmem') :
    retired imem' dmem' (t + 1) = retired imem dmem (t + 1) ∧
      DumpsAt imem' dmem' t fun i =>
        if StoresTo (retired imem dmem (t + 1)) i then out i else dmem' i := by
  obtain ⟨n, b, hruns, hhalted, rfl, rfl⟩ := bypassRuns_of_dumpsAt h
  rw [hruns.retired_eq] at hsame ⊢
  refine ⟨?_, ?_⟩
  · rw [← hsame.clock_eq, (hruns.over hsame).retired_eq, hsame.path_eq]
  · refine Eq.mp (congrArg (DumpsAt imem' dmem' _) ?_) (hruns.over_dumpsAt hhalted hsame)
    have hlast : ((bypassTrace imem dmem n).issue imem).fields.op = .HLT := by
      rw [← bypassState_eq_trace hruns.reaches]
      exact beq_iff_eq.mp hhalted
    funext i
    rw [bypassPath_succ]
    refine if_congr ?_ rfl rfl
    rw [storesTo_concat]
    refine (or_iff_left fun hstore => ?_).symm
    cases hlast.symm.trans hstore.1

/-- The program stores to address 5 before it loads from there: any data will do. -/
theorem pipeline_depends_on_footprint_storeLoad :
    ∃ out, DumpsAt storeLoadImage storeLoadImage 9 out ∧
      retired storeLoadImage (fun _ => 7) 10 = retired storeLoadImage storeLoadImage 10 ∧
      DumpsAt storeLoadImage (fun _ => 7) 9 fun i =>
        if StoresTo (retired storeLoadImage storeLoadImage 10) i then out i else 7 := by
  have hclock := @clockState_eq_stateAt storeLoadImage storeLoadImage 9 (by decide +kernel)
  have hhalt : (stateAt storeLoadImage storeLoadImage 9).spro.halts = true := by
    decide +kernel
  obtain ⟨sp', hrun, hout⟩ := (invariant_of_clockState hclock).dump_of_halts hhalt
  have hdump : DumpsAt storeLoadImage storeLoadImage 9 _ :=
    ⟨_, sp', tracedState_of_forall hclock (by decide +kernel), hhalt, hrun, hout⟩
  refine ⟨_, hdump, @pipeline_depends_on_footprint storeLoadImage storeLoadImage
    storeLoadImage (fun _ => 7) 9 _ hdump (.of_getElem ?_)⟩
  decide +kernel

end SuperscalarProcessor.Pipeline
