import SuperscalarProcessor.Pipeline.Sequential

/-!
# The instruction trace

Before an instruction in EXEC1 commits, `trace_instruction` writes an entry for
it. Only the EXEC line of the ALU operations shows the operands that the
pipeline has latched; loads, stores and jumps read the register file again, with
the source fields as register numbers.
-/

namespace SuperscalarProcessor.Pipeline

open Llsim Foundation

/-! ## `trace_instruction` -/

/-- The last line of an entry, by its format. -/
inductive ExecLine where
  -- `R[%d] = %d %s %d`
  | alu (dst : BitVec 3) (opA : Word) (opStr : String) (opB : Word)
  -- `R[%d] = (0x%04x << 16) | (R[%d] & 0xFFFF)`
  | lhi (dst : BitVec 3) (imm16 : BitVec 16)
  -- `R[%d] = MEM[%d] = %08x`
  | load (dst : BitVec 3) (addr memVal : Word)
  -- `MEM[%d] = R[%d] = %08x`
  | store (addr : Word) (src0 : BitVec 3) (value : Word)
  -- `%s %d, %d, %d`
  | jump (opStr : String) (left right nextpc : Word)
  -- `HALT at PC %04x` and the number of instructions
  | halt (pc count : Word)
  | unknown

/-- What one call prints. -/
structure TraceEntry where
  number : Word
  pc : Word
  inst : Word
  opStr : String
  fields : Fields
  imm16 : BitVec 16
  regsForPrint : RegFile
  exec : ExecLine

/-- The fields of the unsigned word `inst`; the immediate is `imm32`. -/
def traceFields (inst : Word) : Fields where
  opcode := (inst >>> 25 &&& 0x1F).setWidth 5
  dst := (inst >>> 22 &&& 0x07).setWidth 3
  src0 := (inst >>> 19 &&& 0x07).setWidth 3
  src1 := (inst >>> 16 &&& 0x07).setWidth 3
  immediate := ((inst &&& 0xFFFF).setWidth 16).signExtend 32

def traceImm16 (inst : Word) : BitVec 16 := (inst &&& 0xFFFF).setWidth 16

def opStr (op : Opcode) : String :=
  match op with
  | .ADD => "ADD"
  | .SUB => "SUB"
  | .LSF => "LSF"
  | .RSF => "RSF"
  | .AND => "AND"
  | .OR => "OR"
  | .XOR => "XOR"
  | .LHI => "LHI"
  | .LD => "LD"
  | .ST => "ST"
  | .JLT => "JLT"
  | .JLE => "JLE"
  | .JEQ => "JEQ"
  | .JNE => "JNE"
  | .JIN => "JIN"
  | .HLT => "HLT"
  | _ => "UNK"

def isJump (op : Opcode) : Bool :=
  match op with
  | .JEQ | .JNE | .JLT | .JLE | .JIN => true
  | _ => false

def regsForPrint (f : Fields) (regs : RegFile) : RegFile :=
  if f.src0 = 1 ∨ f.src1 = 1 ∨ isJump f.op = true then
    Function.update regs 1 f.immediate
  else regs

/-- `nextpc` of the conditional jumps. -/
def traceNextpc (taken : Bool) (imm16 : BitVec 16) (currentPc : Word) : Word :=
  if taken then imm16.setWidth 32 else (currentPc + 1) &&& 0xFFFF

/-- An operand of an ALU operation: the override, if there is one. -/
def traceOperand (f : Fields) (regs : RegFile) (src : BitVec 3)
    (exec : Option Word) : Word :=
  exec.getD (if src = 1 then f.immediate else regs src)

def execLine (sramd : Memory) (nr inst currentPc : Word) (regs : RegFile)
    (exec : Option (Word × Word)) : ExecLine :=
  let f := traceFields inst
  match f.op with
  | .ADD | .SUB | .LSF | .RSF | .AND | .OR | .XOR =>
      .alu f.dst (traceOperand f regs f.src0 (exec.map Prod.fst)) (opStr f.op)
        (traceOperand f regs f.src1 (exec.map Prod.snd))
  | .LHI => .lhi f.dst (traceImm16 inst)
  -- the read is not checked: TracedRuns cuts off the runs in which it leaves the array
  | .LD => .load f.dst (regs f.src1) (llsimMemExtract sramd (regs f.src1) 31 0)
  | .ST => .store (regs f.src1) f.src0 (regs f.src0)
  | .JLT | .JLE | .JEQ | .JNE =>
      .jump (opStr f.op) (regs f.src0) (regs f.src1)
        (traceNextpc (f.op.condHolds (regs f.src0) (regs f.src1))
          (traceImm16 inst) currentPc)
  | .JIN => .jump (opStr f.op) (regs f.src0) (regs f.src1) (regs f.dst)
  | .HLT => .halt currentPc (nr + 1)
  | _ => .unknown

/-- The entry and `nr_simulated_instructions` after it; HLT counts twice. -/
def traceInstruction (sramd : Memory) (nr inst currentPc : Word) (regs : RegFile)
    (exec : Option (Word × Word)) : TraceEntry × Word :=
  let f := traceFields inst
  ({ number := nr
     pc := currentPc
     inst := inst
     opStr := opStr f.op
     fields := f
     imm16 := traceImm16 inst
     regsForPrint := regsForPrint f regs
     exec := execLine sramd nr inst currentPc regs exec },
    if f.op = .HLT then nr + 1 + 1 else nr + 1)

/-- The overrides that EXEC1 passes: the latched operands for ADD to XOR. -/
def execOverrides (e : ExecLatch) : Option (Word × Word) :=
  match e.fields.op with
  | .ADD | .SUB | .LSF | .RSF | .AND | .OR | .XOR => some (e.alu0, e.alu1)
  | _ => none

/-- EXEC1's call, before it commits. -/
def traceExec1 (nr : Word) (sp : Sp) : Option (TraceEntry × Word) :=
  let e := sp.spro.exec1
  if e.active then
    some (traceInstruction sp.sramd nr e.inst e.pc sp.spro.r (execOverrides e))
  else none

/-! ## The contract -/

/-- The EXEC line that the clock prints, whatever the count. -/
def Prints (sp : Sp) (line : ExecLine) : Prop :=
  ∃ nr entry, traceExec1 nr sp = some entry ∧ entry.1.exec = line

/-- Clock `u` is the next one after clock `t` with an instruction in EXEC1. -/
structure NextRetires (imem dmem : Mem) (t u : ℕ) (sp : Sp) : Prop where
  clock : clockState imem dmem u = some sp
  active : sp.spro.exec1.active = true
  next : retired imem dmem u = retired imem dmem (t + 1)

/-- What is printed agrees with what the pipeline did: the next pc with the one
that retires next, addresses and the stored value with the request that the
instruction made in the clock before, in EXEC0. -/
structure TruthfulTrace (imem dmem : Mem) : Prop where
  jump : ∀ t sp u sp' name left right nextpc, clockState imem dmem t = some sp →
    Prints sp (.jump name left right nextpc) → NextRetires imem dmem t u sp' →
      nextpc = sp'.spro.exec1.pc
  load : ∀ t sp port sp' dst addr memVal, clockState imem dmem t = some sp →
    spRun false sp = .ok port → clockState imem dmem (t + 1) = some sp' →
      Prints sp' (.load dst addr memVal) →
        port.sramd.read = true ∧ port.sramd.readAddr = addr
  store : ∀ t sp port sp' addr src0 value, clockState imem dmem t = some sp →
    spRun false sp = .ok port → clockState imem dmem (t + 1) = some sp' →
      Prints sp' (.store addr src0 value) →
        port.sramd.write = true ∧ port.sramd.writeAddr = addr ∧
          port.sramd.datain = value

/-! ## The second decoder -/

/-- It finds the same fields as DEC0. -/
theorem traceFields_eq (inst : Word) : traceFields inst = decodeFields inst := by
  unfold traceFields decodeFields
  rw [sshiftRight_field inst 0x1F (by decide), sshiftRight_field inst 0x07 (by decide),
    sshiftRight_field inst 0x07 (by decide), sshiftRight_field inst 0x07 (by decide)]

theorem signExtend_lowHalf (x : BitVec 16) :
    x.signExtend 32 &&& 0xFFFF = x.setWidth 32 := by
  have hlt := x.isLt
  apply BitVec.eq_of_toNat_eq
  rw [lowHalf_toNat, BitVec.toNat_signExtend, BitVec.toNat_setWidth]
  split_ifs <;> omega

/-- The printed target of a jump is the one it takes. -/
theorem traceImm16_target (inst : Word) : (traceImm16 inst).setWidth 32 =
    (decodeFields inst).immediate &&& 0xFFFF :=
  (signExtend_lowHalf _).symm

/-- The two computations of the next pc agree when the decisions do, or when the
target is the next word. -/
theorem traceNextpc_eq_iff {taken taken' : Bool} {inst pc : Word}
    (hpc : taken' = false → (pc + 1) &&& 0xFFFF = pc + 1) :
    traceNextpc taken (traceImm16 inst) pc =
        (if taken' then (decodeFields inst).immediate &&& 0xFFFF else pc + 1) ↔
      taken = taken' ∨
        (decodeFields inst).immediate &&& 0xFFFF = (pc + 1) &&& 0xFFFF := by
  unfold traceNextpc
  rw [traceImm16_target]
  cases taken <;> cases taken'
  · simpa using hpc rfl
  · simp [eq_comm]
  · rw [hpc rfl]
    simp
  · simp

/-! ## What is printed for which instruction -/

theorem execLine_load_iff {sramd : Memory} {nr inst pc : Word} {regs : RegFile}
    {exec : Option (Word × Word)} {dst : BitVec 3} {addr memVal : Word} :
    execLine sramd nr inst pc regs exec = .load dst addr memVal ↔
      (traceFields inst).op = .LD ∧ (traceFields inst).dst = dst ∧
        regs (traceFields inst).src1 = addr ∧
        llsimMemExtract sramd (regs (traceFields inst).src1) 31 0 = memVal := by
  unfold execLine
  cases hop : (traceFields inst).op <;> simp [hop]

theorem execLine_store_iff {sramd : Memory} {nr inst pc : Word} {regs : RegFile}
    {exec : Option (Word × Word)} {addr value : Word} {src0 : BitVec 3} :
    execLine sramd nr inst pc regs exec = .store addr src0 value ↔
      (traceFields inst).op = .ST ∧ regs (traceFields inst).src1 = addr ∧
        (traceFields inst).src0 = src0 ∧ regs (traceFields inst).src0 = value := by
  unfold execLine
  cases hop : (traceFields inst).op <;> simp [hop]

/-- The pc that the line of a jump shows. -/
def tracedNextpc (f : Fields) (regs : RegFile) (inst pc : Word) : Word :=
  if f.op = .JIN then regs f.dst
  else traceNextpc (f.op.condHolds (regs f.src0) (regs f.src1)) (traceImm16 inst) pc

theorem execLine_jump_iff {sramd : Memory} {nr inst pc : Word} {regs : RegFile}
    {exec : Option (Word × Word)} {name : String} {left right nextpc : Word} :
    execLine sramd nr inst pc regs exec = .jump name left right nextpc ↔
      isJump (traceFields inst).op = true ∧ opStr (traceFields inst).op = name ∧
        regs (traceFields inst).src0 = left ∧
        regs (traceFields inst).src1 = right ∧
        tracedNextpc (traceFields inst) regs inst pc = nextpc := by
  unfold execLine tracedNextpc isJump
  cases hop : (traceFields inst).op <;> simp [hop]

theorem prints_iff {sp : Sp} {line : ExecLine} : Prints sp line ↔
    sp.spro.exec1.active = true ∧ ∃ nr,
      execLine sp.sramd nr sp.spro.exec1.inst sp.spro.exec1.pc sp.spro.r
        (execOverrides sp.spro.exec1) = line := by
  unfold Prints traceExec1
  cases hact : sp.spro.exec1.active <;> simp [hact, traceInstruction]

section Lines

variable {imem : Mem} {sp : Sp}

theorem Invariant.traceFields (h : Invariant imem sp)
    (hact : sp.spro.exec1.active = true) :
    traceFields sp.spro.exec1.inst = sp.spro.exec1.fields := by
  rw [traceFields_eq]
  exact (h.frontEnd.exec1 hact).2.1.symm

theorem Invariant.prints_load_iff (h : Invariant imem sp) {addr : Word} :
    (∃ dst memVal, Prints sp (.load dst addr memVal)) ↔
      sp.spro.exec1.active = true ∧ sp.spro.exec1.fields.op = .LD ∧
        sp.spro.r sp.spro.exec1.fields.src1 = addr := by
  simp only [prints_iff, execLine_load_iff]
  constructor
  · rintro ⟨-, -, hact, -, hop, -, haddr, -⟩
    rw [h.traceFields hact] at hop haddr
    exact ⟨hact, hop, haddr⟩
  · rintro ⟨hact, hop, haddr⟩
    rw [h.traceFields hact]
    exact ⟨_, _, hact, 0, hop, rfl, haddr, rfl⟩

theorem Invariant.prints_store_iff (h : Invariant imem sp) {addr value : Word} :
    (∃ src0, Prints sp (.store addr src0 value)) ↔
      sp.spro.exec1.active = true ∧ sp.spro.exec1.fields.op = .ST ∧
        sp.spro.r sp.spro.exec1.fields.src1 = addr ∧
        sp.spro.r sp.spro.exec1.fields.src0 = value := by
  simp only [prints_iff, execLine_store_iff]
  constructor
  · rintro ⟨-, hact, -, hop, haddr, -, hvalue⟩
    rw [h.traceFields hact] at hop haddr hvalue
    exact ⟨hact, hop, haddr, hvalue⟩
  · rintro ⟨hact, hop, haddr, hvalue⟩
    rw [h.traceFields hact]
    exact ⟨_, hact, 0, hop, haddr, rfl, hvalue⟩

theorem Invariant.prints_jump_iff (h : Invariant imem sp) {nextpc : Word} :
    (∃ name left right, Prints sp (.jump name left right nextpc)) ↔
      sp.spro.exec1.active = true ∧ isJump sp.spro.exec1.fields.op = true ∧
        tracedNextpc sp.spro.exec1.fields sp.spro.r sp.spro.exec1.inst
          sp.spro.exec1.pc = nextpc := by
  simp only [prints_iff, execLine_jump_iff]
  constructor
  · rintro ⟨-, -, -, hact, -, hop, -, -, -, hnext⟩
    rw [h.traceFields hact] at hop hnext
    exact ⟨hact, hop, hnext⟩
  · rintro ⟨hact, hop, hnext⟩
    rw [h.traceFields hact]
    exact ⟨_, _, _, hact, 0, hop, rfl, rfl, rfl, hnext⟩

end Lines

/-! ## The registers that are read -/

theorem ExecLatch.two_le_of_writes {e : ExecLatch} {i : BitVec 3}
    (h : e.writes = some i) : 2#3 ≤ i := by
  unfold ExecLatch.writes at h
  split_ifs at h with hact hop hdst hbranch
  · obtain rfl := Option.some.inj h
    exact hdst
  · obtain rfl := Option.some.inj h
    decide

/-- r0 and r1 stay zero. -/
theorem ExecLatch.apply_low (e : ExecLatch) (mem : Mem) (r : RegFile)
    {i : BitVec 3} (hi : ¬2#3 ≤ i) : e.apply mem r i = r i :=
  ExecLatch.apply_of_ne (fun hw => hi (ExecLatch.two_le_of_writes hw)) mem r

theorem low_registers {imem dmem : Mem} {t : ℕ} {sp : Sp}
    (h : clockState imem dmem t = some sp) {i : BitVec 3} (hi : ¬2#3 ≤ i) :
    sp.spro.r i = 0 := by
  induction t generalizing sp with
  | zero =>
      obtain rfl := Option.some.inj h
      rfl
  | succ t ih =>
      obtain ⟨sp₀, h₀, ht⟩ := clockState_pred h
      have hinv := invariant_of_clockState h₀
      rw [(hinv.ticks ht).regs, next_r, hinv.writeBack_eq, ExecLatch.apply_low _ _ _ hi]
      exact ih h₀

theorem freshRegisters_low {imem dmem : Mem} {t : ℕ} {sp : Sp}
    (h : clockState imem dmem t = some sp) {i : BitVec 3} (hi : ¬2#3 ≤ i) :
    freshRegisters sp i = 0 := by
  rw [freshRegisters, ExecLatch.apply_low _ _ _ hi, ExecLatch.apply_low _ _ _ hi]
  exact low_registers h hi

/-- The two clocks from DEC1 to EXEC1: `sp` is the state in which the
instruction leaves DEC1, `sp₁` has it in EXEC0, `sp₂` in EXEC1. -/
structure Passes (imem dmem : Mem) (t : ℕ) (sp sp₁ sp₂ : Sp) : Prop where
  dec1 : clockState imem dmem t = some sp
  exec0 : clockState imem dmem (t + 1) = some sp₁
  exec1 : clockState imem dmem (t + 2) = some sp₂
  active : sp.spro.dec1.active = true
  plain : PlainClock sp

/-- The instruction in DEC1 with the operands that it latches. -/
def Sp.leavingDec1 (sp : Sp) : ExecLatch where
  active := true
  pc := sp.spro.dec1.pc
  inst := sp.spro.dec1.inst
  fields := sp.spro.dec1.fields
  alu0 := latchedOperand sp sp.spro.dec1.fields.src0
  alu1 := latchedOperand sp sp.spro.dec1.fields.src1
  aluout := 0

theorem passes_of_active {imem dmem : Mem} {t : ℕ} {sp₁ sp₂ : Sp}
    (h₁ : clockState imem dmem t = some sp₁) (h₂ : clockState imem dmem (t + 1) = some sp₂)
    (hact : sp₂.spro.exec1.active = true) :
    ∃ u sp, t = u + 1 ∧ Passes imem dmem u sp sp₁ sp₂ := by
  have hact₁ : sp₁.spro.exec0.active = true := by
    rw [clockState_succ h₁] at h₂
    rw [((invariant_of_clockState h₁).ticks h₂).regs] at hact
    exact hact
  cases t with
  | zero =>
      obtain rfl := Option.some.inj h₁
      cases hact₁
  | succ u =>
      obtain ⟨sp, h, ht⟩ := clockState_pred h₁
      rw [((invariant_of_clockState h).ticks ht).regs] at hact₁
      obtain ⟨hplain, hdec⟩ := plainClock_of_next_exec0 hact₁
      exact ⟨u, sp, rfl, h, h₁, h₂, hdec, hplain⟩

theorem passes_of_retiring {imem dmem : Mem} {t : ℕ} {sp₂ : Sp}
    (h₂ : clockState imem dmem t = some sp₂) (hact : sp₂.spro.exec1.active = true) :
    ∃ u sp sp₁, t = u + 2 ∧ Passes imem dmem u sp sp₁ sp₂ := by
  cases t with
  | zero =>
      obtain rfl := Option.some.inj h₂
      cases hact
  | succ t =>
      obtain ⟨sp₁, h₁, -⟩ := clockState_pred h₂
      obtain ⟨u, sp, rfl, h⟩ := passes_of_active h₁ h₂ hact
      exact ⟨u, sp, sp₁, rfl, h⟩

section Passing

variable {imem dmem : Mem} {t : ℕ} {sp sp₁ sp₂ : Sp}

theorem Passes.latch (h : Passes imem dmem t sp sp₁ sp₂) :
    sp₁.spro.exec0 = sp.leavingDec1 := by
  have hinv := invariant_of_clockState h.dec1
  have ht := (clockState_succ h.dec1).symm.trans h.exec0
  rw [(hinv.ticks ht).regs, h.plain.next_exec0, h.active, hinv.exec0Alu]
  rfl

theorem Passes.retiring (h : Passes imem dmem t sp sp₁ sp₂) :
    sp₂.spro.exec1 = promoteExec0 sp.leavingDec1 := by
  have hinv := invariant_of_clockState h.exec0
  have ht := (clockState_succ h.exec0).symm.trans h.exec1
  rw [(hinv.ticks ht).regs, next_exec1, h.latch]

theorem Passes.retiring_active (h : Passes imem dmem t sp sp₁ sp₂) :
    sp₂.spro.exec1.active = true := by
  rw [h.retiring]
  rfl

theorem Passes.retiring_fields (h : Passes imem dmem t sp sp₁ sp₂) :
    sp₂.spro.exec1.fields = sp.spro.dec1.fields := by
  rw [h.retiring]
  rfl

/-- The trace reads the registers that DEC1 should have read. -/
theorem Passes.regs (h : Passes imem dmem t sp sp₁ sp₂) :
    sp₂.spro.r = freshRegisters sp := by
  have hinv := invariant_of_clockState h.dec1
  have hinv₁ := invariant_of_clockState h.exec0
  have hticks := hinv.ticks ((clockState_succ h.dec1).symm.trans h.exec0)
  have hticks₁ := hinv₁.ticks ((clockState_succ h.exec0).symm.trans h.exec1)
  have hexec1 : sp₁.spro.exec1 = promoteExec0 sp.spro.exec0 := by
    rw [hticks.regs, next_exec1]
  have hr : sp₁.spro.r = sp.spro.exec1.apply sp.sramd.data sp.spro.r := by
    rw [hticks.regs, next_r, hinv.writeBack_eq]
  rw [hticks₁.regs, next_r, hinv₁.writeBack_eq, hexec1, promoteExec0_apply,
    hticks.dmem, ExecLatch.apply_memoryAfter, hr]
  rfl

/-- What EXEC0 asks of the data memory. -/
theorem Invariant.request_of_spRun {imem : Mem} {sp port : Sp}
    (h : Invariant imem sp) (hrun : spRun false sp = .ok port) :
    issueMemory sp.spro.exec0 (quiet sp.sramd) = .ok port.sramd := by
  obtain ⟨m, hissue⟩ := issueMemory_total sp.spro.exec0 sp.sramd
  rw [spCtl_idle_dma h.dma hissue] at hrun
  obtain rfl := Except.ok.inj hrun
  exact hissue

theorem Passes.load_request (h : Passes imem dmem t sp sp₁ sp₂) {port : Sp}
    (hrun : spRun false sp₁ = .ok port) (hop : sp.spro.dec1.fields.op = .LD) :
    port.sramd.read = true ∧
      port.sramd.readAddr = latchedOperand sp sp.spro.dec1.fields.src1 := by
  have hissue := (invariant_of_clockState h.exec0).request_of_spRun hrun
  rw [issueMemory_quiet, h.latch, Sp.leavingDec1, hop] at hissue
  rw [← Except.ok.inj hissue]
  exact ⟨rfl, rfl⟩

theorem Passes.store_request (h : Passes imem dmem t sp sp₁ sp₂) {port : Sp}
    (hrun : spRun false sp₁ = .ok port) (hop : sp.spro.dec1.fields.op = .ST) :
    port.sramd.write = true ∧
      port.sramd.writeAddr = latchedOperand sp sp.spro.dec1.fields.src1 ∧
      port.sramd.datain = latchedOperand sp sp.spro.dec1.fields.src0 := by
  have hissue := (invariant_of_clockState h.exec0).request_of_spRun hrun
  rw [issueMemory_quiet, h.latch, Sp.leavingDec1, hop] at hissue
  rw [← Except.ok.inj hissue]
  exact ⟨rfl, rfl, rfl⟩

/-! ## Operands that the register file shows -/

end Passing

/-- DEC1's source field `src` gives what the register file shows under that
number two clocks later: the immediate is zero, and a register is forwarded
fresh. -/
structure Shown (sp : Sp) (src : BitVec 3) : Prop where
  immediate : src = 1 → sp.spro.dec1.fields.immediate = 0
  forwarded : 2#3 ≤ src → latchedOperand sp src = freshRegisters sp src

theorem shown_iff {imem dmem : Mem} {t : ℕ} {sp : Sp}
    (h : clockState imem dmem t = some sp) (src : BitVec 3) :
    freshRegisters sp src = latchedOperand sp src ↔ Shown sp src := by
  by_cases hsrc : 2#3 ≤ src
  · have hone : src ≠ 1 := ((two_le_iff src).mp hsrc).2
    constructor
    · intro heq
      exact ⟨fun h1 => absurd h1 hone, fun _ => heq.symm⟩
    · intro hshown
      exact (hshown.forwarded hsrc).symm
  · rw [freshRegisters_low h hsrc, latchedOperand_of_lt hsrc sp.spro.r, operand]
    constructor
    · intro heq
      refine ⟨?_, fun hno => absurd hno hsrc⟩
      rintro rfl
      simpa using heq.symm
    · intro hshown
      split_ifs with h0 h1
      · rfl
      · exact (hshown.immediate h1).symm
      · exact absurd ((two_le_iff src).mpr ⟨h0, h1⟩) hsrc

/-- The decision of a conditional jump is the same on the registers shown, or
does not matter. -/
def DecisionShown (sp : Sp) : Prop :=
  let f := sp.spro.dec1.fields
  f.op.condHolds (freshRegisters sp f.src0) (freshRegisters sp f.src1) =
      f.op.condHolds (latchedOperand sp f.src0) (latchedOperand sp f.src1) ∨
    f.immediate &&& 0xFFFF = (sp.spro.dec1.pc + 1) &&& 0xFFFF

/-- `R[dst]`, which JIN shows, is the operand that it jumps to. -/
def TargetShown (sp : Sp) : Prop :=
  freshRegisters sp sp.spro.dec1.fields.dst =
    latchedOperand sp sp.spro.dec1.fields.src0

/-- What the trace needs of an instruction that leaves DEC1. -/
structure TraceShows (imem dmem : Mem) (t : ℕ) (sp : Sp) : Prop where
  load : sp.spro.dec1.fields.op = .LD → Shown sp sp.spro.dec1.fields.src1
  store : sp.spro.dec1.fields.op = .ST →
    Shown sp sp.spro.dec1.fields.src1 ∧ Shown sp sp.spro.dec1.fields.src0
  jump : ∀ u sp', NextRetires imem dmem (t + 2) u sp' →
    isJump sp.spro.dec1.fields.op = true → if sp.spro.dec1.fields.op = .JIN then
      TargetShown sp else DecisionShown sp

/-! ## Exactly when the trace is truthful -/

section Truth

variable {imem dmem : Mem} {t u : ℕ} {sp sp₁ sp₂ sp' : Sp}

/-- The next instruction to retire is the successor of the last one. -/
theorem NextRetires.pc_eq (hnext : NextRetires imem dmem t u sp')
    (h : clockState imem dmem t = some sp) (hact : sp.spro.exec1.active = true) :
    sp'.spro.exec1.pc = sp.spro.exec1.successorPc := by
  have hchain := (logInvariant hnext.clock).path.chain
  rw [retired_succ_of_active hnext.clock hnext.active, hnext.next,
    retired_succ_of_active h hact] at hchain
  obtain ⟨-, -, hlink⟩ := List.isChain_append.mp hchain
  exact hlink sp.spro.exec1 (by simp) sp'.spro.exec1 (by simp)

/-- The line of a jump shows the pc that retires next. -/
theorem Passes.jump_iff (h : Passes imem dmem t sp sp₁ sp₂)
    (hnext : NextRetires imem dmem (t + 2) u sp') :
    tracedNextpc sp₂.spro.exec1.fields sp₂.spro.r sp₂.spro.exec1.inst
        sp₂.spro.exec1.pc = sp'.spro.exec1.pc ↔
      if sp.spro.dec1.fields.op = .JIN then TargetShown sp else DecisionShown sp := by
  have hact := h.retiring_active
  have hpc := hnext.pc_eq h.exec1 hact
  have hin := (fetched_of_clockState hnext.clock).exec1 hnext.active
  have hfields := ((invariant_of_clockState h.exec1).frontEnd.exec1 hact).2.1
  rw [hpc] at hin ⊢
  rw [h.regs]
  rw [h.retiring] at hin hfields ⊢
  unfold ExecLatch.successorPc at hin ⊢
  unfold tracedNextpc
  simp only [promoteExec0, Sp.leavingDec1] at hin hfields ⊢
  by_cases hjin : sp.spro.dec1.fields.op = .JIN
  · rw [if_pos hjin, if_pos hjin, hjin]
    exact Iff.rfl
  · rw [if_neg hjin, if_neg hjin, if_neg hjin]
    rw [if_neg hjin] at hin
    have himm : sp.spro.dec1.fields.immediate =
        (decodeFields sp.spro.dec1.inst).immediate := congrArg Fields.immediate hfields
    rw [DecisionShown, himm]
    refine traceNextpc_eq_iff fun hno => ?_
    rw [hno, if_neg Bool.false_ne_true] at hin
    exact InRange.lowHalf hin

theorem Passes.jump_truthful_iff (h : Passes imem dmem t sp sp₁ sp₂)
    (hnext : NextRetires imem dmem (t + 2) u sp') :
    (∀ name left right nextpc, Prints sp₂ (.jump name left right nextpc) →
        nextpc = sp'.spro.exec1.pc) ↔
      (isJump sp.spro.dec1.fields.op = true →
        if sp.spro.dec1.fields.op = .JIN then TargetShown sp else DecisionShown sp) := by
  have hinv := invariant_of_clockState h.exec1
  rw [← h.jump_iff hnext, ← h.retiring_fields]
  constructor
  · intro htruth hjump
    obtain ⟨name, left, right, hprint⟩ :=
      hinv.prints_jump_iff.mpr ⟨h.retiring_active, hjump, rfl⟩
    exact htruth name left right _ hprint
  · intro hline name left right nextpc hprint
    obtain ⟨-, hjump, hnextpc⟩ := hinv.prints_jump_iff.mp ⟨name, left, right, hprint⟩
    rw [← hnextpc]
    exact hline hjump

theorem Passes.load_truthful_iff (h : Passes imem dmem t sp sp₁ sp₂) {port : Sp}
    (hrun : spRun false sp₁ = .ok port) :
    (∀ dst addr memVal, Prints sp₂ (.load dst addr memVal) →
        port.sramd.read = true ∧ port.sramd.readAddr = addr) ↔
      (sp.spro.dec1.fields.op = .LD → Shown sp sp.spro.dec1.fields.src1) := by
  have hinv := invariant_of_clockState h.exec1
  rw [← shown_iff h.dec1]
  constructor
  · intro htruth hop
    obtain ⟨dst, memVal, hprint⟩ := hinv.prints_load_iff.mpr
      ⟨h.retiring_active, by rw [h.retiring_fields]; exact hop, rfl⟩
    have haddr := (htruth dst _ memVal hprint).2
    rw [(h.load_request hrun hop).2, h.regs, h.retiring_fields] at haddr
    exact haddr.symm
  · intro hshown dst addr memVal hprint
    obtain ⟨-, hop, haddr⟩ := hinv.prints_load_iff.mp ⟨dst, memVal, hprint⟩
    rw [h.retiring_fields] at hop haddr
    rw [h.regs, hshown hop] at haddr
    rw [← haddr]
    exact h.load_request hrun hop

theorem Passes.store_truthful_iff (h : Passes imem dmem t sp sp₁ sp₂) {port : Sp}
    (hrun : spRun false sp₁ = .ok port) :
    (∀ addr src0 value, Prints sp₂ (.store addr src0 value) →
        port.sramd.write = true ∧ port.sramd.writeAddr = addr ∧
          port.sramd.datain = value) ↔
      (sp.spro.dec1.fields.op = .ST → Shown sp sp.spro.dec1.fields.src1 ∧
        Shown sp sp.spro.dec1.fields.src0) := by
  have hinv := invariant_of_clockState h.exec1
  rw [← shown_iff h.dec1, ← shown_iff h.dec1]
  constructor
  · intro htruth hop
    obtain ⟨src0, hprint⟩ := hinv.prints_store_iff.mpr
      ⟨h.retiring_active, by rw [h.retiring_fields]; exact hop, rfl, rfl⟩
    obtain ⟨-, haddr, hvalue⟩ := htruth _ src0 _ hprint
    obtain ⟨-, haddr', hvalue'⟩ := h.store_request hrun hop
    rw [haddr', h.regs, h.retiring_fields] at haddr
    rw [hvalue', h.regs, h.retiring_fields] at hvalue
    exact ⟨haddr.symm, hvalue.symm⟩
  · intro hshown addr src0 value hprint
    obtain ⟨-, hop, haddr, hvalue⟩ := hinv.prints_store_iff.mp ⟨src0, hprint⟩
    rw [h.retiring_fields] at hop haddr hvalue
    rw [h.regs, (hshown hop).1] at haddr
    rw [h.regs, (hshown hop).2] at hvalue
    rw [← haddr, ← hvalue]
    exact h.store_request hrun hop

/-- **The trace tells the truth, exactly when.** In every run of every image
what the trace prints agrees with what the pipeline did if and only if every
instruction that retires left DEC1 with its address, stored value, decision and
target shown by the register file. -/
theorem truthfulTrace_iff (imem dmem : Mem) :
    TruthfulTrace imem dmem ↔ ∀ t sp sp₁ sp₂, Passes imem dmem t sp sp₁ sp₂ →
      TraceShows imem dmem t sp := by
  constructor
  · intro htruth t sp sp₁ sp₂ h
    obtain ⟨m, hissue⟩ := issueMemory_total sp₁.spro.exec0 sp₁.sramd
    have hrun := spCtl_idle_dma (invariant_of_clockState h.exec0).dma hissue
    refine ⟨?_, ?_, ?_⟩
    · refine (h.load_truthful_iff hrun).mp fun dst addr memVal hprint => ?_
      exact htruth.load (t + 1) sp₁ _ sp₂ dst addr memVal h.exec0 hrun h.exec1 hprint
    · refine (h.store_truthful_iff hrun).mp fun addr src0 value hprint => ?_
      exact htruth.store (t + 1) sp₁ _ sp₂ addr src0 value h.exec0 hrun h.exec1 hprint
    · intro u sp' hnext
      refine (h.jump_truthful_iff hnext).mp fun name left right nextpc hprint => ?_
      exact htruth.jump (t + 2) sp₂ u sp' name left right nextpc h.exec1 hprint hnext
  · intro hshows
    refine ⟨?_, ?_, ?_⟩
    · intro t sp₂ u sp' name left right nextpc h₂ hprint hnext
      have hact := (prints_iff.mp hprint).1
      obtain ⟨v, sp, sp₁, rfl, h⟩ := passes_of_retiring h₂ hact
      exact (h.jump_truthful_iff hnext).mpr ((hshows v sp sp₁ sp₂ h).jump u sp' hnext)
        name left right nextpc hprint
    · intro t sp₁ port sp₂ dst addr memVal h₁ hrun h₂ hprint
      have hact := (prints_iff.mp hprint).1
      obtain ⟨v, sp, rfl, h⟩ := passes_of_active h₁ h₂ hact
      exact (h.load_truthful_iff hrun).mpr (hshows v sp sp₁ sp₂ h).load
        dst addr memVal hprint
    · intro t sp₁ port sp₂ addr src0 value h₁ hrun h₂ hprint
      have hact := (prints_iff.mp hprint).1
      obtain ⟨v, sp, rfl, h⟩ := passes_of_active h₁ h₂ hact
      exact (h.store_truthful_iff hrun).mpr (hshows v sp sp₁ sp₂ h).store
        addr src0 value hprint

end Truth

/-- `LD r2, MEM[imm 1000]`. -/
def loadImage : Mem := imageOf [0x108103E8]

/-- The load requests address 1000; the trace prints `R[2] = MEM[0]`. -/
theorem load_immediate_misprinted : ¬TruthfulTrace loadImage loadImage := by
  intro htruth
  have hpass : ∃ sp sp₁ sp₂, Passes loadImage loadImage 4 sp sp₁ sp₂ ∧
      sp.spro.dec1.fields = ⟨8, 2, 0, 1, 1000⟩ := by
    refine ⟨_, _, _, ⟨clockState_eq_stateAt ?_, clockState_eq_stateAt ?_,
      clockState_eq_stateAt ?_, ?_, ⟨?_, ?_⟩⟩, ?_⟩ <;> decide +kernel
  obtain ⟨sp, sp₁, sp₂, h, hfields⟩ := hpass
  obtain ⟨m, hissue⟩ := issueMemory_total sp₁.spro.exec0 sp₁.sramd
  have hrun := spCtl_idle_dma (invariant_of_clockState h.exec0).dma hissue
  have hshown := (h.load_truthful_iff hrun).mp
    (fun dst addr memVal hprint =>
      htruth.load 5 sp₁ _ sp₂ dst addr memVal h.exec0 hrun h.exec1 hprint)
    (by rw [hfields]; decide)
  have himm := hshown.immediate (by rw [hfields])
  rw [hfields] at himm
  exact absurd himm (by decide)

end SuperscalarProcessor.Pipeline
