import Mathlib.Logic.Function.Basic
import SuperscalarProcessor.Llsim.BitFields

/-!
# Simulated memories (`llsim.c`)

A memory is a backing array of 32-bit entries with one port. A unit requests
at most one read or write per clock; `llsim_run_clock` serves the request after
the unit has run (`memPhase` here). Every failing `llsim_assert` ends the
simulation, and so does what C leaves undefined, an array access outside the
array or a shift by more than 31: both are `Fault`s.
-/

namespace SuperscalarProcessor.Llsim

/-- `SP_SRAM_HEIGHT`, the `height` of every memory the units allocate. -/
def spSramHeight : ℕ := 64 * 1024

/-- The memories of the two simulators, by the names they are allocated under. -/
inductive MemName where
  | sram
  | srami
  | sramd
deriving DecidableEq, Repr

/-- The ways a simulation ends other than by `llsim_stop`. -/
inductive Fault where
  | multipleReads (mem : MemName)
  | multipleWrites (mem : MemName)
  | readOutOfRange (mem : MemName) (addr : Word)
  | writeOutOfRange (mem : MemName) (addr : Word)
  | simultaneousAccess (mem : MemName)
  -- no assertion: C leaves the access, or the shift, undefined
  | outOfBounds (index : Word)
  | undefinedShift (amount : Word)
deriving DecidableEq, Repr

/-- The backing array `data`, by entry. -/
abbrev Mem := ℕ → Word

/-- An image that starts with `words` and is zero behind them. -/
def imageOf (words : List Word) : Mem := fun i => words.getD i 0

/-! ## Bit-field access to the backing array -/

/-- The three entries that an unaligned 64-bit access at an entry may touch,
the lowest address in the lowest bits. -/
def entries (data : Mem) (addr : ℕ) : BitVec 96 :=
  data (addr + 2) ++ data (addr + 1) ++ data addr

/-- `*(i64 *)((char *)(data + addr) + byte_pos)`. -/
def loadI64 (data : Mem) (addr bytePos : ℕ) : I64 :=
  (entries data addr >>> (8 * bytePos)).setWidth 64

def storeI64 (data : Mem) (addr bytePos : ℕ) (val : I64) : Mem :=
  let hole : BitVec 96 := (BitVec.allOnes 64).setWidth 96 <<< (8 * bytePos)
  let window := (entries data addr &&& ~~~hole) |||
    (val.setWidth 96 <<< (8 * bytePos))
  Function.update
    (Function.update
      (Function.update data addr (window.setWidth 32))
      (addr + 1) ((window >>> 32).setWidth 32))
    (addr + 2) ((window >>> 64).setWidth 32)

def genericExtractBits (data : Mem) (addr msb lsb : ℕ) : Word :=
  let bytePos := lsb / 8
  (lsbs (loadI64 data addr bytePos)
    (msb - bytePos * 8) (lsb - bytePos * 8)).setWidth 32

def genericInjectBits (data : Mem) (addr : ℕ) (val : Word) (msb lsb : ℕ) : Mem :=
  let bytePos := lsb / 8
  storeI64 data addr bytePos
    (lrbs (loadI64 data addr bytePos) val
      (msb - bytePos * 8) (lsb - bytePos * 8))

/-! ## Memories and their ports -/

-- for the bit positions below, literals of `Fin 32`
instance neZero_wordWidth : NeZero 32 := ⟨by decide⟩

/-- `llsim_memory_t`, less the fields that never vary (`entry_size`, `bits`,
`height`, `dp`). -/
structure Memory where
  name : MemName
  data : Mem
  read : Bool
  readAddr : Word
  write : Bool
  writeAddr : Word
  datain : Word
  dataout : Word

/-- `llsim_allocate_memory` clears everything but the contents. -/
def llsimAllocateMemory (name : MemName) (data : Mem) : Memory where
  name := name
  data := data
  read := false
  readAddr := 0
  write := false
  writeAddr := 0
  datain := 0
  dataout := 0

def llsimMemExtract (memory : Memory) (addr : Word) (msb lsb : Fin 32) : Word :=
  genericExtractBits memory.data addr.toNat msb lsb

def llsimMemInject (memory : Memory) (addr val : Word) (msb lsb : Fin 32) :
    Memory :=
  { memory with
    data := genericInjectBits memory.data addr.toNat val msb lsb }

def llsimMemWrite (memory : Memory) (addr : Word) : Except Fault Memory :=
  if memory.write then .error (.multipleWrites memory.name)
  else .ok { memory with write := true, writeAddr := addr }

def llsimMemRead (memory : Memory) (addr : Word) : Except Fault Memory :=
  if memory.read then .error (.multipleReads memory.name)
  else .ok { memory with read := true, readAddr := addr }

/-- The positions are below 32 by their type, as the assertion demands. -/
def llsimMemSetDatain (memory : Memory) (val : Word) (msb lsb : Fin 32) : Memory :=
  { memory with datain := rbs memory.datain val msb lsb }

def llsimMemExtractDataout (memory : Memory) (msb lsb : Fin 32) : Word :=
  sbs memory.dataout msb lsb

/-- The lines of a dump file, one for each entry. -/
abbrev Dump := Fin spSramHeight → Word

def dumpSram (sram : Memory) : Dump :=
  fun i => llsimMemExtract sram (BitVec.ofNat 32 i) 31 0

/-- The dump of a plain memory. -/
def memoryDump (mem : Mem) : Dump := fun i => mem i

/-- What `dataout` holds after a clock without a request. -/
def idleDataout : Word := 0xBAADBAAD

/-- The read half of the memory loop in `llsim_run_clock`. The assertion
compares signed integers and bounds the address from above only. -/
def serveRead (mem : Memory) : Except Fault Memory :=
  if mem.read then
    if ¬ mem.readAddr.toInt < spSramHeight then
      .error (.readOutOfRange mem.name mem.readAddr)
    else if mem.readAddr.toInt < 0 then .error (.outOfBounds mem.readAddr)
    else .ok { mem with dataout := mem.data mem.readAddr.toNat, read := false }
  else .ok mem

def serveWrite (mem : Memory) : Except Fault Memory :=
  if mem.write then
    if ¬ mem.writeAddr.toInt < spSramHeight then
      .error (.writeOutOfRange mem.name mem.writeAddr)
    else if mem.writeAddr.toInt < 0 then .error (.outOfBounds mem.writeAddr)
    else .ok { mem with
      data := Function.update mem.data mem.writeAddr.toNat mem.datain
      write := false }
  else .ok mem

/-- One memory's turn in `llsim_run_clock`. -/
def memPhase (mem : Memory) : Except Fault Memory := do
  let readDone := mem.read
  let writeDone := mem.write
  let mem ← serveRead mem
  let mem ← serveWrite mem
  if readDone && writeDone then .error (.simultaneousAccess mem.name)
  else if !readDone && !writeDone then .ok { mem with dataout := idleDataout }
  else .ok mem

/-! ## Whole-word access -/

@[simp] theorem entries_low (data : Mem) (addr : ℕ) :
    (entries data addr).setWidth 32 = data addr :=
  BitVec.setWidth_append_eq_right

/-- `llsim_mem_extract` of a whole word reads the entry. -/
@[simp] theorem llsimMemExtract_word (memory : Memory) (addr : Word) :
    llsimMemExtract memory addr 31 0 = memory.data addr.toNat := by
  show (lsbs (loadI64 memory.data addr.toNat 0) 31 0).setWidth 32 = _
  rw [lsbs_word, loadI64, Nat.mul_zero, BitVec.ushiftRight_zero,
    BitVec.setWidth_setWidth_of_le _ (by decide), entries_low]

@[simp] theorem llsimMemSetDatain_word (memory : Memory) (val : Word) :
    llsimMemSetDatain memory val 31 0 = { memory with datain := val } := by
  simp [llsimMemSetDatain]

@[simp] theorem llsimMemExtractDataout_word (memory : Memory) :
    llsimMemExtractDataout memory 31 0 = memory.dataout := by
  simp [llsimMemExtractDataout]

/-- The index of an entry as an address. -/
theorem toNat_ofNat_index {i : ℕ} (h : i < spSramHeight) :
    (BitVec.ofNat 32 i).toNat = i := by
  rw [BitVec.toNat_ofNat]
  exact Nat.mod_eq_of_lt (Nat.lt_trans h (by decide))

theorem dumpSram_eq (m : Memory) : dumpSram m = memoryDump m.data := by
  funext i
  rw [dumpSram, llsimMemExtract_word, toNat_ofNat_index i.isLt, memoryDump]

/-! ## The port between clocks -/

/-- A memory with both request flags down, as `sp_run` leaves it. -/
def quiet (m : Memory) : Memory := { m with read := false, write := false }

@[simp] theorem quiet_data (m : Memory) : (quiet m).data = m.data := rfl
@[simp] theorem quiet_dataout (m : Memory) : (quiet m).dataout = m.dataout := rfl
@[simp] theorem quiet_read (m : Memory) : (quiet m).read = false := rfl
@[simp] theorem quiet_write (m : Memory) : (quiet m).write = false := rfl

/-! ## Addresses inside the array -/

/-- The address is an index of the array, in signed comparison. -/
def InRange (addr : Word) : Prop := 0 ≤ addr.toInt ∧ addr.toInt < spSramHeight

instance (addr : Word) : Decidable (InRange addr) := by
  unfold InRange
  infer_instance

theorem inRange_iff {addr : Word} : InRange addr ↔ addr.toNat < 65536 := by
  have h := addr.isLt
  simp only [InRange, spSramHeight, BitVec.toInt_eq_toNat_cond]
  split <;> omega

theorem InRange.toInt_eq {addr : Word} (h : InRange addr) :
    addr.toInt = addr.toNat := by
  have hlt := inRange_iff.mp h
  exact BitVec.toInt_eq_toNat_of_lt (by omega)

/-- Masking to 16 bits changes no address in range. -/
theorem InRange.lowHalf {addr : Word} (h : InRange addr) : addr &&& 0xFFFF = addr :=
  lowHalf_of_lt (inRange_iff.mp h)

/-- An address not far past the end is not negative either. -/
theorem toInt_nonneg {addr : Word} (h : addr.toNat < 2 ^ 31) : 0 ≤ addr.toInt := by
  rw [BitVec.toInt_eq_toNat_of_lt (by omega)]
  exact Int.natCast_nonneg _

/-- An offset address that does not wrap around. -/
theorem toNat_add_ofNat {addr : Word} {k : ℕ} (h : addr.toNat + k < 2 ^ 32) :
    (addr + BitVec.ofNat 32 k).toNat = addr.toNat + k := by
  rw [BitVec.toNat_add, BitVec.toNat_ofNat, Nat.add_mod_mod, Nat.mod_eq_of_lt h]

theorem inRange_add_iff {addr : Word} {k : ℕ} (h : addr.toNat + k < 2 ^ 32) :
    InRange (addr + BitVec.ofNat 32 k) ↔ addr.toNat + k < 65536 := by
  rw [inRange_iff, toNat_add_ofNat h]

theorem toInt_neg_of_not_inRange {addr : Word} (hout : ¬InRange addr)
    (hhigh : addr.toInt < spSramHeight) : addr.toInt < 0 := by
  by_contra hlow
  exact hout ⟨not_lt.mp hlow, hhigh⟩

/-! ## What one turn of a memory can do -/

theorem memPhase_idle {mem : Memory} (hr : mem.read = false)
    (hw : mem.write = false) :
    memPhase mem = .ok { mem with dataout := idleDataout } := by
  simp [memPhase, serveRead, serveWrite, hr, hw, bind, Except.bind]

theorem memPhase_read {mem : Memory} (hr : mem.read = true)
    (hw : mem.write = false) (hin : InRange mem.readAddr) :
    memPhase mem =
      .ok { mem with dataout := mem.data mem.readAddr.toNat, read := false } := by
  have hlow : ¬ mem.readAddr.toInt < 0 := not_lt.mpr hin.1
  simp [memPhase, serveRead, serveWrite, hr, hw, hin.2, hlow, bind, Except.bind]

theorem memPhase_write {mem : Memory} (hr : mem.read = false)
    (hw : mem.write = true) (hin : InRange mem.writeAddr) :
    memPhase mem = .ok { mem with
      data := Function.update mem.data mem.writeAddr.toNat mem.datain
      write := false } := by
  have hlow : ¬ mem.writeAddr.toInt < 0 := not_lt.mpr hin.1
  simp [memPhase, serveRead, serveWrite, hr, hw, hin.2, hlow, bind, Except.bind]

/-- A served read was in range. -/
theorem inRange_of_memPhase_read {mem mem' : Memory} (hr : mem.read = true)
    (h : memPhase mem = .ok mem') : InRange mem.readAddr := by
  by_contra hout
  have hfault : ∃ f, serveRead mem = .error f := by
    unfold serveRead
    rw [if_pos hr]
    split
    · exact ⟨_, rfl⟩
    · rename_i hhigh
      rw [if_pos (toInt_neg_of_not_inRange hout (not_not.mp hhigh))]
      exact ⟨_, rfl⟩
  obtain ⟨f, hf⟩ := hfault
  simp [memPhase, hf, bind, Except.bind] at h

/-- A served write was in range. -/
theorem inRange_of_memPhase_write {mem mem' : Memory} (hr : mem.read = false)
    (hw : mem.write = true) (h : memPhase mem = .ok mem') :
    InRange mem.writeAddr := by
  by_contra hout
  have hfault : ∃ f, serveWrite mem = .error f := by
    unfold serveWrite
    rw [if_pos hw]
    split
    · exact ⟨_, rfl⟩
    · rename_i hhigh
      rw [if_pos (toInt_neg_of_not_inRange hout (not_not.mp hhigh))]
      exact ⟨_, rfl⟩
  obtain ⟨f, hf⟩ := hfault
  simp [memPhase, serveRead, hr, hf, bind, Except.bind] at h

/-- With one request at most, the array is indexed out of its bounds for
exactly the negative addresses: no assertion stops them. -/
theorem memPhase_outOfBounds_iff {mem : Memory}
    (hport : mem.read = false ∨ mem.write = false) :
    (∃ a, memPhase mem = .error (.outOfBounds a)) ↔
      (mem.read = true ∧ mem.readAddr.toInt < 0) ∨
        (mem.write = true ∧ mem.writeAddr.toInt < 0) := by
  have hsize : (0 : ℤ) < spSramHeight := by decide
  cases hr : mem.read with
  | true =>
      have hw : mem.write = false := by
        rcases hport with hport | hport
        · rw [hr] at hport
          exact Bool.noConfusion hport
        · exact hport
      by_cases hhigh : mem.readAddr.toInt < spSramHeight <;>
        by_cases hlow : mem.readAddr.toInt < 0 <;>
          simp [memPhase, serveRead, serveWrite, hr, hw, hhigh, hlow, bind,
            Except.bind]
      omega
  | false =>
      cases hw : mem.write with
      | true =>
          by_cases hhigh : mem.writeAddr.toInt < spSramHeight <;>
            by_cases hlow : mem.writeAddr.toInt < 0 <;>
              simp [memPhase, serveRead, serveWrite, hr, hw, hhigh, hlow, bind,
                Except.bind]
          omega
      | false => simp [memPhase_idle hr hw]

theorem serveRead_name {mem mem' : Memory} (h : serveRead mem = .ok mem') :
    mem'.name = mem.name := by
  unfold serveRead at h
  split_ifs at h <;> obtain rfl := Except.ok.inj h <;> rfl

theorem serveWrite_name {mem mem' : Memory} (h : serveWrite mem = .ok mem') :
    mem'.name = mem.name := by
  unfold serveWrite at h
  split_ifs at h <;> obtain rfl := Except.ok.inj h <;> rfl

theorem serveWrite_error {mem : Memory} {f : Fault} (h : serveWrite mem = .error f) :
    f = .writeOutOfRange mem.name mem.writeAddr ∨ f = .outOfBounds mem.writeAddr := by
  unfold serveWrite at h
  split_ifs at h
  · exact Or.inr (Except.error.inj h).symm
  · exact Or.inl (Except.error.inj h).symm

theorem memPhase_name {mem mem' : Memory} (h : memPhase mem = .ok mem') :
    mem'.name = mem.name := by
  unfold memPhase at h
  cases hread : serveRead mem with
  | error f => simp [hread, bind, Except.bind] at h
  | ok mem₁ =>
      cases hwrite : serveWrite mem₁ with
      | error f => simp [hread, hwrite, bind, Except.bind] at h
      | ok mem₂ =>
          simp only [hread, hwrite, bind, Except.bind] at h
          have hname := (serveWrite_name hwrite).trans (serveRead_name hread)
          split_ifs at h <;> obtain rfl := Except.ok.inj h <;> exact hname

/-- The read assertion fails for the addresses from the height on. -/
theorem memPhase_readOutOfRange_iff {mem : Memory} {name : MemName} {a : Word} :
    memPhase mem = .error (.readOutOfRange name a) ↔
      mem.read = true ∧ spSramHeight ≤ mem.readAddr.toInt ∧ name = mem.name ∧
        a = mem.readAddr := by
  -- past the read, only the other assertions can fail
  have later : ∀ mem₁, serveRead mem = .ok mem₁ →
      memPhase mem ≠ .error (.readOutOfRange name a) := by
    intro mem₁ hread
    unfold memPhase
    simp only [hread, bind, Except.bind]
    cases hwrite : serveWrite mem₁ with
    | error f => rcases serveWrite_error hwrite with rfl | rfl <;> simp
    | ok mem₂ => split_ifs <;> simp
  by_cases hr : mem.read = true
  · by_cases hhigh : mem.readAddr.toInt < spSramHeight
    · have hlow : ¬(spSramHeight : ℤ) ≤ mem.readAddr.toInt := not_le.mpr hhigh
      by_cases hneg : mem.readAddr.toInt < 0
      · simp [memPhase, serveRead, hr, hhigh, hneg, hlow, bind, Except.bind]
      · have hno := later _ (by
          rw [serveRead, if_pos hr, if_neg (not_not.mpr hhigh), if_neg hneg])
        simp [hno, hlow]
    · simp [memPhase, serveRead, hr, hhigh, not_lt.mp hhigh, bind, Except.bind,
        eq_comm]
  · have hno := later _ (by rw [serveRead, if_neg hr])
    simp [hno, hr]

end SuperscalarProcessor.Llsim
