import Qevm.Laws.MemoryModel
import Qevm.Laws.Touches

/-!
# Copying from byte strings

A copied byte string is followed by zeros without end.  Offsets are words, which are
clamped to machine words and then to the length of the string; what is copied is a window
on the infinite array.
-/

namespace Qevm

open Params WorldState Exec TxExecContext Procedure

/-- No byte string in memory has as many bytes. -/
def maxAllocation : Nat := 2 ^ 63

/-! ## Windows on a byte string -/

/-- Beyond a byte string there are only zeros. -/
theorem load_beyond {source : Bytes} {off : Nat} (beyond : source.length ≤ off) (count : Nat) :
    (Tape.ofList 0 source).load off count = List.replicate count 0 := by
  apply List.ext_getElem
  · simp
  · intro index _ _
    have outside : source.length ≤ off + index := Nat.le_add_right_of_le beyond
    simp [Tape.load, Tape.ofList, outside]

theorem toNat_clamp (value bound : UInt64) :
    (if value > bound then bound else value).toNat = min value.toNat bound.toNat := by
  split
  · next beyond =>
      rw [gt_iff_lt, UInt64.lt_iff_toNat_lt] at beyond
      omega
  · next inside =>
      rw [gt_iff_lt, UInt64.lt_iff_toNat_lt] at inside
      omega

/-- Whatever the offset, the copied data is the window on the source. -/
theorem getData_eq_load
    {source : Bytes} {len : UInt64} (allocated : source.length < maxAllocation)
    (few : len.toNat < maxAllocation) (off : UInt64) :
    getData source off len = (Tape.ofList 0 source).load off.toNat len.toNat := by
  unfold maxAllocation at allocated few
  apply List.ext_getElem?
  intro index
  unfold getData
  extract_lets srcLen first last stop data
  have length : srcLen.toNat = source.length :=
    UInt64.toNat_ofNat_of_lt' (by rw [UInt64.size]; omega)
  have starts : first.toNat = min off.toNat source.length := by
    rw [← length]
    exact toNat_clamp off srcLen
  have sum : last.toNat = first.toNat + len.toNat := by
    unfold last
    rw [UInt64.toNat_add, Nat.mod_eq_of_lt (by omega)]
  have stops : stop.toNat = min (first.toNat + len.toNat) source.length := by
    rw [← sum, ← length]
    exact toNat_clamp last srcLen
  have size : data.length = stop.toNat - first.toNat := by
    unfold data
    rw [List.length_drop, List.length_take]
    omega
  by_cases covered : index < data.length
  · have found : data[index]? = source[off.toNat + index]? := by
      unfold data
      rw [List.getElem?_drop, List.getElem?_take_of_lt (by omega)]
      congr 1
      omega
    have inside : off.toNat + index < source.length := by omega
    have asked : index < len.toNat := by omega
    rw [List.getElem?_append_left covered, found]
    simp [Tape.load, Tape.ofList, inside, asked]
  · rw [List.getElem?_append_right (Nat.le_of_not_lt covered), List.getElem?_replicate]
    by_cases asked : index < len.toNat
    · have outside : source.length ≤ off.toNat + index := by omega
      have padded : index - data.length < len.toNat - data.length := by omega
      simp [Tape.load, Tape.ofList, outside, asked, padded]
    · have short : ¬index - data.length < len.toNat - data.length := by omega
      simp [Tape.load, asked, short]

/-- An offset that is no machine word is beyond every byte string. -/
theorem beyond_of_wide
    {source : Bytes} {off : U256} (allocated : source.length < maxAllocation)
    (wide : checkedAsU64 off = none) : source.length ≤ off.toNat := by
  have least := wide_of_checkedAsU64 wide
  unfold maxAllocation at allocated
  omega

/-- What is copied from a byte string is a window on it, wherever it starts. -/
theorem windowOf_eq_load
    {source : Bytes} {len : U256} (allocated : source.length < maxAllocation)
    (few : len.toNat ≤ maxMemSize) (off : U256) :
    windowOf source off len = (Tape.ofList 0 source).load off.toNat len.toNat := by
  have kept := Memory.toNat_lowU64 few
  have small : (U256.lowU64 len).toNat < maxAllocation := by
    rw [kept]
    exact Nat.lt_of_le_of_lt few (by decide)
  rw [windowOf, getData_eq_load allocated small, kept]
  cases fits : checkedAsU64 off with
  | some value => rw [Option.getD_some, toNat_checkedAsU64 fits]
  | none =>
      have top : source.length ≤ (0xffffffffffffffff : UInt64).toNat :=
        Nat.le_of_lt (Nat.lt_trans allocated (by decide))
      rw [Option.getD_none, load_beyond top, load_beyond (beyond_of_wide allocated fits)]

/-! ## Writing a window to the memory -/

/-- A memory is another one with a window on a byte string in it. -/
structure Copies (source : Bytes) (off len memOff : Nat) (before after : Memory) : Prop where
  copied : ∀ {index}, index < len →
    after.space[memOff + index]? = some (source[off + index]?.getD 0)
  kept : ∀ {index}, index < before.space.length →
    index < memOff ∨ memOff + len ≤ index → after.space[index]? = before.space[index]?

namespace Memory

variable {before grown after : Memory} {memOff len : U256} {slice : Slice} {fee : Gas}

/-- A slice that is borrowed is short, and the memory contains it. -/
theorem getSliceMut_contains
    (allocated : before.space.length < maxAllocation)
    (run : getSliceMut memOff len before = .ok (slice, fee) grown) :
    slice.start = memOff.toNat ∧ len.toNat ≤ maxMemSize ∧
      memOff.toNat + len.toNat ≤ grown.space.length ∧
      ∃ count, grown.space = before.space ++ List.replicate count 0 := by
  obtain ⟨stop, sum, rfl, resizes⟩ := getSliceMut_ok run
  have bounded := resize_bounded resizes
  have covers := resize_covers (Nat.lt_trans allocated (by decide)) resizes
  rw [sum] at bounded covers
  exact ⟨rfl, Nat.le_of_add_left_le bounded, covers, resize_space resizes⟩

/-- Writing a window to a borrowed slice copies it. -/
theorem write_copies
    {source : Bytes} {off : Nat} (allocated : before.space.length < maxAllocation)
    (slices : getSliceMut memOff len before = .ok (slice, fee) grown)
    (writes : write slice ((Tape.ofList 0 source).load off len.toNat) grown = .ok () after) :
    Copies source off len.toNat memOff.toNat before after := by
  obtain ⟨starts, -, covers, count, space⟩ := getSliceMut_contains allocated slices
  have fits : slice.start + ((Tape.ofList 0 source).load off len.toNat).length ≤
      grown.space.length := by
    rw [Tape.length_load, starts]
    exact covers
  obtain ⟨length, -⟩ := write_ok writes fits
  have stored : Tape.ofList 0 after.space = (Tape.ofList 0 grown.space).store slice.start
      ((Tape.ofList 0 source).load off len.toNat) := by
    obtain ⟨-, rfl⟩ := Outcome.ok.inj writes
    exact Tape.ofList_overwrite fits
  rw [space, Tape.ofList_append_blank, starts] at stored
  constructor
  · intro index asked
    have inside : memOff.toNat + index < after.space.length := by omega
    rw [Tape.getElem?_eq_ofList inside, stored]
    simp [Tape.store, Tape.load, Tape.ofList, asked]
  · intro index old outside
    have inside : index < after.space.length := by
      rw [length, space, List.length_append]
      omega
    rw [Tape.getElem?_eq_ofList inside, Tape.getElem?_eq_ofList old, stored, Tape.store]
    split
    · rw [List.getElem?_eq_none (by rw [Tape.length_load]; omega), Option.getD_none]
    · rfl

end Memory

/-! ## The copying instructions -/

namespace Exec

variable {S : Type} {before first second third after : TxExecContext S}

/-- The byte strings that an instruction copies between are in memory: those of the frame,
and the code of the account that is named on top of the stack. -/
structure Allocated [WorldState S] (context : TxExecContext S) : Prop where
  memory : context.curCall.memory.space.length < maxAllocation
  input : context.curCall.input.length < maxAllocation
  code : context.curCall.code.asBytes.length < maxAllocation
  extCode : (getCode context.state (operand context 0).toAddr).asBytes.length <
    maxAllocation

/-- An instruction that writes a window copies it. -/
theorem copies_of_writes
    {source data : Bytes} {off : Nat} {memOff len : U256}
    (allocated : before.curCall.memory.space.length < maxAllocation)
    (window : len.toNat ≤ maxMemSize →
      data = (Tape.ofList 0 source).load off len.toNat)
    (writes : Writes memOff len data before after) :
    Copies source off len.toNat memOff.toNat before.curCall.memory after.curCall.memory := by
  obtain ⟨slice, fee, grown, slices, write, -⟩ := writes
  obtain ⟨-, few, -, -⟩ := Memory.getSliceMut_contains allocated slices
  rw [window few] at write
  exact Memory.write_copies allocated slices write

/-- `CALLDATALOAD` pushes the window as a word. -/
theorem callDataLoad_peek
    (allocated : before.curCall.input.length < maxAllocation)
    (run : onCall CallFrame.callDataLoad before = .ok () after) :
    after.curCall.stack.peek = some (U256.fromBigEndian
      ((Tape.ofList 0 before.curCall.input).load (operand before 0).toNat 32)) := by
  unfold CallFrame.callDataLoad at run
  obtain ⟨_, paid, pays, run⟩ := onCall_bind_ok.mp run
  obtain ⟨off, popped, pops, run⟩ := onCall_bind_ok.mp run
  obtain ⟨input, _, reads, pushes⟩ := onCall_bind_ok.mp run
  obtain ⟨rfl, rfl⟩ := Outcome.ok.inj reads
  have pay : before.Quiet paid := Moves.ok pays
  have pop : paid.Quiet popped := Moves.ok pops
  have input : popped.curCall.input = before.curCall.input :=
    (trans_of _ pay pop).curCall.input
  obtain ⟨rfl, -⟩ := Exec.consume1_ok pops
  obtain ⟨stack, top, rfl⟩ := Exec.push_ok pushes
  rw [operand_useGas pays 0, input] at top
  refine top.trans (congrArg some ?_)
  have width : (32 : UInt64).toNat = 32 := rfl
  cases fits : checkedAsU64 (operand before 0) with
  | some value =>
      dsimp only
      rw [getData_eq_load allocated (by decide), width, toNat_checkedAsU64 fits]
  | none =>
      rw [load_beyond (beyond_of_wide allocated fits)]
      rfl

/-- Copying instructions read a source that zeros follow, and `RETURNDATACOPY` reads only
what has been returned. -/
theorem copies_read_extended_source
    [WorldState S] [Keccak256] {inst : Inst} (allocated : Allocated before)
    (run : dispatch inst before = .ok () after) :
    (inst.opcode = .callDataCopy →
      Copies before.curCall.input (operand before 1).toNat (operand before 2).toNat
        (operand before 0).toNat before.curCall.memory after.curCall.memory) ∧
    (inst.opcode = .codeCopy →
      Copies before.curCall.code.asBytes (operand before 1).toNat (operand before 2).toNat
        (operand before 0).toNat before.curCall.memory after.curCall.memory) ∧
    (inst.opcode = .extCodeCopy →
      Copies (getCode before.state (operand before 0).toAddr).asBytes
        (operand before 2).toNat (operand before 3).toNat (operand before 1).toNat
        before.curCall.memory after.curCall.memory) ∧
    (inst.opcode = .callDataLoad →
      after.curCall.stack.peek = some (U256.fromBigEndian
        ((Tape.ofList 0 before.curCall.input).load (operand before 0).toNat 32))) ∧
    (inst.opcode = .returnDataCopy →
      (operand before 1).toNat + (operand before 2).toNat ≤
          before.curCall.lastReturned.length ∧
        Copies before.curCall.lastReturned (operand before 1).toNat
          (operand before 2).toNat (operand before 0).toNat before.curCall.memory
          after.curCall.memory) := by
  obtain ⟨opcode, data, pos⟩ := inst
  refine ⟨?_, ?_, ?_, ?_, ?_⟩ <;> rintro ⟨⟩
  · exact copies_of_writes allocated.memory
      (fun few => windowOf_eq_load allocated.input few _) (writes_callDataCopy run)
  · exact copies_of_writes allocated.memory
      (fun few => windowOf_eq_load allocated.code few _) (writes_codeCopy run)
  · exact copies_of_writes allocated.memory
      (fun few => windowOf_eq_load allocated.extCode few _) (writes_extCodeCopy run)
  · exact callDataLoad_peek allocated.input run
  · obtain ⟨inside, writes⟩ := writes_returnDataCopy run
    exact ⟨inside, copies_of_writes allocated.memory
      (fun _ => Tape.slice_eq_load inside) writes⟩

end Exec

namespace Sample

/-- Copies four bytes of the input from the third one on to the second byte of the
memory. -/
def copyingCode : Bytes := [0x60, 0x04, 0x60, 0x02, 0x60, 0x01, 0x37, 0x00]

/-- The digests that the transaction of this module looks at. -/
@[reducible] def copyingKeccak : Keccak256 := keccak
  [([], 0xc5d2460186f7233c927e7db2dcc703c0e500b653ca82273b7bfad8045d85a470),
    (copyingCode,
      0x5ca8f9899fd2a79e2bd297a5b84d818c974b1a37ee238f4ab162b3e4ad357359)]

/-- A transaction with three bytes of input to an account with that code. -/
def copyingTx : Transaction DummyStateStore :=
  letI := copyingKeccak
  let state := DummyStateStore.new.setCode 0xaa copyingCode
  { sender := 1
    recipient := some 0xaa
    value := 0
    gas := 1000000
    gasPrice := 0
    input := [7, 8, 9]
    accessList := none
    state := state
    committedState := state
    env := env .london }

end Sample

/-- The window overlaps the end of the input. -/
theorem copied_input_is_padded :
    letI := Sample.copyingKeccak
    ∃ before after : TxExecContext DummyStateStore,
      Sample.copyingTx.Reaches before ∧
        dispatch ⟨.callDataCopy, none, 6⟩ before = .ok () after ∧
        before.curCall.memory.space = [] ∧ before.curCall.input = [7, 8, 9] ∧
        Copies [7, 8, 9] 2 4 1 before.curCall.memory after.curCall.memory := by
  let := Sample.copyingKeccak
  obtain ⟨before, reached, space, input, code, extCode, operands, ends⟩ :=
    Sample.copyingTx.exists_reached 3
      (fun before => before.curCall.memory.space = [] ∧
        before.curCall.input = [7, 8, 9] ∧
        before.curCall.code.asBytes.length < maxAllocation ∧
        (getCode before.state (operand before 0).toAddr).asBytes.length < maxAllocation ∧
        (operand before 0 = 1 ∧ operand before 1 = 2 ∧ operand before 2 = 4) ∧
        (dispatch ⟨.callDataCopy, none, 6⟩ before).returned.isSome)
      (by decide +kernel)
  obtain ⟨⟨⟨⟩, after⟩, returned⟩ := Option.isSome_iff_exists.mp ends
  have run := Outcome.returned_eq_some.mp returned
  have allocated : Allocated before :=
    ⟨by rw [space]; decide, by rw [input]; decide, code, extCode⟩
  have copies := (copies_read_extended_source allocated run).1 rfl
  obtain ⟨memOff, off, len⟩ := operands
  rw [input, memOff, off, len] at copies
  exact ⟨before, after, reached, run, space, input, copies⟩

end Qevm
