import Qevm.Collections.Tape
import Qevm.Core.Expansion
import Qevm.Core.Panics

/-!
# The memory as an infinite array

Whatever is done to a new memory, it holds the start of an infinite array of bytes that
are zero until they are written, and the fees that it has asked for add up to the price of
its size.
-/

namespace Qevm

open Params Procedure

/-- Subtraction of 64-bit numbers that fails on underflow. -/
def checkedSubU64 (first second : UInt64) : Option UInt64 :=
  if second ≤ first then some (first - second) else none

namespace Memory

variable {memory before after : Memory} {size off len : U256} {fee : Gas} {slice : Slice}

/-! ### Arithmetic that is checked -/

/-- `toWordSize` with a sum that may overflow. -/
def toWordSizeChecked (size : UInt64) : Option UInt64 :=
  if size > (0xffffffffffffffff : UInt64) - 31 then
    some (((0xffffffffffffffff : UInt64) >>> 5) + 1)
  else
    (checkedAddU64 size 31).map fun sum => sum >>> (5 : UInt64)

/-- `resize` with a panic at every conversion, sum, product and difference that leaves the
range of the 64-bit numbers. -/
def resizeChecked (size : U256) : Run Memory Gas := do
  let self ← Procedure.read
  if size.toNat > maxMemSize then
    Procedure.raise .outOfMemory
  else
    let size64 ← Procedure.unwrap .integerOverflow (checkedAsU64 size)
    if size64 > UInt64.ofNat self.space.length then
      let newMemSizeWords ← Procedure.unwrap .integerOverflow (toWordSizeChecked size64)
      let newMemSize ← Procedure.unwrap .integerOverflow
        (checkedMulU64 newMemSizeWords 32)
      let sqr ← Procedure.unwrap .integerOverflow
        (checkedMulU64 newMemSizeWords newMemSizeWords)
      let linear ← Procedure.unwrap .integerOverflow
        (checkedMulU64 newMemSizeWords gasMemResizeWord)
      let newGas ← Procedure.unwrap .integerOverflow
        (checkedAddU64 linear (sqr / quadCoefDiv))
      let fee ← Procedure.unwrap .integerOverflow (checkedSubU64 newGas self.lastGas)
      Procedure.update fun self =>
        ⟨self.space ++ List.replicate (newMemSize.toNat - self.space.length) 0, newGas⟩
      pure fee
    else
      pure 0

/-- The words of a size within the limit are few. -/
theorem wordsOf_few {size : Nat} (bounded : size ≤ maxMemSize) :
    wordsOf size ≤ 0xffffffff := by
  have limit : maxMemSize = 0x1fffffffe0 := rfl
  unfold wordsOf
  omega

/-- Nothing leaves the range of the 64-bit numbers when a priced memory grows. -/
theorem resizeChecked_eq (priced : memory.Priced) :
    resizeChecked size memory = resize size memory := by
  have limit : maxMemSize = 0x1fffffffe0 := rfl
  by_cases large : size.toNat > maxMemSize
  · simp [resizeChecked, resize, bind, Procedure.bind, Procedure.read, Procedure.raise,
      large]
  have bounded : size.toNat ≤ maxMemSize := Nat.le_of_not_lt large
  have small := priced.bounded
  have converts : checkedAsU64 size = some (U256.lowU64 size) := if_pos (by omega)
  have asked : (U256.lowU64 size).toNat = size.toNat := toNat_checkedAsU64 converts
  have had : (UInt64.ofNat memory.space.length).toNat = memory.space.length :=
    UInt64.toNat_ofNat_of_lt' (by rw [UInt64.size]; omega)
  by_cases grows : U256.lowU64 size > UInt64.ofNat memory.space.length
  · have newWords := toNat_toWordSize (asked.trans_le bounded)
    rw [asked] at newWords
    have few := wordsOf_few bounded
    rw [← newWords] at few
    have newGas := toNat_newGas few
    generalize counted : toWordSize (U256.lowU64 size) = words at newWords few newGas
    have rounds : toWordSizeChecked (U256.lowU64 size) = some words := by
      rw [← counted]
      unfold toWordSizeChecked toWordSize
      split
      · rfl
      · have sum : (U256.lowU64 size).toNat + (31 : UInt64).toNat < 2 ^ 64 := by
          have rest : (31 : UInt64).toNat = 31 := rfl
          omega
        rw [show checkedAddU64 _ 31 = some _ from if_pos sum]
        rfl
    have rate : gasMemResizeWord.toNat = 3 := rfl
    have divisor : quadCoefDiv.toNat = 512 := rfl
    have square : words.toNat * words.toNat ≤ 0xffffffff * 0xffffffff :=
      Nat.mul_le_mul few few
    have bytes : checkedMulU64 words 32 = some (words <<< (5 : UInt64)) := by
      have factor : (32 : UInt64).toNat = 32 := rfl
      have five : (5 : UInt64).toNat % 64 = 5 := rfl
      have shifted : words * 32 = words <<< (5 : UInt64) := by
        apply UInt64.toNat_inj.mp
        rw [UInt64.toNat_mul, UInt64.toNat_shiftLeft, factor, five, Nat.shiftLeft_eq]
      rw [checkedMulU64, factor, if_pos (by omega), shifted]
    have squared : checkedMulU64 words words = some (words * words) :=
      if_pos (by omega)
    have linear : checkedMulU64 words gasMemResizeWord =
        some (words * gasMemResizeWord) := by
      rw [checkedMulU64, rate, if_pos (by omega)]
    have sum : checkedAddU64 (words * gasMemResizeWord) (words * words / quadCoefDiv) =
        some (words * gasMemResizeWord + words * words / quadCoefDiv) := by
      have less : (words * gasMemResizeWord).toNat ≤ words.toNat * 3 := by
        rw [UInt64.toNat_mul, rate]
        exact Nat.mod_le _ _
      have fewer : (words * words).toNat ≤ words.toNat * words.toNat := by
        rw [UInt64.toNat_mul]
        exact Nat.mod_le _ _
      refine if_pos ?_
      rw [UInt64.toNat_div, divisor]
      omega
    have dearer : checkedSubU64
        (words * gasMemResizeWord + words * words / quadCoefDiv) memory.lastGas =
        some (words * gasMemResizeWord + words * words / quadCoefDiv - memory.lastGas) := by
      refine if_pos ?_
      rw [UInt64.le_iff_toNat_le, newGas, priced.lastGas]
      rw [gt_iff_lt, UInt64.lt_iff_toNat_lt, asked, had] at grows
      refine price_mono ?_
      unfold Memory.words wordsOf at *
      omega
    simp only [resizeChecked, resize, bind, Procedure.bind, Procedure.read, large, if_false,
      converts, Procedure.unwrap, Procedure.pure, grows, if_true, rounds, bytes, squared,
      linear, sum, dearer, Procedure.update, counted]
    rfl
  · simp [resizeChecked, resize, bind, Procedure.bind, Procedure.read, large, grows,
      converts, Procedure.unwrap, Procedure.pure, pure]

/-! ### The parts of an operation -/

/-- A memory that grows is followed by zeros. -/
theorem resize_space (run : resize size before = .ok fee after) :
    ∃ count, after.space = before.space ++ List.replicate count 0 := by
  unfold resize at run
  rw [if_neg (Nat.not_lt.mpr (resize_bounded run))] at run
  dsimp only at run
  split at run
  · obtain ⟨-, rfl⟩ := Outcome.ok.inj run
    exact ⟨_, rfl⟩
  · obtain ⟨-, rfl⟩ := Outcome.ok.inj run
    exact ⟨0, (List.append_nil _).symm⟩

/-- Growing fails beyond the limit only, and then changes nothing. -/
theorem resize_error {err : ExecError} :
    resize size before = .error err after ↔
      size.toNat > maxMemSize ∧ err = .outOfMemory ∧ after = before := by
  unfold resize
  by_cases large : size.toNat > maxMemSize
  · rw [if_pos large, Outcome.error.injEq]
    constructor
    · rintro ⟨rfl, rfl⟩
      exact ⟨large, rfl, rfl⟩
    · rintro ⟨-, rfl, rfl⟩
      exact ⟨rfl, rfl⟩
  · rw [if_neg large]
    dsimp only
    split <;> simp [large]

/-- Without an overflow a slice is the region, once the memory has grown. -/
theorem getSliceMut_eq (fits : off.toNat + len.toNat < 2 ^ 256) :
    getSliceMut off len = (do
      let fee ← resize (off + len)
      pure (⟨off.toNat, (off + len).toNat⟩, fee)) := by
  have sum : U256.checkedAdd off len = some (off + len) := if_pos fits
  unfold getSliceMut
  rw [sum]
  rfl

/-- Writing inside of a memory keeps its price and stores the bytes. -/
theorem write_stores {data : Bytes} (priced : before.Priced)
    (fits : slice.start + data.length ≤ before.space.length)
    (run : write slice data before = .ok () after) :
    after.Priced ∧ after.words = before.words ∧
      Tape.ofList 0 after.space = (Tape.ofList 0 before.space).store slice.start data := by
  obtain ⟨length, lastGas⟩ := write_ok run fits
  obtain ⟨same, words⟩ := priced.congr length lastGas
  obtain ⟨-, rfl⟩ := Outcome.ok.inj run
  exact ⟨same, words, Tape.ofList_overwrite fits⟩

end Memory

/-! ### What can be done to a memory -/

/-- A region whose end is a word. -/
structure Region where
  off : U256
  len : U256
  fits : off.toNat + len.toNat < 2 ^ 256

/-- Bytes that are stored inside of a slice of a length. -/
structure SliceStore (len : Nat) where
  position : Nat
  bytes : Bytes
  inside : position + bytes.length ≤ len

/-- An operation on a memory.  A slice may be written while it is borrowed. -/
inductive MemoryOp
  | resize (size : U256)
  | getSlice (region : Region)
  | getSliceMut (region : Region) (stores : List (SliceStore region.len.toNat))
  | set (region : Region) (data : Bytes)

/-- Write to a slice. -/
def writeAll {len : Nat} (slice : Slice) : List (SliceStore len) → Run Memory Unit
  | [] => pure ()
  | first :: rest => do
      Memory.write ⟨slice.start + first.position, slice.stop⟩ first.bytes
      writeAll slice rest

/-- The array after the writes to a slice. -/
def storeAll {len : Nat} (start : Nat) (stores : List (SliceStore len))
    (tape : Tape UInt8) : Tape UInt8 :=
  stores.foldl (fun tape first => tape.store (start + first.position) first.bytes) tape

namespace MemoryOp

/-- Perform an operation and return its fee. -/
def run : MemoryOp → Run Memory Gas
  | resize size => Memory.resize size
  | getSlice region => do
      let (_, fee) ← Memory.getSlice region.off region.len
      pure fee
  | getSliceMut region stores => do
      let (slice, fee) ← Memory.getSliceMut region.off region.len
      writeAll slice stores
      pure fee
  | set region data => Memory.set region.off region.len data

/-- What an operation does to the array. -/
def stored : MemoryOp → Tape UInt8 → Tape UInt8
  | resize _ | getSlice _ => id
  | getSliceMut region stores => storeAll region.off.toNat stores
  | set region data => fun tape =>
      tape.store region.off.toNat (data.take region.len.toNat)

variable {before after : Memory} {fee : Gas}

/-- Writing to a slice of a memory keeps its price and stores the bytes. -/
theorem writeAll_ok
    {len : Nat} {slice : Slice} {stores : List (SliceStore len)} (priced : before.Priced)
    (covers : slice.start + len ≤ before.space.length)
    (run : writeAll slice stores before = .ok () after) :
    after.Priced ∧ after.words = before.words ∧
      Tape.ofList 0 after.space =
        storeAll slice.start stores (Tape.ofList 0 before.space) := by
  induction stores generalizing before with
  | nil =>
      obtain ⟨-, rfl⟩ := Outcome.ok.inj run
      exact ⟨priced, rfl, rfl⟩
  | cons first rest inductionHypothesis =>
      obtain ⟨_, written, writes, run⟩ := bind_ok.mp run
      have inside := first.inside
      obtain ⟨same, words, stored⟩ :=
        Memory.write_stores priced (by dsimp only; omega) writes
      obtain ⟨length, -⟩ := Memory.write_ok writes (by dsimp only; omega)
      obtain ⟨last, lastWords, all⟩ := inductionHypothesis same (by omega) run
      refine ⟨last, lastWords.trans words, ?_⟩
      rw [all, stored]
      rfl

/-- Growing a memory by whole words of zeros does not change its array. -/
theorem resize_stores
    {size : U256} (priced : before.Priced)
    (run : Memory.resize size before = .ok fee after) :
    after.Priced ∧ Memory.price before.words + fee.toNat = Memory.price after.words ∧
      Tape.ofList 0 after.space = Tape.ofList 0 before.space := by
  obtain ⟨grown, -, paid⟩ := Memory.resize_ok priced run
  obtain ⟨count, space⟩ := Memory.resize_space run
  refine ⟨grown, paid, ?_⟩
  rw [space, Tape.ofList_append_blank]

/-- A slice that is borrowed leaves the array alone. -/
theorem getSliceMut_stores
    {off len : U256} {slice : Slice} (priced : before.Priced)
    (run : Memory.getSliceMut off len before = .ok (slice, fee) after) :
    after.Priced ∧ Memory.price before.words + fee.toNat = Memory.price after.words ∧
      Tape.ofList 0 after.space = Tape.ofList 0 before.space ∧
      slice = ⟨off.toNat, off.toNat + len.toNat⟩ ∧
      off.toNat + len.toNat ≤ after.space.length := by
  obtain ⟨stop, -, region, resizes⟩ := Memory.getSliceMut_ok run
  obtain ⟨grown, paid, same⟩ := resize_stores priced resizes
  exact ⟨grown, paid, same, region, Memory.getSliceMut_covers priced run⟩

/-- An operation keeps the price of the memory, asks for the difference, and stores in the
array. -/
theorem run_ok
    {op : MemoryOp} (priced : before.Priced) (run : op.run before = .ok fee after) :
    after.Priced ∧ Memory.price before.words + fee.toNat = Memory.price after.words ∧
      Tape.ofList 0 after.space = op.stored (Tape.ofList 0 before.space) := by
  cases op with
  | resize size => exact resize_stores priced run
  | getSlice region =>
      obtain ⟨⟨data, gas⟩, _, reads, returns⟩ := bind_ok.mp run
      obtain ⟨rfl, rfl⟩ := Outcome.ok.inj returns
      obtain ⟨grown, paid, same, -⟩ :=
        getSliceMut_stores priced (Memory.getSlice_ok reads).1
      exact ⟨grown, paid, same⟩
  | getSliceMut region stores =>
      obtain ⟨⟨slice, gas⟩, sliced, slices, rest⟩ := bind_ok.mp run
      obtain ⟨_, written, writes, returns⟩ := bind_ok.mp rest
      obtain ⟨rfl, rfl⟩ := Outcome.ok.inj returns
      obtain ⟨grown, paid, same, rfl, covers⟩ := getSliceMut_stores priced slices
      obtain ⟨kept, words, all⟩ := writeAll_ok grown covers writes
      rw [words, all, same]
      exact ⟨kept, paid, rfl⟩
  | set region data =>
      obtain ⟨⟨slice, gas⟩, sliced, slices, rest⟩ := bind_ok.mp run
      obtain ⟨_, written, writes, returns⟩ := bind_ok.mp rest
      obtain ⟨rfl, rfl⟩ := Outcome.ok.inj returns
      obtain ⟨grown, paid, same, rfl, covers⟩ := getSliceMut_stores priced slices
      dsimp only at writes
      obtain ⟨kept, words, all⟩ := Memory.write_stores grown (by
        rw [List.length_take]
        dsimp only
        omega) writes
      rw [words, all, same]
      refine ⟨kept, paid, ?_⟩
      rw [Nat.add_sub_cancel_left, stored, ← List.take_eq_take_min]

/-- An operation never panics. -/
instance panics_run (op : MemoryOp) : Panics (fun _ => False) op.run := by
  have slices (region : Region) :
      Panics (fun _ => False) (Memory.getSliceMut region.off region.len) := by
    rw [Memory.getSliceMut_eq region.fits]
    infer_instance
  have writes {len : Nat} (slice : Slice) (stores : List (SliceStore len)) :
      Panics (fun _ => False) (writeAll slice stores) := by
    induction stores with
    | nil => exact Panics.pure _
    | cons first rest inductionHypothesis =>
        unfold writeAll
        infer_instance
  cases op with
  | resize size => exact Memory.panics_resize size
  | getSlice region =>
      have := slices region
      unfold run Memory.getSlice
      infer_instance
  | getSliceMut region stores =>
      have := slices region
      unfold run
      infer_instance
  | set region data =>
      have := slices region
      unfold run Memory.set
      infer_instance

/-- An operation that fails changes nothing. -/
theorem run_error
    {op : MemoryOp} {err : ExecError} (run : op.run before = .error err after) :
    err = .outOfMemory ∧ after = before := by
  have slices {region : Region}
      (run : Memory.getSliceMut region.off region.len before = .error err after) :
      err = .outOfMemory ∧ after = before := by
    rw [Memory.getSliceMut_eq region.fits] at run
    obtain fails | ⟨_, _, -, returns⟩ := bind_error.mp run
    · exact (Memory.resize_error.mp fails).2
    · contradiction
  have writes {len : Nat} (slice : Slice) (stores : List (SliceStore len))
      (memory : Memory) : writeAll slice stores memory ≠ .error err after := by
    induction stores generalizing memory with
    | nil => exact fun fails => nomatch fails
    | cons first rest inductionHypothesis => exact inductionHypothesis _
  cases op with
  | resize size => exact (Memory.resize_error.mp run).2
  | getSlice region =>
      obtain fails | ⟨_, _, -, returns⟩ := bind_error.mp run
      · obtain fails | ⟨_, _, -, returns⟩ := bind_error.mp fails
        · exact slices fails
        · contradiction
      · contradiction
  | getSliceMut region stores =>
      obtain fails | ⟨_, _, -, rest⟩ := bind_error.mp run
      · exact slices fails
      · obtain fails | ⟨_, _, -, returns⟩ := bind_error.mp rest
        · exact absurd fails (writes _ _ _)
        · contradiction
  | set region data =>
      obtain fails | ⟨_, _, -, rest⟩ := bind_error.mp run
      · exact slices fails
      · contradiction

end MemoryOp

/-! ### The law -/

/-- What is reached by operations on a new memory: the memory, the array that the
operations have stored to, and the fees. -/
inductive MemoryHistory : Memory → Tape UInt8 → Nat → Prop
  | new : MemoryHistory Memory.new (fun _ => 0) 0
  | returns {memory after : Memory} {tape : Tape UInt8} {paid : Nat} {op : MemoryOp}
      {fee : Gas} (runs : MemoryHistory memory tape paid)
      (run : op.run memory = .ok fee after) :
      MemoryHistory after (op.stored tape) (paid + fee.toNat)
  | fails {memory after : Memory} {tape : Tape UInt8} {paid : Nat} {op : MemoryOp}
      {err : ExecError} (runs : MemoryHistory memory tape paid)
      (run : op.run memory = .error err after) : MemoryHistory after tape paid

/-- A memory that stands for an array and whose size has been paid. -/
structure Memory.StandsFor (memory : Memory) (tape : Tape UInt8) (paid : Nat) : Prop where
  whole : memory.space.length = 32 * memory.words
  price : memory.lastGas.toNat =
    3 * memory.words + memory.words * memory.words / 512
  paid : paid = memory.lastGas.toNat
  content : ∀ index < memory.space.length, memory.space[index]? = some (tape index)
  blank : ∀ index, memory.space.length ≤ index → tape index = 0
  /-- What is read is what has been stored. -/
  reads : ∀ (region : Region) data fee after,
    Memory.getSlice region.off region.len memory = .ok (data, fee) after →
      data = tape.load region.off.toNat region.len.toNat
  /-- No arithmetic of the next operation overflows or underflows. -/
  exact : ∀ size, Memory.resizeChecked size memory = Memory.resize size memory
  /-- The next operation does not panic. -/
  total : ∀ (op : MemoryOp) reason, op.run memory ≠ .panic reason
  /-- The next operation changes nothing when it fails. -/
  failing : ∀ (op : MemoryOp) err after, op.run memory = .error err after →
    err = .outOfMemory ∧ after = memory

theorem MemoryHistory.priced
    {memory : Memory} {tape : Tape UInt8} {paid : Nat}
    (runs : MemoryHistory memory tape paid) :
    memory.Priced ∧ paid = Memory.price memory.words ∧
      tape = Tape.ofList 0 memory.space := by
  induction runs with
  | new => exact ⟨Memory.priced_new, rfl, rfl⟩
  | returns runs run inductionHypothesis =>
      obtain ⟨priced, rfl, rfl⟩ := inductionHypothesis
      obtain ⟨kept, paid, stored⟩ := MemoryOp.run_ok priced run
      exact ⟨kept, paid, stored.symm⟩
  | fails runs run inductionHypothesis =>
      obtain ⟨-, rfl⟩ := MemoryOp.run_error run
      exact inductionHypothesis

/-- Whatever is done to a new memory, it stands for the array of the bytes that have been
stored, and the fees add up to the price of its size. -/
theorem memory_stands_for_array
    {memory : Memory} {tape : Tape UInt8} {paid : Nat}
    (runs : MemoryHistory memory tape paid) :
    memory.StandsFor tape paid := by
  obtain ⟨priced, rfl, rfl⟩ := runs.priced
  refine
    { whole := priced.whole
      price := priced.lastGas
      paid := priced.lastGas.symm
      content := fun index inside => Tape.getElem?_eq_ofList inside
      blank := fun index beyond => ?_
      reads := fun region data fee after read => ?_
      exact := fun size => Memory.resizeChecked_eq priced
      total := fun op reason panics => (MemoryOp.panics_run op).holds panics
      failing := fun op err after => MemoryOp.run_error }
  · rw [Tape.ofList, List.getElem?_eq_none beyond]
    rfl
  · obtain ⟨slices, rfl⟩ := Memory.getSlice_ok read
    obtain ⟨-, -, same, -, covers⟩ := MemoryOp.getSliceMut_stores priced slices
    rw [← same, Tape.slice_eq_load covers]

/-- A byte that is stored at the end of a word makes the memory a word long. -/
theorem one_byte_stands_for_array :
    (Memory.mk (List.replicate 31 0 ++ [0xff]) 3).StandsFor
      (Tape.store (fun _ => 0) 31 [0xff]) 3 := by
  have stores : (MemoryOp.set ⟨31, 1, by decide⟩ [0xff, 0xee]).run Memory.new =
      .ok 3 ⟨List.replicate 31 0 ++ [0xff], 3⟩ := by rfl
  exact memory_stands_for_array (.returns .new stores)

end Qevm
