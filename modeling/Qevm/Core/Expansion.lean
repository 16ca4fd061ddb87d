import Qevm.Core.Operands

/-!
# Growing the memory

The size of a memory in words, the price of a size, and what the operations on the memory
do to both.
-/

namespace Qevm

open Params Procedure

namespace Memory

/-- The size in words. -/
def words (self : Memory) : Nat := self.space.length / 32

/-- The words that cover a number of bytes. -/
def wordsOf (size : Nat) : Nat := (size + 31) / 32

/-- The price of a memory of a number of words. -/
def price (words : Nat) : Nat := 3 * words + words * words / 512

/-- A larger memory is not cheaper. -/
theorem price_mono {small large : Nat} (less : small ≤ large) :
    price small ≤ price large :=
  Nat.add_le_add (Nat.mul_le_mul_left 3 less)
    (Nat.div_le_div_right (Nat.mul_le_mul less less))

/-- A memory of whole words, of which the fee of its size has been recorded. -/
structure Priced (memory : Memory) : Prop where
  whole : memory.space.length = 32 * memory.words
  bounded : memory.space.length ≤ maxMemSize
  lastGas : memory.lastGas.toNat = price memory.words

/-- The empty memory costs nothing. -/
theorem priced_new : new.Priced := ⟨rfl, Nat.zero_le _, rfl⟩

variable {before after : Memory} {size off len : U256} {fee : Gas} {slice : Slice}

/-- The price of a memory only depends on its size and its fee. -/
theorem Priced.congr (priced : before.Priced)
    (length : after.space.length = before.space.length)
    (lastGas : after.lastGas = before.lastGas) :
    after.Priced ∧ after.words = before.words := by
  have words : after.words = before.words := by rw [Memory.words, length, Memory.words]
  refine ⟨⟨?_, ?_, ?_⟩, words⟩
  · rw [length, words]
    exact priced.whole
  · rw [length]
    exact priced.bounded
  · rw [lastGas, words]
    exact priced.lastGas

/-- A size that does not fail is within the limit. -/
theorem resize_bounded (run : resize size before = .ok fee after) :
    size.toNat ≤ maxMemSize := by
  unfold resize at run
  by_contra large
  rw [if_pos (Nat.lt_of_not_le large)] at run
  contradiction

/-- The number of words of a size within the limit. -/
theorem toNat_toWordSize {size : UInt64} (bounded : size.toNat ≤ maxMemSize) :
    (toWordSize size).toNat = wordsOf size.toNat := by
  have limit : maxMemSize = 0x1fffffffe0 := rfl
  have top : ((0xffffffffffffffff : UInt64) - 31).toNat = 0xffffffffffffffe0 := rfl
  have small : ¬size > (0xffffffffffffffff : UInt64) - 31 := by
    rw [gt_iff_lt, UInt64.lt_iff_toNat_lt, top]
    omega
  have rest : (31 : UInt64).toNat = 31 := rfl
  have sum : (size + 31).toNat = size.toNat + 31 := by
    rw [UInt64.toNat_add, rest]
    exact Nat.mod_eq_of_lt (by omega)
  rw [toWordSize, if_neg small, UInt64.toNat_shiftRight, sum, Nat.shiftRight_eq_div_pow]
  rfl

/-- The fee of a number of words within the limit. -/
theorem toNat_newGas {words : UInt64} (bounded : words.toNat ≤ 0xffffffff) :
    (words * gasMemResizeWord + words * words / quadCoefDiv).toNat =
      price words.toNat := by
  have rate : gasMemResizeWord.toNat = 3 := rfl
  have divisor : quadCoefDiv.toNat = 512 := rfl
  have square : words.toNat * words.toNat ≤ 0xffffffff * 0xffffffff :=
    Nat.mul_le_mul bounded bounded
  have quadratic : (words * words).toNat = words.toNat * words.toNat := by
    rw [UInt64.toNat_mul]
    exact Nat.mod_eq_of_lt (by omega)
  have linear : (words * gasMemResizeWord).toNat = 3 * words.toNat := by
    rw [UInt64.toNat_mul, rate, Nat.mul_comm]
    exact Nat.mod_eq_of_lt (by omega)
  rw [UInt64.toNat_add, UInt64.toNat_div, linear, quadratic, divisor]
  exact Nat.mod_eq_of_lt (by omega)

/-- A size within the limit is a machine word. -/
theorem toNat_lowU64 (bounded : size.toNat ≤ maxMemSize) :
    (U256.lowU64 size).toNat = size.toNat := by
  have limit : maxMemSize = 0x1fffffffe0 := rfl
  exact UInt64.toNat_ofNat_of_lt' (by rw [UInt64.size]; omega)

/-- The size of a memory that grows to contain a number of bytes within the limit. -/
theorem toNat_newMemSize (bounded : size.toNat ≤ maxMemSize) :
    (toWordSize (U256.lowU64 size) <<< 5).toNat = 32 * wordsOf size.toNat := by
  have limit : maxMemSize = 0x1fffffffe0 := rfl
  have asked := toNat_lowU64 bounded
  have five : UInt64.toNat 5 % 64 = 5 := rfl
  rw [UInt64.toNat_shiftLeft, toNat_toWordSize (asked.trans_le bounded), asked, five,
    Nat.shiftLeft_eq, Nat.mul_comm]
  unfold wordsOf
  exact Nat.mod_eq_of_lt (by omega)

/-- A memory that has grown contains what it was to contain. -/
theorem resize_covers
    (small : before.space.length < 2 ^ 64) (run : resize size before = .ok fee after) :
    size.toNat ≤ after.space.length := by
  have bounded := resize_bounded run
  have asked := toNat_lowU64 bounded
  have had : (UInt64.ofNat before.space.length).toNat = before.space.length :=
    UInt64.toNat_ofNat_of_lt' small
  unfold resize at run
  rw [if_neg (Nat.not_lt.mpr bounded)] at run
  dsimp only at run
  split at run
  · obtain ⟨-, rfl⟩ := Outcome.ok.inj run
    rw [List.length_append, List.length_replicate, toNat_newMemSize bounded]
    unfold wordsOf
    omega
  · next enough =>
      obtain ⟨-, rfl⟩ := Outcome.ok.inj run
      rw [gt_iff_lt, UInt64.lt_iff_toNat_lt, asked, had, not_lt] at enough
      exact enough

/-- Growing a memory to contain a number of bytes rounds up to whole words, and the fee is
the difference of the prices. -/
theorem resize_ok (priced : before.Priced) (run : resize size before = .ok fee after) :
    after.Priced ∧ after.words = max before.words (wordsOf size.toNat) ∧
      price before.words + fee.toNat = price after.words := by
  have limit : maxMemSize = 0x1fffffffe0 := rfl
  have bounded := resize_bounded run
  have whole := priced.whole
  have small := priced.bounded
  have asked := toNat_lowU64 bounded
  have had : (UInt64.ofNat before.space.length).toNat = before.space.length :=
    UInt64.toNat_ofNat_of_lt' (by rw [UInt64.size]; omega)
  unfold resize at run
  rw [if_neg (Nat.not_lt.mpr bounded)] at run
  dsimp only at run
  by_cases grows : U256.lowU64 size > UInt64.ofNat before.space.length
  · rw [if_pos grows] at run
    obtain ⟨rfl, rfl⟩ := Outcome.ok.inj run
    rw [gt_iff_lt, UInt64.lt_iff_toNat_lt, asked, had] at grows
    have newWords := toNat_toWordSize (asked.trans_le bounded)
    rw [asked] at newWords
    have few : wordsOf size.toNat ≤ 0xffffffff := by
      unfold wordsOf
      omega
    have newGas := toNat_newGas (newWords.trans_le few)
    rw [newWords] at newGas
    have bytes := toNat_newMemSize bounded
    have more : before.words ≤ wordsOf size.toNat := by
      unfold words wordsOf
      omega
    have length : (before.space ++ List.replicate
        ((toWordSize (U256.lowU64 size) <<< 5).toNat - before.space.length) 0).length =
        32 * wordsOf size.toNat := by
      rw [List.length_append, List.length_replicate, bytes]
      unfold words at whole more
      omega
    have dearer := price_mono more
    have same (space : Bytes) (gas : Gas) (covers : space.length = 32 * wordsOf size.toNat) :
        words ⟨space, gas⟩ = wordsOf size.toNat := by
      rw [words, covers, Nat.mul_div_cancel_left _ (by omega)]
    rw [max_eq_right more]
    refine ⟨⟨?_, ?_, ?_⟩, same _ _ length, ?_⟩
    · rw [same _ _ length]
      exact length
    · exact length.trans_le (by omega)
    · rw [same _ _ length]
      exact newGas
    · rw [same _ _ length, UInt64.toNat_sub_of_le, newGas, priced.lastGas]
      · omega
      · rw [UInt64.le_iff_toNat_le, newGas, priced.lastGas]
        exact dearer
  · rw [if_neg grows] at run
    obtain ⟨rfl, rfl⟩ := Outcome.ok.inj run
    rw [gt_iff_lt, UInt64.lt_iff_toNat_lt, asked, had, not_lt] at grows
    refine ⟨priced, ?_, rfl⟩
    unfold words wordsOf at *
    omega

/-- A slice starts at the offset and has the length. -/
theorem getSliceMut_ok (run : getSliceMut off len before = .ok (slice, fee) after) :
    ∃ stop : U256, stop.toNat = off.toNat + len.toNat ∧
      slice = ⟨off.toNat, off.toNat + len.toNat⟩ ∧
      resize stop before = .ok fee after := by
  unfold getSliceMut at run
  obtain ⟨stop, _, adds, rest⟩ := bind_ok.mp run
  obtain ⟨added, rfl⟩ := unwrap_ok.mp adds
  obtain ⟨grown, _, resizes, returns⟩ := bind_ok.mp rest
  obtain ⟨same, rfl⟩ := Outcome.ok.inj returns
  obtain ⟨rfl, rfl⟩ := Prod.mk.inj same
  unfold U256.checkedAdd at added
  split at added
  · rename_i fits
    obtain rfl := Option.some.inj added
    have sum : (off + len).toNat = off.toNat + len.toNat := by
      rw [BitVec.toNat_add]
      exact Nat.mod_eq_of_lt fits
    exact ⟨off + len, sum, by rw [sum], resizes⟩
  · contradiction

/-- A memory that has grown contains the region. -/
theorem getSliceMut_covers
    (priced : before.Priced) (run : getSliceMut off len before = .ok (slice, fee) after) :
    off.toNat + len.toNat ≤ after.space.length := by
  obtain ⟨stop, sum, -, resizes⟩ := getSliceMut_ok run
  rw [← sum]
  refine resize_covers (Nat.lt_of_le_of_lt priced.bounded ?_) resizes
  decide

/-- Writing inside of a memory does not change its size. -/
theorem write_ok {data : Bytes} (run : write slice data before = .ok () after)
    (fits : slice.start + data.length ≤ before.space.length) :
    after.space.length = before.space.length ∧ after.lastGas = before.lastGas := by
  obtain ⟨-, rfl⟩ := Outcome.ok.inj run
  refine ⟨?_, rfl⟩
  simp only [List.length_append, List.length_take, List.length_drop]
  omega

/-- Writing to a region that the memory contains does not change its size. -/
theorem set_ok
    {data : Bytes} (priced : before.Priced)
    (inside : off.toNat + len.toNat ≤ before.space.length)
    (run : set off len data before = .ok fee after) :
    after.Priced ∧ after.words = before.words := by
  unfold set at run
  obtain ⟨⟨slice, gas⟩, grown, slices, run⟩ := bind_ok.mp run
  obtain ⟨_, written, writes, returns⟩ := bind_ok.mp run
  obtain ⟨-, rfl⟩ := Outcome.ok.inj returns
  obtain ⟨stop, sum, rfl, resizes⟩ := getSliceMut_ok slices
  obtain ⟨same, words, -⟩ := resize_ok priced resizes
  have whole := priced.whole
  have enough : wordsOf stop.toNat ≤ before.words := by
    unfold wordsOf
    omega
  rw [max_eq_left enough] at words
  obtain ⟨length, lastGas⟩ := write_ok writes (by
    rw [same.whole, words, List.length_take]
    dsimp only
    omega)
  obtain ⟨priced, kept⟩ := same.congr length lastGas
  exact ⟨priced, kept.trans words⟩

/-- A slice is a copy of the bytes of a region. -/
theorem getSlice_ok {data : Bytes} (run : getSlice off len before = .ok (data, fee) after) :
    getSliceMut off len before =
        .ok (⟨off.toNat, off.toNat + len.toNat⟩, fee) after ∧
      data = (after.space.take (off.toNat + len.toNat)).drop off.toNat := by
  unfold getSlice at run
  obtain ⟨⟨slice, gas⟩, _, slices, run⟩ := bind_ok.mp run
  have returns := reads_bind_ok.mp run
  obtain ⟨same, rfl⟩ := Outcome.ok.inj returns
  obtain ⟨rfl, rfl⟩ := Prod.mk.inj same
  obtain ⟨-, -, rfl, -⟩ := getSliceMut_ok slices
  exact ⟨slices, rfl⟩

/-- A slice is not larger than a memory may be. -/
theorem getSlice_length {data : Bytes}
    (run : getSlice off len before = .ok (data, fee) after) :
    data.length ≤ maxMemSize := by
  obtain ⟨slices, rfl⟩ := getSlice_ok run
  obtain ⟨stop, sum, -, resizes⟩ := getSliceMut_ok slices
  have bounded := resize_bounded resizes
  rw [List.length_drop, List.length_take]
  omega

end Memory
end Qevm
