import Qevm.Laws.MemoryModel

/-!
# Access to the memory

The end of a region is a sum of two words that panics when it overflows, and the memory
grows to the end of a region even when the region is empty.  Every other access to the
memory is as it should be.
-/

namespace Qevm

open Params Procedure

namespace Memory

variable {memory after : Memory} {off len : U256} {fee : Gas} {slice : Slice}

/-- A memory that operations on a new memory can lead to. -/
def Reachable (memory : Memory) : Prop :=
  ∃ tape paid, MemoryHistory memory tape paid

/-- An access to the memory as it should be: it does not panic, it is free and does not grow
the memory when the region is empty, and otherwise it grows the memory by whole words to
contain the region or fails beyond the limit. -/
structure Access (memory : Memory) (off len : U256) : Prop where
  total : ∀ reason, getSliceMut off len memory ≠ .panic reason
  free : len = 0 → ∃ slice after, getSliceMut off len memory = .ok (slice, 0) after ∧
    slice.stop = slice.start ∧ after.space.length = memory.space.length
  limited : len ≠ 0 → maxMemSize < off.toNat + len.toNat →
    getSliceMut off len memory = .error .outOfMemory memory
  grows : len ≠ 0 → off.toNat + len.toNat ≤ maxMemSize → ∃ slice fee after,
    getSliceMut off len memory = .ok (slice, fee) after ∧
      slice.stop = slice.start + len.toNat ∧ slice.stop ≤ after.space.length ∧
      after.space.length =
        max memory.space.length (32 * ((off.toNat + len.toNat + 31) / 32))

/-- The accesses to the memory that are as they should be. -/
def Proper (memory : Memory) (off len : U256) : Prop :=
  len = 0 ∧ off.toNat ≤ memory.space.length ∨
    len ≠ 0 ∧ off.toNat + len.toNat < 2 ^ 256

instance (memory : Memory) (off len : U256) : Decidable (memory.Proper off len) :=
  inferInstanceAs (Decidable (_ ∨ _))

theorem Reachable.priced (reachable : memory.Reachable) : memory.Priced := by
  obtain ⟨tape, paid, runs⟩ := reachable
  exact runs.priced.1

/-- Growing within the limit returns. -/
theorem resize_returns (memory : Memory) {size : U256} (bounded : size.toNat ≤ maxMemSize) :
    ∃ fee after, resize size memory = .ok fee after := by
  unfold resize
  rw [if_neg (Nat.not_lt.mpr bounded)]
  dsimp only
  split <;> exact ⟨_, _, rfl⟩

/-- The end of a region overflows exactly when it is no word. -/
theorem getSliceMut_panic {reason : Panic}
    (overflows : 2 ^ 256 ≤ off.toNat + len.toNat) :
    getSliceMut off len memory = .panic reason ↔ reason = .arithmeticOverflow := by
  have none : U256.checkedAdd off len = none := if_neg (Nat.not_lt.mpr overflows)
  unfold getSliceMut
  rw [none]
  simp only [unwrap, bind, Procedure.bind, abort, Outcome.panic.injEq, eq_comm]

/-- Beyond the limit a slice fails and changes nothing. -/
theorem getSliceMut_limited
    (memory : Memory)
    (fits : off.toNat + len.toNat < 2 ^ 256) (large : maxMemSize < off.toNat + len.toNat) :
    getSliceMut off len memory = .error .outOfMemory memory := by
  have sum : (off + len).toNat = off.toNat + len.toNat := by
    rw [BitVec.toNat_add, Nat.mod_eq_of_lt fits]
  rw [getSliceMut_eq fits]
  exact bind_error.mpr (.inl (resize_error.mpr ⟨by rwa [sum], rfl, rfl⟩))

/-- Within the limit a slice contains the region, and the memory is as large as before or
as the words of the region. -/
theorem getSliceMut_returns
    (priced : memory.Priced) (small : off.toNat + len.toNat ≤ maxMemSize) :
    ∃ fee after, getSliceMut off len memory =
        .ok (⟨off.toNat, off.toNat + len.toNat⟩, fee) after ∧
      after.Priced ∧ after.words = max memory.words (wordsOf (off.toNat + len.toNat)) ∧
      price memory.words + fee.toNat = price after.words := by
  have limit : maxMemSize = 0x1fffffffe0 := rfl
  have fits : off.toNat + len.toNat < 2 ^ 256 := by omega
  have sum : (off + len).toNat = off.toNat + len.toNat := by
    rw [BitVec.toNat_add, Nat.mod_eq_of_lt fits]
  obtain ⟨fee, after, grows⟩ := resize_returns memory (sum.trans_le small)
  obtain ⟨grown, words, paid⟩ := resize_ok priced grows
  rw [sum] at words
  refine ⟨fee, after, ?_, grown, words, paid⟩
  rw [getSliceMut_eq fits, ← sum]
  exact bind_ok.mpr ⟨fee, after, grows, rfl⟩

/-- Data can be written within the limit and nowhere else. -/
theorem set_returns_iff {data : Bytes} :
    (∃ fee after, set off len data memory = .ok fee after) ↔
      off.toNat + len.toNat ≤ maxMemSize := by
  have limit : maxMemSize = 0x1fffffffe0 := rfl
  unfold set
  constructor
  · rintro ⟨fee, after, run⟩
    obtain ⟨⟨slice, gas⟩, grown, slices, -⟩ := bind_ok.mp run
    obtain ⟨stop, sum, -, resizes⟩ := getSliceMut_ok slices
    exact sum ▸ resize_bounded resizes
  · intro small
    have fits : off.toNat + len.toNat < 2 ^ 256 := by omega
    have sum : (off + len).toNat = off.toNat + len.toNat := by
      rw [BitVec.toNat_add, Nat.mod_eq_of_lt fits]
    obtain ⟨fee, grown, grows⟩ := resize_returns memory (sum.trans_le small)
    have slices : getSliceMut off len memory =
        .ok (⟨off.toNat, (off + len).toNat⟩, fee) grown := by
      rw [getSliceMut_eq fits]
      exact bind_ok.mpr ⟨fee, grown, grows, rfl⟩
    exact ⟨fee, _, bind_ok.mpr ⟨_, grown, slices, rfl⟩⟩

/-- An empty region inside of the memory is free. -/
theorem getSliceMut_free
    (priced : memory.Priced) (inside : off.toNat ≤ memory.space.length) :
    ∃ after, getSliceMut off 0 memory = .ok (⟨off.toNat, off.toNat⟩, 0) after ∧
      after.space.length = memory.space.length := by
  have zero : (0 : U256).toNat = 0 := rfl
  have small : off.toNat + (0 : U256).toNat ≤ maxMemSize := inside.trans priced.bounded
  obtain ⟨fee, after, run, grown, words, paid⟩ := getSliceMut_returns priced small
  have whole := priced.whole
  have few : wordsOf (off.toNat + (0 : U256).toNat) ≤ memory.words := by
    unfold wordsOf
    omega
  rw [max_eq_left few] at words
  rw [words] at paid
  have nothing : fee = 0 := UInt64.toNat_inj.mp (by
    change fee.toNat = 0
    omega)
  refine ⟨after, ?_, by rw [grown.whole, words, ← whole]⟩
  rw [run, nothing]
  rfl

/-- The accesses to a priced memory that are as they should be. -/
theorem Priced.access_iff (priced : memory.Priced) :
    memory.Access off len ↔ memory.Proper off len := by
  constructor
  · intro access
    by_cases empty : len = 0
    · obtain ⟨slice, after, run, -, length⟩ := access.free empty
      have covers := getSliceMut_covers priced run
      exact .inl ⟨empty, (Nat.le_add_right _ _).trans (length ▸ covers)⟩
    · refine .inr ⟨empty, ?_⟩
      by_contra overflows
      exact access.total .arithmeticOverflow
        ((getSliceMut_panic (Nat.not_lt.mp overflows)).mpr rfl)
  · rintro (⟨rfl, inside⟩ | ⟨some, fits⟩)
    · obtain ⟨after, run, length⟩ := getSliceMut_free priced inside
      refine ⟨fun reason panics => ?_, fun _ => ⟨_, after, run, rfl, length⟩,
        fun some => absurd rfl some, fun some => absurd rfl some⟩
      rw [run] at panics
      contradiction
    · by_cases large : maxMemSize < off.toNat + len.toNat
      · have run := getSliceMut_limited memory fits large
        refine ⟨fun reason panics => ?_, fun none => absurd none some, fun _ _ => run,
          fun _ small => absurd large (Nat.not_lt.mpr small)⟩
        rw [run] at panics
        contradiction
      · have small := Nat.le_of_not_lt large
        obtain ⟨fee, after, run, grown, words, -⟩ := getSliceMut_returns priced small
        refine ⟨fun reason panics => ?_, fun none => absurd none some,
          fun _ beyond => absurd beyond large, fun _ _ => ⟨_, fee, after, run, rfl,
            getSliceMut_covers priced run, ?_⟩⟩
        · rw [run] at panics
          contradiction
        · rw [grown.whole, words, priced.whole, ← Nat.mul_max_mul_left]
          rfl

/-- An access to the memory is as it should be when the region is not empty and its end is
a word, or when it is empty and starts inside of the memory, and in no other case. -/
theorem access_iff_proper (reachable : memory.Reachable) :
    memory.Access off len ↔ memory.Proper off len :=
  reachable.priced.access_iff

/-- A word at the start of a new memory is accessed as it should be. -/
theorem first_word_access : new.Access 0 32 :=
  (access_iff_proper ⟨_, _, .new⟩).mpr (by decide)

/-- An empty region beyond a new memory grows it, one beyond the limit fails, and a region
that ends beyond the last word panics. -/
theorem empty_region_grows :
    new.Reachable ∧
      (¬new.Access 1 0 ∧ getSliceMut 1 0 new =
        .ok (⟨1, 1⟩, 3) ⟨List.replicate 32 0, 3⟩) ∧
      (¬new.Access (BitVec.ofNat 256 (2 ^ 255)) 0 ∧
        getSliceMut (BitVec.ofNat 256 (2 ^ 255)) 0 new = .error .outOfMemory new) ∧
      (¬new.Access (BitVec.ofNat 256 (2 ^ 256 - 1)) 1 ∧
        getSliceMut (BitVec.ofNat 256 (2 ^ 256 - 1)) 1 new =
          .panic .arithmeticOverflow) := by
  refine ⟨⟨_, _, .new⟩, ⟨?_, by rfl⟩, ⟨?_, ?_⟩, ⟨?_, ?_⟩⟩
  · exact fun access => absurd (priced_new.access_iff.mp access) (by decide)
  · exact fun access => absurd (priced_new.access_iff.mp access) (by decide)
  · exact getSliceMut_limited new (by decide) (by decide)
  · exact fun access => absurd (priced_new.access_iff.mp access) (by decide)
  · exact (getSliceMut_panic (by decide)).mpr rfl

end Memory

end Qevm
