import Qevm.Core.Grid

/-!
# Jump destinations

The instructions of a code are found one after the other from its first byte on, whatever
the bytes between them look like.  One pass over the code with a counter finds them.
-/

namespace Qevm

/-- An offset is reached from the start of a code by whole instructions. -/
inductive Boundary (code : Bytes) : Nat → Prop
  | start : Boundary code 0
  | single {offset : Nat} {byte : UInt8} :
      Boundary code offset → code[offset]? = some byte →
      ¬(0x60 ≤ byte ∧ byte ≤ 0x7f) → Boundary code (offset + 1)
  | push {offset count : Nat} {byte : UInt8} :
      Boundary code offset → code[offset]? = some byte →
      1 ≤ count → count ≤ 32 → byte.toNat = 0x5f + count →
      Boundary code (offset + 1 + count)

namespace Boundary

variable {code : Bytes} {offset : Nat} {byte : UInt8}

/-- The counter is set to the number of immediate bytes. -/
theorem next (reached : Boundary code offset) (holds : code[offset]? = some byte) :
    Boundary code (offset + 1 + pushWidth byte) := by
  unfold pushWidth
  split
  · next range =>
      obtain ⟨least, most⟩ := range
      rw [UInt8.le_iff_toNat_le] at least most
      have first : (0x60 : UInt8).toNat = 0x60 := rfl
      have last : (0x7f : UInt8).toNat = 0x7f := rfl
      exact .push reached holds (by omega) (by omega) (by omega)
  · next range => exact .single reached holds range

/-- The pass marks the boundaries. -/
theorem marked (reached : Boundary code offset) (inside : offset < code.length) :
    (genCodeBitmap code)[offset]? = some true := by
  induction reached with
  | start => exact genCodeBitmapFrom_skip inside
  | @single offset byte reached holds range inductionHypothesis =>
      obtain ⟨found, same, follows⟩ :=
        genCodeBitmapFrom_next (inductionHypothesis (by omega))
      obtain rfl := Option.some.inj (same.symm.trans holds)
      have width : pushWidth found = 0 := if_neg range
      exact follows _ (by rw [width, Nat.add_zero]) inside
  | @push offset count byte reached holds least most number inductionHypothesis =>
      obtain ⟨found, same, follows⟩ :=
        genCodeBitmapFrom_next (inductionHypothesis (by omega))
      obtain rfl := Option.some.inj (same.symm.trans holds)
      have width : pushWidth found = count := by
        have first : (0x60 : UInt8) ≤ found := UInt8.le_iff_toNat_le.mpr (by
          change 0x60 ≤ found.toNat
          omega)
        have last : found ≤ (0x7f : UInt8) := UInt8.le_iff_toNat_le.mpr (by
          change found.toNat ≤ 0x7f
          omega)
        rw [pushWidth, if_pos ⟨first, last⟩]
        omega
      exact follows _ (by rw [width]) inside

/-- While the pass skips bytes, the next boundary is where its counter runs out.  What
it marks in the rest of the code are boundaries. -/
theorem of_marked
    {nskip : Nat} (seen : Bytes) {rest : Bytes}
    (ahead : Boundary (seen ++ rest) (seen.length + nskip))
    (marks : (genCodeBitmapFrom nskip rest)[offset]? = some true) :
    Boundary (seen ++ rest) (seen.length + offset) := by
  induction nskip, rest using genCodeBitmapFrom.induct generalizing seen offset with
  | case1 nskip => simp [genCodeBitmapFrom] at marks
  | case2 byte rest inductionHypothesis =>
      cases offset with
      | zero => exact ahead
      | succ offset =>
          have holds : (seen ++ byte :: rest)[seen.length + 0]? = some byte := by simp
          have following := ahead.next holds
          rw [genCodeBitmapFrom, List.getElem?_cons_succ] at marks
          rw [List.append_cons] at following ⊢
          have reached := inductionHypothesis (seen ++ [byte])
            (by simpa using following) marks
          rw [List.length_append, List.length_singleton] at reached
          rwa [Nat.add_comm offset, ← Nat.add_assoc]
  | case3 nskip byte rest inductionHypothesis =>
      cases offset with
      | zero => simp [genCodeBitmapFrom] at marks
      | succ offset =>
          rw [genCodeBitmapFrom, List.getElem?_cons_succ] at marks
          rw [List.append_cons] at ahead ⊢
          have reached := inductionHypothesis (seen ++ [byte])
            (by simpa [Nat.add_assoc, Nat.add_comm 1] using ahead) marks
          rw [List.length_append, List.length_singleton] at reached
          rwa [Nat.add_comm offset, ← Nat.add_assoc]

end Boundary

/-- The pass marks exactly the boundaries in the code. -/
theorem genCodeBitmap_iff {code : Bytes} {offset : Nat} :
    (genCodeBitmap code)[offset]? = some true ↔
      offset < code.length ∧ Boundary code offset := by
  constructor
  · intro marks
    obtain ⟨byte, holds, -⟩ := genCodeBitmapFrom_next marks
    have reached : Boundary code (0 + offset) := Boundary.of_marked [] .start marks
    rw [Nat.zero_add] at reached
    exact ⟨(List.getElem?_eq_some_iff.mp holds).1, reached⟩
  · rintro ⟨inside, reached⟩
    exact reached.marked inside

/-- One byte has the variant of `JUMPDEST`. -/
theorem fromU8_jumpDest (byte : UInt8) :
    Opcode.fromU8 byte = some .jumpDest ↔ byte = 0x5b := by
  revert byte
  exact each_byte (by decide +kernel)

namespace PlainCode

variable [Keccak256] {code : Bytes}

/-- An offset that is marked is an instruction. -/
theorem isOpcode_iff {offset : Nat} :
    (new code).isOpcode offset = true ↔ offset < code.length ∧ Boundary code offset := by
  rw [← genCodeBitmap_iff, isOpcode, new]
  cases (genCodeBitmap code)[offset]? <;> simp

/-- A valid destination is a `JUMPDEST` that is reached by whole instructions.  The length
of a code is a 64-bit number. -/
theorem isValidJumpdest_iff (fits : code.length < 2 ^ 64) (dest : U256) :
    (new code).isValidJumpdest dest = true ↔
      dest.toNat < code.length ∧ code[dest.toNat]? = some 0x5b ∧
        Boundary code dest.toNat := by
  unfold isValidJumpdest
  cases converted : checkedAsU64 dest with
  | none =>
      have wide := wide_of_checkedAsU64 converted
      have outside : ¬dest.toNat < code.length := by omega
      simp [outside]
  | some target =>
      have same : target.toNat = dest.toNat := toNat_checkedAsU64 converted
      simp only [same, code_new]
      by_cases marked : (new code).isOpcode dest.toNat = true
      · obtain ⟨inside, reached⟩ := isOpcode_iff.mp marked
        have holds := List.getElem?_eq_getElem inside
        have jumps := fromU8_jumpDest code[dest.toNat]
        rw [if_pos marked, holds, Option.bind_some]
        split
        · next variant => simp [inside, reached, jumps.mp variant]
        · next variant =>
            have other : code[dest.toNat] ≠ 0x5b := fun same => variant (jumps.mpr same)
            simp [inside, reached, other]
      · have outside : ¬(dest.toNat < code.length ∧ Boundary code dest.toNat) :=
          fun reached => marked (isOpcode_iff.mpr reached)
        rw [if_neg marked]
        simp only [Bool.false_eq_true, false_iff]
        rintro ⟨inside, -, reached⟩
        exact outside ⟨inside, reached⟩

end PlainCode

/-- Pushes two bytes that look like `JUMPDEST`, and has one after them. -/
def Sample.immediateCode : Bytes := [0x61, 0x5b, 0x5b, 0x5b]

/-- The one after them is a destination, and they are not. -/
theorem immediate_data_is_no_destination :
    Boundary Sample.immediateCode 3 ∧ ¬Boundary Sample.immediateCode 2 := by
  let digests : Keccak256 := ⟨fun _ => 0⟩
  have fits : Sample.immediateCode.length < 2 ^ 64 := by decide
  constructor
  · exact ((PlainCode.isValidJumpdest_iff fits 3).mp (by decide)).2.2
  · intro reached
    have valid := (PlainCode.isValidJumpdest_iff fits 2).mpr ⟨by decide, rfl, reached⟩
    exact absurd valid (by decide)

end Qevm
