import Qevm.Core.Interpreter

/-!
# The instruction grid of a code

The offsets at which the instructions of a code start, as the jump table marks
them, and where the decoder finds the next one.
-/

namespace Qevm

/-! ### The jump table -/

/-- The first byte that is not skipped starts an instruction. -/
theorem genCodeBitmapFrom_skip
    {nskip : Nat} {code : Bytes} (inside : nskip < code.length) :
    (genCodeBitmapFrom nskip code)[nskip]? = some true := by
  induction code generalizing nskip with
  | nil => exact absurd inside (Nat.not_lt_zero _)
  | cons byte rest inductionHypothesis =>
      cases nskip with
      | zero => rfl
      | succ nskip =>
          rw [genCodeBitmapFrom, List.getElem?_cons_succ]
          exact inductionHypothesis (Nat.lt_of_succ_lt_succ inside)

/-- After an instruction and its data the next one starts, unless the code ends
there. -/
theorem genCodeBitmapFrom_next
    {nskip offset : Nat} {code : Bytes}
    (starts : (genCodeBitmapFrom nskip code)[offset]? = some true) :
    ∃ byte, code[offset]? = some byte ∧
      ∀ next, next = offset + 1 + pushWidth byte → next < code.length →
        (genCodeBitmapFrom nskip code)[next]? = some true := by
  induction nskip, code using genCodeBitmapFrom.induct generalizing offset with
  | case1 nskip => simp [genCodeBitmapFrom] at starts
  | case2 byte rest inductionHypothesis =>
      cases offset with
      | zero =>
          refine ⟨byte, rfl, fun next same inside => ?_⟩
          obtain rfl : next = pushWidth byte + 1 := by omega
          rw [genCodeBitmapFrom, List.getElem?_cons_succ]
          exact genCodeBitmapFrom_skip (Nat.lt_of_succ_lt_succ inside)
      | succ position =>
          rw [genCodeBitmapFrom, List.getElem?_cons_succ] at starts
          obtain ⟨found, holds, follows⟩ := inductionHypothesis starts
          refine ⟨found, holds, fun next same inside => ?_⟩
          obtain rfl : next = position + 1 + pushWidth found + 1 := by omega
          rw [genCodeBitmapFrom, List.getElem?_cons_succ]
          exact follows _ rfl (Nat.lt_of_succ_lt_succ inside)
  | case3 nskip byte rest inductionHypothesis =>
      cases offset with
      | zero => simp [genCodeBitmapFrom] at starts
      | succ position =>
          rw [genCodeBitmapFrom, List.getElem?_cons_succ] at starts
          obtain ⟨found, holds, follows⟩ := inductionHypothesis starts
          refine ⟨found, holds, fun next same inside => ?_⟩
          obtain rfl : next = position + 1 + pushWidth found + 1 := by omega
          rw [genCodeBitmapFrom, List.getElem?_cons_succ]
          exact follows _ rfl (Nat.lt_of_succ_lt_succ inside)

/-! ### Decoding -/

/-- Beyond the end of a code there is `STOP`. -/
theorem decode_beyond
    {code : Bytes} {pc : UInt64} (beyond : code.length ≤ pc.toNat) :
    decode code pc = some ⟨.stop, none, 0⟩ := by
  have none : code[pc.toNat]? = none := List.getElem?_eq_none beyond
  unfold decode
  rw [none]
  rfl

/-- A `PUSH` has its data inside the code, and the other instructions have no
data. -/
theorem decode_width
    {code : Bytes} {pc : UInt64} {inst : Inst} (decoded : decode code pc = some inst) :
    (inst.opcode = .push ∧
        inst.skip.toNat = pushWidth (code[pc.toNat]?.getD 0) ∧
        pc.toNat + 1 + pushWidth (code[pc.toNat]?.getD 0) ≤ code.length) ∨
      (inst.skip = 0 ∧ pushWidth (code[pc.toNat]?.getD 0) = 0) := by
  unfold decode at decoded
  dsimp only at decoded
  split at decoded
  · rename_i range
    have width : pushWidth (code[pc.toNat]?.getD 0) =
        (code[pc.toNat]?.getD 0).toNat - 0x60 + 1 := if_pos range
    have below := (code[pc.toNat]?.getD 0).toNat_lt
    split at decoded
    · rename_i fits
      obtain rfl := Option.some.inj decoded
      refine .inl ⟨rfl, ?_, by omega⟩
      rw [width, Inst.skip, UInt64.toNat_ofNat', List.length_drop,
        List.length_take]
      omega
    · contradiction
  · rename_i range
    refine .inr ⟨?_, if_neg range⟩
    split at decoded
    · obtain rfl := Option.some.inj decoded
      rfl
    · split at decoded
      · obtain rfl := Option.some.inj decoded
        rfl
      · split at decoded
        · obtain rfl := Option.some.inj decoded
          rfl
        · obtain rfl := Option.some.inj decoded
          rfl

/-- A counter that is at the start of an instruction, or beyond the code. -/
def OnGrid (code : Bytes) (pc : UInt64) : Prop :=
  code.length ≤ pc.toNat ∨ (genCodeBitmap code)[pc.toNat]? = some true

namespace OnGrid

variable {code : Bytes} {pc : UInt64}

/-- A frame starts at the start of an instruction. -/
theorem start (code : Bytes) : OnGrid code 0 := by
  by_cases empty : code = []
  · subst empty
    exact .inl (Nat.le_refl _)
  · exact .inr (genCodeBitmapFrom_skip (List.length_pos_iff.mpr empty))

/-- The decoder skips exactly what the jump table skips. -/
theorem next
    {inst : Inst} (onGrid : OnGrid code pc) (fits : code.length < 2 ^ 64)
    (decoded : decode code pc = some inst) (inside : pc.toNat < code.length) :
    OnGrid code (pc + (inst.skip + 1)) := by
  obtain beyond | starts := onGrid
  · exact absurd inside (Nat.not_lt.mpr beyond)
  obtain ⟨byte, holds, follows⟩ := genCodeBitmapFrom_next starts
  have width : inst.skip.toNat = pushWidth byte ∧
      pc.toNat + 1 + pushWidth byte ≤ code.length := by
    have data := decode_width decoded
    rw [holds, Option.getD_some] at data
    obtain ⟨-, skip, ends⟩ | ⟨skip, none⟩ := data
    · exact ⟨skip, ends⟩
    · rw [skip, none]
      exact ⟨rfl, inside⟩
  have position : (pc + (inst.skip + 1)).toNat = pc.toNat + 1 + pushWidth byte := by
    rw [UInt64.toNat_add, UInt64.toNat_add, UInt64.toNat_one]
    omega
  by_cases last : (pc + (inst.skip + 1)).toNat < code.length
  · exact .inr (follows _ position last)
  · exact .inl (Nat.not_lt.mp last)

end OnGrid

end Qevm
