import Qevm.Core.Alu
import Mathlib.Algebra.BigOperators.Intervals
import Mathlib.Data.BitVec

/-!
# What the arithmetic instructions compute

A word is read as a number or, in two's complement, as an integer.  Signed instructions
split their operands into a sign and an absolute value; the least integer is its own
absolute value, and nothing goes wrong with it.
-/

namespace Qevm
namespace Alu

/-! ## Signed division -/

theorem neg_eq (a : U256) : neg a = -a := by
  have pred : a - 1 = ~~~(-a) := (BitVec.not_neg a).symm
  rw [neg, BitVec.xor_allOnes, pred, BitVec.not_not]

theorem getSignAbs_eq (x : U256) : getSignAbs x = (x.msb, if x.msb then -x else x) := by
  have sign : x.getLsbD 255 = x.msb := (BitVec.msb_eq_getLsbD_last x).symm
  unfold getSignAbs
  rw [sign, neg_eq]
  cases x.msb <;> rfl

theorem checkedDiv_of_ne {a b : U256} (nonzero : b ≠ 0) : checkedDiv a b = some (a / b) :=
  if_neg nonzero

/-- Division by a sign and an absolute value is division of integers. -/
theorem sdiv_eq (a b : U256) : sdiv a b = a.sdiv b := by
  unfold sdiv
  rw [getSignAbs_eq, getSignAbs_eq]
  by_cases zero : b = 0
  · subst zero
    simp [checkedDiv, BitVec.sdiv_zero]
  · have nonzero : -b ≠ 0 := fun same => zero (BitVec.neg_eq_zero_iff.mp same)
    rw [BitVec.sdiv_eq]
    cases a.msb <;> cases b.msb <;>
      simp [checkedDiv_of_ne zero, checkedDiv_of_ne nonzero, neg_eq]

/-- The quotient is truncated toward zero and wraps around. -/
theorem sdiv_eq_ofInt (a b : U256) :
    sdiv a b = BitVec.ofInt 256 (a.toInt.tdiv b.toInt) := by
  apply BitVec.eq_of_toInt_eq
  rw [sdiv_eq, BitVec.toInt_sdiv, BitVec.toInt_ofInt]

/-- The remainder is what the quotient leaves. -/
theorem smod_eq_ofInt {a b : U256} (nonzero : b ≠ 0) :
    smod a b = BitVec.ofInt 256 (a.toInt.tmod b.toInt) := by
  have rest : a.toInt.tmod b.toInt = a.toInt + -(b.toInt * a.toInt.tdiv b.toInt) := by
    have division := Int.tmod_add_mul_tdiv a.toInt b.toInt
    omega
  rw [smod, if_neg nonzero, sdiv_eq_ofInt, rest, BitVec.ofInt_add, BitVec.ofInt_neg,
    BitVec.ofInt_mul, BitVec.ofInt_toInt, BitVec.ofInt_toInt, BitVec.sub_eq_add_neg]

/-! ## Signed comparison -/

/-- Negative words are ordered as their absolute values are, the other way round. -/
theorem neg_lt_neg_iff {a b : U256} (left : a.msb = true) (right : b.msb = true) :
    -a < -b ↔ b < a := by
  have first := BitVec.msb_eq_true_iff_two_mul_ge.mp left
  have second := BitVec.msb_eq_true_iff_two_mul_ge.mp right
  rw [BitVec.lt_def, BitVec.lt_def, BitVec.toNat_neg, BitVec.toNat_neg]
  omega

/-- Words of one sign are ordered as numbers. -/
theorem toInt_lt_iff_of_msb {a b : U256} (same : a.msb = b.msb) :
    a.toInt < b.toInt ↔ a < b := by
  rw [BitVec.toInt_eq_msb_cond, BitVec.toInt_eq_msb_cond, same, BitVec.lt_def]
  cases b.msb <;> simp only [if_true, Bool.false_eq_true, if_false] <;> omega

/-- Of two signs, the negative word is the smaller one. -/
theorem toInt_lt_iff_of_ne {a b : U256} (different : a.msb ≠ b.msb) :
    a.toInt < b.toInt ↔ a.msb = true := by
  have left := a.isLt
  have right := b.isLt
  rw [BitVec.toInt_eq_msb_cond, BitVec.toInt_eq_msb_cond]
  cases first : a.msb with
  | false =>
      have second : b.msb = true := by
        rw [first] at different
        exact Bool.ne_false_iff.mp different.symm
      simp only [second, Bool.false_eq_true, if_true, if_false, iff_false]
      omega
  | true =>
      have second : b.msb = false := by
        rw [first] at different
        exact Bool.not_eq_true _ ▸ different.symm
      simp only [second, Bool.false_eq_true, if_true, if_false, iff_true]
      omega

/-- Among words of one sign, those of absolute values decide the order. -/
theorem abs_lt_eq
    {a b : U256} {sign : Bool} (left : a.msb = sign) (right : b.msb = sign) :
    (if (if sign then -a else a) = (if sign then -b else b) then false
      else decide ((if sign then -a else a) < if sign then -b else b) ^^ sign) =
      decide (a < b) := by
  by_cases same : a = b
  · subst same
    simp
  · cases sign with
    | false => simp [same]
    | true =>
        have order : ¬ -a < -b ↔ a < b := by
          rw [neg_lt_neg_iff left right, BitVec.not_lt]
          exact ⟨fun le => BitVec.lt_of_le_ne le same, BitVec.le_of_lt⟩
        simp only [if_true, BitVec.neg_inj, same, if_false, Bool.xor_true]
        rw [← decide_not, decide_eq_decide.mpr order]

theorem slt_eq (a b : U256) : slt a b = if a.toInt < b.toInt then 1 else 0 := by
  unfold slt
  rw [getSignAbs_eq, getSignAbs_eq]
  by_cases same : a.msb = b.msb
  · simp only [toInt_lt_iff_of_msb same, same, Bool.xor_self, Bool.false_eq_true, if_false]
    rw [abs_lt_eq same rfl]
    simp only [boolToU256, decide_eq_true_eq]
  · have signs : (a.msb ^^ b.msb) = true := bne_iff_ne.mpr same
    simp only [signs, if_true, toInt_lt_iff_of_ne same]
    rfl

/-- The other comparison exchanges the operands. -/
theorem sgt_eq (a b : U256) : sgt a b = slt b a := by
  unfold sgt slt
  rw [getSignAbs_eq, getSignAbs_eq]
  simp only [Bool.xor_comm a.msb, @eq_comm _ (if a.msb then -a else a), gt_iff_lt]

/-- Signed division and its remainder are those of integers, truncated toward zero; the
comparisons are those of integers; and quotient and remainder give back the dividend. -/
theorem signed_arithmetic (a b : U256) :
    sdiv a b = (if b = 0 then 0 else BitVec.ofInt 256 (a.toInt.tdiv b.toInt)) ∧
      (smod a b).toInt = (if b = 0 then 0 else a.toInt.tmod b.toInt) ∧
      slt a b = (if a.toInt < b.toInt then 1 else 0) ∧
      sgt a b = (if a.toInt > b.toInt then 1 else 0) ∧
      sdiv a b * b + smod a b = if b = 0 then 0 else a := by
  refine ⟨?_, ?_, slt_eq a b, (sgt_eq a b).trans (slt_eq b a), ?_⟩
  · rw [sdiv_eq_ofInt]
    split
    · next zero => simp [zero]
    · rfl
  · split
    · next zero => simp [smod, zero]
    · next nonzero =>
        have remainder : smod a b = a.srem b := by
          apply BitVec.eq_of_toInt_eq
          rw [smod_eq_ofInt nonzero, ← BitVec.toInt_srem, BitVec.ofInt_toInt]
        rw [remainder, BitVec.toInt_srem]
  · split
    · next zero => simp [smod, zero]
    · next nonzero =>
        rw [smod, if_neg nonzero, BitVec.mul_comm (sdiv a b), BitVec.add_comm]
        exact BitVec.sub_add_cancel _ _

/-! ## Filling with ones -/

/-- Ones in the highest `count` bits. -/
def topOnes (count : Nat) : U256 := ((1 : U256) <<< count - 1) <<< (256 - count)

theorem toNat_lowOnes {count : Nat} (small : count ≤ 256) :
    ((1 : U256) <<< count - 1).toNat = 2 ^ count - 1 := by
  have shifted : ((1 : U256) <<< count).toNat = 2 ^ count % 2 ^ 256 := by
    rw [BitVec.toNat_shiftLeft, Nat.shiftLeft_eq]
    exact congrArg (· % 2 ^ 256) (Nat.one_mul _)
  have positive := Nat.two_pow_pos count
  rw [BitVec.toNat_sub, shifted]
  change (2 ^ 256 - 1 + 2 ^ count % 2 ^ 256) % 2 ^ 256 = 2 ^ count - 1
  obtain less | rfl := Nat.lt_or_eq_of_le small
  · have fits : 2 ^ count < 2 ^ 256 := Nat.pow_lt_pow_right (by decide) less
    rw [Nat.mod_eq_of_lt fits]
    omega
  · rfl

theorem getLsbD_topOnes {count : Nat} (small : count ≤ 256) (index : Nat) :
    (topOnes count).getLsbD index = (decide (index < 256) && decide (256 - count ≤ index)) := by
  have ones (index : Nat) :
      ((1 : U256) <<< count - 1).getLsbD index = decide (index < count) := by
    rw [BitVec.getLsbD, toNat_lowOnes small, Nat.testBit_two_pow_sub_one]
  rw [topOnes, BitVec.getLsbD_shiftLeft, ones]
  by_cases inside : index < 256
  · by_cases high : 256 - count ≤ index
    · simp [inside, high, Nat.not_lt.mpr high]
      omega
    · simp [high, Nat.lt_of_not_le high]
  · simp [inside]

/-! ## Sign extension -/

/-- The integer in the lowest `back + 1` bytes of a word, as a word. -/
def extended (back x : U256) : U256 :=
  if 31 ≤ back then x
  else BitVec.ofInt 256 (x.setWidth (8 * (back.toNat + 1))).toInt

/-- From 31 on all bytes count. -/
theorem signExtend_large {back : U256} (large : 31 ≤ back) (x : U256) :
    signExtend back x = x := by
  have clamped : (if back > 31 then 31 else back) = 31 := by
    split
    · rfl
    · next small => exact BitVec.le_antisymm (BitVec.not_lt.mp small) large
  unfold signExtend
  rw [clamped]
  change (if x.getLsbD 255 then x ||| (0 : U256) else x) = x
  rw [show x ||| (0 : U256) = x from BitVec.or_zero, ite_self]

theorem signExtend_small {back : U256} (small : ¬31 ≤ back) (x : U256) :
    signExtend back x =
      if x.getLsbD (8 * back.toNat + 7) then x ||| topOnes (248 - 8 * back.toNat) else x := by
  have less : back.toNat < 31 := BitVec.lt_def.mp (BitVec.not_le.mp small)
  have kept : ¬back > 31 := fun large => small (BitVec.le_of_lt large)
  have shift : (back.toNat + 1) <<< 3 = 8 * back.toNat + 8 := by
    rw [Nat.shiftLeft_eq]
    omega
  have rest : 256 - (8 * back.toNat + 8) = 248 - 8 * back.toNat := by omega
  have width : 256 - (248 - 8 * back.toNat) = 8 * back.toNat + 8 := by omega
  simp only [signExtend, kept, if_false, shift, topOnes, rest, width]
  rfl

/-- A negative number is extended by ones. -/
theorem or_topOnes_eq {width : Nat} (positive : 0 < width) (small : width ≤ 256) {x : U256}
    (negative : x.getLsbD (width - 1) = true) :
    x ||| topOnes (256 - width) = (x.setWidth width).signExtend 256 := by
  have sign : (x.setWidth width).msb = true := by
    rw [BitVec.msb_setWidth, negative, decide_eq_true positive]
    rfl
  apply BitVec.eq_of_getLsbD_eq
  intro index inside
  rw [BitVec.getLsbD_or, getLsbD_topOnes (Nat.sub_le _ _), BitVec.getLsbD_signExtend, sign,
    BitVec.getLsbD_setWidth]
  have high : 256 - (256 - width) ≤ index ↔ ¬index < width := by omega
  by_cases low : index < width
  · simp [inside, low, high]
  · simp [inside, low, high]

/-- A number that is not negative is extended by zeros. -/
theorem signExtend_of_nonnegative {width : Nat} {x : U256}
    (nonnegative : x.getLsbD (width - 1) = false) :
    ((x.setWidth width).signExtend 256).toNat = x.toNat % 2 ^ width % 2 ^ 256 := by
  have sign : (x.setWidth width).msb = false := by
    rw [BitVec.msb_setWidth, nonnegative, Bool.and_false]
  rw [BitVec.signExtend, BitVec.toInt_eq_toNat_of_msb sign, BitVec.ofInt_natCast,
    BitVec.toNat_ofNat, BitVec.toNat_setWidth]

/-- `SIGNEXTEND` extends the number in the lowest bytes when it is negative, and otherwise
only when nothing stands above it.  Extending again changes nothing. -/
theorem sign_extend_iff (back x : U256) :
    (signExtend back x = extended back x ↔
      31 ≤ back ∨ x.getLsbD (8 * back.toNat + 7) = true ∨
        x.toNat < 2 ^ (8 * (back.toNat + 1))) ∧
      signExtend back (signExtend back x) = signExtend back x := by
  by_cases large : 31 ≤ back
  · rw [signExtend_large large, signExtend_large large, extended, if_pos large]
    exact ⟨iff_of_true rfl (.inl large), rfl⟩
  · have less : back.toNat < 31 := BitVec.lt_def.mp (BitVec.not_le.mp large)
    have rest : 248 - 8 * back.toNat = 256 - 8 * (back.toNat + 1) := by omega
    have top : 8 * back.toNat + 7 = 8 * (back.toNat + 1) - 1 := by omega
    rw [extended, if_neg large, or_iff_right large]
    simp only [signExtend_small large, rest, top]
    cases sign : x.getLsbD (8 * (back.toNat + 1) - 1) with
    | true =>
        have filled := or_topOnes_eq (by omega) (by omega) sign
        refine ⟨iff_of_true filled (.inl rfl), ?_⟩
        have still : (x ||| topOnes (256 - 8 * (back.toNat + 1))).getLsbD
            (8 * (back.toNat + 1) - 1) = true := by
          rw [BitVec.getLsbD_or, sign, Bool.true_or]
        simp only [if_true, still, BitVec.or_assoc, BitVec.or_self]
    | false =>
        have value := signExtend_of_nonnegative sign
        have bound : x.toNat % 2 ^ (8 * (back.toNat + 1)) < 2 ^ 256 :=
          Nat.lt_of_le_of_lt (Nat.mod_le _ _) x.isLt
        rw [Nat.mod_eq_of_lt bound] at value
        simp only [Bool.false_eq_true, if_false, sign, and_true, false_or]
        rw [← BitVec.toNat_inj]
        change x.toNat = ((x.setWidth _).signExtend 256).toNat ↔ _
        rw [value, eq_comm]
        exact Nat.mod_eq_iff_lt (Nat.two_pow_pos _).ne'

/-- The byte 0 of the word 256 is zero, and its extension is not. -/
theorem sign_extend_keeps_upper_bytes : signExtend 0 256 = 256 ∧ extended 0 256 = 0 := by
  decide +kernel

/-! ## Shifts -/

/-- Shifting by the width or more leaves nothing. -/
theorem toNat_shl (s val : U256) :
    (shl s val).toNat = val.toNat * 2 ^ s.toNat % 2 ^ 256 := by
  unfold shl
  split
  · rw [BitVec.toNat_shiftLeft, Nat.shiftLeft_eq]
  · next large =>
      have width : 256 ≤ s.toNat := BitVec.le_def.mp (BitVec.not_lt.mp large)
      have multiple : 2 ^ 256 ∣ val.toNat * 2 ^ s.toNat :=
        Dvd.dvd.mul_left (Nat.pow_dvd_pow 2 width) _
      exact (Nat.mod_eq_zero_of_dvd multiple).symm

/-- A shift to the right succeeds when its amount is a machine word. -/
theorem shr_iff (s val : U256) :
    (∃ shifted, shr s val = some shifted ∧ shifted.toNat = val.toNat / 2 ^ s.toNat) ↔
      s.toNat < 2 ^ 64 := by
  unfold shr
  constructor
  · rintro ⟨_, shifts, -⟩
    obtain ⟨amount, fits, -⟩ := Option.map_eq_some_iff.mp shifts
    rw [← toNat_checkedAsU64 fits]
    exact amount.toNat_lt
  · intro small
    have fits : checkedAsU64 s = some s.lowU64 := if_pos (Nat.le_sub_one_of_lt small)
    refine ⟨val >>> s.toNat, ?_, ?_⟩
    · rw [fits, Option.map_some, toNat_checkedAsU64 fits]
    · rw [BitVec.toNat_ushiftRight, Nat.shiftRight_eq_div_pow]

/-- The bits above a shifted word are filled with its sign. -/
theorem sar_eq (s val : U256) : sar s val = val.sshiftRight s.toNat := by
  have sign : val.getLsbD 255 = val.msb := (BitVec.msb_eq_getLsbD_last val).symm
  apply BitVec.eq_of_getLsbD_eq
  intro index inside
  rw [BitVec.getLsbD_sshiftRight, sar, sign]
  by_cases large : s > 256
  · have far : ¬s.toNat + index < 256 := by
      have width : 256 < s.toNat := BitVec.lt_def.mp large
      omega
    simp only [large, if_true, far, if_false]
    cases val.msb with
    | false => simp
    | true =>
        simp only [if_true, BitVec.getLsbD_allOnes]
        simp [inside, Nat.not_le.mpr inside]
  · have near : s.toNat ≤ 256 := BitVec.le_def.mp (BitVec.not_lt.mp large)
    have ones : (sub ((1 : U256) <<< s.toNat) 1) <<< (256 - s.toNat) = topOnes s.toNat := rfl
    simp only [large, if_false, ones]
    cases filled : val.msb with
    | false =>
        simp only [Bool.false_eq_true, if_false, BitVec.getLsbD_ushiftRight]
        by_cases low : s.toNat + index < 256
        · simp [low, Nat.not_le.mpr inside]
        · simp [low, BitVec.getLsbD_of_ge val _ (Nat.le_of_not_lt low)]
    | true =>
        simp only [if_true, BitVec.getLsbD_or, BitVec.getLsbD_ushiftRight,
          getLsbD_topOnes near]
        by_cases low : s.toNat + index < 256
        · have below : ¬256 - s.toNat ≤ index := by omega
          simp [low, below, Nat.not_le.mpr inside]
        · have above : 256 - s.toNat ≤ index := by omega
          simp [low, above, inside, Nat.not_le.mpr inside]

/-- Shifts multiply, and divide rounding down; the one to the right panics on an amount
that is no machine word. -/
theorem shifts_scale (s val : U256) :
    (shl s val).toNat = val.toNat * 2 ^ s.toNat % 2 ^ 256 ∧
      ((∃ shifted, shr s val = some shifted ∧
        shifted.toNat = val.toNat / 2 ^ s.toNat) ↔ s.toNat < 2 ^ 64) ∧
      sar s val = BitVec.ofInt 256 (val.toInt / 2 ^ s.toNat) := by
  refine ⟨toNat_shl s val, shr_iff s val, ?_⟩
  rw [sar_eq, BitVec.sshiftRight_eq, Int.shiftRight_eq_div_pow]
  norm_cast

/-- Nothing is left of a word shifted that far, but the shift panics. -/
theorem wide_shift_panics : shr (2 ^ 64) 1 = none := by decide +kernel

/-! ## Bytes -/

/-- A byte of a word, counted from the most significant one; no byte stands beyond the 32
of a word. -/
def byteAt (index : Nat) (x : U256) : Nat :=
  if index ≤ 31 then x.toNat / 256 ^ (31 - index) % 256 else 0

/-- A number is the sum of its lowest digits, the last of a range being the lowest one. -/
theorem sum_digits (base number count : Nat) :
    ∑ index ∈ Finset.range count,
        number / base ^ (count - 1 - index) % base * base ^ (count - 1 - index) =
      number % base ^ count := by
  rw [Finset.sum_range_reflect fun place => number / base ^ place % base * base ^ place]
  induction count with
  | zero => simp [Nat.mod_one]
  | succ count inductionHypothesis =>
      rw [Finset.sum_range_succ, inductionHypothesis, Nat.mod_pow_succ, Nat.mul_comm]

/-- An index beyond the word is taken for that of the lowest byte. -/
theorem toNat_byte (i x : U256) : (byte i x).toNat = byteAt (min i.toNat 31) x := by
  have clamped : (if i > 31 then 31 else i.toNat) = min i.toNat 31 := by
    split
    · next large => exact (Nat.min_eq_right (BitVec.le_def.mp (BitVec.le_of_lt large))).symm
    · next small => exact (Nat.min_eq_left (BitVec.le_def.mp (BitVec.not_lt.mp small))).symm
  have inside : min i.toNat 31 ≤ 31 := Nat.min_le_right _ _
  have shift : 248 - min i.toNat 31 <<< 3 = 8 * (31 - min i.toNat 31) := by
    rw [Nat.shiftLeft_eq]
    omega
  have lowest (number : Nat) : number &&& 255 = number % 256 :=
    Nat.and_two_pow_sub_one_eq_mod number 8
  simp only [byte, byteAt, clamped, inside, if_true, shift]
  rw [BitVec.toNat_and, BitVec.toNat_ushiftRight, Nat.shiftRight_eq_div_pow, Nat.pow_mul]
  exact lowest _

/-- `BYTE` reads the byte at its index when there is one, and beyond the word only when the
lowest byte is zero.  The bytes within the word make it up. -/
theorem byte_decomposes (i x : U256) :
    ((byte i x).toNat = byteAt i.toNat x ↔ i.toNat ≤ 31 ∨ x.toNat % 256 = 0) ∧
      ∑ index ∈ Finset.range 32,
        (byte (BitVec.ofNat 256 index) x).toNat * 256 ^ (31 - index) = x.toNat := by
  constructor
  · rw [toNat_byte]
    by_cases inside : i.toNat ≤ 31
    · rw [Nat.min_eq_left inside]
      exact iff_of_true rfl (.inl inside)
    · have beyond : byteAt i.toNat x = 0 := if_neg inside
      have lowest : byteAt 31 x = x.toNat % 256 := by
        rw [byteAt, if_pos (Nat.le_refl 31), Nat.sub_self, Nat.pow_zero, Nat.div_one]
      rw [Nat.min_eq_right (Nat.le_of_not_le inside), lowest, beyond, or_iff_right inside]
  · have digits : ∀ index ∈ Finset.range 32,
        (byte (BitVec.ofNat 256 index) x).toNat * 256 ^ (31 - index) =
          x.toNat / 256 ^ (31 - index) % 256 * 256 ^ (31 - index) := by
      intro index within
      have inside : index ≤ 31 := Nat.le_of_lt_succ (Finset.mem_range.mp within)
      have fits : (BitVec.ofNat 256 index).toNat = index := by
        rw [BitVec.toNat_ofNat]
        omega
      rw [toNat_byte, fits, Nat.min_eq_left inside, byteAt, if_pos inside]
    rw [Finset.sum_congr rfl digits, sum_digits 256 x.toNat 32]
    exact Nat.mod_eq_of_lt x.isLt

/-- The byte 32 of the word 1 is its lowest one. -/
theorem byte_beyond_word : (byte 32 1).toNat = 1 ∧ byteAt (32 : U256).toNat 1 = 0 := by
  decide +kernel

end Alu
end Qevm
