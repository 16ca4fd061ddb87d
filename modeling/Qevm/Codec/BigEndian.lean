import Qevm.Codec.Rlp
import Mathlib.Tactic.Ring

/-!
# Big-endian digits

Digits of a fixed width and digits without leading zeros write every number in
exactly one way.
-/

namespace Rlp

/-- The number that big-endian digits write. -/
def ofBigEndian (digits : List UInt8) : Nat :=
  digits.foldl (fun value digit => value * 256 + digit.toNat) 0

@[simp] theorem ofBigEndian_nil : ofBigEndian [] = 0 := rfl

theorem ofBigEndian_cons (digit : UInt8) (digits : List UInt8) :
    ofBigEndian (digit :: digits) =
      digit.toNat * 256 ^ digits.length + ofBigEndian digits := by
  have general (start : Nat) :
      digits.foldl (fun value digit => value * 256 + digit.toNat) start =
        start * 256 ^ digits.length + ofBigEndian digits := by
    unfold ofBigEndian
    induction digits generalizing start with
    | nil => simp
    | cons head digits inductionHypothesis =>
        rw [List.foldl_cons, List.foldl_cons, inductionHypothesis,
          inductionHypothesis (0 * 256 + _), List.length_cons, Nat.pow_succ]
        ring
  have leading := general (0 * 256 + digit.toNat)
  rw [Nat.zero_mul, Nat.zero_add] at leading
  rw [← leading, ofBigEndian, List.foldl_cons, Nat.zero_mul, Nat.zero_add]

theorem ofBigEndian_lt (digits : List UInt8) :
    ofBigEndian digits < 256 ^ digits.length := by
  induction digits with
  | nil => simp
  | cons digit digits inductionHypothesis =>
      have small : digit.toNat ≤ 255 := Nat.le_of_lt_succ digit.toNat_lt
      rw [ofBigEndian_cons, List.length_cons, Nat.pow_succ]
      calc digit.toNat * 256 ^ digits.length + ofBigEndian digits
          < digit.toNat * 256 ^ digits.length + 256 ^ digits.length := by omega
        _ ≤ 255 * 256 ^ digits.length + 256 ^ digits.length :=
            Nat.add_le_add_right (Nat.mul_le_mul_right _ small) _
        _ = 256 ^ digits.length * 256 := by ring

@[simp] theorem length_bigEndian (width value : Nat) :
    (bigEndian width value).length = width := by
  induction width with
  | zero => rfl
  | succ width inductionHypothesis => simp [bigEndian, inductionHypothesis]

@[simp] theorem ofBigEndian_bigEndian (width value : Nat) :
    ofBigEndian (bigEndian width value) = value % 256 ^ width := by
  induction width with
  | zero => simp [bigEndian, Nat.mod_one]
  | succ width inductionHypothesis =>
      rw [bigEndian, ofBigEndian_cons, inductionHypothesis, length_bigEndian,
        Nat.mod_pow_succ, UInt8.toNat_ofNat']
      ring

/-- A fixed number of digits holds the words of its width. -/
theorem ofBigEndian_toNat {width : Nat} (word : BitVec (8 * width)) :
    ofBigEndian (bigEndian width word.toNat) = word.toNat := by
  have small : word.toNat < 256 ^ width := word.isLt.trans_eq (Nat.pow_mul 2 8 width)
  rw [ofBigEndian_bigEndian, Nat.mod_eq_of_lt small]

/-- Digits of one width that write the same number are the same. -/
theorem ofBigEndian_injective
    {first second : List UInt8} (sameWidth : first.length = second.length)
    (same : ofBigEndian first = ofBigEndian second) : first = second := by
  induction first generalizing second with
  | nil => exact (List.length_eq_zero_iff.mp sameWidth.symm).symm
  | cons digit first inductionHypothesis =>
      cases second with
      | nil => contradiction
      | cons other second =>
          rw [List.length_cons, List.length_cons, Nat.add_right_cancel_iff] at sameWidth
          rw [ofBigEndian_cons, ofBigEndian_cons, sameWidth] at same
          have firstSmall := ofBigEndian_lt first
          have secondSmall := ofBigEndian_lt second
          rw [sameWidth] at firstSmall
          have positive : 0 < 256 ^ second.length := Nat.pow_pos (by decide)
          have leading : digit.toNat = other.toNat := by
            have quotients := congrArg (· / 256 ^ second.length) same
            simpa only [Nat.add_comm, Nat.add_mul_div_right _ _ positive,
              Nat.div_eq_of_lt firstSmall, Nat.div_eq_of_lt secondSmall,
              Nat.zero_add] using quotients
          rw [leading, Nat.add_left_cancel_iff] at same
          rw [UInt8.toNat_inj.mp leading, inductionHypothesis sameWidth same]

theorem bigEndian_ofBigEndian (digits : List UInt8) :
    bigEndian digits.length (ofBigEndian digits) = digits := by
  apply ofBigEndian_injective (length_bigEndian _ _)
  rw [ofBigEndian_bigEndian, Nat.mod_eq_of_lt (ofBigEndian_lt digits)]

theorem lt_pow_byteLength (value : Nat) : value < 256 ^ byteLength value := by
  unfold byteLength
  split
  · next zero => simp [zero]
  · calc value < 2 ^ (Nat.log2 value + 1) := Nat.lt_log2_self
      _ ≤ 2 ^ (8 * (Nat.log2 value / 8 + 1)) :=
          Nat.pow_le_pow_right (by decide) (by omega)
      _ = 256 ^ (Nat.log2 value / 8 + 1) := by rw [Nat.pow_mul]

theorem byteLength_le {value width : Nat} (fits : value < 256 ^ width) :
    byteLength value ≤ width := by
  unfold byteLength
  split
  · exact Nat.zero_le width
  · next nonzero =>
      have bits : Nat.log2 value < 8 * width := by
        rw [Nat.log2_lt nonzero, Nat.pow_mul]
        exact fits
      omega

@[simp] theorem length_minimalBigEndian (value : Nat) :
    (minimalBigEndian value).length = byteLength value :=
  length_bigEndian _ _

@[simp] theorem ofBigEndian_minimalBigEndian (value : Nat) :
    ofBigEndian (minimalBigEndian value) = value := by
  rw [minimalBigEndian, ofBigEndian_bigEndian, Nat.mod_eq_of_lt (lt_pow_byteLength value)]

theorem minimalBigEndian_injective
    {first second : Nat} (same : minimalBigEndian first = minimalBigEndian second) :
    first = second := by
  rw [← ofBigEndian_minimalBigEndian first, same, ofBigEndian_minimalBigEndian]

theorem head?_minimalBigEndian (value : Nat) : (minimalBigEndian value).head? ≠ some 0 := by
  intro zero
  obtain ⟨digits, written⟩ := List.head?_eq_some_iff.mp zero
  have number := ofBigEndian_minimalBigEndian value
  rw [written, ofBigEndian_cons, UInt8.toNat_zero, Nat.zero_mul, Nat.zero_add] at number
  have width := byteLength_le (ofBigEndian_lt digits)
  rw [number, ← length_minimalBigEndian, written, List.length_cons] at width
  omega

/-- Digits without a leading zero are those of the number they write. -/
theorem minimalBigEndian_ofBigEndian
    {digits : List UInt8} (minimal : digits.head? ≠ some 0) :
    minimalBigEndian (ofBigEndian digits) = digits := by
  have width : byteLength (ofBigEndian digits) = digits.length := by
    apply Nat.le_antisymm (byteLength_le (ofBigEndian_lt digits))
    cases digits with
    | nil => exact Nat.zero_le _
    | cons digit digits =>
        have leading : 1 ≤ digit.toNat := by
          apply Nat.one_le_iff_ne_zero.mpr
          intro zero
          exact minimal (congrArg some (UInt8.toNat_inj.mp zero))
        have large : 256 ^ digits.length ≤ ofBigEndian (digit :: digits) := by
          rw [ofBigEndian_cons]
          exact (Nat.le_mul_of_pos_left _ leading).trans (Nat.le_add_right _ _)
        have below := lt_pow_byteLength (ofBigEndian (digit :: digits))
        exact Nat.succ_le_of_lt
          ((Nat.pow_lt_pow_iff_right (by decide)).mp (large.trans_lt below))
  unfold minimalBigEndian
  rw [width, bigEndian_ofBigEndian]

end Rlp
