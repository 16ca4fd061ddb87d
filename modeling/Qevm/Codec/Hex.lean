import Qevm.Codec.Text

/-!
# Hexadecimal digits

Digits of both cases are read, and lowercase ones are written.  A number is written
without leading zeros, a byte string with two digits for each byte.
-/

namespace Hex

/-- The value of a digit. -/
def digit? (char : Char) : Option Nat :=
  if '0' ≤ char ∧ char ≤ '9' then some (char.toNat - 48)
  else if 'a' ≤ char ∧ char ≤ 'f' then some (char.toNat - 87)
  else if 'A' ≤ char ∧ char ≤ 'F' then some (char.toNat - 55)
  else none

/-- A character is a digit. -/
def IsDigit (char : Char) : Prop := (digit? char).isSome

instance (char : Char) : Decidable (IsDigit char) :=
  inferInstanceAs (Decidable ((digit? char).isSome = true))

/-- Digits read after a number. -/
def valueFrom (start : Nat) (digits : Text) : Option Nat :=
  digits.foldlM (fun number char => (digit? char).map (number * 16 + ·)) start

/-- The number that digits write. -/
def value (digits : Text) : Option Nat := valueFrom 0 digits

/-- The lowercase digits of a number. -/
def ofNat (number : Nat) : Text := Nat.toDigits 16 number

variable {char : Char} {digits : Text}

/-! ## Digits -/

theorem isDigit_ascii (digit : IsDigit char) : char.toNat < 128 := by
  have upper {last : Char} (le : char ≤ last) : char.toNat ≤ last.toNat := le
  unfold IsDigit digit? at digit
  split at digit
  · next decimal => exact Nat.lt_of_le_of_lt (upper decimal.2) (by decide)
  · split at digit
    · next lower => exact Nat.lt_of_le_of_lt (upper lower.2) (by decide)
    · split at digit
      · next capital => exact Nat.lt_of_le_of_lt (upper capital.2) (by decide)
      · contradiction

theorem digit?_lt {digit : Nat} (read : digit? char = some digit) : digit < 16 := by
  have upper {last : Char} (le : char ≤ last) : char.toNat ≤ last.toNat := le
  unfold digit? at read
  split at read
  · next decimal =>
      have last : char.toNat ≤ 57 := upper decimal.2
      have := Option.some.inj read
      omega
  · split at read
    · next lower =>
        have last : char.toNat ≤ 102 := upper lower.2
        have := Option.some.inj read
        omega
    · split at read
      · next capital =>
          have last : char.toNat ≤ 70 := upper capital.2
          have := Option.some.inj read
          omega
      · contradiction

theorem digit?_digitChar {digit : Nat} (small : digit < 16) :
    digit? digit.digitChar = some digit := by
  have each : ∀ digit : Fin 16, digit? digit.val.digitChar = some digit.val := by decide
  exact each ⟨digit, small⟩

/-! ## Numbers -/

theorem valueFrom_cons (start : Nat) :
    valueFrom start (char :: digits) =
      (digit? char).bind fun digit => valueFrom (start * 16 + digit) digits := by
  rw [valueFrom, List.foldlM_cons]
  cases digit? char <;> rfl

theorem value_append (char : Char) :
    value (digits ++ [char]) =
      (value digits).bind fun number => (digit? char).map (number * 16 + ·) := by
  rw [value, valueFrom, List.foldlM_append]
  refine Option.bind_congr fun number _ => ?_
  rw [← valueFrom, valueFrom_cons]
  cases digit? char <;> rfl

/-- Reading on makes a number no smaller. -/
theorem le_of_valueFrom {start number : Nat} (read : valueFrom start digits = some number) :
    start ≤ number := by
  induction digits generalizing start with
  | nil => exact Nat.le_of_eq (Option.some.inj read)
  | cons char digits inductionHypothesis =>
      rw [valueFrom_cons] at read
      obtain ⟨digit, -, rest⟩ := Option.bind_eq_some_iff.mp read
      have := inductionHypothesis rest
      omega

/-- Digits are what is read as a number. -/
theorem isSome_valueFrom (start : Nat) :
    (valueFrom start digits).isSome ↔ ∀ char ∈ digits, IsDigit char := by
  induction digits generalizing start with
  | nil => simp [valueFrom]
  | cons char digits inductionHypothesis =>
      rw [valueFrom_cons, List.forall_mem_cons]
      cases found : digit? char with
      | none => simp [IsDigit, found]
      | some digit =>
          have first : IsDigit char := Option.isSome_of_eq_some found
          rw [Option.bind_some, inductionHypothesis, and_iff_right first]

/-- A written number is read back. -/
theorem value_ofNat (number : Nat) : value (ofNat number) = some number := by
  induction number using Nat.strongRecOn with
  | ind number inductionHypothesis =>
      unfold ofNat
      rw [Nat.toDigits_eq_if (by decide)]
      split
      · next small => simp [value, valueFrom, digit?_digitChar small]
      · next large =>
          have digit : number % 16 < 16 := Nat.mod_lt _ (by decide)
          have front := inductionHypothesis (number / 16) (by omega)
          unfold ofNat at front
          rw [value_append, front, digit?_digitChar digit, Option.bind_some,
            Option.map_some, Nat.div_add_mod']

/-! ## Byte strings -/

/-- The two digits of each byte, the high one first. -/
def encodePairs : List UInt8 → Text
  | [] => []
  | byte :: rest =>
      (byte.toNat / 16).digitChar :: (byte.toNat % 16).digitChar :: encodePairs rest

/-- The bytes that pairs of digits write, from the bytes of the digits. -/
def decodePairs : List UInt8 → Option (List UInt8)
  | [] => some []
  | [_] => none
  | high :: low :: rest => do
      let high ← digit? (Char.ofUInt8 high)
      let low ← digit? (Char.ofUInt8 low)
      let bytes ← decodePairs rest
      pure (UInt8.ofNat (high * 16 + low) :: bytes)

/-- Pairs of digits are what is decoded. -/
theorem isSome_decodePairs (digits : List UInt8) :
    (decodePairs digits).isSome ↔
      digits.length % 2 = 0 ∧ ∀ digit ∈ digits, IsDigit (Char.ofUInt8 digit) := by
  induction digits using decodePairs.induct with
  | case1 => simp [decodePairs]
  | case2 digit => simp [decodePairs]
  | case3 high low rest inductionHypothesis =>
      rw [decodePairs, List.forall_mem_cons, List.forall_mem_cons, List.length_cons,
        List.length_cons, Nat.add_assoc, Nat.add_mod_right]
      cases first : digit? (Char.ofUInt8 high) with
      | none => simp [IsDigit, first]
      | some digit =>
          cases second : digit? (Char.ofUInt8 low) with
          | none => simp [IsDigit, second]
          | some other =>
              have pair : IsDigit (Char.ofUInt8 high) ∧ IsDigit (Char.ofUInt8 low) :=
                ⟨Option.isSome_of_eq_some first, Option.isSome_of_eq_some second⟩
              rw [and_iff_right pair.1, and_iff_right pair.2, ← inductionHypothesis]
              cases decodePairs rest <;> rfl

/-- Encoded bytes are decoded again. -/
theorem decodePairs_encodePairs (bytes : List UInt8) :
    decodePairs (encodePairs bytes).asBytes = some bytes := by
  have ascii {digit : Nat} (small : digit < 16) : digit.digitChar.toNat < 128 :=
    isDigit_ascii (Option.isSome_of_eq_some (digit?_digitChar small))
  induction bytes with
  | nil => rfl
  | cons byte bytes inductionHypothesis =>
      have high : byte.toNat / 16 < 16 := Nat.div_lt_of_lt_mul byte.toNat_lt
      have low : byte.toNat % 16 < 16 := Nat.mod_lt _ (by decide)
      rw [encodePairs, Text.asBytes_cons_of_ascii (ascii high),
        Text.asBytes_cons_of_ascii (ascii low), decodePairs,
        Text.ofUInt8_ofNat (ascii high), Text.ofUInt8_ofNat (ascii low),
        digit?_digitChar high, digit?_digitChar low, inductionHypothesis]
      have whole : byte.toNat / 16 * 16 + byte.toNat % 16 = byte.toNat :=
        Nat.div_add_mod' _ _
      simp only [bind, Option.bind_some, pure, whole, UInt8.ofNat_toNat]

end Hex
