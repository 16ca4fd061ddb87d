import Qevm.Codec.BigEndian
import Qevm.Json

/-!
# Which hexadecimal strings are accepted

A string is tested for `0x` byte by byte and cut after the second byte, so what comes
before the cut is two ASCII characters.  The test reads two bytes of a string that may have
fewer of them, and digits of a number may have a sign before them.
-/

namespace Qevm

/-! ## The prefix -/

/-- A string that is `0x` or `0X` and a rest. -/
def Prefixed (value digits : Text) : Prop :=
  value = '0' :: 'x' :: digits ∨ value = '0' :: 'X' :: digits

theorem prefixed_withPrefix (digits : Text) : Prefixed (withPrefix digits) digits :=
  .inl rfl

/-- The ends of the test for a prefix, and what they say about the string. -/
inductive PrefixTest (value : Text) : Prop
  | panics (short : value = [] ∨ value = ['0'])
      (test : hexPrefix value.asBytes = .error .indexOutOfBounds)
  | found (digits : Text) (marked : Prefixed value digits)
      (test : hexPrefix value.asBytes = .ok true) (slice : sliceFrom value 2 = .ok digits)
  | missing (long : value ≠ [] ∧ value ≠ ['0'])
      (unmarked : ∀ digits, ¬Prefixed value digits)
      (test : hexPrefix value.asBytes = .ok false)

theorem hexPrefix_cons (first : UInt8) (rest : Bytes) :
    hexPrefix (first :: rest) =
      if first = 0x30 then
        (byteAtIndex rest 0).map fun second =>
          decide (second = 0x78) || decide (second = 0x58)
      else .ok false := by
  unfold hexPrefix
  by_cases zero : first = 0x30
  · rw [if_pos zero]
    subst zero
    cases rest <;> rfl
  · rw [if_neg zero]
    simp [byteAtIndex, zero, bind, Except.bind, pure, Except.pure]

theorem sliceFrom_marked {value digits : Text} (marked : Prefixed value digits) :
    sliceFrom value 2 = .ok digits := by
  unfold sliceFrom
  obtain rfl | rfl := marked <;>
    rw [Text.sliceFrom_cons_of_ascii (by decide), Text.sliceFrom_cons_of_ascii (by decide),
      Text.sliceFrom_zero]

theorem prefixed_iff {second : Char} {digits other : Text} :
    Prefixed ('0' :: second :: digits) other ↔
      (second = 'x' ∨ second = 'X') ∧ digits = other := by
  simp [Prefixed, or_and_right]

theorem prefixTest (value : Text) : PrefixTest value := by
  cases value with
  | nil => exact .panics (.inl rfl) rfl
  | cons char rest =>
      by_cases zero : char = '0'
      · subst zero
        have stored : Text.asBytes ('0' :: rest) = 0x30 :: Text.asBytes rest :=
          Text.asBytes_cons_of_ascii (by decide)
        cases rest with
        | nil => exact .panics (.inr rfl) rfl
        | cons second digits =>
            obtain ⟨next, more, storedNext, testNext⟩ := Text.asBytes_cons second digits
            have lower : next = 0x78 ↔ second = 'x' := testNext 0x78 (by decide)
            have upper : next = 0x58 ↔ second = 'X' := testNext 0x58 (by decide)
            have run : hexPrefix (Text.asBytes ('0' :: second :: digits)) =
                .ok (decide (second = 'x') || decide (second = 'X')) := by
              rw [stored, hexPrefix_cons, if_pos rfl, storedNext]
              simp only [byteAtIndex, List.getElem?_cons_zero, Except.map, lower, upper]
            by_cases marked : second = 'x' ∨ second = 'X'
            · have found : Prefixed ('0' :: second :: digits) digits :=
                prefixed_iff.mpr ⟨marked, rfl⟩
              refine .found digits found ?_ (sliceFrom_marked found)
              simpa [run] using marked
            · refine .missing ⟨nofun, by simp⟩ (fun other found => ?_) ?_
              · exact marked (prefixed_iff.mp found).1
              · simpa [run] using marked
      · obtain ⟨first, more, stored, test⟩ := Text.asBytes_cons char rest
        have other : first ≠ 0x30 := fun same => zero ((test 0x30 (by decide)).mp same)
        refine .missing ⟨nofun, fun same => zero (List.cons.inj same).1⟩ ?_ ?_
        · rintro digits (same | same)
          · exact zero (List.cons.inj same).1
          · exact zero (List.cons.inj same).1
        · rw [stored, hexPrefix_cons, if_neg other]

theorem Prefixed.long {value digits : Text} (marked : Prefixed value digits) :
    value ≠ [] ∧ value ≠ ['0'] := by
  obtain rfl | rfl := marked <;> simp

/-- The test finds the prefix of a string that has one. -/
theorem Prefixed.hexPrefix {value digits : Text} (marked : Prefixed value digits) :
    hexPrefix value.asBytes = .ok true := by
  cases prefixTest value with
  | panics short test => exact absurd short (not_or.mpr marked.long)
  | found other again test slice => exact test
  | missing long unmarked test => exact absurd marked (unmarked digits)

/-- A string has one rest after its prefix. -/
theorem Prefixed.unique
    {value digits other : Text} (first : Prefixed value digits)
    (second : Prefixed value other) : digits = other := by
  obtain rfl | rfl := first <;> exact (prefixed_iff.mp second).2

/-! ## Numbers of 64 bits -/

/-- One more digit is read when the number still fits. -/
theorem readDigits_cons
    {byte : UInt8} {bytes : Bytes} {result : UInt64} {digit : Nat}
    (found : Hex.digit? (Char.ofUInt8 byte) = some digit) :
    readDigits result (byte :: bytes) =
      if result.toNat * 16 + digit < 2 ^ 64 then
        readDigits (UInt64.ofNat (result.toNat * 16 + digit)) bytes
      else none := by
  have small := Hex.digit?_lt found
  have held : (UInt64.ofNat digit).toNat = digit :=
    UInt64.toNat_ofNat_of_lt' (Nat.lt_trans small (by decide))
  have radix : (16 : UInt64).toNat = 16 := rfl
  rw [readDigits, found]
  split
  · next fits =>
      have product : checkedMulU64 result 16 = some (result * 16) :=
        if_pos (by rw [radix]; omega)
      have exact := toNat_checkedMulU64 product
      rw [radix] at exact
      have sum : checkedAddU64 (result * 16) (UInt64.ofNat digit) =
          some (result * 16 + UInt64.ofNat digit) := if_pos (by rw [exact, held]; omega)
      have total : result * 16 + UInt64.ofNat digit =
          UInt64.ofNat (result.toNat * 16 + digit) := by
        rw [← UInt64.toNat_inj, toNat_checkedAddU64 sum, exact, held,
          UInt64.toNat_ofNat_of_lt' fits]
      simp only [bind, Option.bind_some, product, sum, total]
  · next overflows =>
      cases product : checkedMulU64 result 16 with
      | none => rfl
      | some exact =>
          have value := toNat_checkedMulU64 product
          rw [radix] at value
          have sum : checkedAddU64 exact (UInt64.ofNat digit) = none :=
            if_neg (by rw [value, held]; omega)
          simp only [bind, Option.bind_some, sum, Option.bind_none]

/-- Digits are read until the number does not fit. -/
theorem readDigits_eq_some {bytes : Bytes} {result number : UInt64} :
    readDigits result bytes = some number ↔
      Hex.valueFrom result.toNat (bytes.map Char.ofUInt8) = some number.toNat := by
  induction bytes generalizing result with
  | nil => simp [readDigits, Hex.valueFrom, UInt64.toNat_inj]
  | cons byte bytes inductionHypothesis =>
      rw [List.map_cons, Hex.valueFrom_cons]
      cases found : Hex.digit? (Char.ofUInt8 byte) with
      | none =>
          rw [readDigits, found]
          exact iff_of_false (Option.some_ne_none _).symm (Option.some_ne_none _).symm
      | some digit =>
          rw [readDigits_cons found, Option.bind_some]
          split
          · next fits => rw [inductionHypothesis, UInt64.toNat_ofNat_of_lt' fits]
          · next overflows =>
              refine iff_of_false (Option.some_ne_none _).symm fun read => ?_
              have large := Hex.le_of_valueFrom read
              have bound := number.toNat_lt
              omega

/-- The digits of a text are those of its bytes. -/
theorem value_map_asBytes (digits : Text) :
    Hex.value (digits.asBytes.map Char.ofUInt8) = Hex.value digits := by
  by_cases all : ∀ char ∈ digits, Hex.IsDigit char
  · rw [Text.map_asBytes fun char member => Hex.isDigit_ascii (all char member)]
  · have chars : ¬(Hex.value digits).isSome := (Hex.isSome_valueFrom 0).not.mpr all
    have bytes : ¬(Hex.value (digits.asBytes.map Char.ofUInt8)).isSome := by
      refine (Hex.isSome_valueFrom 0).not.mpr fun each => all ?_
      refine (Text.forall_asBytes fun char => Hex.isDigit_ascii).mp fun byte member => ?_
      exact each _ (List.mem_map_of_mem member)
    rw [Option.not_isSome_iff_eq_none.mp chars, Option.not_isSome_iff_eq_none.mp bytes]

/-- A sign is skipped when digits follow it. -/
theorem u64FromStrRadix16_cons (first : UInt8) (rest : Bytes) :
    u64FromStrRadix16 (first :: rest) =
      if first = 0x2b then if rest = [] then none else readDigits 0 rest
      else readDigits 0 (first :: rest) := by
  by_cases plus : first = 0x2b
  · subst plus
    cases rest <;> rfl
  · rw [if_neg plus]
    unfold u64FromStrRadix16
    split
    · contradiction
    · simp_all
    · next same =>
        obtain ⟨rfl, rfl⟩ := List.cons.inj same
        rfl
    · simp_all
    · rfl

/-- Digits, of which there are some, write a number. -/
def WritesNumber (digits : Text) (number : UInt64) : Prop :=
  digits ≠ [] ∧ Hex.value digits = some number.toNat

/-- A sign is no digit. -/
theorem not_writes_sign {digits : Text} {number : UInt64} :
    ¬WritesNumber ('+' :: digits) number := by
  rintro ⟨-, read⟩
  rw [Hex.value, Hex.valueFrom_cons] at read
  contradiction

theorem readDigits_asBytes {char : Char} {digits : Text} {number : UInt64} :
    readDigits 0 (Text.asBytes (char :: digits)) = some number ↔
      WritesNumber (char :: digits) number := by
  rw [readDigits_eq_some, UInt64.toNat_zero, ← Hex.value, value_map_asBytes]
  exact (and_iff_right (List.cons_ne_nil _ _)).symm

/-- Digits are read, and digits after a `+`. -/
theorem u64FromStrRadix16_eq_some {digits : Text} {number : UInt64} :
    u64FromStrRadix16 digits.asBytes = some number ↔
      WritesNumber digits number ∨
        ∃ more, digits = '+' :: more ∧ WritesNumber more number := by
  cases digits with
  | nil => exact iff_of_false (Option.some_ne_none _).symm (by simp [WritesNumber])
  | cons char rest =>
      obtain ⟨first, bytes, stored, test⟩ := Text.asBytes_cons char rest
      have sign : first = 0x2b ↔ char = '+' := test 0x2b (by decide)
      by_cases plus : char = '+'
      · subst plus
        have marked : Text.asBytes ('+' :: rest) = 0x2b :: Text.asBytes rest :=
          Text.asBytes_cons_of_ascii (by decide)
        rw [marked, u64FromStrRadix16_cons, if_pos rfl, or_iff_right not_writes_sign]
        cases rest with
        | nil => exact iff_of_false (Option.some_ne_none _).symm (by simp [WritesNumber])
        | cons second more =>
            obtain ⟨_, _, some, -⟩ := Text.asBytes_cons second more
            rw [if_neg (some ▸ List.cons_ne_nil _ _), readDigits_asBytes]
            simp
      · have other : first ≠ 0x2b := fun same => plus (sign.mp same)
        have unsigned : ¬∃ more, char :: rest = '+' :: more ∧ WritesNumber more number := by
          rintro ⟨more, same, -⟩
          exact plus (List.cons.inj same).1
        rw [or_iff_left unsigned, stored, u64FromStrRadix16_cons, if_neg other, ← stored,
          readDigits_asBytes]

/-! ## Which strings are accepted -/

/-- A string is parsed without a panic, and it is accepted when it is a prefix and one or
more digits of a number of 64 bits. -/
def U64Visitor.Exact (value : Text) : Prop :=
  (∀ panic, U64Visitor.visitStr value ≠ .error panic) ∧
    ∀ number, U64Visitor.visitStr value = .ok (.ok number) ↔
      ∃ digits, Prefixed value digits ∧ WritesNumber digits number

/-- A string is parsed without a panic, and it is accepted when it is a prefix and an even
number of digits. -/
def BytesVisitor.Exact [HexCrate] (value : Text) : Prop :=
  (∀ panic, BytesVisitor.visitStr value ≠ .error panic) ∧
    ((∃ bytes, BytesVisitor.visitStr value = .ok (.ok bytes)) ↔
      ∃ digits, Prefixed value digits ∧ digits.length % 2 = 0 ∧
        ∀ char ∈ digits, Hex.IsDigit char)

/-- A number with a sign. -/
def Signed (value : Text) : Prop :=
  ∃ digits number, Prefixed value ('+' :: digits) ∧ WritesNumber digits number

/-- What is read of a string with a prefix is the rest. -/
theorem U64Visitor.visitStr_marked {value digits : Text} (marked : Prefixed value digits) :
    U64Visitor.visitStr value =
      .ok ((u64FromStrRadix16 digits.asBytes).elim
        (.error (.invalidValue value U64Visitor.expecting)) .ok) := by
  rw [U64Visitor.visitStr, marked.hexPrefix]
  simp only [bind, Except.bind, if_true, sliceFrom_marked marked]
  cases u64FromStrRadix16 digits.asBytes <;> rfl

theorem U64Visitor.visitStr_eq_ok
    {value digits : Text} (marked : Prefixed value digits) {number : UInt64} :
    U64Visitor.visitStr value = .ok (.ok number) ↔
      WritesNumber digits number ∨
        ∃ more, digits = '+' :: more ∧ WritesNumber more number := by
  rw [← u64FromStrRadix16_eq_some, visitStr_marked marked]
  cases u64FromStrRadix16 digits.asBytes <;> simp

/-- With a prefix, a sign is the only thing besides digits that is accepted. -/
theorem U64Visitor.exact_iff_of_marked
    {value digits : Text} (marked : Prefixed value digits) :
    U64Visitor.Exact value ↔ ¬Signed value := by
  constructor
  · rintro ⟨-, exact⟩ ⟨more, number, again, writes⟩
    obtain rfl := marked.unique again
    have accepted := (visitStr_eq_ok marked).mpr (.inr ⟨more, rfl, writes⟩)
    obtain ⟨other, third, wrong⟩ := (exact number).mp accepted
    obtain rfl := marked.unique third
    exact not_writes_sign wrong
  · intro unsigned
    refine ⟨fun panic => visitStr_marked marked ▸ nofun, fun number => ?_⟩
    rw [visitStr_eq_ok marked]
    constructor
    · rintro (writes | ⟨more, rfl, writes⟩)
      · exact ⟨digits, marked, writes⟩
      · exact absurd ⟨more, number, marked, writes⟩ unsigned
    · rintro ⟨other, again, writes⟩
      exact .inl (marked.unique again ▸ writes)

theorem U64Visitor.exact_iff (value : Text) :
    U64Visitor.Exact value ↔ value ≠ [] ∧ value ≠ ['0'] ∧ ¬Signed value := by
  cases prefixTest value with
  | panics short test =>
      have run : U64Visitor.visitStr value = .error .indexOutOfBounds := by
        rw [U64Visitor.visitStr, test]
        rfl
      refine iff_of_false (fun exact => exact.1 _ run) ?_
      rintro ⟨some, more, -⟩
      exact short.elim some more
  | found digits marked test slice =>
      rw [exact_iff_of_marked marked, and_iff_right marked.long.1,
        and_iff_right marked.long.2]
  | missing long unmarked test =>
      have run : U64Visitor.visitStr value =
          .ok (.error (.invalidValue value U64Visitor.expecting)) := by
        rw [U64Visitor.visitStr, test]
        rfl
      refine iff_of_true ⟨fun panic => run ▸ nofun, fun number => ?_⟩ ?_
      · exact iff_of_false (run ▸ nofun) fun ⟨digits, marked, _⟩ => unmarked digits marked
      · exact ⟨long.1, long.2, fun ⟨digits, _, marked, _⟩ => unmarked _ marked⟩

section ByteStrings

variable [HexCrate]

theorem BytesVisitor.visitStr_short {value : Text} (short : value.asBytes.length < 2) :
    BytesVisitor.visitStr value =
      .ok (.error (.invalidLength value.asBytes.length BytesVisitor.expecting)) :=
  if_pos short

theorem BytesVisitor.visitStr_marked
    {value digits : Text} (marked : Prefixed value digits) :
    BytesVisitor.visitStr value =
      .ok ((HexCrate.fromHex digits.asBytes).elim
        (.error (.invalidValue value BytesVisitor.expecting)) .ok) := by
  have long : ¬value.asBytes.length < 2 := by
    obtain rfl | rfl := marked <;>
      rw [Text.asBytes_cons_of_ascii (by decide),
        Text.asBytes_cons_of_ascii (by decide)] <;>
      simp
  rw [BytesVisitor.visitStr, if_neg long, marked.hexPrefix]
  simp only [bind, Except.bind, if_true, sliceFrom_marked marked]
  cases HexCrate.fromHex digits.asBytes <;> rfl

/-- The rest of a string is tested byte by byte for pairs of digits. -/
theorem isSome_fromHex [LawfulHexCrate] (digits : Text) :
    (HexCrate.fromHex digits.asBytes).isSome ↔
      digits.length % 2 = 0 ∧ ∀ char ∈ digits, Hex.IsDigit char := by
  rw [LawfulHexCrate.fromHex_isSome, Text.forall_asBytes fun char => Hex.isDigit_ascii]
  refine and_congr_left fun all => ?_
  rw [Text.length_asBytes fun char member => Hex.isDigit_ascii (all char member)]

theorem BytesVisitor.exact [LawfulHexCrate] (value : Text) : BytesVisitor.Exact value := by
  have rejected (err : DeError) (run : BytesVisitor.visitStr value = .ok (.error err))
      (unmarked : ∀ digits, ¬Prefixed value digits) : BytesVisitor.Exact value := by
    refine ⟨fun panic => run ▸ nofun, iff_of_false ?_ ?_⟩
    · rintro ⟨bytes, accepted⟩
      rw [run] at accepted
      exact nomatch Except.ok.inj accepted
    · exact fun ⟨digits, marked, _⟩ => unmarked digits marked
  cases prefixTest value with
  | panics short test =>
      have few : value.asBytes.length < 2 := by
        obtain rfl | rfl := short <;> decide
      exact rejected _ (BytesVisitor.visitStr_short few) fun digits marked =>
        not_or.mpr marked.long short
  | found digits marked test slice =>
      have run := BytesVisitor.visitStr_marked marked
      refine ⟨fun panic => run ▸ nofun, ?_⟩
      have accepts : (∃ bytes, BytesVisitor.visitStr value = .ok (.ok bytes)) ↔
          (HexCrate.fromHex digits.asBytes).isSome := by
        rw [run]
        cases HexCrate.fromHex digits.asBytes <;> simp
      rw [accepts, isSome_fromHex]
      constructor
      · exact fun even => ⟨digits, marked, even⟩
      · rintro ⟨other, again, even⟩
        exact marked.unique again ▸ even
  | missing long unmarked test =>
      by_cases short : value.asBytes.length < 2
      · exact rejected _ (BytesVisitor.visitStr_short short) unmarked
      · refine rejected (.invalidValue value BytesVisitor.expecting) ?_ unmarked
        rw [BytesVisitor.visitStr, if_neg short, test]
        rfl

/-! ## Values are read back -/

variable [LawfulHexCrate]

theorem visitStr_bytesRef (bytes : Bytes) :
    BytesVisitor.visitStr (BytesRef.serialize bytes) = .ok (.ok bytes) := by
  rw [BytesRef.serialize, BytesVisitor.visitStr_marked (prefixed_withPrefix _),
    LawfulHexCrate.fromHex_encodeHex]
  rfl

theorem fixedDeserialize_serialize
    (width : Nat) (expected : String) (hash : BitVec (8 * width)) :
    fixedDeserialize width expected (BytesRef.serialize (Rlp.bigEndian width hash.toNat)) =
      .ok (.ok hash) := by
  have number : fromBigEndian (Rlp.bigEndian width hash.toNat) = hash.toNat :=
    Rlp.ofBigEndian_toNat hash
  rw [fixedDeserialize, visitStr_bytesRef]
  simp [bind, Except.bind, pure, Except.pure, number]

end ByteStrings

theorem visitStr_lowerHex (number : UInt64) :
    U64Visitor.visitStr (withPrefix (Hex.ofNat number.toNat)) = .ok (.ok number) :=
  (U64Visitor.visitStr_eq_ok (prefixed_withPrefix _)).mpr
    (.inl ⟨Nat.toDigits_ne_nil, Hex.value_ofNat _⟩)

theorem visitStr_u256 [UintCrate] [LawfulUintCrate] (number : U256) :
    U256Visitor.visitStr (withPrefix (UintCrate.lowerHex number)) =
      .ok (.ok number) := by
  have short : (Hex.ofNat number.toNat).length ≤ 64 :=
    (Nat.length_toDigits_le_iff (by decide) (by decide)).mpr
      (number.isLt.trans_eq (by norm_num))
  rw [U256Visitor.visitStr, LawfulUintCrate.lowerHex_eq,
    LawfulUintCrate.fromStr_withPrefix _ number short (Hex.value_ofNat _)]

/-- Byte strings are written and read by pairs of digits. -/
@[reducible] def standardHexCrate : HexCrate where
  fromHex := Hex.decodePairs
  encodeHex := Hex.encodePairs

theorem standardHexCrate_lawful : @LawfulHexCrate standardHexCrate :=
  @LawfulHexCrate.mk standardHexCrate Hex.isSome_decodePairs Hex.decodePairs_encodePairs

/-- Numbers are read from at most 64 digits. -/
def standardFromDigits (digits : Text) : Option U256 :=
  if digits.length ≤ 64 then (Hex.value digits).map (BitVec.ofNat 256) else none

@[reducible] def standardUintCrate : UintCrate where
  fromStr
    | '0' :: 'x' :: digits => standardFromDigits digits
    | digits => standardFromDigits digits
  lowerHex number := Hex.ofNat number.toNat

theorem standardUintCrate_lawful : @LawfulUintCrate standardUintCrate :=
  @LawfulUintCrate.mk standardUintCrate (fun _ => rfl) fun digits number short read => by
    change standardFromDigits digits = some number
    rw [standardFromDigits, if_pos short, read, Option.map_some, BitVec.ofNat_toNat,
      BitVec.setWidth_eq]

/-- Byte strings are parsed exactly.  Numbers of 64 bits are, except that the parser panics
on the strings that end before the second byte of the prefix and accepts a sign.  Every
value is read back from the string that it is serialised as. -/
theorem hex_strings_parsed
    [HexCrate] [LawfulHexCrate] [UintCrate] [LawfulUintCrate] (value : Text) :
    (BytesVisitor.Exact value ∧ U64Visitor.Exact value ↔
      value ≠ [] ∧ value ≠ ['0'] ∧ ¬Signed value) ∧
      BytesVisitor.Exact value ∧
      (∀ bytes : Bytes, Bytes.deserialize (Bytes.serialize bytes) = .ok (.ok bytes)) ∧
      (∀ addr : Addr, Addr.deserialize (Addr.serialize addr) = .ok (.ok addr)) ∧
      (∀ hash : Hash, Hash.deserialize (Hash.serialize hash) = .ok (.ok hash)) ∧
      (∀ number : UInt64,
        U64Visitor.visitStr (WrappedU64.serialize number) = .ok (.ok number)) ∧
      (∀ gas : UInt64, WrappedGas.deserialize (WrappedGas.serialize gas) = .ok (.ok gas)) ∧
      (∀ number : U256,
        WrappedU256.deserialize (WrappedU256.serialize number) = .ok (.ok number)) ∧
      ∀ wei : Wei, Wei.deserialize (Wei.serialize wei) = .ok (.ok wei) := by
  refine ⟨?_, BytesVisitor.exact value, visitStr_bytesRef, ?_, ?_, visitStr_lowerHex,
    visitStr_lowerHex, visitStr_u256, visitStr_u256⟩
  · rw [and_iff_right (BytesVisitor.exact value), U64Visitor.exact_iff]
  · exact fixedDeserialize_serialize 20 _
  · exact fixedDeserialize_serialize 32 _

/-- A string of two digits is parsed exactly, and a byte is read back. -/
theorem hex_strings_parsed_pair :
    letI := standardHexCrate
    letI := standardUintCrate
    BytesVisitor.Exact ['0', 'x', '1', 'f'] ∧ U64Visitor.Exact ['0', 'x', '1', 'f'] ∧
      Bytes.deserialize (Bytes.serialize [0x1f]) = .ok (.ok [0x1f]) := by
  let := standardHexCrate
  let := standardUintCrate
  have : LawfulHexCrate := standardHexCrate_lawful
  have : LawfulUintCrate := standardUintCrate_lawful
  have unsigned : ¬Signed ['0', 'x', '1', 'f'] := by
    rintro ⟨digits, number, marked, -⟩
    cases (prefixed_iff.mp marked).2
  obtain ⟨exact, -, bytes, -⟩ := hex_strings_parsed ['0', 'x', '1', 'f']
  obtain ⟨first, second⟩ := exact.mpr ⟨by decide, by decide, unsigned⟩
  exact ⟨first, second, bytes [0x1f]⟩

/-- The empty string and `0` panic, and `0x+5` is the number five. -/
theorem number_strings_misread :
    U64Visitor.visitStr [] = .error .indexOutOfBounds ∧
      U64Visitor.visitStr ['0'] = .error .indexOutOfBounds ∧
      U64Visitor.visitStr ['0', 'x', '+', '5'] = .ok (.ok 5) ∧ ¬Hex.IsDigit '+' := by
  decide +kernel

end Qevm
