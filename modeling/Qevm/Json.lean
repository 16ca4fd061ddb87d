import Qevm.Codec.Hex
import Qevm.Common

/-!
# Hexadecimal strings in requests

Values are exchanged as strings of hexadecimal digits after `0x`.  The strings of a client
are parsed as they come.  A value is serialised as one string, and its deserialiser is
given the string that has been received.
-/

namespace Qevm

/-- The library that reads and writes byte strings. -/
class HexCrate where
  /-- `Vec::from_hex`, from the bytes of the digits. -/
  fromHex : Bytes → Option Bytes
  /-- `encode_hex`. -/
  encodeHex : Bytes → Text

/-- Pairs of digits of either case are read, and what is written is read back. -/
class LawfulHexCrate [HexCrate] : Prop where
  fromHex_isSome : ∀ digits : Bytes, (HexCrate.fromHex digits).isSome ↔
    digits.length % 2 = 0 ∧ ∀ digit ∈ digits, Hex.IsDigit (Char.ofUInt8 digit)
  fromHex_encodeHex : ∀ bytes,
    HexCrate.fromHex (HexCrate.encodeHex bytes).asBytes = some bytes

/-- The library of 256-bit numbers. -/
class UintCrate where
  /-- `U256::from_str`. -/
  fromStr : Text → Option U256
  /-- `{:x}`. -/
  lowerHex : U256 → Text

/-- Digits after `0x`. -/
def withPrefix (digits : Text) : Text := '0' :: 'x' :: digits

/-- Numbers are written as lowercase digits, and at most 64 digits after `0x` are read. -/
class LawfulUintCrate [UintCrate] : Prop where
  lowerHex_eq : ∀ number : U256, UintCrate.lowerHex number = Hex.ofNat number.toNat
  fromStr_withPrefix : ∀ (digits : Text) (number : U256), digits.length ≤ 64 →
    Hex.value digits = some number.toNat →
      UintCrate.fromStr (withPrefix digits) = some number

/-- The ways in which work on a string panics. -/
inductive StrPanic
  /-- There is no byte at an index. -/
  | indexOutOfBounds
  /-- A slice starts inside a character or beyond the end. -/
  | notCharBoundary
  deriving DecidableEq, Repr

/-- Why a string is rejected, with the text of what was expected. -/
inductive DeError
  | invalidLength (len : Nat) (expected : String)
  | invalidValue (unexpected : Text) (expected : String)
  deriving DecidableEq

/-- The end of a visit that does not panic. -/
abbrev Visited (α : Type) := Except DeError α

/-- `bytes[index]`. -/
def byteAtIndex (bytes : Bytes) (index : Nat) : Except StrPanic UInt8 :=
  match bytes[index]? with
  | some byte => .ok byte
  | none => .error .indexOutOfBounds

/-- `&value[offset..]`. -/
def sliceFrom (value : Text) (offset : Nat) : Except StrPanic Text :=
  match value.sliceFrom offset with
  | some rest => .ok rest
  | none => .error .notCharBoundary

/-- Whether the bytes of a string start with `0x` or `0X`; the second byte is looked at when
the first one is that of `0`. -/
def hexPrefix (bytes : Bytes) : Except StrPanic Bool := do
  let first ← byteAtIndex bytes 0
  if first = 0x30 then
    let second ← byteAtIndex bytes 1
    pure (second = 0x78 || second = 0x58)
  else
    pure false

namespace BytesVisitor

def expecting : String := "starts with `0x` and has even number of hex digits"

def visitStr [HexCrate] (value : Text) : Except StrPanic (Visited Bytes) :=
  if value.asBytes.length < 2 then
    .ok (.error (.invalidLength value.asBytes.length expecting))
  else do
    if ← hexPrefix value.asBytes then
      let digits ← sliceFrom value 2
      match HexCrate.fromHex digits.asBytes with
      | some bytes => pure (.ok bytes)
      | none => pure (.error (.invalidValue value expecting))
    else
      pure (.error (.invalidValue value expecting))

end BytesVisitor

namespace U256Visitor

def expecting : String := "a string that starts with `0x` and has 64 hex digits"

def visitStr [UintCrate] (value : Text) : Except StrPanic (Visited U256) :=
  match UintCrate.fromStr value with
  | some number => .ok (.ok number)
  | none => .ok (.error (.invalidValue value expecting))

end U256Visitor

/-- Read digits after a number that has been read, failing on overflow. -/
def readDigits (result : UInt64) : Bytes → Option UInt64
  | [] => some result
  | byte :: rest => do
      let digit ← Hex.digit? (Char.ofUInt8 byte)
      let product ← checkedMulU64 result 16
      let sum ← checkedAddU64 product (UInt64.ofNat digit)
      readDigits sum rest

/-- `u64::from_str_radix` with radix 16: digits after an optional `+`.  A sign alone and an
empty string are rejected, and `-` is no digit of an unsigned number. -/
def u64FromStrRadix16 (src : Bytes) : Option UInt64 :=
  match src with
  | [] | [0x2b] | [0x2d] => none
  | 0x2b :: digits => readDigits 0 digits
  | digits => readDigits 0 digits

namespace U64Visitor

def expecting : String := "a string that starts with `0x` and contains hex digits"

def visitStr (value : Text) : Except StrPanic (Visited UInt64) := do
  if ← hexPrefix value.asBytes then
    let digits ← sliceFrom value 2
    match u64FromStrRadix16 digits.asBytes with
    | some number => pure (.ok number)
    | none => pure (.error (.invalidValue value expecting))
  else
    pure (.error (.invalidValue value expecting))

end U64Visitor

/-! ## Serialisers and deserialisers -/

def BytesRef.serialize [HexCrate] (bytes : Bytes) : Text :=
  withPrefix (HexCrate.encodeHex bytes)

def Bytes.serialize [HexCrate] (bytes : Bytes) : Text := BytesRef.serialize bytes

def Bytes.deserialize [HexCrate] (value : Text) : Except StrPanic (Visited Bytes) :=
  BytesVisitor.visitStr value

/-- A byte string of a fixed length. -/
def fixedDeserialize [HexCrate] (width : Nat) (expected : String) (value : Text) :
    Except StrPanic (Visited (BitVec (8 * width))) := do
  match ← BytesVisitor.visitStr value with
  | .error err => pure (.error err)
  | .ok bytes =>
      if bytes.length ≠ width then
        pure (.error (.invalidLength bytes.length expected))
      else
        pure (.ok (BitVec.ofNat (8 * width) (fromBigEndian bytes)))

def Addr.serialize [HexCrate] (addr : Addr) : Text := BytesRef.serialize addr.asBytes

def Addr.deserialize [HexCrate] (value : Text) : Except StrPanic (Visited Addr) :=
  fixedDeserialize 20 "length of 20 bytes" value

def Hash.serialize [HexCrate] (hash : Hash) : Text := BytesRef.serialize hash.asBytes

def Hash.deserialize [HexCrate] (value : Text) : Except StrPanic (Visited Hash) :=
  fixedDeserialize 32 "length of 32 bytes" value

def Wei.serialize [UintCrate] (wei : Wei) : Text := withPrefix (UintCrate.lowerHex wei)

def Wei.deserialize [UintCrate] (value : Text) : Except StrPanic (Visited Wei) :=
  U256Visitor.visitStr value

def WrappedU256.serialize [UintCrate] (number : U256) : Text :=
  withPrefix (UintCrate.lowerHex number)

def WrappedU256.deserialize [UintCrate] (value : Text) : Except StrPanic (Visited U256) :=
  U256Visitor.visitStr value

def WrappedU64.serialize (number : UInt64) : Text := withPrefix (Hex.ofNat number.toNat)

def WrappedGas.serialize (gas : UInt64) : Text := withPrefix (Hex.ofNat gas.toNat)

def WrappedGas.deserialize (value : Text) : Except StrPanic (Visited UInt64) :=
  U64Visitor.visitStr value

end Qevm
