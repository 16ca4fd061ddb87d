import Mathlib.Algebra.Group.Nat.Defs

/-!
# Recursive length prefix encoding

The standard encoding of byte strings, of integers without leading zeros and of
lists whose items are already encoded.
-/

namespace Rlp

/-- The big-endian digits of a number in a fixed number of bytes. -/
def bigEndian : (width : Nat) → Nat → List UInt8
  | 0, _ => []
  | width + 1, value => UInt8.ofNat (value / 256 ^ width) :: bigEndian width value

/-- Number of bytes needed to write a number without leading zeros. -/
def byteLength (value : Nat) : Nat :=
  if value = 0 then 0 else Nat.log2 value / 8 + 1

/-- The big-endian digits of a number without leading zeros. -/
def minimalBigEndian (value : Nat) : List UInt8 :=
  bigEndian (byteLength value) value

/-- The header of a payload, `offset` telling strings from lists. -/
def header (offset length : Nat) : List UInt8 :=
  if length ≤ 55 then
    [UInt8.ofNat (offset + length)]
  else
    let digits := minimalBigEndian length
    UInt8.ofNat (offset + 55 + digits.length) :: digits

/-- Encode a byte string. -/
def encodeBytes (bytes : List UInt8) : List UInt8 :=
  match bytes with
  | [byte] => if byte < 0x80 then [byte] else header 0x80 1 ++ [byte]
  | bytes => header 0x80 bytes.length ++ bytes

/-- Encode an unsigned integer. -/
def encodeNat (value : Nat) : List UInt8 :=
  encodeBytes (minimalBigEndian value)

/-- Encode a list of encoded items. -/
def encodeList (items : List (List UInt8)) : List UInt8 :=
  header 0xc0 items.flatten.length ++ items.flatten

end Rlp
