import Qevm.Codec.Canonical
import Qevm.Common

/-!
# Payloads of fields

Each type of a field has its own payload inside an item.  The reader of items finds the
payload, and the decoder of the type turns it into a value.
-/

namespace Qevm

/-- Why a payload is rejected. -/
inductive DecoderError
  | rlpInvalidIndirection
  | rlpIsTooShort
  | rlpIsTooBig
  deriving DecidableEq, Repr

/-- A way to write and to read the payloads of a type. -/
abbrev PayloadCodec (α : Type) := Codec Bytes DecoderError α

/-- `impl_wrapped_uint_rlp`, for words of four machine words. -/
def wrappedUintRlp : PayloadCodec U256 where
  encode number :=
    let leadingEmptyBytes := 4 * 8 - (number.bits + 7) / 8
    number.toBigEndian.drop leadingEmptyBytes
  decode bytes :=
    if !bytes.isEmpty && bytes.head? = some 0 then .error .rlpInvalidIndirection
    else if bytes.length ≤ 4 * 8 then .ok (U256.fromBigEndian bytes)
    else .error .rlpIsTooBig

/-- `impl_wrapped_fixed_hash_rlp`, for hashes of a number of bytes. -/
def wrappedFixedHashRlp (size : Nat) : PayloadCodec (BitVec (8 * size)) where
  encode hash := Rlp.bigEndian size hash.toNat
  decode bytes :=
    match compare bytes.length size with
    | .lt => .error .rlpIsTooShort
    | .gt => .error .rlpIsTooBig
    | .eq => .ok (BitVec.ofNat (8 * size) (fromBigEndian bytes))

def Wei.rlp : PayloadCodec Wei := wrappedUintRlp

def U256RLP.rlp : PayloadCodec U256 := wrappedUintRlp

def Addr.rlp : PayloadCodec Addr := wrappedFixedHashRlp 20

def Hash.rlp : PayloadCodec Hash := wrappedFixedHashRlp 32

/-- An address that may be missing. -/
def NullableAddr.rlp : PayloadCodec (Option Addr) where
  encode
    | some addr => addr.asBytes
    | none => []
  decode bytes :=
    if bytes.isEmpty then .ok none
    else
      match compare bytes.length 20 with
      | .lt => .error .rlpIsTooShort
      | .gt => .error .rlpIsTooBig
      | .eq => .ok (some (BitVec.ofNat 160 (fromBigEndian bytes)))

def Bytes.rlp : PayloadCodec Bytes where
  encode bytes := bytes
  decode bytes := .ok bytes

end Qevm
