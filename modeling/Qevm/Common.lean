import Mathlib.Data.BitVec
import Qevm.Codec.BigEndian

/-!
# Basic types

Words, addresses and hashes are bit vectors read big-endian; byte strings are
lists of bytes.  Keccak-256 and the `rlp` encoder are library code: the hash is
a parameter and the encoder is the standard one.
-/

namespace Qevm

/-- The 256-bit machine word. -/
abbrev U256 := BitVec 256

/-- An amount of money. -/
abbrev Wei := BitVec 256

/-- A 20-byte account address. -/
abbrev Addr := BitVec 160

/-- A 32-byte hash, also the key of a storage slot. -/
abbrev Hash := BitVec 256

/-- A byte string. -/
abbrev Bytes := List UInt8

/-- The Keccak-256 hash function. -/
class Keccak256 where
  /-- The digest of a byte string. -/
  digest : Bytes → Hash

/-- The low 160 bits of a word. -/
def U256.toAddr (word : U256) : Addr := word.setWidth 160

/-- An address as a word. -/
def Addr.toU256 (addr : Addr) : U256 := addr.setWidth 256

@[simp] theorem Addr.toAddr_toU256 (addr : Addr) :
    U256.toAddr (Addr.toU256 addr) = addr := by
  simp [U256.toAddr, Addr.toU256, BitVec.setWidth_setWidth_of_le]

/-- The number written by a big-endian byte string. -/
def fromBigEndian (bytes : Bytes) : Nat :=
  bytes.foldl (fun value byte => value * 256 + byte.toNat) 0

/-- The word written by a big-endian byte string. -/
def U256.fromBigEndian (bytes : Bytes) : U256 :=
  BitVec.ofNat 256 (Qevm.fromBigEndian bytes)

/-- The 32 big-endian bytes of a word. -/
def U256.toBigEndian (word : U256) : Bytes := Rlp.bigEndian 32 word.toNat

/-- The 20 bytes of an address. -/
def Addr.asBytes (addr : Addr) : Bytes := Rlp.bigEndian 20 addr.toNat

/-- The 32 bytes of a hash. -/
def Hash.asBytes (hash : Hash) : Bytes := Rlp.bigEndian 32 hash.toNat

theorem Addr.asBytes_injective {first second : Addr}
    (same : first.asBytes = second.asBytes) : first = second := by
  have numbers := congrArg Rlp.ofBigEndian same
  rw [Addr.asBytes, Addr.asBytes, Rlp.ofBigEndian_bigEndian, Rlp.ofBigEndian_bigEndian,
    Nat.mod_eq_of_lt (first.isLt.trans_eq (by norm_num)),
    Nat.mod_eq_of_lt (second.isLt.trans_eq (by norm_num))] at numbers
  exact BitVec.eq_of_toNat_eq numbers

theorem ofBigEndian_asBytes (hash : Hash) :
    Rlp.ofBigEndian hash.asBytes = hash.toNat := by
  rw [Hash.asBytes, Rlp.ofBigEndian_bigEndian]
  exact Nat.mod_eq_of_lt (hash.isLt.trans_eq (by norm_num))

/-- The bytes of a word that has been made of bytes. -/
theorem toBigEndian_fromBigEndian {bytes : Bytes} (long : bytes.length = 32) :
    U256.toBigEndian (U256.fromBigEndian bytes) = bytes := by
  have small := Rlp.ofBigEndian_lt bytes
  rw [long] at small
  have number : (U256.fromBigEndian bytes).toNat = Rlp.ofBigEndian bytes :=
    Nat.mod_eq_of_lt (small.trans_eq (by norm_num))
  rw [U256.toBigEndian, number, ← long, Rlp.bigEndian_ofBigEndian]

/-- Number of significant bits of a word. -/
def U256.bits (word : U256) : Nat :=
  if word = 0 then 0 else Nat.log2 word.toNat + 1

/-- The low 64 bits of a word. -/
def U256.lowU64 (word : U256) : UInt64 := UInt64.ofNat word.toNat

/-- Addition that fails on overflow. -/
def U256.checkedAdd (first second : U256) : Option U256 :=
  if first.toNat + second.toNat < 2 ^ 256 then some (first + second) else none

/-- Subtraction that fails on underflow. -/
def U256.checkedSub (first second : U256) : Option U256 :=
  if second.toNat ≤ first.toNat then some (first - second) else none

/-- A length or a gas amount as a word. -/
def U256.ofU64 (value : UInt64) : U256 := BitVec.ofNat 256 value.toNat

/-- The word of a collection's length. -/
def U256.ofLen (length : Nat) : U256 := BitVec.ofNat 256 length

/-- A word as a 64-bit number, if it fits. -/
def checkedAsU64 (word : U256) : Option UInt64 :=
  if word.toNat ≤ 2 ^ 64 - 1 then some (U256.lowU64 word) else none

/-- A word that fits is kept. -/
theorem toNat_checkedAsU64 {word : U256} {value : UInt64}
    (fits : checkedAsU64 word = some value) : value.toNat = word.toNat := by
  unfold checkedAsU64 at fits
  split at fits
  · obtain rfl := Option.some.inj fits
    exact UInt64.toNat_ofNat_of_lt' (by rw [UInt64.size]; omega)
  · contradiction

theorem wide_of_checkedAsU64 {word : U256} (wide : checkedAsU64 word = none) :
    2 ^ 64 ≤ word.toNat := by
  unfold checkedAsU64 at wide
  split at wide
  · contradiction
  · omega

/-- Multiplication of 64-bit numbers that fails on overflow. -/
def checkedMulU64 (first second : UInt64) : Option UInt64 :=
  if first.toNat * second.toNat < 2 ^ 64 then some (first * second) else none

/-- A product that does not fail is exact. -/
theorem toNat_checkedMulU64 {first second product : UInt64}
    (run : checkedMulU64 first second = some product) :
    product.toNat = first.toNat * second.toNat := by
  unfold checkedMulU64 at run
  split at run
  · rename_i fits
    obtain rfl := Option.some.inj run
    rw [UInt64.toNat_mul, Nat.mod_eq_of_lt fits]
  · contradiction

/-- Addition of 64-bit numbers that fails on overflow. -/
def checkedAddU64 (first second : UInt64) : Option UInt64 :=
  if first.toNat + second.toNat < 2 ^ 64 then some (first + second) else none

/-- A checked sum is the sum. -/
theorem toNat_checkedAddU64 {first second sum : UInt64}
    (added : checkedAddU64 first second = some sum) :
    sum.toNat = first.toNat + second.toNat := by
  unfold checkedAddU64 at added
  split at added
  · rename_i fits
    obtain rfl := Option.some.inj added
    rw [UInt64.toNat_add, Nat.mod_eq_of_lt fits]
  · contradiction

section Hashing

variable [Keccak256]

/-- The hash of a byte string. -/
def Hash.hash (bytes : Bytes) : Hash := Keccak256.digest bytes

/-- The hash of the empty byte string. -/
def Hash.emptyBytesHash : Hash := Hash.hash []

/-- The address of a contract created by `CREATE` or by a transaction: the last
20 bytes of the hash of the encoded creator and nonce. -/
def createAddr (addr : Addr) (nonce : UInt64) : Addr :=
  U256.toAddr (Hash.hash
    (Rlp.encodeList [Rlp.encodeBytes addr.asBytes, Rlp.encodeNat nonce.toNat]))

/-- The address helper of `CREATE2`; it hashes its `initHash` argument. -/
def createAddr2 (addr : Addr) (salt initHash : Bytes) : Addr :=
  U256.toAddr (Hash.hash
    ([0xff] ++ addr.asBytes ++ salt ++
      U256.toBigEndian (Hash.hash initHash)))

end Hashing

/-- Number of bytes that the instruction starting with a byte pushes. -/
def pushWidth (byte : UInt8) : Nat :=
  if 0x60 ≤ byte ∧ byte ≤ 0x7f then byte.toNat - 0x60 + 1 else 0

/-- The loop of `gen_code_bitmap`, with its counter of bytes left to skip. -/
def genCodeBitmapFrom : (nskip : Nat) → Bytes → List Bool
  | _, [] => []
  | 0, byte :: rest => true :: genCodeBitmapFrom (pushWidth byte) rest
  | nskip + 1, _ :: rest => false :: genCodeBitmapFrom nskip rest

/-- Marks the bytes of a code that start an instruction. -/
def genCodeBitmap (code : Bytes) : List Bool := genCodeBitmapFrom 0 code

/-- `len` bytes of a source from an offset on, padded with zeros. -/
def getData (src : Bytes) (off len : UInt64) : Bytes :=
  let srcLen := UInt64.ofNat src.length
  let off := if off > srcLen then srcLen else off
  let stop := off + len
  let stop := if stop > srcLen then srcLen else stop
  let data := (src.take stop.toNat).drop off.toNat
  data ++ List.replicate (len.toNat - data.length) 0

/-- As much data is copied as has been asked for. -/
theorem length_getData (src : Bytes) (off len : UInt64) :
    (getData src off len).length = len.toNat := by
  have short (first stop : UInt64) (less : stop ≤ first + len) :
      ((src.take stop.toNat).drop first.toNat).length ≤ len.toNat := by
    rw [UInt64.le_iff_toNat_le, UInt64.toNat_add] at less
    rw [List.length_drop, List.length_take]
    omega
  unfold getData
  extract_lets srcLen first last stop data
  have less : stop ≤ first + len := by
    unfold stop last
    split
    · exact UInt64.le_of_lt ‹_›
    · exact UInt64.le_refl _
  have small : data.length ≤ len.toNat := short first stop less
  rw [List.length_append, List.length_replicate]
  omega
end Qevm
