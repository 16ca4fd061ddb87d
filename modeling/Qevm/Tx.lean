import Qevm.Codec.RlpReader
import Qevm.Common

/-!
# Transactions

The three kinds of transactions, their encodings, the byte strings that are
signed, and decoding.  The reader of encoded items and the recovery of public
keys are library code and are parameters.
-/

namespace Qevm

open Rlp

/-- A byte string in memory; no allocation holds 2^63 bytes. -/
structure Buffer where
  toList : Bytes
  fits : toList.length < 2 ^ 63

/-! ## Encodings of the fields -/

/-- A 64-bit number. -/
def u64Item (value : UInt64) : Item := .data (minimalBigEndian value.toNat)

/-- A word without its leading zero bytes. -/
def U256.toItem (word : U256) : Item :=
  let leadingEmptyBytes := 4 * 8 - (word.bits + 7) / 8
  .data (word.toBigEndian.drop leadingEmptyBytes)

def Addr.toItem (addr : Addr) : Item := .data addr.asBytes

/-- An address that may be missing. -/
def nullableAddrItem : Option Addr → Item
  | some addr => addr.toItem
  | none => .data []

/-- An entry of an access list.  It has no fields. -/
structure AccessTuple
deriving DecidableEq

def AccessTuple.toItem (_ : AccessTuple) : Item := .list []

def accessListItem (accessList : List AccessTuple) : Item :=
  .list (accessList.map AccessTuple.toItem)

section Decoding

variable [Reader]

/-- The number written by at most `width` bytes without leading zeros. -/
def decodeUint (width : Nat) (view : Bytes) : Option Nat :=
  (Reader.value view).bind fun bytes =>
    if bytes.head? = some 0 then none
    else if bytes.length ≤ width then some (fromBigEndian bytes)
    else none

def decodeU64 (view : Bytes) : Option UInt64 := (decodeUint 8 view).map UInt64.ofNat

def decodeU256 (view : Bytes) : Option U256 := (decodeUint 32 view).map (BitVec.ofNat 256)

def decodeBytes (view : Bytes) : Option Bytes := Reader.value view

def decodeNullableAddr (view : Bytes) : Option (Option Addr) :=
  (Reader.value view).bind fun bytes =>
    if bytes.isEmpty then some none
    else if bytes.length = 20 then some (some (BitVec.ofNat 160 (fromBigEndian bytes)))
    else none

/-- Every item is an entry. -/
def AccessTuple.decode (_ : Bytes) : Option AccessTuple := some ⟨⟩

/-- The field with an index in a list. -/
def valAt (decode : Bytes → Option α) (view : Bytes) (index : Nat) : Option α :=
  (Reader.itemAt view index).bind decode

/-- The field with an index in a list, when it is a list of values. -/
def listAt (decode : Bytes → Option α) (view : Bytes) (index : Nat) : Option (List α) :=
  (Reader.itemAt view index).bind fun view => (Reader.items view).mapM decode

end Decoding

/-! ## The three kinds -/

structure TxLegacy where
  nonce : UInt64
  gasPrice : Wei
  gas : UInt64
  to_ : Option Addr
  value : Wei
  data : Bytes
  v : U256
  r : U256
  s : U256
deriving DecidableEq

structure TxDynamicFee where
  chainId : U256
  nonce : UInt64
  gasTipCap : Wei
  gasFeeCap : Wei
  gas : UInt64
  to_ : Option Addr
  value : Wei
  data : Bytes
  accessList : List AccessTuple
  v : U256
  r : U256
  s : U256
deriving DecidableEq

structure TxAccessList where
  chainId : U256
  nonce : UInt64
  gasPrice : Wei
  gas : UInt64
  to_ : Option Addr
  value : Wei
  data : Bytes
  accessList : List AccessTuple
  v : U256
  r : U256
  s : U256
deriving DecidableEq

inductive TxType
  | legacy
  | accessList
  | dynamicFee
deriving DecidableEq

/-- The discriminant of a type. -/
def TxType.toByte : TxType → UInt8
  | legacy => 0
  | accessList => 1
  | dynamicFee => 2

namespace TxLegacy

def toItem (tx : TxLegacy) : Item :=
  .list [u64Item tx.nonce, U256.toItem tx.gasPrice, u64Item tx.gas,
    nullableAddrItem tx.to_, U256.toItem tx.value, .data tx.data, tx.v.toItem,
    tx.r.toItem, tx.s.toItem]

def decode [Reader] (view : Bytes) : Option TxLegacy := do
  let nonce ← valAt decodeU64 view 0
  let gasPrice ← valAt decodeU256 view 1
  let gas ← valAt decodeU64 view 2
  let to_ ← valAt decodeNullableAddr view 3
  let value ← valAt decodeU256 view 4
  let data ← valAt decodeBytes view 5
  let v ← valAt decodeU256 view 6
  let r ← valAt decodeU256 view 7
  let s ← valAt decodeU256 view 8
  some { nonce, gasPrice, gas, to_, value, data, v, r, s }

def encode (tx : TxLegacy) : Bytes := tx.toItem.encode

/-- The chain that `v` names; 64-bit subtraction wraps around. -/
def deriveChainId (tx : TxLegacy) : U256 :=
  if tx.v.bits ≤ 64 then
    let v := tx.v.lowU64
    if v = 27 ∨ v = 28 then 0 else U256.ofU64 ((v - 35) / 2)
  else (tx.v - 35) / 2

/-- Whether `v` names a chain. -/
def isProtected (tx : TxLegacy) : Bool :=
  if tx.v.bits ≤ 8 then
    let v := tx.v.lowU64
    v != 27 && v != 28 && v != 1 && v != 0
  else true

/-- What `sig_hash` hashes. -/
def sigBytes (tx : TxLegacy) (chainId : U256) : Bytes :=
  Item.encode (.list [u64Item tx.nonce, U256.toItem tx.gasPrice, u64Item tx.gas,
    nullableAddrItem tx.to_, U256.toItem tx.value, .data tx.data, chainId.toItem,
    u64Item 0, u64Item 0])

/-- What is hashed when `v` names no chain. -/
def homesteadBytes (tx : TxLegacy) : Bytes :=
  TxType.legacy.toByte :: Item.encode (.list [u64Item tx.nonce,
    U256.toItem tx.gasPrice, u64Item tx.gas, nullableAddrItem tx.to_,
    U256.toItem tx.value, .data tx.data])

end TxLegacy

namespace TxDynamicFee

def toItem (tx : TxDynamicFee) : Item :=
  .list [tx.chainId.toItem, u64Item tx.nonce, U256.toItem tx.gasTipCap,
    U256.toItem tx.gasFeeCap, u64Item tx.gas, nullableAddrItem tx.to_,
    U256.toItem tx.value, .data tx.data, accessListItem tx.accessList, tx.v.toItem,
    tx.r.toItem, tx.s.toItem]

def decode [Reader] (view : Bytes) : Option TxDynamicFee := do
  let chainId ← valAt decodeU256 view 0
  let nonce ← valAt decodeU64 view 1
  let gasTipCap ← valAt decodeU256 view 2
  let gasFeeCap ← valAt decodeU256 view 3
  let gas ← valAt decodeU64 view 4
  let to_ ← valAt decodeNullableAddr view 5
  let value ← valAt decodeU256 view 6
  let data ← valAt decodeBytes view 7
  let accessList ← listAt AccessTuple.decode view 8
  let v ← valAt decodeU256 view 9
  let r ← valAt decodeU256 view 10
  let s ← valAt decodeU256 view 11
  some { chainId, nonce, gasTipCap, gasFeeCap, gas, to_, value, data, accessList, v, r, s }

def encode (tx : TxDynamicFee) : Bytes := 2 :: tx.toItem.encode

/-- What `sig_hash` hashes. -/
def sigBytes (tx : TxDynamicFee) (chainId : U256) : Bytes :=
  TxType.dynamicFee.toByte :: Item.encode (.list [chainId.toItem, u64Item tx.nonce,
    U256.toItem tx.gasTipCap, U256.toItem tx.gasFeeCap, u64Item tx.gas,
    nullableAddrItem tx.to_, U256.toItem tx.value, .data tx.data,
    accessListItem tx.accessList])

end TxDynamicFee

namespace TxAccessList

def toItem (tx : TxAccessList) : Item :=
  .list [tx.chainId.toItem, u64Item tx.nonce, U256.toItem tx.gasPrice,
    u64Item tx.gas, nullableAddrItem tx.to_, U256.toItem tx.value, .data tx.data,
    accessListItem tx.accessList, tx.v.toItem, tx.r.toItem, tx.s.toItem]

def decode [Reader] (view : Bytes) : Option TxAccessList := do
  let chainId ← valAt decodeU256 view 0
  let nonce ← valAt decodeU64 view 1
  let gasPrice ← valAt decodeU256 view 2
  let gas ← valAt decodeU64 view 3
  let to_ ← valAt decodeNullableAddr view 4
  let value ← valAt decodeU256 view 5
  let data ← valAt decodeBytes view 6
  let accessList ← listAt AccessTuple.decode view 7
  let v ← valAt decodeU256 view 8
  let r ← valAt decodeU256 view 9
  let s ← valAt decodeU256 view 10
  some { chainId, nonce, gasPrice, gas, to_, value, data, accessList, v, r, s }

def encode (tx : TxAccessList) : Bytes := 1 :: tx.toItem.encode

/-- What `sig_hash` hashes. -/
def sigBytes (tx : TxAccessList) (chainId : U256) : Bytes :=
  TxType.accessList.toByte :: Item.encode (.list [chainId.toItem, u64Item tx.nonce,
    U256.toItem tx.gasPrice, u64Item tx.gas, nullableAddrItem tx.to_,
    U256.toItem tx.value, .data tx.data, accessListItem tx.accessList])

end TxAccessList

/-- A transaction of one of the kinds. -/
inductive TxLike
  | legacy (tx : TxLegacy)
  | accessList (tx : TxAccessList)
  | dynamicFee (tx : TxDynamicFee)
deriving DecidableEq

namespace TxLike

def encode : TxLike → Bytes
  | legacy tx => tx.encode
  | accessList tx => tx.encode
  | dynamicFee tx => tx.encode

def type : TxLike → TxType
  | legacy _ => .legacy
  | accessList _ => .accessList
  | dynamicFee _ => .dynamicFee

def chainId : TxLike → U256
  | legacy tx => tx.deriveChainId
  | accessList tx => tx.chainId
  | dynamicFee tx => tx.chainId

/-- The access list, if the kind has one. -/
def entries : TxLike → Option (List AccessTuple)
  | legacy _ => none
  | accessList tx => some tx.accessList
  | dynamicFee tx => some tx.accessList

def data : TxLike → Bytes
  | legacy tx => tx.data
  | accessList tx => tx.data
  | dynamicFee tx => tx.data

def gas : TxLike → UInt64
  | legacy tx => tx.gas
  | accessList tx => tx.gas
  | dynamicFee tx => tx.gas

def gasFeeCap : TxLike → Wei
  | legacy tx => tx.gasPrice
  | accessList tx => tx.gasPrice
  | dynamicFee tx => tx.gasFeeCap

def gasTipCap : TxLike → Wei
  | legacy tx => tx.gasPrice
  | accessList tx => tx.gasPrice
  | dynamicFee tx => tx.gasTipCap

def gasPrice : TxLike → Wei
  | legacy tx => tx.gasPrice
  | accessList tx => tx.gasPrice
  | dynamicFee tx => tx.gasFeeCap

def value : TxLike → Wei
  | legacy tx => tx.value
  | accessList tx => tx.value
  | dynamicFee tx => tx.value

def nonce : TxLike → UInt64
  | legacy tx => tx.nonce
  | accessList tx => tx.nonce
  | dynamicFee tx => tx.nonce

def to_ : TxLike → Option Addr
  | legacy tx => tx.to_
  | accessList tx => tx.to_
  | dynamicFee tx => tx.to_

def v : TxLike → U256
  | legacy tx => tx.v
  | accessList tx => tx.v
  | dynamicFee tx => tx.v

def r : TxLike → U256
  | legacy tx => tx.r
  | accessList tx => tx.r
  | dynamicFee tx => tx.r

def s : TxLike → U256
  | legacy tx => tx.s
  | accessList tx => tx.s
  | dynamicFee tx => tx.s

/-- Whether the signature names a chain. -/
def isProtected : TxLike → Bool
  | legacy tx => tx.isProtected
  | accessList _ => true
  | dynamicFee _ => true

/-- The bytes that are hashed for signing. -/
def signedBytes (chainId : U256) : TxLike → Bytes
  | legacy tx => if tx.isProtected then tx.sigBytes chainId else tx.homesteadBytes
  | accessList tx => tx.sigBytes chainId
  | dynamicFee tx => tx.sigBytes chainId

end TxLike

/-! ## The sender -/

/-- The recovery of a public key. -/
class Secp256k1 where
  /-- The serialized public key of a signature `r`, `s` of a message. -/
  recover : (message : Hash) → (r s : U256) → (recoverId : UInt8) → Option Bytes

/-- What makes decoding panic. -/
inductive TxPanic
  | arithmeticOverflow
  | assertion
deriving DecidableEq

def secp256k1N : U256 :=
  0xfffffffffffffffffffffffffffffffebaaedce6af48a03bbfd25e8cd0364141

def secp256k1HalfN : U256 := secp256k1N / 2

section Recovery

variable [Keccak256] [Secp256k1]

def recoverPlain
    (txHash : Hash) (r s vb : U256) (homestead : Bool) : Except TxPanic (Option Addr) :=
  if vb.bits > 8 then .ok none
  else
    let v := vb.lowU64 - 27
    if r < 1 ∨ s < 1 then .ok none
    else if homestead ∧ s > secp256k1HalfN then .ok none
    else if r ≥ secp256k1N ∨ s ≥ secp256k1N ∨ (v ≠ 0 ∧ v ≠ 1) then .ok none
    else
      match Secp256k1.recover txHash r s v.toUInt8 with
      | none => .ok none
      | some pubkey =>
          if pubkey.head? = some 4 then
            .ok (some (U256.toAddr (Hash.hash (pubkey.drop 1))))
          else .error .assertion

/-- The account whose key signed a transaction for a chain. -/
def TxLike.recoverSender (tx : TxLike) (chainId : U256) : Except TxPanic (Option Addr) :=
  if tx.chainId ≠ chainId then .ok none
  else
    let sigHash := Hash.hash (tx.signedBytes chainId)
    match tx.type with
    | .dynamicFee | .accessList =>
        match tx.v.checkedAdd 27 with
        | none => .error .arithmeticOverflow
        | some v => recoverPlain sigHash tx.r tx.s v true
    | .legacy =>
        if ¬tx.isProtected then recoverPlain sigHash tx.r tx.s tx.v true
        else
          match (tx.v.checkedSub (chainId <<< 1)).bind (·.checkedSub 8) with
          | none => .error .arithmeticOverflow
          | some v => recoverPlain sigHash tx.r tx.s v true

/-- A decoded transaction. -/
structure Tx where
  inner : TxLike
  txHash : Hash
  from_ : Addr
deriving DecidableEq

namespace Tx

def new (tx : TxLike) (txHash : Hash) (chainId : U256) : Except TxPanic (Option Tx) :=
  match tx.recoverSender chainId with
  | .error panic => .error panic
  | .ok none => .ok none
  | .ok (some sender) => .ok (some ⟨tx, txHash, sender⟩)

/-- Decode a transaction for a chain: a list, or a type byte and a list. -/
def decode [Reader] (bytes : Bytes) (chainId : U256) : Except TxPanic (Option Tx) :=
  let txHash := Hash.hash bytes
  match bytes with
  | [] => .ok none
  | byte :: rest =>
      if byte ≥ 0xc0 then
        match TxLegacy.decode bytes with
        | none => .ok none
        | some tx => new (.legacy tx) txHash chainId
      else if byte = 1 then
        match TxAccessList.decode rest with
        | none => .ok none
        | some tx => new (.accessList tx) txHash chainId
      else if byte = 2 then
        match TxDynamicFee.decode rest with
        | none => .ok none
        | some tx => new (.dynamicFee tx) txHash chainId
      else .ok none

end Tx
end Recovery
end Qevm
