import Qevm.Chain
import Qevm.Codec.Sequence
import Qevm.Core.Params
import Qevm.State.Merkle
import Qevm.Tx

/-!
# The records of a node

Blocks and the outcomes of their execution are kept in the database under their hashes, the
hashes of the canonical chain under their numbers.  The hash of a block covers its header
and the hashes of its transactions.

The hash of a block is computed once and kept; nothing is changed in a block that has it.
-/

namespace Qevm

open AccountState (readExact)

def MAX_BLOCK_TXS : Nat := 2

def DB_PREFIX_MERKLE : Bytes := [109, 101, 114, 107, 108, 101]
def DB_PREFIX_OUTCOME : Bytes := [111, 117, 116, 99, 111, 109, 101]
def DB_PREFIX_BLOCK : Bytes := [98, 108, 111, 99, 107]
def DB_PREFIX_INDEX : Bytes := [105, 110, 100, 101, 120]

def genOutcomeKey (block : Hash) : Bytes := DB_PREFIX_OUTCOME ++ block.asBytes
def genBlockKey (block : Hash) : Bytes := DB_PREFIX_BLOCK ++ block.asBytes
def genIndexKey (idx : UInt64) : Bytes := DB_PREFIX_INDEX ++ u64ToLeBytes idx

/-! ## Blocks -/

structure DemoBlock where
  number : UInt64
  parentHash : Hash
  rootHash : Hash
  timestamp : UInt64
  gasLimit : Gas
  baseFee : U256
  txs : List Tx
deriving DecidableEq

namespace DemoBlock

/-- A block before it has been executed; the clock gives its time unless it is known. -/
def new
    (number : UInt64) (parentHash rootHash : Hash) (timestamp : Option UInt64)
    (clock : UInt64) (txs : List Tx) : DemoBlock where
  number := number
  parentHash := parentHash
  rootHash := rootHash
  timestamp := timestamp.getD clock
  gasLimit := 8000000
  baseFee := 0
  txs := txs

/-- The fields that stand before the transactions. -/
def headerBytes (self : DemoBlock) : Bytes :=
  u64ToLeBytes self.number ++ self.parentHash.asBytes ++ self.rootHash.asBytes ++
    u64ToLeBytes self.timestamp ++ u64ToLeBytes self.gasLimit ++ self.baseFee.toBigEndian

/-- What the hash of a block is taken of. -/
def hashedBytes (self : DemoBlock) : Bytes :=
  self.headerBytes ++ (self.txs.map fun tx => tx.txHash.asBytes).flatten

instance [Keccak256] : Block DemoBlock where
  parent := parentHash
  hash self := Hash.hash self.hashedBytes

/-- A transaction and its length before it. -/
def txBytes (tx : Tx) : Bytes :=
  u64ToLeBytes (UInt64.ofNat tx.inner.encode.length) ++ tx.inner.encode

def encode (self : DemoBlock) : Bytes :=
  self.headerBytes ++ u64ToLeBytes (UInt64.ofNat self.txs.length) ++
    (self.txs.map txBytes).flatten

section Decoding

/-- The fields before the transactions, and the number of these. -/
def readHeader (raw : Bytes) : Option (DemoBlock × Nat × Bytes) := do
  let (number, raw) ← readExact 8 raw
  let (parentHash, raw) ← readExact 32 raw
  let (rootHash, raw) ← readExact 32 raw
  let (timestamp, raw) ← readExact 8 raw
  let (gasLimit, raw) ← readExact 8 raw
  let (baseFee, raw) ← readExact 32 raw
  let (txsLen, raw) ← readExact 8 raw
  some
    ({ number := u64FromLeBytes number
       parentHash := U256.fromBigEndian parentHash
       rootHash := U256.fromBigEndian rootHash
       timestamp := u64FromLeBytes timestamp
       gasLimit := u64FromLeBytes gasLimit
       baseFee := U256.fromBigEndian baseFee
       txs := [] }, (u64FromLeBytes txsLen).toNat, raw)

/-- The bytes of a transaction, with its length before it. -/
def readTxBytes (raw : Bytes) : Option (Bytes × Bytes) := do
  let (txLen, raw) ← readExact 8 raw
  readExact (u64FromLeBytes txLen).toNat raw

variable [Keccak256] [Secp256k1] [Rlp.Reader]

/-- Transactions, one after the other. -/
def readTxs (chainId : U256) : Nat → Bytes → Except TxPanic (Option (List Tx))
  | 0, _ => .ok (some [])
  | count + 1, raw =>
      match readTxBytes raw with
      | none => .ok none
      | some (txBuff, raw) =>
          match Tx.decode txBuff chainId with
          | .error panic => .error panic
          | .ok none => .ok none
          | .ok (some tx) => (readTxs chainId count raw).map (Option.map (tx :: ·))

/-- Whatever follows a block is not looked at.  `none` also stands for the panic of `resize`
at a length that no vector has. -/
def decode (raw : Bytes) (chainId : U256) : Except TxPanic (Option DemoBlock) :=
  match readHeader raw with
  | none => .ok none
  | some (block, txsLen, raw) =>
      (readTxs chainId txsLen raw).map (Option.map fun txs => { block with txs := txs })

end Decoding
end DemoBlock

/-! ## Outcomes -/

/-- What the execution of a block leaves: the state, and for each transaction that
succeeded the gas used so far, the gas that it used, and the contract that it created. -/
structure BlockOutcome (σ : Type) where
  worldState : σ
  gasUsed : List (Gas × Gas)
  contractAddrs : List (Option Addr)
deriving DecidableEq

namespace BlockOutcome

variable {σ : Type}

def gasBytes (entry : Gas × Gas) : Bytes := u64ToLeBytes entry.1 ++ u64ToLeBytes entry.2

/-- The address zero stands for no contract. -/
def addrBytes (addr : Option Addr) : Bytes := (addr.getD 0).asBytes

def encode (self : BlockOutcome σ) : Bytes :=
  u64ToLeBytes (UInt64.ofNat self.gasUsed.length) ++ (self.gasUsed.map gasBytes).flatten ++
    u64ToLeBytes (UInt64.ofNat self.contractAddrs.length) ++
    (self.contractAddrs.map addrBytes).flatten

def readGas (raw : Bytes) : Option ((Gas × Gas) × Bytes) := do
  let (g0, raw) ← readExact 8 raw
  let (g1, raw) ← readExact 8 raw
  some ((u64FromLeBytes g0, u64FromLeBytes g1), raw)

def readContractAddr (raw : Bytes) : Option (Option Addr × Bytes) := do
  let (bytes, raw) ← readExact 20 raw
  let addr : Addr := BitVec.ofNat 160 (fromBigEndian bytes)
  some (if addr = 0 then none else some addr, raw)

/-- The two lists have to be of one length, which is asserted. -/
def decode (raw : Bytes) (worldState : σ) : Except TxPanic (Option (BlockOutcome σ)) :=
  let gas := do
    let (gasUsedLen, raw) ← readExact 8 raw
    let (gasUsed, raw) ← Codec.readMany readGas (u64FromLeBytes gasUsedLen).toNat raw
    let (contractAddrsLen, raw) ← readExact 8 raw
    some (u64FromLeBytes gasUsedLen, gasUsed, u64FromLeBytes contractAddrsLen, raw)
  match gas with
  | none => .ok none
  | some (gasUsedLen, gasUsed, contractAddrsLen, raw) =>
      if gasUsedLen = contractAddrsLen then
        .ok ((Codec.readMany readContractAddr contractAddrsLen.toNat raw).map
          fun (contractAddrs, _) => ⟨worldState, gasUsed, contractAddrs⟩)
      else .error .assertion

end BlockOutcome
end Qevm
