import Qevm.Laws.AccountCodec
import Qevm.Laws.TxCodec
import Qevm.Node.Records

/-!
# What a node reads back

Blocks and outcomes are read back from their records.  The transactions of a block come back
with the hashes of their encodings, which are not those of the bytes that were accepted if
these were no standard encodings; the hash of the block changes with them.  An outcome is
read back as long as it has as many contracts as gas entries, and otherwise panics.
-/

namespace Qevm

open AccountState (readExact_append length_asBytes length_toBigEndian length_u64ToLeBytes
  fromBigEndian_toBigEndian u64FromLeBytes_toLeBytes)

theorem fromBigEndian_asBytes (hash : Hash) : U256.fromBigEndian hash.asBytes = hash :=
  fromBigEndian_toBigEndian hash

/-- A length is read as the 64-bit number that it is written as. -/
theorem toNat_fromLeBytes_ofNat {length : Nat} (fits : length < 2 ^ 64) :
    (u64FromLeBytes (u64ToLeBytes (UInt64.ofNat length))).toNat = length := by
  rw [u64FromLeBytes_toLeBytes, UInt64.toNat_ofNat_of_lt' fits]

/-- A transaction with the hash of its encoding. -/
def Tx.rehashed [Keccak256] (tx : Tx) : Tx :=
  ⟨tx.inner, Hash.hash tx.inner.encode, tx.from_⟩

namespace DemoBlock

/-- The header and the number of transactions are read back. -/
theorem readHeader_append (block : DemoBlock) {count : Nat} (fits : count < 2 ^ 64)
    (rest : Bytes) :
    readHeader (block.headerBytes ++ u64ToLeBytes (UInt64.ofNat count) ++ rest) =
      some ({ block with txs := [] }, count, rest) := by
  unfold readHeader headerBytes
  simp only [List.append_assoc, Option.bind_eq_bind,
    readExact_append (length_u64ToLeBytes _), readExact_append (length_asBytes _),
    readExact_append (length_toBigEndian _), Option.bind_some, u64FromLeBytes_toLeBytes,
    fromBigEndian_asBytes, fromBigEndian_toBigEndian, UInt64.toNat_ofNat_of_lt' fits]

/-- The bytes of a transaction are read back. -/
theorem readTxBytes_append {tx : Tx} (fits : tx.inner.encode.length < 2 ^ 64) (rest : Bytes) :
    readTxBytes (txBytes tx ++ rest) = some (tx.inner.encode, rest) := by
  unfold readTxBytes txBytes
  simp only [List.append_assoc, Option.bind_eq_bind, Option.bind_some,
    readExact_append (length_u64ToLeBytes _), toNat_fromLeBytes_ofNat fits,
    readExact_append rfl]

section Reading

variable [Keccak256] [Secp256k1] [Rlp.Reader] {chainId : U256}

/-- A transaction that was accepted for a chain and is in memory. -/
structure Accepted (chainId : U256) (tx : Tx) : Prop where
  decoded : ∃ bytes, Tx.decode bytes chainId = .ok (some tx)
  fits : tx.inner.encode.length < 2 ^ 64

/-- A block whose transactions have the hashes of their encodings. -/
def rehashed (block : DemoBlock) : DemoBlock :=
  { block with txs := block.txs.map Tx.rehashed }

variable [Rlp.LawfulReader]

/-- Accepted transactions are read back. -/
theorem readTxs_append {txs : List Tx} (accepted : ∀ tx ∈ txs, Accepted chainId tx)
    (rest : Bytes) :
    readTxs chainId txs.length ((txs.map txBytes).flatten ++ rest) =
      .ok (some (txs.map Tx.rehashed)) := by
  induction txs with
  | nil => rfl
  | cons tx txs inductionHypothesis =>
      obtain ⟨⟨bytes, decoded⟩, fits⟩ := accepted tx List.mem_cons_self
      have others := inductionHypothesis fun other member =>
        accepted other (List.mem_cons_of_mem tx member)
      rw [List.length_cons, List.map_cons, List.flatten_cons, List.append_assoc, readTxs,
        readTxBytes_append fits]
      simp only [Tx.decode_again decoded fits, others]
      rfl

/-- A block is read back, up to the hashes of its transactions. -/
theorem decode_encode (block : DemoBlock) (few : block.txs.length < 2 ^ 64)
    (accepted : ∀ tx ∈ block.txs, Accepted chainId tx) (rest : Bytes) :
    decode (block.encode ++ rest) chainId = .ok (some block.rehashed) := by
  unfold decode encode
  rw [List.append_assoc _ _ rest, readHeader_append block few]
  simp only [readTxs_append accepted]
  rfl

omit [Secp256k1] [Rlp.Reader] [Rlp.LawfulReader] in
/-- A block keeps its hashes when they are those of encodings. -/
theorem rehashed_eq_iff (block : DemoBlock) :
    block.rehashed = block ↔ ∀ tx ∈ block.txs, tx.txHash = Hash.hash tx.inner.encode := by
  have one (tx : Tx) : tx.rehashed = tx ↔ tx.txHash = Hash.hash tx.inner.encode := by
    cases tx
    simp [Tx.rehashed, eq_comm]
  have fields : block.rehashed = block ↔ block.txs.map Tx.rehashed = block.txs := by
    cases block
    simp [rehashed]
  have fixed : block.txs.map Tx.rehashed = block.txs ↔ ∀ tx ∈ block.txs, tx.rehashed = tx := by
    rw [← List.map_inj_left, List.map_id']
  rw [fields, fixed]
  exact forall₂_congr fun tx _ => one tx

end Reading
end DemoBlock

namespace BlockOutcome

variable {σ τ : Type}

/-- An address that is not zero; zero is read as no address. -/
def present (addr : Option Addr) : Option Addr := if addr = some 0 then none else addr

theorem length_addrBytes (addr : Option Addr) : (addrBytes addr).length = 20 :=
  Rlp.length_bigEndian 20 _

/-- An address is read back, where zero is no address. -/
theorem present_addrBytes (addr : Option Addr) :
    (if (BitVec.ofNat 160 (fromBigEndian (addrBytes addr)) : Addr) = 0 then none
      else some (BitVec.ofNat 160 (fromBigEndian (addrBytes addr)))) = present addr := by
  have number : (BitVec.ofNat 160 (fromBigEndian (addrBytes addr)) : Addr) = addr.getD 0 := by
    have value : fromBigEndian (addrBytes addr) = (addr.getD 0).toNat := by
      refine (Rlp.ofBigEndian_bigEndian 20 _).trans ?_
      exact Nat.mod_eq_of_lt ((addr.getD 0).isLt.trans_eq (by norm_num))
    rw [value, BitVec.ofNat_toNat, BitVec.setWidth_eq]
  rw [number, present]
  cases addr with
  | none => rfl
  | some addr => simp

theorem readGas_append (entry : Gas × Gas) (rest : Bytes) :
    readGas (gasBytes entry ++ rest) = some (entry, rest) := by
  unfold readGas gasBytes
  simp only [List.append_assoc, Option.bind_eq_bind, Option.bind_some,
    readExact_append (length_u64ToLeBytes _), u64FromLeBytes_toLeBytes]

theorem readContractAddr_append (addr : Option Addr) (rest : Bytes) :
    readContractAddr (addrBytes addr ++ rest) = some (present addr, rest) := by
  unfold readContractAddr
  simp only [readExact_append (length_addrBytes _), Option.bind_eq_bind, Option.bind_some,
    present_addrBytes]

/-- An outcome is read back if its lists are of one length; otherwise reading it panics. -/
theorem decode_encode (outcome : BlockOutcome σ) (worldState : τ)
    (few : outcome.gasUsed.length < 2 ^ 64) (fewAddrs : outcome.contractAddrs.length < 2 ^ 64)
    (rest : Bytes) :
    decode (outcome.encode ++ rest) worldState =
      if outcome.gasUsed.length = outcome.contractAddrs.length then
        .ok (some ⟨worldState, outcome.gasUsed, outcome.contractAddrs.map present⟩)
      else .error .assertion := by
  have lengths :
      (UInt64.ofNat outcome.gasUsed.length = UInt64.ofNat outcome.contractAddrs.length) ↔
        outcome.gasUsed.length = outcome.contractAddrs.length := by
    rw [← UInt64.toNat_inj, UInt64.toNat_ofNat_of_lt' few, UInt64.toNat_ofNat_of_lt' fewAddrs]
  unfold decode encode
  simp only [List.append_assoc, Option.bind_eq_bind, Option.bind_some,
    readExact_append (length_u64ToLeBytes _), u64FromLeBytes_toLeBytes,
    UInt64.toNat_ofNat_of_lt' few, UInt64.toNat_ofNat_of_lt' fewAddrs, lengths,
    Codec.readMany_written fun entry _ => readGas_append entry,
    Codec.readMany_written fun addr _ => readContractAddr_append addr, Option.map_some,
    List.map_id']

end BlockOutcome

/-- A block whose transactions were accepted is read back with the same header and the same
transactions from the same senders, each with the hash of its encoding; it is the same block
exactly when these were its hashes.  An outcome is read back if it has as many contracts as
gas entries, where the address zero is no contract; otherwise reading it panics. -/
theorem records_of_a_node_are_read_back
    [Keccak256] [Secp256k1] [Rlp.Reader] [Rlp.LawfulReader] {σ τ : Type} (chainId : U256) :
    (∀ (block : DemoBlock) (rest : Bytes), block.txs.length < 2 ^ 64 →
      (∀ tx ∈ block.txs, DemoBlock.Accepted chainId tx) →
      DemoBlock.decode (block.encode ++ rest) chainId = .ok (some block.rehashed) ∧
        (block.rehashed = block ↔
          ∀ tx ∈ block.txs, tx.txHash = Hash.hash tx.inner.encode)) ∧
    ∀ (outcome : BlockOutcome σ) (worldState : τ) (rest : Bytes),
      outcome.gasUsed.length < 2 ^ 64 → outcome.contractAddrs.length < 2 ^ 64 →
      BlockOutcome.decode (outcome.encode ++ rest) worldState =
        if outcome.gasUsed.length = outcome.contractAddrs.length then
          .ok (some ⟨worldState, outcome.gasUsed,
            outcome.contractAddrs.map BlockOutcome.present⟩)
        else .error .assertion :=
  ⟨fun block rest few accepted =>
      ⟨DemoBlock.decode_encode block few accepted rest, DemoBlock.rehashed_eq_iff block⟩,
    fun outcome worldState rest few fewAddrs =>
      BlockOutcome.decode_encode outcome worldState few fewAddrs rest⟩

/-- A block with the payment whose entry is lost. -/
def Sample.paymentBlock : DemoBlock :=
  DemoBlock.new 1 2 3 (some 4) 0
    [⟨Tx.Sample.inner, 0x0684daf9e4e929a2b481e93737a4da42cbcb17749c31391955c2682f79c3036d,
      Tx.Sample.sender⟩]

/-- The block is read back with another hash of the payment. -/
theorem payment_block_is_read_back :
    letI := Tx.Sample.keccak
    letI := Tx.Sample.secp256k1
    letI := Rlp.standardReader
    DemoBlock.decode (Sample.paymentBlock.encode ++ []) 1 =
        .ok (some Sample.paymentBlock.rehashed) ∧
      Sample.paymentBlock.rehashed ≠ Sample.paymentBlock := by
  let := Tx.Sample.keccak
  let := Tx.Sample.secp256k1
  let := Rlp.standardReader
  have : Rlp.LawfulReader := Rlp.standardReader_lawful
  have accepted : ∀ tx ∈ Sample.paymentBlock.txs, DemoBlock.Accepted 1 tx := by
    intro tx member
    obtain rfl := List.mem_singleton.mp member
    exact ⟨⟨Tx.Sample.listed, by decide +kernel⟩, by decide +kernel⟩
  have records := records_of_a_node_are_read_back (σ := Unit) (τ := Unit) 1
  obtain ⟨read, same⟩ := records.1 Sample.paymentBlock [] (by decide) accepted
  refine ⟨read, fun unchanged => ?_⟩
  have hashes := same.mp unchanged
  exact absurd hashes (by decide +kernel)

/-! ## What a hash and a key stand for -/

namespace DemoBlock

theorem length_headerBytes (block : DemoBlock) : block.headerBytes.length = 120 := by
  simp [headerBytes, length_u64ToLeBytes, length_asBytes, length_toBigEndian]

/-- The header is read back from its bytes. -/
theorem headerBytes_injective {block other : DemoBlock}
    (same : block.headerBytes = other.headerBytes) :
    { block with txs := [] } = ({ other with txs := [] } : DemoBlock) := by
  have read := readHeader_append block (show 0 < 2 ^ 64 by decide) []
  rw [same, readHeader_append other (by decide)] at read
  exact (Prod.mk.inj (Option.some.inj read)).1.symm

/-- A hash is read back from its bytes. -/
def readHash (raw : Bytes) : Option (Hash × Bytes) :=
  (AccountState.readExact 32 raw).map fun (bytes, raw) => (U256.fromBigEndian bytes, raw)

theorem readHash_append (hash : Hash) (rest : Bytes) :
    readHash (hash.asBytes ++ rest) = some (hash, rest) := by
  simp only [readHash, readExact_append (length_asBytes _), Option.map_some,
    fromBigEndian_asBytes]

/-- A list of hashes is read back from its bytes. -/
theorem hashes_injective {hashes others : List Hash}
    (same : (hashes.map Hash.asBytes).flatten = (others.map Hash.asBytes).flatten) :
    hashes = others := by
  have bytes (hashes : List Hash) : (hashes.map Hash.asBytes).flatten.length =
      hashes.length * 32 := by
    simp [List.length_flatten, Function.comp_def, length_asBytes]
  have count : hashes.length = others.length := by
    have total := congrArg List.length same
    rw [bytes, bytes] at total
    omega
  have reads (hashes : List Hash) :
      Codec.readMany readHash hashes.length ((hashes.map Hash.asBytes).flatten ++ []) =
        some (hashes, []) := by
    have written := Codec.readMany_written
      (fun hash (_ : hash ∈ hashes) => readHash_append hash) []
    rwa [List.map_id'] at written
  have readOthers := reads others
  rw [← same, ← count, reads hashes] at readOthers
  exact (Prod.mk.inj (Option.some.inj readOthers)).1

/-- The hashed bytes of two blocks are equal exactly if the headers and the hashes of the
transactions are. -/
theorem hashedBytes_eq_iff {block other : DemoBlock} :
    block.hashedBytes = other.hashedBytes ↔
      { block with txs := [] } = ({ other with txs := [] } : DemoBlock) ∧
        block.txs.map Tx.txHash = other.txs.map Tx.txHash := by
  constructor
  · intro same
    have width : block.headerBytes.length = other.headerBytes.length := by
      rw [length_headerBytes, length_headerBytes]
    obtain ⟨headers, hashes⟩ := List.append_inj same width
    refine ⟨headerBytes_injective headers, hashes_injective ?_⟩
    rwa [List.map_map, List.map_map]
  · rintro ⟨headers, hashes⟩
    have bytes := congrArg (List.map Hash.asBytes) hashes
    rw [List.map_map, List.map_map] at bytes
    change headerBytes { block with txs := [] } ++ _ =
      headerBytes { other with txs := [] } ++ _
    rw [headers]
    exact congrArg (fun bytes => headerBytes { other with txs := [] } ++ bytes.flatten) bytes

end DemoBlock

/-- The records beside the nodes of the tries. -/
inductive RecordKey
  | outcome (hash : Hash)
  | block (hash : Hash)
  | index (idx : UInt64)
deriving DecidableEq

namespace RecordKey

def bytes : RecordKey → Bytes
  | .outcome hash => genOutcomeKey hash
  | .block hash => genBlockKey hash
  | .index idx => genIndexKey idx

theorem asBytes_injective {hash other : Hash} (same : hash.asBytes = other.asBytes) :
    hash = other := by
  rw [← fromBigEndian_asBytes hash, same, fromBigEndian_asBytes]

theorem u64ToLeBytes_injective {number other : UInt64}
    (same : u64ToLeBytes number = u64ToLeBytes other) : number = other := by
  rw [← u64FromLeBytes_toLeBytes number, same, u64FromLeBytes_toLeBytes]

/-- The first byte of a key tells its kind. -/
def kind : RecordKey → UInt8
  | .outcome _ => 111
  | .block _ => 98
  | .index _ => 105

theorem head?_bytes (key : RecordKey) : key.bytes.head? = some key.kind := by
  cases key <;> rfl

/-- Records of different kinds or with different names have different keys. -/
theorem bytes_injective {key other : RecordKey} (same : key.bytes = other.bytes) :
    key = other := by
  have kinds := congrArg List.head? same
  rw [head?_bytes, head?_bytes] at kinds
  cases key with
  | outcome hash =>
      cases other with
      | outcome other =>
          exact congrArg outcome (asBytes_injective (List.append_cancel_left same))
      | block other => exact absurd kinds (by simp [kind])
      | index other => exact absurd kinds (by simp [kind])
  | block hash =>
      cases other with
      | outcome other => exact absurd kinds (by simp [kind])
      | block other => exact congrArg block (asBytes_injective (List.append_cancel_left same))
      | index other => exact absurd kinds (by simp [kind])
  | index idx =>
      cases other with
      | outcome other => exact absurd kinds (by simp [kind])
      | block other => exact absurd kinds (by simp [kind])
      | index other =>
          exact congrArg index (u64ToLeBytes_injective (List.append_cancel_left same))

/-- No record is in the space of the nodes. -/
theorem outside_nodes (key : RecordKey) : ¬DB_PREFIX_MERKLE <+: key.bytes := by
  intro inside
  obtain ⟨rest, joined⟩ := inside
  have first := congrArg List.head? joined
  rw [head?_bytes] at first
  cases key <;> exact absurd first (by simp [DB_PREFIX_MERKLE, kind])

end RecordKey

/-- The hash of a block is taken of bytes that determine its header and the hashes of its
transactions in their order.  The records of a node have different keys, and none of them is
in the space of the trie nodes. -/
theorem hashes_and_keys_determine_records :
    (∀ block other : DemoBlock, block.hashedBytes = other.hashedBytes ↔
      { block with txs := [] } = ({ other with txs := [] } : DemoBlock) ∧
        block.txs.map Tx.txHash = other.txs.map Tx.txHash) ∧
    (∀ key other : RecordKey, key.bytes = other.bytes ↔ key = other) ∧
    ∀ key : RecordKey, ¬DB_PREFIX_MERKLE <+: key.bytes :=
  ⟨fun _ _ => DemoBlock.hashedBytes_eq_iff,
    fun _ _ => ⟨RecordKey.bytes_injective, congrArg RecordKey.bytes⟩,
    RecordKey.outside_nodes⟩

end Qevm
