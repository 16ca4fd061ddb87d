import Qevm.Collections.TrieStore
import Qevm.State.Rev

/-!
# The persistent world state

Accounts are encoded in a trie, and the storage of each account in a trie of its
own whose root the account holds.  The store of the tries is library code: it is
a parameter that keeps persistent maps.  Committing a delta writes the changed
storage tries and then the changed accounts.

The reads unwrap what they decode; `none` stands for a panic.
-/

namespace Qevm

open TrieStore

/-! ## Encoded accounts -/

/-- The little-endian bytes of a 64-bit number. -/
def u64ToLeBytes (value : UInt64) : Bytes := (Rlp.bigEndian 8 value.toNat).reverse

def u64FromLeBytes (bytes : Bytes) : UInt64 :=
  UInt64.ofNat (fromBigEndian bytes.reverse)

/-- What the trie holds of an account. -/
structure AccountState where
  rootHash : Hash
  balance : Wei
  nonce : UInt64
  code : Bytes

namespace AccountState

def encode (self : AccountState) : Bytes :=
  self.rootHash.asBytes ++ U256.toBigEndian self.balance ++ u64ToLeBytes self.nonce ++
    u64ToLeBytes (UInt64.ofNat self.code.length) ++ self.code

/-- Take bytes off the front. -/
def readExact (length : Nat) (raw : Bytes) : Option (Bytes × Bytes) :=
  if length ≤ raw.length then some (raw.take length, raw.drop length) else none

/-- The fields are read one after the other; whatever follows them is not looked at.
`none` also stands for the panic of `resize` at a length that no vector has. -/
def decode (raw : Bytes) : Option AccountState := do
  let (rootHash, raw) ← readExact 32 raw
  let (balance, raw) ← readExact 32 raw
  let (nonce, raw) ← readExact 8 raw
  let (codeLen, raw) ← readExact 8 raw
  let (code, _) ← readExact (u64FromLeBytes codeLen).toNat raw
  some
    { rootHash := U256.fromBigEndian rootHash
      balance := U256.fromBigEndian balance
      nonce := u64FromLeBytes nonce
      code := code }

end AccountState

/-! ## Reads -/

/-- The reads of a source that may panic. -/
structure PanickingR where
  getState : Addr → Hash → Option U256
  getBalance : Addr → Option Wei
  getCode : Addr → Option Code
  getNonce : Addr → Option UInt64
  exist : Addr → Option Bool

/-- The key of a storage slot. -/
def prefixKey (addr : Addr) (key : Hash) : Bytes := addr.asBytes ++ key.asBytes

/-- A reader of the world state with a root; the root without a trie stands for the
empty state. -/
structure MerkleDBReader (σ : Type) where
  root : Hash
  mdb : σ

/-- The reader of a state root, if there is one. -/
def getReader {σ : Type} (mdb : σ) (root : Option Hash) : MerkleDBReader σ :=
  ⟨root.getD 0, mdb⟩

/-- A word from at most 32 bytes. -/
def wordOfBytes (bytes : Bytes) : Option U256 :=
  if bytes.length ≤ 32 then some (U256.fromBigEndian bytes) else none

section Reading

variable {σ : Type} [TrieStore σ Hash Bytes Bytes]

/-- The value of a key in the trie with a root; nothing without the trie. -/
def merkleGet (mdb : σ) (key : Bytes) (root : Hash) : Option Bytes :=
  (trie mdb root).bind (· key)

/-- Whether a key is in the trie with a root; a missing trie panics. -/
def merkleContains (mdb : σ) (key : Bytes) (root : Hash) : Option Bool :=
  (trie mdb root).map fun map => (map key).isSome

namespace MerkleDBReader

variable (self : MerkleDBReader σ)

/-- The account at an address. -/
def account (contract : Addr) : Option (Option AccountState) :=
  match merkleGet self.mdb contract.asBytes self.root with
  | none => some none
  | some raw => (AccountState.decode raw).map some

def getAccountRoot (contract : Addr) : Option Hash :=
  (self.account contract).map fun acc => (acc.map AccountState.rootHash).getD 0

def getState (contract : Addr) (key : Hash) : Option U256 :=
  (self.account contract).bind fun acc =>
    match acc.bind fun acc =>
      merkleGet self.mdb (prefixKey contract key) acc.rootHash with
    | none => some 0
    | some val => wordOfBytes val

def getBalance (account : Addr) : Option Wei :=
  (self.account account).map fun acc => (acc.map AccountState.balance).getD 0

def getCode [Keccak256] (contract : Addr) : Option Code :=
  (self.account contract).map fun acc =>
    (acc.map fun acc => (PlainCode.new acc.code).toCode).getD emptyCode

def getNonce (account : Addr) : Option UInt64 :=
  (self.account account).map fun acc => (acc.map AccountState.nonce).getD 0

def exist (account : Addr) : Option Bool :=
  merkleContains self.mdb account.asBytes self.root

def reads [Keccak256] : PanickingR where
  getState := self.getState
  getBalance := self.getBalance
  getCode := self.getCode
  getNonce := self.getNonce
  exist := self.exist

end MerkleDBReader

/-- The reads of the revision with a delta upon a source. -/
def PanickingR.withDelta [Keccak256] (source : PanickingR) (delta : StateDelta) :
    PanickingR where
  getState contract key :=
    if contract ∈ delta.deletedAccounts then some 0
    else
      ((delta.accounts.lookup contract).bind fun acc => acc.state.lookup key).elim
        (source.getState contract key) some
  getBalance account :=
    if account ∈ delta.deletedAccounts then some 0
    else
      ((delta.accounts.lookup account).bind AccountStateDelta.balance).elim
        (source.getBalance account) some
  getCode contract :=
    if contract ∈ delta.deletedAccounts then some (PlainCode.new []).toCode
    else
      ((delta.accounts.lookup contract).bind AccountStateDelta.code).elim
        (source.getCode contract) some
  getNonce contract :=
    if contract ∈ delta.deletedAccounts then some 0
    else
      ((delta.accounts.lookup contract).bind AccountStateDelta.nonce).elim
        (source.getNonce contract) some
  exist contract :=
    if contract ∈ delta.deletedAccounts then some false
    else if (delta.accounts.lookup contract).isSome then some true
    else source.exist contract

/-- The reads of a source that never panics. -/
def PanickingR.ofSource (source : WorldStateR) : PanickingR where
  getState contract key := some (source.getState contract key)
  getBalance account := some (source.getBalance account)
  getCode contract := some (source.getCode contract)
  getNonce account := some (source.getNonce account)
  exist account := some (source.exist account)

/-- The reads of a revision. -/
def PanickingR.ofRev [Keccak256] (rev : MemStateRev) : PanickingR where
  getState contract key := some (rev.getState contract key)
  getBalance account := some (rev.getBalance account)
  getCode contract := some (rev.getCode contract)
  getNonce account := some (rev.getNonce account)
  exist account := some (rev.exist account)

/-- One read of the revision with a delta, where the source answers. -/
theorem read_withDelta
    {α : Type} (deleted : Prop) [Decidable deleted] (zero other : α) (own : Option α) :
    (if deleted then some zero else own.elim (some other) some) =
      some (if decide deleted = true then zero else own.getD other) := by
  by_cases gone : deleted
  · rw [if_pos gone, if_pos (decide_eq_true gone)]
  · rw [if_neg gone, if_neg fun marked => gone (of_decide_eq_true marked)]
    cases own <;> rfl

/-- The reads with a delta are those of the revision, when the source never panics. -/
theorem PanickingR.withDelta_ofSource [Keccak256]
    (source : WorldStateR) (delta : StateDelta) :
    (ofSource source).withDelta delta = ofRev (.external source delta) := by
  unfold withDelta ofRev
  congr 1
  · funext contract key
    exact read_withDelta _ _ _ _
  · funext account
    exact read_withDelta _ _ _ _
  · funext contract
    exact read_withDelta _ _ _ _
  · funext contract
    exact read_withDelta _ _ _ _
  · funext contract
    refine Eq.trans ?_ (read_withDelta (contract ∈ delta.deletedAccounts) false
      (source.exist contract)
      (if (delta.accounts.lookup contract).isSome then some true else none))
    split <;> try rfl
    split <;> rfl

/-! ## Committing -/

/-- What is known of a changed account before its storage is written. -/
structure PendingAccount where
  balance : Wei
  nonce : UInt64
  code : Bytes
  state : HashMap Hash U256
  oldRoot : Hash

/-- Complete the changes of an account with what the reader answers. -/
def completeAccount [Keccak256]
    (reader : MerkleDBReader σ) (addr : Addr) (acc : AccountStateDelta) :
    Option PendingAccount := do
  let balance ← acc.balance.elim (reader.getBalance addr) some
  let nonce ← acc.nonce.elim (reader.getNonce addr) some
  let code ← acc.code.elim (reader.getCode addr) some
  let oldRoot ← reader.getAccountRoot addr
  some ⟨balance, nonce, code.asBytes, acc.state, oldRoot⟩

/-- What is written of the storage of an account. -/
def storageWrites (addr : Addr) (state : HashMap Hash U256) : List (Bytes × Bytes) :=
  state.entries.map fun entry => (prefixKey addr entry.1, U256.toBigEndian entry.2)

/-- Write the storage of the changed accounts. -/
def writeStorage : σ → List ((_ : Addr) × PendingAccount) →
    Option (σ × List ((_ : Addr) × AccountState))
  | mdb, [] => some (mdb, [])
  | mdb, ⟨addr, acc⟩ :: accounts => do
      let (mdb, newRoot) ←
        insertAll mdb (if acc.oldRoot = 0 then none else some acc.oldRoot)
          (storageWrites addr acc.state)
      let (mdb, written) ← writeStorage mdb accounts
      some (mdb, ⟨addr, newRoot, acc.balance, acc.nonce, acc.code⟩ :: written)

/-- Write a delta upon the state with a root, and flush the writes.  The result is
the new root. -/
def merkleCommit [Keccak256]
    (mdb : σ) (root : Option Hash) (deltas : StateDelta) (reader : MerkleDBReader σ) :
    Option (σ × Hash) := do
  let accounts ← deltas.accounts.entries.mapM fun entry =>
    (completeAccount reader entry.1 entry.2).map (Sigma.mk entry.1)
  let (mdb, accounts) ← writeStorage mdb accounts
  insertAll mdb root (accounts.map fun entry => (entry.1.asBytes, entry.2.encode))

end Reading
end Qevm
