import Qevm.Core.Run
import Qevm.State.Merkle

/-!
# What a commit stores

The state with the root that a commit returns, compared with the revision that
was committed.  They answer alike when nothing that exists is marked as deleted;
the marks are not committed.
-/

namespace Qevm

open TrieStore

/-! ## Encoded accounts -/

namespace AccountState

theorem readExact_append
    {length : Nat} {bytes : Bytes} (sameLength : bytes.length = length) (rest : Bytes) :
    readExact length (bytes ++ rest) = some (bytes, rest) := by
  subst sameLength
  simp [readExact]

theorem length_asBytes (hash : Hash) : hash.asBytes.length = 32 := Rlp.length_bigEndian _ _

theorem length_toBigEndian (word : U256) : (U256.toBigEndian word).length = 32 :=
  Rlp.length_bigEndian _ _

theorem length_u64ToLeBytes (value : UInt64) : (u64ToLeBytes value).length = 8 := by
  rw [u64ToLeBytes, List.length_reverse, Rlp.length_bigEndian]

theorem fromBigEndian_toBigEndian (word : U256) :
    U256.fromBigEndian (U256.toBigEndian word) = word := by
  apply BitVec.eq_of_toNat_eq
  have number : fromBigEndian (U256.toBigEndian word) = word.toNat := ofBigEndian_asBytes word
  rw [U256.fromBigEndian, number, BitVec.toNat_ofNat, Nat.mod_eq_of_lt word.isLt]

theorem u64FromLeBytes_toLeBytes (value : UInt64) :
    u64FromLeBytes (u64ToLeBytes value) = value := by
  have number : fromBigEndian (Rlp.bigEndian 8 value.toNat) = value.toNat := by
    refine (Rlp.ofBigEndian_bigEndian 8 value.toNat).trans ?_
    exact Nat.mod_eq_of_lt (value.toNat_lt.trans_eq (by norm_num))
  rw [u64FromLeBytes, u64ToLeBytes, List.reverse_reverse, number]
  simp

/-- The code that a stored account keeps. -/
def keptCode (code : Bytes) : Bytes := code.take (code.length % 2 ^ 64)

/-- An encoded account is decoded; of its code the length is kept as a 64-bit
number. -/
theorem decode_encode (self : AccountState) :
    decode self.encode = some { self with code := keptCode self.code } := by
  have codeLength : readExact (UInt64.ofNat self.code.length).toNat self.code =
      some (keptCode self.code, self.code.drop (self.code.length % 2 ^ 64)) := by
    rw [readExact, UInt64.toNat_ofNat', if_pos (Nat.mod_le _ _), keptCode]
  unfold decode encode
  simp only [List.append_assoc, Option.bind_eq_bind]
  rw [readExact_append (length_asBytes _), Option.bind_some,
    readExact_append (length_toBigEndian _), Option.bind_some,
    readExact_append (length_u64ToLeBytes _), Option.bind_some,
    readExact_append (length_u64ToLeBytes _), Option.bind_some,
    u64FromLeBytes_toLeBytes, u64FromLeBytes_toLeBytes, codeLength, Option.bind_some,
    fromBigEndian_toBigEndian]
  have root : U256.fromBigEndian self.rootHash.asBytes = self.rootHash :=
    fromBigEndian_toBigEndian self.rootHash
  rw [root]

/-- A decoded account has a code whose length is a 64-bit number. -/
theorem length_code_of_decode
    {raw : Bytes} {account : AccountState} (decoded : decode raw = some account) :
    account.code.length < 2 ^ 64 := by
  unfold decode at decoded
  simp only [Option.bind_eq_bind, Option.bind_eq_some_iff] at decoded
  obtain ⟨_, _, _, _, _, _, ⟨codeLen, rest⟩, _, ⟨code, _⟩, taken, same⟩ := decoded
  cases same
  unfold readExact at taken
  split at taken
  · cases taken
    refine (List.length_take_le _ _).trans_lt ?_
    exact (u64FromLeBytes codeLen).toNat_lt
  · cases taken

theorem keptCode_of_lt {code : Bytes} (short : code.length < 2 ^ 64) :
    keptCode code = code := by
  rw [keptCode, Nat.mod_eq_of_lt short, List.take_length]

/-- Only a code whose length is a 64-bit number is kept. -/
theorem keptCode_eq_iff {code : Bytes} :
    keptCode code = code ↔ code.length < 2 ^ 64 := by
  constructor
  · intro kept
    have lengths := congrArg List.length kept
    rw [keptCode, List.length_take] at lengths
    have bound := Nat.mod_lt code.length (show 0 < 2 ^ 64 by decide)
    omega
  · exact keptCode_of_lt

end AccountState

theorem prefixKey_injective (addr : Addr) : Function.Injective (prefixKey addr) := by
  intro first second same
  have bytes := List.append_cancel_left same
  have numbers := congrArg Rlp.ofBigEndian bytes
  rw [ofBigEndian_asBytes, ofBigEndian_asBytes] at numbers
  exact BitVec.eq_of_toNat_eq numbers

/-! ## What a root holds of an account -/

/-- The value of a slot in a storage trie. -/
def slotOf (storage : Bytes → Option Bytes) (contract : Addr) (key : Hash) : U256 :=
  ((storage (prefixKey contract key)).map U256.fromBigEndian).getD 0

/-- An account and its storage. -/
structure HeldAccount extends AccountState where
  storage : Bytes → Option Bytes

/-- The zero hash is the root of no trie. -/
class ZeroAbsent (σ : Type) [TrieStore σ Hash Bytes Bytes] : Prop where
  trie_zero : ∀ mdb : σ, trie mdb (0 : Hash) = none

section Committing

variable {σ : Type} [TrieStore σ Hash Bytes Bytes]

/-- What the trie with a root holds of an account, if anything. -/
inductive Holds (mdb : σ) (root : Hash) (contract : Addr) : Option HeldAccount → Prop
  | absent : merkleGet mdb contract.asBytes root = none → Holds mdb root contract none
  | present {raw : Bytes} {held : HeldAccount} :
      merkleGet mdb contract.asBytes root = some raw →
      AccountState.decode raw = some held.toAccountState →
      trie mdb held.rootHash = some held.storage →
      (∀ key val, held.storage (prefixKey contract key) = some val → val.length ≤ 32) →
        Holds mdb root contract (some held)

/-- A store that keeps every trie of another one. -/
def Extends (mdb mdb' : σ) : Prop :=
  ∀ {root map}, trie mdb root = some map → trie mdb' root = some map

variable {mdb mdb' : σ} {root : Hash} {contract : Addr} {held : Option HeldAccount}

theorem Extends.trans {mdb'' : σ} (first : Extends mdb mdb') (second : Extends mdb' mdb'') :
    Extends mdb mdb'' := fun found => second (first found)

/-- What a trie holds of an account is held by a trie with the same entry. -/
theorem Holds.moved
    {newRoot : Hash} (holds : Holds mdb root contract held)
    (same : merkleGet mdb' contract.asBytes newRoot = merkleGet mdb contract.asBytes root)
    (more : Extends mdb mdb') : Holds mdb' newRoot contract held := by
  cases holds with
  | absent missing => exact .absent (same.trans missing)
  | present raw decoded storage short =>
      exact .present (same.trans raw) decoded (more storage) short

/-- What a trie holds of an account is kept. -/
theorem Holds.extend
    {map : Bytes → Option Bytes} (found : trie mdb root = some map)
    (holds : Holds mdb root contract held) (more : Extends mdb mdb') :
    Holds mdb' root contract held :=
  holds.moved (by rw [merkleGet, merkleGet, found, more found]) more

namespace Holds

theorem account (holds : Holds mdb root contract held) :
    (MerkleDBReader.mk root mdb).account contract =
      some (held.map HeldAccount.toAccountState) := by
  cases holds with
  | absent missing => rw [MerkleDBReader.account, missing]; rfl
  | present raw decoded => rw [MerkleDBReader.account, raw]; simp [decoded]

theorem getBalance (holds : Holds mdb root contract held) :
    (MerkleDBReader.mk root mdb).getBalance contract =
      some ((held.map fun held => held.balance).getD 0) := by
  rw [MerkleDBReader.getBalance, holds.account]
  cases held <;> rfl

theorem getNonce (holds : Holds mdb root contract held) :
    (MerkleDBReader.mk root mdb).getNonce contract =
      some ((held.map fun held => held.nonce).getD 0) := by
  rw [MerkleDBReader.getNonce, holds.account]
  cases held <;> rfl

theorem getCode [Keccak256] (holds : Holds mdb root contract held) :
    (MerkleDBReader.mk root mdb).getCode contract =
      some (PlainCode.new ((held.map fun held => held.code).getD [])).toCode := by
  rw [MerkleDBReader.getCode, holds.account]
  cases held <;> rfl

theorem getAccountRoot (holds : Holds mdb root contract held) :
    (MerkleDBReader.mk root mdb).getAccountRoot contract =
      some ((held.map fun held => held.rootHash).getD 0) := by
  rw [MerkleDBReader.getAccountRoot, holds.account]
  cases held <;> rfl

theorem getState (holds : Holds mdb root contract held) (key : Hash) :
    (MerkleDBReader.mk root mdb).getState contract key =
      some ((held.map fun held => slotOf held.storage contract key).getD 0) := by
  rw [MerkleDBReader.getState, holds.account, Option.bind_some]
  cases holds with
  | absent missing => rfl
  | @present raw held found decoded storage short =>
      have slot : merkleGet mdb (prefixKey contract key) held.rootHash =
          held.storage (prefixKey contract key) := by
        rw [merkleGet, storage, Option.bind_some]
      simp only [Option.map_some, Option.bind_some, slot, Option.getD_some, slotOf]
      cases value : held.storage (prefixKey contract key) with
      | none => rfl
      | some val => exact if_pos (short key val value)

end Holds

theorem Holds.exist
    {map : Bytes → Option Bytes} (found : trie mdb root = some map)
    (holds : Holds mdb root contract held) :
    (MerkleDBReader.mk root mdb).exist contract = some held.isSome := by
  have entry : merkleGet mdb contract.asBytes root = map contract.asBytes := by
    rw [merkleGet, found, Option.bind_some]
  rw [MerkleDBReader.exist, merkleContains, found, Option.map_some, ← entry]
  cases holds with
  | absent missing => rw [missing]; rfl
  | present raw => rw [raw]; rfl

theorem Holds.keptCode_eq (holds : Holds mdb root contract held) :
    AccountState.keptCode ((held.map fun held => held.code).getD []) =
      (held.map fun held => held.code).getD [] := by
  cases holds with
  | absent _ => rfl
  | present _ decoded =>
      exact AccountState.keptCode_of_lt (AccountState.length_code_of_decode decoded)

theorem holds_of_noRoot [ZeroAbsent σ] (mdb : σ) (contract : Addr) :
    Holds mdb 0 contract none := by
  apply Holds.absent
  rw [merkleGet, ZeroAbsent.trie_zero]
  rfl

/-! ## The steps of a commit -/

/-- The changes of an account, completed with what is held. -/
def completed (held : Option HeldAccount) (acc : AccountStateDelta) : PendingAccount where
  balance := acc.balance.getD ((held.map fun held => held.balance).getD 0)
  nonce := acc.nonce.getD ((held.map fun held => held.nonce).getD 0)
  code := (acc.code.map Code.asBytes).getD ((held.map fun held => held.code).getD [])
  state := acc.state
  oldRoot := (held.map fun held => held.rootHash).getD 0

theorem completeAccount_eq [Keccak256]
    (holds : Holds mdb root contract held) (acc : AccountStateDelta) :
    completeAccount ⟨root, mdb⟩ contract acc = some (completed held acc) := by
  unfold completeAccount completed
  rw [holds.getBalance, holds.getNonce, holds.getCode, holds.getAccountRoot]
  cases acc.balance <;> cases acc.nonce <;> cases acc.code <;> rfl

/-- The storage trie that a write starts from. -/
def StartsFrom (mdb : σ) (oldRoot : Hash) (base : Bytes → Option Bytes) : Prop :=
  if oldRoot = 0 then base = fun _ => none else trie mdb oldRoot = some base

theorem insertAll_startsFrom [LawfulTrieStore σ]
    {oldRoot newRoot : Hash} {base : Bytes → Option Bytes} {writes : List (Bytes × Bytes)}
    (run : insertAll mdb (if oldRoot = 0 then none else some oldRoot) writes =
      some (mdb', newRoot))
    (starts : StartsFrom mdb oldRoot base) :
    trie mdb' newRoot = some (inserted base writes) := by
  unfold StartsFrom at starts
  by_cases fresh : oldRoot = 0
  · rw [if_pos fresh] at run starts
    rw [starts]
    exact LawfulTrieStore.insertAll_new run
  · rw [if_neg fresh] at run starts
    obtain ⟨map, found, written⟩ := LawfulTrieStore.insertAll_existing run
    rw [starts] at found
    rw [written, ← Option.some.inj found]

theorem StartsFrom.extend
    {oldRoot : Hash} {base : Bytes → Option Bytes}
    (starts : StartsFrom mdb oldRoot base) (more : Extends mdb mdb') :
    StartsFrom mdb' oldRoot base := by
  unfold StartsFrom at starts ⊢
  split at starts
  · next fresh => rwa [if_pos fresh]
  · next old => rw [if_neg old, more starts]

/-- An account whose storage has been written. -/
structure WrittenAccount
    (mdb mdb' : σ) (addr : Addr) (acc : PendingAccount) (written : AccountState) :
    Prop where
  balance : written.balance = acc.balance
  nonce : written.nonce = acc.nonce
  code : written.code = acc.code
  storage : ∀ {base}, StartsFrom mdb acc.oldRoot base →
    trie mdb' written.rootHash = some (inserted base (storageWrites addr acc.state))

theorem WrittenAccount.extend
    {mdb'' : σ} {addr : Addr} {acc : PendingAccount} {written : AccountState}
    (done : WrittenAccount mdb mdb' addr acc written) (more : Extends mdb' mdb'') :
    WrittenAccount mdb mdb'' addr acc written where
  balance := done.balance
  nonce := done.nonce
  code := done.code
  storage starts := more (done.storage starts)

theorem writeStorage_written [LawfulTrieStore σ]
    {accounts : List ((_ : Addr) × PendingAccount)}
    {written : List ((_ : Addr) × AccountState)}
    (run : writeStorage mdb accounts = some (mdb', written)) :
    Extends mdb mdb' ∧ written.keys = accounts.keys ∧
      ∀ {addr acc}, accounts.dlookup addr = some acc →
        ∃ account, written.dlookup addr = some account ∧
          WrittenAccount mdb mdb' addr acc account := by
  induction accounts generalizing mdb written with
  | nil =>
      cases run
      exact ⟨fun found => found, rfl, fun found => nomatch found⟩
  | cons entry accounts inductionHypothesis =>
      obtain ⟨addr, acc⟩ := entry
      simp only [writeStorage, Option.bind_eq_bind, Option.bind_eq_some_iff] at run
      obtain ⟨⟨between, newRoot⟩, first, ⟨last, rest⟩, others, same⟩ := run
      cases same
      obtain ⟨more, keys, lookups⟩ := inductionHypothesis others
      have kept : Extends mdb between := LawfulTrieStore.persistent first
      refine ⟨kept.trans more, congrArg (addr :: ·) keys, ?_⟩
      intro other found lookup
      by_cases here : other = addr
      · subst here
        rw [List.dlookup_cons_eq] at lookup
        obtain rfl := Option.some.inj lookup
        refine ⟨_, List.dlookup_cons_eq _ _ _, rfl, rfl, rfl, ?_⟩
        intro base starts
        exact more (insertAll_startsFrom first starts)
      · rw [List.dlookup_cons_ne _ _ here] at lookup
        obtain ⟨account, there, done⟩ := lookups lookup
        refine ⟨account, (List.dlookup_cons_ne _ _ here).trans there, done.balance,
          done.nonce, done.code, ?_⟩
        intro base starts
        exact done.storage (starts.extend kept)

/-- What a commit makes of a changed account. -/
structure UpdatedAccount
    (contract : Addr) (held : Option HeldAccount) (acc : AccountStateDelta)
    (updated : HeldAccount) : Prop where
  balance : updated.balance =
    acc.balance.getD ((held.map fun held => held.balance).getD 0)
  nonce : updated.nonce = acc.nonce.getD ((held.map fun held => held.nonce).getD 0)
  code : updated.code = AccountState.keptCode
    ((acc.code.map Code.asBytes).getD ((held.map fun held => held.code).getD []))
  slot : ∀ key, slotOf updated.storage contract key =
    (acc.state.lookup key).getD
      ((held.map fun held => slotOf held.storage contract key).getD 0)

/-- What a commit makes of what is held of an account. -/
def Updates
    (deltas : StateDelta) (contract : Addr) (held updated : Option HeldAccount) : Prop :=
  match deltas.accounts.lookup contract with
  | none => updated = held
  | some acc => ∃ account, updated = some account ∧
      UpdatedAccount contract held acc account

/-- A slot after the writes to a storage trie. -/
theorem slotOf_inserted
    (base : Bytes → Option Bytes) (state : HashMap Hash U256) (key : Hash) :
    slotOf (inserted base (storageWrites contract state)) contract key =
      (state.lookup key).getD (slotOf base contract key) := by
  have found := inserted_entries state.nodupKeys (prefixKey_injective contract)
    U256.toBigEndian base key
  unfold slotOf storageWrites
  rw [found, AList.lookup]
  cases state.entries.dlookup key with
  | none => rfl
  | some val => exact AccountState.fromBigEndian_toBigEndian val

theorem length_inserted
    {base : Bytes → Option Bytes} {state : HashMap Hash U256}
    (short : ∀ key val, base (prefixKey contract key) = some val → val.length ≤ 32)
    {key : Hash} {val : Bytes}
    (found : inserted base (storageWrites contract state) (prefixKey contract key) =
      some val) : val.length ≤ 32 := by
  have entry := inserted_entries state.nodupKeys (prefixKey_injective contract)
    U256.toBigEndian base key
  unfold storageWrites at found
  rw [entry] at found
  cases lookup : state.entries.dlookup key with
  | none =>
      rw [lookup] at found
      exact short key val found
  | some word =>
      rw [lookup] at found
      rw [← Option.some.inj found, AccountState.length_toBigEndian]

/-! ## A commit -/

/-- A root whose trie and whose accounts are all held; without a root, anything. -/
structure Intact (mdb : σ) (root : Option Hash) : Prop where
  found : ∀ known, root = some known → ∃ map, trie mdb known = some map
  accounts : ∀ contract, ∃ held, Holds mdb (root.getD 0) contract held

theorem intact_none [ZeroAbsent σ] (mdb : σ) : Intact mdb none where
  found := fun _ known => nomatch known
  accounts contract := ⟨none, holds_of_noRoot mdb contract⟩

theorem Intact.extend
    {known : Hash} (intact : Intact mdb (some known)) (more : Extends mdb mdb') :
    Intact mdb' (some known) := by
  obtain ⟨map, found⟩ := intact.found known rfl
  constructor
  · rintro other same
    obtain rfl := Option.some.inj same
    exact ⟨map, more found⟩
  · intro contract
    obtain ⟨held, holds⟩ := intact.accounts contract
    exact ⟨held, holds.extend found more⟩

/-- What a commit leaves. -/
structure Committed
    (mdb : σ) (root : Option Hash) (deltas : StateDelta) (mdb' : σ) (newRoot : Hash) :
    Prop where
  kept : Extends mdb mdb'
  found : ∃ map, trie mdb' newRoot = some map
  updates : ∀ contract, ∃ held updated, Holds mdb (root.getD 0) contract held ∧
    Holds mdb' newRoot contract updated ∧ Updates deltas contract held updated

variable {oldRoot : Option Hash} {newRoot : Hash} {deltas : StateDelta}

theorem merkleGet_extend [ZeroAbsent σ]
    (intact : Intact mdb oldRoot) (more : Extends mdb mdb') (key : Bytes) :
    merkleGet mdb' key (oldRoot.getD 0) = merkleGet mdb key (oldRoot.getD 0) := by
  unfold merkleGet
  cases oldRoot with
  | none =>
      rw [Option.getD_none, ZeroAbsent.trie_zero, ZeroAbsent.trie_zero]
  | some known =>
      obtain ⟨map, found⟩ := intact.found known rfl
      rw [Option.getD_some, found, more found]

/-- An account in the trie that the accounts have been inserted in. -/
theorem merkleGet_inserted [LawfulTrieStore σ] [ZeroAbsent σ]
    {written : List ((_ : Addr) × AccountState)}
    (run : insertAll mdb oldRoot
      (written.map fun entry => (entry.1.asBytes, entry.2.encode)) =
        some (mdb', newRoot))
    (nodup : written.NodupKeys) (contract : Addr) :
    merkleGet mdb' contract.asBytes newRoot =
      ((written.dlookup contract).map AccountState.encode).or
        (merkleGet mdb contract.asBytes (oldRoot.getD 0)) := by
  have entries := fun map => inserted_entries nodup
    (fun _ _ => Addr.asBytes_injective) AccountState.encode map contract
  cases oldRoot with
  | none =>
      have fresh := LawfulTrieStore.insertAll_new run
      rw [merkleGet, fresh, Option.bind_some, entries, merkleGet, Option.getD_none,
        ZeroAbsent.trie_zero, Option.bind_none]
  | some known =>
      obtain ⟨map, found, existing⟩ := LawfulTrieStore.insertAll_existing run
      rw [merkleGet, existing, Option.bind_some, entries, merkleGet, Option.getD_some,
        found, Option.bind_some]

/-- The storage that an account starts from. -/
theorem Holds.startsFrom [ZeroAbsent σ] (holds : Holds mdb root contract held) :
    StartsFrom mdb ((held.map fun held => held.rootHash).getD 0)
      (held.elim (fun _ => none) HeldAccount.storage) := by
  cases holds with
  | absent _ =>
      exact (if_pos rfl).mpr rfl
  | @present _ held _ _ storage _ =>
      have rooted : held.rootHash ≠ 0 := by
        intro zero
        rw [zero, ZeroAbsent.trie_zero] at storage
        cases storage
      exact (if_neg rooted).mpr storage

/-- An account as a commit writes it. -/
theorem WrittenAccount.updatedAccount [ZeroAbsent σ]
    (holds : Holds mdb root contract held) {acc : AccountStateDelta}
    {account : AccountState}
    (written : WrittenAccount mdb mdb' contract (completed held acc) account)
    {newRoot : Hash}
    (raw : merkleGet mdb' contract.asBytes newRoot = some account.encode) :
    ∃ updated, Holds mdb' newRoot contract (some updated) ∧
      UpdatedAccount contract held acc updated := by
  let base := held.elim (fun _ => none) HeldAccount.storage
  let updated : HeldAccount :=
    { account with
      code := AccountState.keptCode account.code
      storage := inserted base (storageWrites contract acc.state) }
  refine ⟨updated, ?_, written.balance, written.nonce,
    congrArg AccountState.keptCode written.code, ?_⟩
  · refine .present raw (AccountState.decode_encode account)
      (written.storage holds.startsFrom) fun key val => length_inserted ?_
    intro key val found
    cases holds with
    | absent _ => cases found
    | present _ _ _ short => exact short key val found
  · intro key
    refine (slotOf_inserted base acc.state key).trans ?_
    cases holds <;> rfl

/-- The changed accounts, completed with what is held. -/
def completedAccounts
    (held : Addr → Option HeldAccount) (entries : List ((_ : Addr) × AccountStateDelta)) :
    List ((_ : Addr) × PendingAccount) :=
  entries.map fun entry => ⟨entry.1, completed (held entry.1) entry.2⟩

theorem keys_completedAccounts
    (held : Addr → Option HeldAccount)
    (entries : List ((_ : Addr) × AccountStateDelta)) :
    (completedAccounts held entries).keys = entries.keys := by
  rw [completedAccounts, List.keys, List.map_map]
  rfl

theorem dlookup_completedAccounts
    (held : Addr → Option HeldAccount)
    (entries : List ((_ : Addr) × AccountStateDelta)) (contract : Addr) :
    (completedAccounts held entries).dlookup contract =
      (entries.dlookup contract).map (completed (held contract)) :=
  List.dlookup_map₂ (f := fun addr acc => completed (held addr) acc) contract

theorem mapM_completeAccount [Keccak256]
    {held : Addr → Option HeldAccount}
    (holds : ∀ contract, Holds mdb root contract (held contract))
    (entries : List ((_ : Addr) × AccountStateDelta)) :
    (entries.mapM fun entry =>
      (completeAccount ⟨root, mdb⟩ entry.1 entry.2).map (Sigma.mk entry.1)) =
        some (completedAccounts held entries) := by
  have complete : (fun entry : (_ : Addr) × AccountStateDelta =>
      (completeAccount ⟨root, mdb⟩ entry.1 entry.2).map (Sigma.mk entry.1)) =
        fun entry => pure (Sigma.mk (β := fun _ => PendingAccount) entry.1
          (completed (held entry.1) entry.2)) := by
    funext entry
    rw [completeAccount_eq (holds entry.1)]
    rfl
  rw [complete, List.mapM_pure]
  rfl

/-- A map that is inserted in is held. -/
theorem found_of_insertAll [LawfulTrieStore σ]
    {writes : List (Bytes × Bytes)}
    (run : insertAll mdb oldRoot writes = some (mdb', newRoot)) :
    ∃ map, trie mdb' newRoot = some map := by
  cases oldRoot with
  | none => exact ⟨_, LawfulTrieStore.insertAll_new run⟩
  | some known =>
      obtain ⟨map, _, written⟩ := LawfulTrieStore.insertAll_existing run
      exact ⟨_, written⟩

/-- A commit that succeeds writes the changes of the delta. -/
theorem merkleCommit_committed [Keccak256] [LawfulTrieStore σ] [ZeroAbsent σ]
    (intact : Intact mdb oldRoot)
    (run : merkleCommit mdb oldRoot deltas (getReader mdb oldRoot) =
      some (mdb', newRoot)) :
    Committed mdb oldRoot deltas mdb' newRoot := by
  choose held holds using intact.accounts
  rw [merkleCommit, getReader, mapM_completeAccount holds] at run
  simp only [Option.bind_eq_bind, Option.bind_some, Option.bind_eq_some_iff] at run
  obtain ⟨⟨between, written⟩, storage, commit⟩ := run
  obtain ⟨more, keys, lookups⟩ := writeStorage_written storage
  have kept : Extends between mdb' := LawfulTrieStore.persistent commit
  rw [keys_completedAccounts] at keys
  have nodup : written.NodupKeys := by
    rw [List.NodupKeys, keys]
    exact deltas.accounts.nodupKeys
  refine ⟨more.trans kept, found_of_insertAll commit, ?_⟩
  intro contract
  have stored := merkleGet_inserted commit nodup contract
  rw [merkleGet_extend intact more] at stored
  cases lookup : deltas.accounts.lookup contract with
  | none =>
      have unwritten : written.dlookup contract = none := by
        rw [List.dlookup_eq_none, keys, ← List.dlookup_eq_none]
        exact lookup
      rw [unwritten, Option.map_none, Option.none_or] at stored
      refine ⟨held contract, held contract, holds contract, ?_, ?_⟩
      · exact (holds contract).moved stored (more.trans kept)
      · rw [Updates, lookup]
  | some acc =>
      have pending : (completedAccounts held deltas.accounts.entries).dlookup contract =
          some (completed (held contract) acc) := by
        rw [dlookup_completedAccounts]
        exact congrArg (Option.map _) lookup
      obtain ⟨account, found, done⟩ := lookups pending
      rw [found, Option.map_some, Option.some_or] at stored
      obtain ⟨updated, there, changed⟩ :=
        (done.extend kept).updatedAccount (holds contract) stored
      refine ⟨held contract, some updated, holds contract, there, ?_⟩
      rw [Updates, lookup]
      exact ⟨updated, rfl, changed⟩

/-! ## The roots of a store -/

/-- The roots that commits have returned, in a store that other writes go to as
well. -/
inductive History [Keccak256] : σ → List Hash → Prop
  | start (mdb : σ) : History mdb []
  | insert {mdb mdb' : σ} {roots : List Hash} {old : Option Hash} {root : Hash}
      {writes : List (Bytes × Bytes)} :
      History mdb roots → insertAll mdb old writes = some (mdb', root) →
        History mdb' roots
  | commit {mdb mdb' : σ} {roots : List Hash} {old : Option Hash} {root : Hash}
      {deltas : StateDelta} :
      History mdb roots → (∀ known, old = some known → known ∈ roots) →
      merkleCommit mdb old deltas (getReader mdb old) = some (mdb', root) →
        History mdb' (root :: roots)

theorem Committed.intact
    (committed : Committed mdb oldRoot deltas mdb' newRoot) :
    Intact mdb' (some newRoot) := by
  constructor
  · rintro known same
    obtain rfl := Option.some.inj same
    exact committed.found
  · intro contract
    obtain ⟨_, updated, _, there, _⟩ := committed.updates contract
    exact ⟨updated, there⟩

/-- Every root that a commit has returned is intact. -/
theorem History.intact [Keccak256] [LawfulTrieStore σ] [ZeroAbsent σ]
    {roots : List Hash} (history : History mdb roots) :
    ∀ root ∈ roots, Intact mdb (some root) := by
  induction history with
  | start _ => exact fun _ member => nomatch member
  | insert _ run inductionHypothesis =>
      intro root member
      exact (inductionHypothesis root member).extend (LawfulTrieStore.persistent run)
  | @commit mdb mdb' roots old root deltas _ known run inductionHypothesis =>
      have before : Intact mdb old := by
        cases old with
        | none => exact intact_none mdb
        | some old => exact inductionHypothesis old (known old rfl)
      have committed := merkleCommit_committed before run
      intro other member
      rcases List.mem_cons.mp member with rfl | earlier
      · exact committed.intact
      · exact (inductionHypothesis other earlier).extend committed.kept

theorem History.intact_old [Keccak256] [LawfulTrieStore σ] [ZeroAbsent σ]
    {roots : List Hash} (history : History mdb roots)
    (known : ∀ root, oldRoot = some root → root ∈ roots) : Intact mdb oldRoot := by
  cases oldRoot with
  | none => exact intact_none mdb
  | some root => exact history.intact root (known root rfl)

/-! ## The reads of a committed state -/

/-- Two sources answer alike about an account; codes have the same bytes. -/
structure PanickingR.SameAnswers (contract : Addr) (first second : PanickingR) : Prop where
  state : ∀ key, first.getState contract key = second.getState contract key
  balance : first.getBalance contract = second.getBalance contract
  code : (first.getCode contract).map Code.asBytes =
    (second.getCode contract).map Code.asBytes
  nonce : first.getNonce contract = second.getNonce contract
  exist : first.exist contract = second.exist contract

theorem PanickingR.SameAnswers.trans
    {contract : Addr} {first second third : PanickingR}
    (left : PanickingR.SameAnswers contract first second)
    (right : PanickingR.SameAnswers contract second third) :
    PanickingR.SameAnswers contract first third where
  state key := (left.state key).trans (right.state key)
  balance := left.balance.trans right.balance
  code := left.code.trans right.code
  nonce := left.nonce.trans right.nonce
  exist := left.exist.trans right.exist

/-- What a commit can keep of an account: a mark of deletion is not written, the
reader without a root does not answer whether an account exists, and the length
of a code is written as a 64-bit number. -/
structure Committable
    (mdb : σ) (oldRoot : Option Hash) (deltas : StateDelta) (contract : Addr) : Prop where
  deleted : contract ∈ deltas.deletedAccounts →
    deltas.accounts.lookup contract = none ∧
      merkleGet mdb contract.asBytes (oldRoot.getD 0) = none
  rooted : oldRoot = none → contract ∈ deltas.deletedAccounts ∨
    (deltas.accounts.lookup contract).isSome
  code : ∀ acc code, deltas.accounts.lookup contract = some acc → acc.code = some code →
    code.asBytes.length < 2 ^ 64

variable [Keccak256]

/-- What is held of an account answers like the source that it is read from. -/
theorem Holds.sameAnswers
    {mdb' : σ} {newRoot : Hash} {map map' : Bytes → Option Bytes}
    (found : trie mdb root = some map) (found' : trie mdb' newRoot = some map')
    (holds : Holds mdb root contract held) (holds' : Holds mdb' newRoot contract held) :
    PanickingR.SameAnswers contract (MerkleDBReader.mk newRoot mdb').reads
      (MerkleDBReader.mk root mdb).reads where
  state key := (holds'.getState key).trans (holds.getState key).symm
  balance := holds'.getBalance.trans holds.getBalance.symm
  code := congrArg _ (holds'.getCode.trans holds.getCode.symm)
  nonce := holds'.getNonce.trans holds.getNonce.symm
  exist := (holds'.exist found').trans (holds.exist found).symm

/-- The reader of an intact root never panics, and the reads with a delta upon it are
those of a revision. -/
theorem Intact.revision (intact : Intact mdb (some root)) :
    ∃ source, ∀ deltas, (getReader mdb (some root)).reads.withDelta deltas =
      PanickingR.ofRev (.external source deltas) := by
  obtain ⟨map, found⟩ := intact.found root rfl
  choose held holds using intact.accounts
  let source : WorldStateR :=
    { getState := fun contract key =>
        ((held contract).map fun held => slotOf held.storage contract key).getD 0
      getBalance := fun account => ((held account).map fun held => held.balance).getD 0
      getCode := fun contract =>
        (PlainCode.new (((held contract).map fun held => held.code).getD [])).toCode
      getNonce := fun account => ((held account).map fun held => held.nonce).getD 0
      exist := fun account => (held account).isSome }
  have total : (getReader mdb (some root)).reads = PanickingR.ofSource source := by
    unfold MerkleDBReader.reads PanickingR.ofSource
    congr 1
    · funext contract key
      exact (holds contract).getState key
    · funext account
      exact (holds account).getBalance
    · funext contract
      exact (holds contract).getCode
    · funext account
      exact (holds account).getNonce
    · funext account
      exact (holds account).exist found
  refine ⟨source, fun deltas => ?_⟩
  rw [total, PanickingR.withDelta_ofSource]

/-- An account that is not in the trie answers like one that is marked as deleted. -/
theorem sameAnswers_deleted
    {source : PanickingR} {map : Bytes → Option Bytes}
    (found : trie mdb root = some map) (absent : Holds mdb root contract none)
    (deleted : contract ∈ deltas.deletedAccounts) :
    PanickingR.SameAnswers contract (MerkleDBReader.mk root mdb).reads
      (source.withDelta deltas) where
  state key := (absent.getState key).trans (if_pos deleted).symm
  balance := absent.getBalance.trans (if_pos deleted).symm
  code := congrArg _ (absent.getCode.trans (if_pos deleted).symm)
  nonce := absent.getNonce.trans (if_pos deleted).symm
  exist := (absent.exist found).trans (if_pos deleted).symm

/-- The reads of an account that a delta has no word about. -/
theorem withDelta_unchanged
    {source : PanickingR} (kept : contract ∉ deltas.deletedAccounts)
    (unchanged : deltas.accounts.lookup contract = none) :
    PanickingR.SameAnswers contract source (source.withDelta deltas) := by
  constructor <;> simp [PanickingR.withDelta, kept, unchanged]

/-- An account as a commit has updated it answers like the revision. -/
theorem sameAnswers_updated
    {newRoot : Hash} {map : Bytes → Option Bytes} {acc : AccountStateDelta}
    {updated : HeldAccount}
    (found : trie mdb' newRoot = some map) (holds : Holds mdb root contract held)
    (there : Holds mdb' newRoot contract (some updated))
    (changed : UpdatedAccount contract held acc updated)
    (kept : contract ∉ deltas.deletedAccounts)
    (lookup : deltas.accounts.lookup contract = some acc)
    (short : ∀ code, acc.code = some code → code.asBytes.length < 2 ^ 64) :
    PanickingR.SameAnswers contract (MerkleDBReader.mk newRoot mdb').reads
      ((MerkleDBReader.mk root mdb).reads.withDelta deltas) := by
  constructor
  · intro key
    refine (there.getState key).trans ?_
    simp only [PanickingR.withDelta, if_neg kept, lookup, Option.bind_some,
      Option.map_some, Option.getD_some, changed.slot]
    cases acc.state.lookup key with
    | none => exact (holds.getState key).symm
    | some val => rfl
  · refine there.getBalance.trans ?_
    simp only [PanickingR.withDelta, if_neg kept, lookup, Option.bind_some,
      Option.map_some, Option.getD_some, changed.balance]
    cases acc.balance with
    | none => exact holds.getBalance.symm
    | some balance => rfl
  · refine (congrArg _ there.getCode).trans ?_
    simp only [PanickingR.withDelta, if_neg kept, lookup, Option.bind_some,
      Option.map_some, Option.getD_some, changed.code, PlainCode.asBytes_toCode]
    cases set : acc.code with
    | none =>
        refine (congrArg some holds.keptCode_eq).trans ?_
        exact (congrArg (Option.map Code.asBytes) holds.getCode).symm
    | some code => exact congrArg some (AccountState.keptCode_of_lt (short code set))
  · refine there.getNonce.trans ?_
    simp only [PanickingR.withDelta, if_neg kept, lookup, Option.bind_some,
      Option.map_some, Option.getD_some, changed.nonce]
    cases acc.nonce with
    | none => exact holds.getNonce.symm
    | some nonce => rfl
  · refine (there.exist found).trans ?_
    simp only [PanickingR.withDelta, if_neg kept, lookup]
    rfl

variable [ZeroAbsent σ]

/-- A commit keeps the answers about an account exactly when it can. -/
theorem Committed.sameAnswers_iff
    (intact : Intact mdb oldRoot)
    (committed : Committed mdb oldRoot deltas mdb' newRoot) (contract : Addr) :
    PanickingR.SameAnswers contract (getReader mdb' (some newRoot)).reads
      ((getReader mdb oldRoot).reads.withDelta deltas) ↔
        Committable mdb oldRoot deltas contract := by
  obtain ⟨map, found⟩ := committed.found
  obtain ⟨held, updated, holds, there, updates⟩ := committed.updates contract
  have exists' := there.exist found
  unfold Updates at updates
  constructor
  · intro same
    have sameExist := exists'.symm.trans same.exist
    have notDeleted : ∀ acc, deltas.accounts.lookup contract = some acc →
        contract ∉ deltas.deletedAccounts := by
      intro acc lookup deleted
      rw [lookup] at updates
      obtain ⟨account, rfl, _⟩ := updates
      exact absurd (sameExist.trans (if_pos deleted)) (by simp)
    constructor
    · intro deleted
      cases lookup : deltas.accounts.lookup contract with
      | some acc => exact absurd deleted (notDeleted acc lookup)
      | none =>
          rw [lookup] at updates
          subst updates
          refine ⟨rfl, ?_⟩
          cases holds with
          | absent missing => exact missing
          | present => exact absurd (sameExist.trans (if_pos deleted)) (by simp)
    · rintro rfl
      by_contra neither
      rw [not_or] at neither
      have silent : ((getReader mdb none).reads.withDelta deltas).exist contract = none := by
        have empty : (getReader mdb none).reads.exist contract = none := by
          show (trie mdb (0 : Hash)).map _ = none
          rw [ZeroAbsent.trie_zero]
          rfl
        simp only [PanickingR.withDelta, if_neg neither.1, if_neg neither.2, empty]
      cases sameExist.trans silent
    · intro acc code lookup set
      have kept := notDeleted acc lookup
      rw [lookup] at updates
      obtain ⟨account, rfl, changed⟩ := updates
      have sameCode := (congrArg (Option.map Code.asBytes) there.getCode).symm.trans same.code
      simp only [PanickingR.withDelta, if_neg kept, lookup, set, Option.bind_some,
        Option.elim_some, Option.map_some, Option.getD_some, changed.code,
        PlainCode.asBytes_toCode] at sameCode
      exact AccountState.keptCode_eq_iff.mp (Option.some.inj sameCode)
  · intro committable
    cases lookup : deltas.accounts.lookup contract with
    | some acc =>
        have kept : contract ∉ deltas.deletedAccounts := by
          intro deleted
          have none := (committable.deleted deleted).1
          rw [lookup] at none
          cases none
        rw [lookup] at updates
        obtain ⟨account, rfl, changed⟩ := updates
        exact sameAnswers_updated found holds there changed kept lookup
          fun code => committable.code acc code lookup
    | none =>
        rw [lookup] at updates
        subst updates
        by_cases deleted : contract ∈ deltas.deletedAccounts
        · have missing := (committable.deleted deleted).2
          cases holds with
          | absent => exact sameAnswers_deleted found there deleted
          | present raw =>
              rw [missing] at raw
              cases raw
        · cases oldRoot with
          | none =>
              rcases committable.rooted rfl with marked | changed
              · exact absurd marked deleted
              · rw [lookup] at changed
                cases changed
          | some known =>
              obtain ⟨old, oldFound⟩ := intact.found known rfl
              exact (holds.sameAnswers oldFound found there).trans
                (withDelta_unchanged deleted lookup)

/-- The state that a commit leaves answers like the revision that was committed
exactly when every account can be committed. -/
theorem committed_state_answers_iff [LawfulTrieStore σ] {roots : List Hash}
    (history : History mdb roots) (known : ∀ root, oldRoot = some root → root ∈ roots)
    (run : merkleCommit mdb oldRoot deltas (getReader mdb oldRoot) =
      some (mdb', newRoot)) :
    (∀ contract, PanickingR.SameAnswers contract (getReader mdb' (some newRoot)).reads
      ((getReader mdb oldRoot).reads.withDelta deltas)) ↔
        ∀ contract, Committable mdb oldRoot deltas contract := by
  have intact := history.intact_old known
  have committed := merkleCommit_committed intact run
  exact forall_congr' fun contract => committed.sameAnswers_iff intact contract

end Committing

/-! ## A store of lists -/

/-- A store that numbers its maps, each a list of entries with the newest one first. -/
structure ListStore where
  tries : List (List (Bytes × Bytes))
  deriving DecidableEq

namespace ListStore

/-- The map with a number. -/
def entries (self : ListStore) (root : Hash) : Option (List (Bytes × Bytes)) :=
  if root = 0 then none else self.tries[root.toNat - 1]?

/-- Add a map. -/
def push (self : ListStore) (added : List (Bytes × Bytes)) : Option (ListStore × Hash) :=
  if self.tries.length + 1 < 2 ^ 256 then
    some (⟨self.tries ++ [added]⟩, BitVec.ofNat 256 (self.tries.length + 1))
  else
    none

instance : TrieStore ListStore Hash Bytes Bytes where
  trie self root := (self.entries root).map fun entries key => entries.lookup key
  insertAll self old writes := do
    let base ← old.elim (some []) self.entries
    self.push (writes.reverse ++ base)

theorem entries_push
    {self pushed : ListStore} {added : List (Bytes × Bytes)} {root : Hash}
    (run : self.push added = some (pushed, root)) :
    pushed.entries root = some added := by
  unfold push at run
  split at run
  · next room =>
      cases run
      have number : (BitVec.ofNat 256 (self.tries.length + 1)).toNat =
          self.tries.length + 1 := by
        rw [BitVec.toNat_ofNat, Nat.mod_eq_of_lt room]
      have nonzero : BitVec.ofNat 256 (self.tries.length + 1) ≠ 0 := by
        intro zero
        have zeros := congrArg BitVec.toNat zero
        rw [number] at zeros
        exact absurd zeros (Nat.succ_ne_zero _)
      rw [entries, if_neg nonzero, number, Nat.add_sub_cancel]
      exact List.getElem?_concat_length
  · cases run

theorem entries_push_of_entries
    {self pushed : ListStore} {added kept : List (Bytes × Bytes)} {root old : Hash}
    (run : self.push added = some (pushed, root)) (found : self.entries old = some kept) :
    pushed.entries old = some kept := by
  unfold push at run
  split at run
  · cases run
    unfold entries at found ⊢
    split at found
    · cases found
    · next nonzero =>
        rw [if_neg nonzero]
        exact (List.getElem?_append_left (List.getElem?_eq_some_iff.mp found).1).trans found
  · cases run

theorem lookup_append
    (writes base : List (Bytes × Bytes)) :
    (fun key => (writes.reverse ++ base).lookup key) =
      inserted (fun key => base.lookup key) writes := by
  induction writes generalizing base with
  | nil => rfl
  | cons write writes inductionHypothesis =>
      rw [List.reverse_cons, List.append_assoc, List.singleton_append,
        inductionHypothesis, inserted, inserted, List.foldl_cons]
      congr 1
      funext key
      rw [List.lookup_cons, Function.update_apply]
      by_cases same : key = write.1
      · rw [if_pos same, beq_iff_eq.mpr same]
      · rw [if_neg same, beq_false_of_ne same]

instance : ZeroAbsent ListStore := ⟨fun _ => rfl⟩

instance : LawfulTrieStore ListStore where
  insertAll_new {self _ writes _} run := by
    have added := entries_push run
    show (entries _ _).map _ = _
    rw [added]
    exact congrArg some (lookup_append writes [])
  insertAll_existing {self _ writes old _} run := by
    simp only [insertAll, Option.bind_eq_bind, Option.bind_eq_some_iff] at run
    obtain ⟨base, found, run⟩ := run
    have added := entries_push run
    refine ⟨fun key => base.lookup key, congrArg (Option.map _) found, ?_⟩
    show (entries _ _).map _ = _
    rw [added]
    exact congrArg some (lookup_append writes base)
  persistent {self _ writes old _} run := by
    simp only [insertAll, Option.bind_eq_bind, Option.bind_eq_some_iff] at run
    obtain ⟨base, found, run⟩ := run
    intro kept map there
    obtain ⟨held, earlier, same⟩ := Option.map_eq_some_iff.mp there
    exact Option.map_eq_some_iff.mpr ⟨held, entries_push_of_entries run earlier, same⟩

end ListStore

namespace Sample

/-- The digests of accounts without code. -/
@[reducible] def storedKeccak : Keccak256 := keccak
  [([], 0xc5d2460186f7233c927e7db2dcc703c0e500b653ca82273b7bfad8045d85a470)]

/-- The changes of a revision that gives an account a balance. -/
def paying (balance : Wei) : StateDelta :=
  letI := storedKeccak
  (((MemStateRev.new emptyState).setBalance 1 balance).consolidate none).delta

/-- The changes of a revision that deletes the account. -/
def deletingDelta : StateDelta :=
  letI := storedKeccak
  (((MemStateRev.new emptyState).deleteAccount 1).consolidate none).delta

/-- The store after the first commit. -/
def paidStore : ListStore × Hash :=
  letI := storedKeccak
  (merkleCommit ⟨[]⟩ none (paying 5) (getReader ⟨[]⟩ none)).getD (⟨[]⟩, 0)

/-- The store after the second commit. -/
def nextStore (deltas : StateDelta) : ListStore × Hash :=
  letI := storedKeccak
  (merkleCommit paidStore.1 (some paidStore.2) deltas
    (getReader paidStore.1 (some paidStore.2))).getD (⟨[]⟩, 0)

end Sample

open Sample

theorem paidStore_history :
    letI := storedKeccak
    History paidStore.1 [paidStore.2] := by
  let := storedKeccak
  have run : merkleCommit ⟨[]⟩ none (paying 5) (getReader ⟨[]⟩ none) = some paidStore := by
    decide +kernel
  exact .commit (.start ⟨[]⟩) (fun _ known => absurd known.symm (Option.some_ne_none _)) run

/-- A second payment is read back as it was in memory. -/
theorem second_payment_is_kept :
    letI := storedKeccak
    merkleCommit paidStore.1 (some paidStore.2) (paying 7)
        (getReader paidStore.1 (some paidStore.2)) = some (nextStore (paying 7)) ∧
      ∀ contract, PanickingR.SameAnswers contract
        (getReader (nextStore (paying 7)).1 (some (nextStore (paying 7)).2)).reads
        ((getReader paidStore.1 (some paidStore.2)).reads.withDelta (paying 7)) := by
  let := storedKeccak
  have run : merkleCommit paidStore.1 (some paidStore.2) (paying 7)
      (getReader paidStore.1 (some paidStore.2)) = some (nextStore (paying 7)) := by
    decide +kernel
  refine ⟨run, (committed_state_answers_iff paidStore_history ?_ run).mpr fun contract => ?_⟩
  · rintro root same
    obtain rfl := Option.some.inj same
    exact List.mem_singleton_self _
  · refine ⟨fun deleted => absurd deleted List.not_mem_nil,
      fun unrooted => absurd unrooted (Option.some_ne_none _), ?_⟩
    intro acc code lookup set
    have changed : (paying 7).accounts.entries = [⟨1, ⟨∅, some 7, none, none⟩⟩] := by
      rfl
    have member := List.of_mem_dlookup lookup
    rw [changed, List.mem_singleton] at member
    cases member
    cases set

/-- An account that is deleted in memory is there after the commit. -/
theorem deletion_is_not_committed :
    letI := storedKeccak
    History paidStore.1 [paidStore.2] ∧
      merkleCommit paidStore.1 (some paidStore.2) deletingDelta
        (getReader paidStore.1 (some paidStore.2)) = some (nextStore deletingDelta) ∧
      ¬ ∀ contract, PanickingR.SameAnswers contract
        (getReader (nextStore deletingDelta).1 (some (nextStore deletingDelta).2)).reads
        ((getReader paidStore.1 (some paidStore.2)).reads.withDelta deletingDelta) := by
  let := storedKeccak
  refine ⟨paidStore_history, by decide +kernel, ?_⟩
  intro same
  have exist := (same 1).exist
  revert exist
  decide +kernel

end Qevm
