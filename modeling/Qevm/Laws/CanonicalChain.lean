import Qevm.Collections.Lineage
import Qevm.Laws.Bookkeeping
import Qevm.Laws.NodeStore
import Qevm.Laws.Records
import Qevm.Node.ChainState

/-!
# The canonical chain of a node

Whatever requests a node serves and in whatever order, and wherever its process ends, its
index is the line of ancestors of one block, from the genesis block down, and its database
holds that line: a node that starts again has the same index.
-/

namespace Qevm

open Block (hash)

/-- The line of ancestors of a block over a genesis block. -/
abbrev BlockLine [Keccak256] (g : DemoBlock) (blocks : List DemoBlock) :=
  Lineage Block.hash DemoBlock.parentHash (· ∈ blocks) g

/-- A block is read back as it is. -/
structure DemoBlock.Plain
    [Keccak256] [Secp256k1] [Rlp.Reader] (chainId : U256) (block : DemoBlock) : Prop where
  few : block.txs.length < 2 ^ 64
  accepted : ∀ tx ∈ block.txs, DemoBlock.Accepted chainId tx
  hashes : ∀ tx ∈ block.txs, tx.txHash = Hash.hash tx.inner.encode

theorem DemoBlock.Plain.decode_encode
    [Keccak256] [Secp256k1] [Rlp.Reader] [Rlp.LawfulReader] {chainId : U256}
    {block : DemoBlock} (plain : Plain chainId block) :
    DemoBlock.decode block.encode chainId = .ok (some block) := by
  have read := DemoBlock.decode_encode block plain.few plain.accepted []
  rwa [List.append_nil, (rehashed_eq_iff block).mpr plain.hashes] at read

/-- The blocks that are stored over a genesis block. -/
structure Stored
    [Keccak256] [Secp256k1] [Rlp.Reader] (chainId : U256) (g : DemoBlock)
    (stored : List DemoBlock) : Prop where
  ranked : Ranked Block.hash DemoBlock.parentHash (fun block => block.number.toNat)
    (· ∈ stored) g
  nonzero : ∀ {block}, block = g ∨ block ∈ stored → hash block ≠ 0
  plain : ∀ {block}, block = g ∨ block ∈ stored → block.Plain chainId
  few : ∀ {block}, block ∈ stored → block.number.toNat ≤ stored.length

/-! ## Records -/

/-- The records of the stored blocks and of their outcomes. -/
structure BlockRecords
    [Keccak256] (g : DemoBlock) (stored : List DemoBlock) (records : RecordKey → Option Bytes) :
    Prop where
  genesis : records (.block 0) = some g.encode
  block : ∀ {block}, block ∈ stored → records (.block (hash block)) = some block.encode
  only : ∀ {h raw}, h ≠ 0 → records (.block h) = some raw →
    ∃ block ∈ stored, hash block = h ∧ block.encode = raw
  outcome : ∀ {block}, block = g ∨ block ∈ stored →
    ∃ outcome : BlockOutcome Unit, records (.outcome (hash block)) = some outcome.encode

/-- The records of the entries of an index. -/
def IndexEntries
    [Keccak256] (records : RecordKey → Option Bytes) (index : List (Option DemoBlock)) : Prop :=
  ∀ i block, index[i]? = some (some block) →
    records (.index (UInt64.ofNat (i + 1))) = some (hash block).asBytes

/-- The record of the length of an index. -/
def IndexLength
    (records : RecordKey → Option Bytes) (index : List (Option DemoBlock)) : Prop :=
  records (.index 0) = some (u64ToLeBytes (UInt64.ofNat index.length))

section Records

variable [Keccak256] {g : DemoBlock} {stored : List DemoBlock}
  {records : RecordKey → Option Bytes} {index : List (Option DemoBlock)} {value : Bytes}

/-- An entry of the index is no record of a block. -/
theorem BlockRecords.put_index (kept : BlockRecords g stored records) (idx : UInt64) :
    BlockRecords g stored (Function.update records (.index idx) (some value)) := by
  have others : ∀ key, (∀ other, key ≠ .index other) →
      Function.update records (.index idx) (some value) key = records key :=
    fun key different => Function.update_of_ne (different idx) _ _
  have blocks : ∀ h, Function.update records (.index idx) (some value) (.block h) =
      records (.block h) := fun h => others _ nofun
  have outcomes : ∀ h, Function.update records (.index idx) (some value) (.outcome h) =
      records (.outcome h) := fun h => others _ nofun
  exact
    { genesis := (blocks 0).trans kept.genesis
      block := fun member => (blocks _).trans (kept.block member)
      only := fun nonzero found => kept.only nonzero ((blocks _).symm.trans found)
      outcome := fun member => by
        rw [outcomes]
        exact kept.outcome member }

/-- A block is stored with its record and that of its outcome. -/
theorem BlockRecords.put_block
    [Secp256k1] [Rlp.Reader] {chainId : U256} {block : DemoBlock}
    (kept : BlockRecords g stored records) (sound : Stored chainId g (stored ++ [block]))
    (outcome : BlockOutcome Unit) :
    BlockRecords g (stored ++ [block])
      (Function.update (Function.update records (.block (hash block)) (some block.encode))
        (.outcome (hash block)) (some outcome.encode)) := by
  have isNew : block = g ∨ block ∈ stored ++ [block] :=
    .inr (List.mem_append_right stored List.mem_cons_self)
  have before {other : DemoBlock} (member : other ∈ stored) : other ∈ stored ++ [block] :=
    List.mem_append_left [block] member
  have blocks (h : Hash) :
      Function.update (Function.update records (.block (hash block)) (some block.encode))
        (.outcome (hash block)) (some outcome.encode) (.block h) =
      if h = hash block then some block.encode else records (.block h) := by
    rw [Function.update_of_ne (by simp), Function.update_apply]
    simp only [RecordKey.block.injEq]
  refine ⟨?_, ?_, ?_, ?_⟩
  · rw [blocks, if_neg fun zero => sound.nonzero isNew zero.symm, kept.genesis]
  · intro other member
    rw [blocks]
    split
    · next same =>
        rw [sound.ranked.identified (.inr member) isNew same]
    · next different =>
        obtain old | last := List.mem_append.mp member
        · exact kept.block old
        · rw [List.mem_singleton.mp last] at different
          exact absurd rfl different
  · intro h raw nonzero found
    rw [blocks] at found
    split at found
    · next same =>
        exact ⟨block, List.mem_append_right stored List.mem_cons_self, same.symm,
          Option.some.inj found⟩
    · obtain ⟨other, member, named, encoded⟩ := kept.only nonzero found
      exact ⟨other, before member, named, encoded⟩
  · intro other known
    rw [Function.update_apply]
    split
    · exact ⟨outcome, rfl⟩
    · next different =>
        rw [Function.update_of_ne (by simp)]
        obtain isRoot | member := known
        · exact kept.outcome (.inl isRoot)
        · obtain old | last := List.mem_append.mp member
          · exact kept.outcome (.inr old)
          · rw [List.mem_singleton.mp last] at different
            exact absurd rfl different

/-- A block is no entry of the index. -/
theorem IndexEntries.put_block
    (entries : IndexEntries records index) (block : DemoBlock) (outcome : BlockOutcome Unit) :
    IndexEntries
      (Function.update (Function.update records (.block (hash block)) (some block.encode))
        (.outcome (hash block)) (some outcome.encode)) index := by
  intro i other found
  rw [Function.update_of_ne (by simp), Function.update_of_ne (by simp), entries i other found]

/-- An entry of the index is written with its record. -/
theorem IndexEntries.set
    (entries : IndexEntries records index) {i : Nat} (block : DemoBlock)
    (small : index.length < 2 ^ 64) (inside : i < index.length) :
    IndexEntries
      (Function.update records (.index (UInt64.ofNat (i + 1))) (some (hash block).asBytes))
      (index.set i (some block)) := by
  intro j other found
  rw [List.getElem?_set] at found
  by_cases same : i = j
  · subst same
    rw [if_pos rfl, if_pos inside] at found
    obtain rfl := Option.some.inj (Option.some.inj found)
    exact Function.update_self _ _ _
  · rw [if_neg same] at found
    rw [Function.update_of_ne]
    · exact entries j other found
    · intro sameKey
      have below := (List.getElem?_eq_some_iff.mp found).1
      have numbers := congrArg UInt64.toNat (RecordKey.index.inj sameKey)
      rw [UInt64.toNat_ofNat_of_lt' (show j + 1 < 2 ^ 64 by omega),
        UInt64.toNat_ofNat_of_lt' (show i + 1 < 2 ^ 64 by omega)] at numbers
      omega

end Records

/-! ## The state of a node -/

section State

variable {δ η : Type} [Keccak256] [NodeHasher η] [Database δ Bytes Bytes]

/-- A node holds a chain of stored blocks, and a database with the current records and with
those of the pending batch. -/
structure DemoChainState.Keeps
    (state : DemoChainState δ η) (chainId : U256) (g : DemoBlock)
    (stored blocks : List DemoBlock) (current next : RecordKey → Option Bytes) (bound : Nat) :
    Prop where
  chain_id : state.chainId = chainId
  placed : Chain.Placed g blocks [] state.chain
  loaded : ∀ {block}, block ∈ blocks → block ∈ stored
  store : ∃ table, ReadWriteDB.Refines state.mdb table DB_PREFIX_MERKLE bound ∧
    (∀ key : RecordKey, table.current.records key.bytes = current key) ∧
    ∀ key : RecordKey, table.next.records key.bytes = next key

namespace DemoChainState.Keeps

variable {self : DemoChainState δ η} {chainId : U256} {g block : DemoBlock}
  {stored blocks : List DemoBlock} {current next : RecordKey → Option Bytes} {bound : Nat}

/-- What is done to the index does not matter. -/
theorem reindexed
    (keeps : self.Keeps chainId g stored blocks current next bound)
    (index : List (Option DemoBlock)) :
    ({ self with indexed := index } : DemoChainState δ η).Keeps chainId g stored blocks
      current next bound :=
  { keeps with }

/-- A record waits for the next commit. -/
theorem put
    (keeps : self.Keeps chainId g stored blocks current next bound) (key : RecordKey)
    (value : Bytes) :
    (self.put key.bytes value).Keeps chainId g stored blocks current
      (Function.update next key (some value)) bound := by
  obtain ⟨table, refines, nowRecords, nextRecords⟩ := keeps.store
  refine { keeps with store := ⟨_, refines.put key.outside_nodes, nowRecords, ?_⟩ }
  intro other
  rw [NodeView.records_setRecord, Function.update_apply, nextRecords]
  by_cases same : other = key
  · rw [if_pos same, if_pos (congrArg RecordKey.bytes same)]
  · rw [if_neg same, if_neg fun sameBytes => same (RecordKey.bytes_injective sameBytes)]

variable [ReliableDatabase δ]

/-- A commit makes the pending records current. -/
theorem commit (keeps : self.Keeps chainId g stored blocks current next bound) :
    ∃ mdb, self.commitWritebatch = some { self with mdb := mdb } ∧
      ({ self with mdb := mdb } : DemoChainState δ η).Keeps chainId g stored blocks
        next next bound := by
  obtain ⟨table, refines, -, nextRecords⟩ := keeps.store
  have commits : self.mdb.commit ≠ none := by
    unfold ReadWriteDB.commit
    split
    · simp
    · simpa using ReliableDatabase.accepts _ _
  obtain ⟨mdb, committed⟩ := Option.ne_none_iff_exists'.mp commits
  refine ⟨mdb, by rw [commitWritebatch, committed, Option.map_some], ?_⟩
  exact { keeps with store := ⟨_, refines.commit committed, nextRecords, nextRecords⟩ }

/-- The current records are read from the database. -/
theorem get
    (keeps : self.Keeps chainId g stored blocks current next bound) (key : RecordKey) :
    Database.get self.mdb.db key.bytes = some (current key) := by
  obtain ⟨table, refines, nowRecords, -⟩ := keeps.store
  rw [Database.get_of_reliable, refines.current.record key.outside_nodes, nowRecords]

end DemoChainState.Keeps

namespace DemoChainState

variable [Secp256k1] [Rlp.Reader] {self : DemoChainState δ η} {chainId : U256}
  {g block : DemoBlock}
  {stored blocks : List DemoBlock} {current next : RecordKey → Option Bytes} {bound : Nat}

/-- The first block with a hash is the only one. -/
theorem Keeps.firstAdded
    (keeps : self.Keeps chainId g stored blocks current next bound)
    (sound : Stored chainId g stored) (known : block = g ∨ block ∈ blocks) :
    Chain.firstAdded g blocks (hash block) = some block := by
  have member : block ∈ g :: blocks := List.mem_cons.mpr known
  cases found : Chain.firstAdded g blocks (hash block) with
  | none =>
      have different := List.find?_eq_none.mp found block member
      simp at different
  | some first =>
      have storedFirst := (Chain.firstAdded_mem found).imp_right keeps.loaded
      rw [sound.ranked.identified storedFirst (known.imp_right keeps.loaded)
        (Chain.firstAdded_hash found)]

/-- A block of the chain is found there. -/
theorem Keeps.getBlockByHash_loaded
    (keeps : self.Keeps chainId g stored blocks current next bound)
    (sound : Stored chainId g stored) (known : block = g ∨ block ∈ blocks) :
    self.getBlockByHash (hash block) = some (some block, self) := by
  have found : self.chain.getBlock (hash block) = some block := by
    rw [keeps.placed.getBlock_eq, keeps.firstAdded sound known]
  rw [getBlockByHash, if_neg (sound.nonzero (known.imp_right keeps.loaded)), found]

theorem Keeps.expectBlock_loaded
    (keeps : self.Keeps chainId g stored blocks current next bound)
    (sound : Stored chainId g stored) (known : block = g ∨ block ∈ blocks) :
    self.expectBlock (hash block) = some (block, self) := by
  rw [expectBlock, keeps.getBlockByHash_loaded sound known]
  rfl

/-- A stored block is added to the chain as it is. -/
theorem Keeps.addBlock
    (keeps : self.Keeps chainId g stored blocks current next bound)
    (sound : Stored chainId g stored) (member : block ∈ stored) :
    ∃ chain, self.chain.addBlock block = some (block, chain) ∧
      ({ self with chain := chain } : DemoChainState δ η).Keeps chainId g stored
        (blocks ++ [block]) current next bound := by
  obtain ⟨first, chain, added, found, placed⟩ := Chain.addBlock_placed keeps.placed block
  have loaded : ∀ {other}, other ∈ blocks ++ [block] → other ∈ stored := by
    intro other isMember
    obtain before | last := List.mem_append.mp isMember
    · exact keeps.loaded before
    · rwa [List.mem_singleton.mp last]
  have same : first = block :=
    sound.ranked.identified ((Chain.firstAdded_mem found).imp_right loaded) (.inr member)
      (Chain.firstAdded_hash found)
  subst same
  exact ⟨chain, added, { keeps with placed := placed, loaded := loaded }⟩

/-- The entries of an index below a depth are the ends of lines. -/
def Lined (g : DemoBlock) (blocks : List DemoBlock) (index : List (Option DemoBlock))
    (depth : Nat) : Prop :=
  ∀ {i block}, i < depth → index[i]? = some (some block) →
    ∃ path, BlockLine g blocks path block ∧ path.map some = index.take (i + 1)

omit [NodeHasher η] [Database δ Bytes Bytes] [Secp256k1] [Rlp.Reader] in
/-- Entries from a depth on do not matter for those below. -/
theorem Lined.set
    {index : List (Option DemoBlock)} {depth deeper : Nat} (lined : Lined g blocks index deeper)
    (less : depth ≤ deeper) (entry : Option DemoBlock) :
    Lined g blocks (index.set depth entry) depth := by
  intro i block below found
  rw [List.getElem?_set_ne (Nat.ne_of_gt below)] at found
  obtain ⟨path, lineage, entries⟩ := lined (Nat.lt_of_lt_of_le below less) found
  refine ⟨path, lineage, ?_⟩
  rw [entries, List.take_set_of_le (Nat.succ_le_of_lt below)]

section Lines

variable {path otherLine : List DemoBlock} {index : List (Option DemoBlock)}

omit [NodeHasher η] [Database δ Bytes Bytes] in
/-- The line of a loaded block is one longer than its number. -/
theorem length_of_line
    (sound : Stored chainId g stored) (loaded : ∀ {block}, block ∈ blocks → block ∈ stored)
    (lineage : BlockLine g blocks path block) : path.length = block.number.toNat + 1 :=
  (lineage.mono loaded).length_eq sound.ranked

omit [NodeHasher η] [Database δ Bytes Bytes] in
/-- An entry with the hash of a block ends with the line of the block. -/
theorem Lined.ends
    (lined : Lined g blocks index path.length) (sound : Stored chainId g stored)
    (loaded : ∀ {block}, block ∈ blocks → block ∈ stored)
    (lineage : BlockLine g blocks path block) {other : DemoBlock}
    (found : index[block.number.toNat]? = some (some other)) (named : hash other = hash block) :
    path.map some ++ index.drop path.length = index := by
  have depth := length_of_line sound loaded lineage
  obtain ⟨otherLine, otherLineage, taken⟩ := lined (by omega) found
  obtain rfl := sound.ranked.identified (otherLineage.mono loaded).last_known
    (lineage.mono loaded).last_known named
  obtain rfl := (lineage.mono loaded).unique (otherLineage.mono loaded) sound.ranked
  rw [taken, depth, List.take_append_drop]

end Lines

omit [NodeHasher η] in
/-- One round of the loop: a block that is not indexed is, and its parent is next. -/
theorem indexDown_succ
    {self state : DemoChainState δ η} {above : DemoBlock} {i : Nat}
    (unindexed : ¬∃ other, self.indexed[i]? = some (some other) ∧ hash other = hash block)
    (deep : block.number ≠ 0)
    (written : state = { self.put (genIndexKey (UInt64.ofNat (i + 1))) (hash block).asBytes with
      indexed := self.indexed.set i (some block) })
    (reads : (self.put (genIndexKey (UInt64.ofNat (i + 1))) (hash block).asBytes).expectBlock
      (hash block) =
        some (block, self.put (genIndexKey (UInt64.ofNat (i + 1))) (hash block).asBytes))
    (readsAbove : state.expectBlock block.parentHash = some (above, state)) :
    self.indexDown block (i + 1) = state.indexDown above i := by
  have stays : (self.indexed[i]?.join.any fun other => Block.hash other = hash block) =
      false := by
    rw [Bool.eq_false_iff]
    intro found
    obtain ⟨other, joined, sameHash⟩ := (Option.any_eq_true _ _).mp found
    exact unindexed ⟨other, Option.join_eq_some_iff.mp joined, by simpa using sameHash⟩
  subst written
  rw [DemoChainState.indexDown, stays, if_neg Bool.false_ne_true]
  change ((self.put _ _).expectBlock (hash block)).bind _ = _
  rw [reads, Option.bind_some]
  change (if block.number = 0 then _ else _) = _
  rw [if_neg deep]
  change (DemoChainState.expectBlock { self.put _ _ with
    indexed := self.indexed.set i (some block) } block.parentHash).bind _ = _
  rw [readsAbove, Option.bind_some]

/-- Indexing a block from its depth down makes its line the start of the index.  The
records of the entries follow. -/
theorem Keeps.indexDown
    {path : List DemoBlock} (lineage : BlockLine g blocks path block)
    (sound : Stored chainId g stored) {self : DemoChainState δ η}
    {next : RecordKey → Option Bytes}
    (keeps : self.Keeps chainId g stored blocks current next bound)
    (records : BlockRecords g stored next) (entries : IndexEntries next self.indexed)
    (lined : Lined g blocks self.indexed path.length)
    (rooted : self.indexed[0]? = some (some g)) (inside : path.length ≤ self.indexed.length)
    (small : self.indexed.length < 2 ^ 64) :
    ∃ mdb next', self.indexDown block path.length =
        some { self with
          indexed := path.map some ++ self.indexed.drop path.length, mdb := mdb } ∧
      ({ self with mdb := mdb } : DemoChainState δ η).Keeps chainId g stored blocks current
        next' bound ∧
      BlockRecords g stored next' ∧ next' (.index 0) = next (.index 0) ∧
      IndexEntries next' (path.map some ++ self.indexed.drop path.length) := by
  induction lineage generalizing self next with
  | root =>
      have same : [g].map some ++ self.indexed.drop [g].length = self.indexed :=
        lined.ends sound keeps.loaded .root (by rwa [sound.ranked.rank_root]) rfl
      refine ⟨self.mdb, next, ?_, keeps, records, rfl, by rwa [same]⟩
      rw [same]
      change self.indexDown g (0 + 1) = _
      rw [DemoChainState.indexDown, rooted]
      simp
  | @child path above below lineAbove isKnown named inductionHypothesis =>
      have lineBelow : BlockLine g blocks (path ++ [below]) below :=
        lineAbove.child isKnown named
      have length : (path ++ [below]).length = path.length + 1 := by simp
      have depth := length_of_line sound keeps.loaded lineBelow
      have depthAbove := length_of_line sound keeps.loaded lineAbove
      have number : below.number.toNat = path.length := by omega
      by_cases indexed : ∃ other, self.indexed[path.length]? = some (some other) ∧
          hash other = hash below
      · obtain ⟨other, found, sameHash⟩ := indexed
        have same := lined.ends sound keeps.loaded lineBelow (by rwa [number]) sameHash
        refine ⟨self.mdb, next, ?_, keeps, records, rfl, by rwa [same]⟩
        rw [same, length, DemoChainState.indexDown, found]
        simp [sameHash]
      · rw [length] at lined inside
        have deep : below.number ≠ 0 := by
          intro zero
          rw [zero] at number
          simp at number
          omega
        have keepsPut := keeps.put (.index (UInt64.ofNat (path.length + 1)))
          (hash below).asBytes
        have keepsState := keepsPut.reindexed (self.indexed.set path.length (some below))
        have rootedState : (self.indexed.set path.length (some below))[0]? =
            some (some g) := by
          rw [List.getElem?_set_ne (by omega), rooted]
        obtain ⟨mdb, next', run, still, stillRecords, sameLength, stillEntries⟩ :=
          inductionHypothesis keepsState (records.put_index _)
            (entries.set below small inside) (lined.set (Nat.le_succ _) _) rootedState
            (by rw [List.length_set]; omega) (by rwa [List.length_set])
        have dropped : (self.indexed.set path.length (some below)).drop path.length =
            some below :: self.indexed.drop (path.length + 1) := by
          rw [List.drop_eq_getElem_cons (by rw [List.length_set]; omega),
            List.getElem_set_self, List.drop_set_of_lt (Nat.lt_succ_self _)]
        have joined : (path ++ [below]).map some ++ self.indexed.drop (path.length + 1) =
            path.map some ++ (self.indexed.set path.length (some below)).drop path.length := by
          rw [dropped, List.map_append, List.append_assoc]
          rfl
        rw [length, joined]
        refine ⟨mdb, next', ?_, still.reindexed self.indexed, stillRecords, ?_, stillEntries⟩
        · rw [indexDown_succ indexed deep rfl
            (keepsPut.expectBlock_loaded sound (.inr isKnown))
            (by rw [named]; exact keepsState.expectBlock_loaded sound lineAbove.last_known)]
          exact run
        · rw [sameLength, Function.update_of_ne]
          intro sameKey
          have zero := congrArg UInt64.toNat (RecordKey.index.inj sameKey)
          rw [UInt64.toNat_ofNat_of_lt' (show path.length + 1 < 2 ^ 64 by omega)] at zero
          simp at zero

/-! ### The index of a state -/

variable [ReliableDatabase δ]

/-- Looking for a block finds it if it is stored, and the chain then has it. -/
theorem Keeps.getBlockByHash
    [Rlp.LawfulReader] (keeps : self.Keeps chainId g stored blocks current next bound)
    (sound : Stored chainId g stored) (records : BlockRecords g stored current) {h : Hash}
    (nonzero : h ≠ 0) :
    ∃ found chain more, self.getBlockByHash h = some (found, { self with chain := chain }) ∧
      ({ self with chain := chain } : DemoChainState δ η).Keeps chainId g stored
        (blocks ++ more) current next bound ∧
      (∀ block, found = some block ↔ (block = g ∨ block ∈ stored) ∧ hash block = h) ∧
      (∀ block, found = some block → block = g ∨ block ∈ blocks ++ more) := by
  unfold DemoChainState.getBlockByHash
  rw [if_neg nonzero, keeps.placed.getBlock_eq]
  have only {first : DemoBlock} (known : first = g ∨ first ∈ stored) (named : hash first = h)
      (block : DemoBlock) :
      some first = some block ↔ (block = g ∨ block ∈ stored) ∧ hash block = h := by
    constructor
    · intro same
      rw [← Option.some.inj same]
      exact ⟨known, named⟩
    · rintro ⟨otherKnown, otherNamed⟩
      rw [sound.ranked.identified known otherKnown (named.trans otherNamed.symm)]
  cases first : Chain.firstAdded g blocks h with
  | some block =>
      have member := Chain.firstAdded_mem first
      refine ⟨some block, self.chain, [], rfl, ?_, ?_, ?_⟩
      · rwa [List.append_nil]
      · exact only (member.imp_right keeps.loaded) (Chain.firstAdded_hash first)
      · intro other same
        rw [← Option.some.inj same, List.append_nil]
        exact member
  | none =>
      have isNew : h ≠ hash g := by
        rintro rfl
        rw [keeps.firstAdded sound (.inl rfl)] at first
        contradiction
      have read := keeps.get (.block h)
      change Database.get self.mdb.db (genBlockKey h) = _ at read
      rw [read]
      cases kept : current (.block h) with
      | none =>
          refine ⟨none, self.chain, [], rfl, by rwa [List.append_nil], ?_, nofun⟩
          intro block
          refine ⟨nofun, ?_⟩
          rintro ⟨rfl | member, rfl⟩
          · exact absurd rfl isNew
          · rw [records.block member] at kept
            contradiction
      | some raw =>
          obtain ⟨block, member, rfl, rfl⟩ := records.only nonzero kept
          obtain ⟨chain, added, still⟩ := keeps.addBlock sound member
          refine ⟨some block, chain, [block], ?_, still, ?_, ?_⟩
          · simp only [Option.join_some, keeps.chain_id,
              (sound.plain (.inr member)).decode_encode, added, Option.map_some]
          · exact only (.inr member) rfl
          · intro other same
            rw [← Option.some.inj same]
            exact .inr (List.mem_append_right blocks List.mem_cons_self)

/-- The index of a node is the line of a block of its chain, and its database holds the
stored blocks and the index. -/
structure Canonical
    (state : DemoChainState δ η) (chainId : U256) (g : DemoBlock)
    (stored blocks : List DemoBlock) (records : RecordKey → Option Bytes) (path : List DemoBlock) (tail : DemoBlock)
    (bound : Nat) : Prop where
  keeps : state.Keeps chainId g stored blocks records records bound
  lineage : BlockLine g blocks path tail
  indexed : state.indexed = path.map some
  kept : BlockRecords g stored records
  entries : IndexEntries records state.indexed
  length : IndexLength records state.indexed

variable {records : RecordKey → Option Bytes} {path newPath : List DemoBlock}
  {tail newTail : DemoBlock}

/-- A block of the chain becomes the tail of the index, with its line. -/
theorem Canonical.setCanonicalTail
    (canonical : self.Canonical chainId g stored blocks records path tail bound)
    (sound : Stored chainId g stored) (lineage : BlockLine g blocks newPath newTail)
    (small : newTail.number.toNat + 1 < 2 ^ 64) :
    ∃ state records', self.setCanonicalTail newTail = some state ∧
      state.Canonical chainId g stored blocks records' newPath newTail bound ∧
      state.chain = self.chain := by
  have loaded {block : DemoBlock} (member : block ∈ blocks) : block ∈ stored :=
    canonical.keeps.loaded member
  have depth := length_of_line sound loaded lineage
  have length : (newTail.number + 1).toNat = newPath.length := by
    rw [depth, UInt64.toNat_add]
    exact Nat.mod_eq_of_lt small
  let index := self.indexed.take newPath.length ++
    List.replicate (newPath.length - self.indexed.length) none
  have indexLength : index.length = newPath.length := by
    simp [index]
    omega
  -- What is left of the index is the start of its line.
  have old {i : Nat} {block : DemoBlock} (found : index[i]? = some (some block)) :
      i < self.indexed.length ∧ i < newPath.length ∧ self.indexed[i]? = some (some block) := by
    have inside := (List.getElem?_eq_some_iff.mp found).1
    rw [indexLength] at inside
    by_cases within : i < self.indexed.length
    · rw [List.getElem?_append_left (by rw [List.length_take]; omega),
        List.getElem?_take_of_lt inside] at found
      exact ⟨within, inside, found⟩
    · rw [List.getElem?_append_right (by rw [List.length_take]; omega),
        List.getElem?_replicate] at found
      split at found <;> simp at found
  have lined : Lined g blocks index newPath.length := by
    intro i block _ found
    obtain ⟨within, inside, entry⟩ := old found
    rw [canonical.indexed, List.getElem?_map] at entry
    obtain ⟨member, there, same⟩ := Option.map_eq_some_iff.mp entry
    obtain rfl := Option.some.inj same
    refine ⟨path.take (i + 1), canonical.lineage.take there, ?_⟩
    rw [List.take_append_of_le_length (by rw [List.length_take]; omega), List.take_take,
      Nat.min_eq_left inside, canonical.indexed, List.map_take]
  have rooted : index[0]? = some (some g) := by
    have first : self.indexed[0]? = some (some g) := by
      rw [canonical.indexed, List.getElem?_map, ← List.head?_eq_getElem?,
        canonical.lineage.head?_eq]
      rfl
    have someEntry := (List.getElem?_eq_some_iff.mp first).1
    rw [List.getElem?_append_left (by rw [List.length_take]; omega),
      List.getElem?_take_of_lt (by omega), first]
  have keepsPut := (canonical.keeps.reindexed index).put (.index 0)
    (u64ToLeBytes (UInt64.ofNat newPath.length))
  have entries : IndexEntries (Function.update records (.index 0)
      (some (u64ToLeBytes (UInt64.ofNat newPath.length)))) index := by
    intro i block found
    obtain ⟨within, inside, entry⟩ := old found
    rw [Function.update_of_ne]
    · exact canonical.entries i block entry
    · intro sameKey
      have zero := congrArg UInt64.toNat (RecordKey.index.inj sameKey)
      rw [UInt64.toNat_ofNat_of_lt' (show i + 1 < 2 ^ 64 by omega)] at zero
      simp at zero
  obtain ⟨mdb, next', run, still, kept, sameLength, newEntries⟩ :=
    Keeps.indexDown lineage sound keepsPut (canonical.kept.put_index 0) entries lined rooted
      indexLength.ge (by change index.length < 2 ^ 64; omega)
  obtain ⟨mdb', committed, settled⟩ := (still.reindexed (newPath.map some)).commit
  have whole : newPath.map some ++ index.drop newPath.length = newPath.map some := by
    rw [List.drop_of_length_le indexLength.le, List.append_nil]
  refine ⟨{ self with indexed := newPath.map some, mdb := mdb' }, next', ?_, ?_, rfl⟩
  · unfold DemoChainState.setCanonicalTail
    rw [length]
    change (DemoChainState.indexDown _ newTail index.length).bind _ = _
    rw [indexLength]
    refine (congrArg (·.bind commitWritebatch) run).trans ?_
    change commitWritebatch { self with
      indexed := newPath.map some ++ index.drop newPath.length, mdb := mdb } = _
    rw [whole]
    exact committed
  · refine ⟨settled, lineage, rfl, kept, ?_, ?_⟩
    · rwa [← whole]
    · change next' (.index 0) = _
      rw [sameLength, Function.update_self, List.length_map]

omit [Secp256k1] [Rlp.Reader] in
/-- The nodes of tries are written beside the records. -/
theorem Keeps.writeNodes
    (keeps : self.Keeps chainId g stored blocks current current bound)
    (nodes : List (NodePrefix × Bytes)) (small : bound + nodes.length + 1 ≤ 2 ^ 63) :
    ∃ mdb, self.writeNodes nodes = some { self with mdb := mdb } ∧
      ({ self with mdb := mdb } : DemoChainState δ η).Keeps chainId g stored blocks
        current current (bound + nodes.length + 1) := by
  obtain ⟨table, refines, nowRecords, nextRecords⟩ := keeps.store
  let ops : List (ReadWriteDB.Op η) :=
    (nodes.map fun node => .insert node.1 node.2) ++ [.commit]
  have length : ops.length = nodes.length + 1 := by simp [ops]
  have outside : ∀ op ∈ ops, op.Outside DB_PREFIX_MERKLE := by
    intro op member
    obtain inserted | last := List.mem_append.mp member
    · obtain ⟨node, -, rfl⟩ := List.mem_map.mp inserted
      trivial
    · rw [List.mem_singleton.mp last]
      trivial
  have runs := refines.run_isSome (by omega) outside ReliableDatabase.answers
    ReliableDatabase.accepts
  obtain ⟨mdb, run⟩ := Option.ne_none_iff_exists'.mp runs
  have after := refines.run (by omega) outside run
  refine ⟨mdb, by rw [DemoChainState.writeNodes, run, Option.map_some], ?_⟩
  rw [length, ← Nat.add_assoc] at after
  obtain ⟨nowAfter, nextAfter⟩ := NodeTable.run_inserts_commit table nodes
  refine { keeps with store := ⟨_, after, fun key => ?_, fun key => ?_⟩ }
  · exact (congrFun nowAfter key.bytes).trans (nextRecords key)
  · exact (congrFun nextAfter key.bytes).trans (nextRecords key)

omit [Secp256k1] [Rlp.Reader] in
/-- A state that has written nodes has the same index. -/
theorem Canonical.writeNodes
    (canonical : self.Canonical chainId g stored blocks records path tail bound)
    (nodes : List (NodePrefix × Bytes)) (small : bound + nodes.length + 1 ≤ 2 ^ 63) :
    ∃ mdb, self.writeNodes nodes = some { self with mdb := mdb } ∧
      ({ self with mdb := mdb } : DemoChainState δ η).Canonical chainId g stored blocks
        records path tail (bound + nodes.length + 1) := by
  obtain ⟨mdb, run, keeps⟩ := canonical.keeps.writeNodes nodes small
  exact ⟨mdb, run, { canonical with keeps := keeps }⟩

/-- A stored block that is put on top of a block of the chain is in the chain, with its
line, and in the database. -/
theorem Canonical.storeBlock
    (canonical : self.Canonical chainId g stored blocks records path tail bound)
    (sound : Stored chainId g (stored ++ [block])) {above : DemoBlock}
    (lineage : BlockLine g blocks newPath above) (named : block.parentHash = hash above)
    (outcome : BlockOutcome Unit) :
    ∃ state records', self.storeBlock block outcome = some (block, state) ∧
      state.Canonical chainId g (stored ++ [block]) (blocks ++ [block]) records' path tail
        bound ∧
      BlockLine g (blocks ++ [block]) (newPath ++ [block]) block ∧
      state.indexed = self.indexed := by
  have member : block ∈ stored ++ [block] :=
    List.mem_append_right stored List.mem_cons_self
  have keeps : self.Keeps chainId g (stored ++ [block]) blocks records records bound :=
    { canonical.keeps with
      loaded := fun isLoaded => List.mem_append_left [block] (canonical.keeps.loaded isLoaded) }
  obtain ⟨chain, added, keepsChain⟩ := keeps.addBlock sound member
  have keepsPut := (keepsChain.put (.block (hash block)) block.encode).put
    (.outcome (hash block)) outcome.encode
  obtain ⟨mdb, committed, settled⟩ := keepsPut.commit
  have more {known : DemoBlock} (isKnown : known ∈ blocks) : known ∈ blocks ++ [block] :=
    List.mem_append_left [block] isKnown
  refine ⟨{ self with chain := chain, mdb := mdb },
    Function.update (Function.update records (.block (hash block)) (some block.encode))
      (.outcome (hash block)) (some outcome.encode), ?_, ?_, ?_, rfl⟩
  · unfold DemoChainState.storeBlock
    rw [added]
    refine (congrArg (·.bind fun state => some (block, state)) committed).trans ?_
    rfl
  · exact
      { keeps := settled
        lineage := canonical.lineage.mono more
        indexed := canonical.indexed
        kept := canonical.kept.put_block sound outcome
        entries := canonical.entries.put_block block outcome
        length := by
          rw [IndexLength, Function.update_of_ne (by simp), Function.update_of_ne (by simp)]
          exact canonical.length }
  · exact (lineage.mono more).child
      (List.mem_append_right blocks List.mem_cons_self) named

omit [NodeHasher η] [Database δ Bytes Bytes] [ReliableDatabase δ] [Secp256k1]
  [Rlp.Reader] in
/-- The end of a line is linked to the genesis block. -/
theorem linked_of_line (lineage : BlockLine g blocks path block) :
    Chain.Linked g blocks (hash block) := by
  induction lineage with
  | root => exact .base
  | child _ isKnown named inductionHypothesis =>
      apply Chain.Linked.child isKnown
      change Chain.Linked g blocks (DemoBlock.parentHash _)
      rwa [named]

omit [ReliableDatabase δ] in
/-- The end of a line is attached. -/
theorem Keeps.isAttached
    (keeps : self.Keeps chainId g stored blocks current next bound)
    (sound : Stored chainId g stored) (lineage : BlockLine g blocks path block) :
    self.chain.isAttached (hash block) = true := by
  apply (keeps.placed.isAttached_iff ?_).mpr (linked_of_line lineage)
  intro first isFirst second isSecond sameHash
  rw [sound.ranked.identified (.inr (keeps.loaded isFirst)) (.inr (keeps.loaded isSecond))
    sameHash]

/-- A block of the chain is indexed if it is higher than the index. -/
theorem Canonical.indexBlock
    (canonical : self.Canonical chainId g stored blocks records path tail bound)
    (sound : Stored chainId g stored) (lineage : BlockLine g blocks newPath newTail)
    (small : newTail.number.toNat + 1 < 2 ^ 64) :
    ∃ state records' path' tail', self.indexBlock newTail = some state ∧
      state.Canonical chainId g stored blocks records' path' tail' bound ∧
      self.indexed.length ≤ state.indexed.length ∧
      newTail.number.toNat < state.indexed.length ∧
      (self.indexed.length ≤ newTail.number.toNat → state.indexed = newPath.map some) := by
  have attached := canonical.keeps.isAttached sound lineage
  unfold DemoChainState.indexBlock
  by_cases higher : newTail.number.toNat ≥ self.indexed.length
  · obtain ⟨state, records', run, after, -⟩ :=
      canonical.setCanonicalTail sound lineage small
    have length : state.indexed.length = newTail.number.toNat + 1 := by
      rw [after.indexed, List.length_map,
        length_of_line sound (fun isLoaded => after.keeps.loaded isLoaded) lineage]
    refine ⟨state, records', newPath, newTail, ?_, after, by omega, by omega,
      fun _ => after.indexed⟩
    rw [if_pos ⟨higher, attached⟩, run]
  · exact ⟨self, records, path, tail, if_neg fun both => higher both.1, canonical,
      Nat.le_refl _, Nat.lt_of_not_ge higher, fun reaches => absurd reaches higher⟩

/-! ### Starting again -/

/-- Loading the entries of an index finds the blocks of its line. -/
theorem Keeps.loadIndex
    [Rlp.LawfulReader] {self : DemoChainState δ η} {blocks : List DemoBlock}
    (keeps : self.Keeps chainId g stored blocks records records bound)
    (sound : Stored chainId g stored) (kept : BlockRecords g stored records)
    (lineage : BlockLine g stored path tail) (entries : IndexEntries records (path.map some))
    {remaining i : Nat} (rest : i + remaining = path.length) (someLoaded : 0 < i)
    (indexed : self.indexed = (path.take i).map some)
    (loaded : ∀ block ∈ (path.take i).tail, block ∈ blocks) :
    ∃ chain more, self.loadIndex remaining i =
        some { self with chain := chain, indexed := path.map some } ∧
      ({ self with chain := chain } : DemoChainState δ η).Keeps chainId g stored
        (blocks ++ more) records records bound ∧
      ∀ block ∈ path.tail, block ∈ blocks ++ more := by
  induction remaining generalizing self i blocks with
  | zero =>
      have whole : path.take i = path := List.take_of_length_le (by omega)
      rw [whole] at indexed loaded
      refine ⟨self.chain, [], ?_, by rwa [List.append_nil], by rwa [List.append_nil]⟩
      rw [DemoChainState.loadIndex, ← indexed]
  | succ remaining inductionHypothesis =>
      have inside : i < path.length := by omega
      let block := path[i]
      have found : path[i]? = some block := List.getElem?_eq_getElem inside
      have entry : records (.index (UInt64.ofNat (i + 1))) = some (hash block).asBytes := by
        apply entries
        rw [List.getElem?_map, found]
        rfl
      have below : block ∈ stored := by
        apply (lineage.take found).last_known.resolve_left
        intro isRoot
        have depth := (lineage.take found).length_eq sound.ranked
        rw [isRoot, sound.ranked.rank_root, List.length_take] at depth
        omega
      obtain ⟨read, chain, more, run, still, only, isLoaded⟩ :=
        keeps.getBlockByHash sound kept (sound.nonzero (.inr below))
      have reads : read = some block := (only block).mpr ⟨.inr below, rfl⟩
      subst reads
      have member : block ∈ blocks ++ more := by
        apply (isLoaded block rfl).resolve_left
        intro isRoot
        have depth := (lineage.take found).length_eq sound.ranked
        rw [isRoot, sound.ranked.rank_root, List.length_take] at depth
        omega
      have taken : path.take (i + 1) = path.take i ++ [block] :=
        List.take_succ_eq_append_getElem inside
      have someTaken : path.take i ≠ [] := by
        intro none
        have empty := congrArg List.length none
        rw [List.length_take, List.length_nil] at empty
        omega
      have nowIndexed : self.indexed ++ [some block] = (path.take (i + 1)).map some := by
        rw [taken, List.map_append, indexed]
        rfl
      have nowLoaded : ∀ block ∈ (path.take (i + 1)).tail, block ∈ blocks ++ more := by
        intro other isMember
        rw [taken, List.tail_append_of_ne_nil someTaken] at isMember
        obtain old | last := List.mem_append.mp isMember
        · exact List.mem_append_left more (loaded other old)
        · rwa [List.mem_singleton.mp last]
      obtain ⟨chain', others, runRest, settled, allLoaded⟩ :=
        inductionHypothesis (still.reindexed (self.indexed ++ [some block])) (by omega)
          (Nat.succ_pos i) nowIndexed nowLoaded
      rw [List.append_assoc] at settled allLoaded
      refine ⟨chain', more ++ others, ?_, settled.reindexed self.indexed, allLoaded⟩
      have readEntry := keeps.get (.index (UInt64.ofNat (i + 1)))
      rw [entry] at readEntry
      change (Database.get self.mdb.db (RecordKey.index _).bytes).bind _ = _
      rw [readEntry]
      change (DemoChainState.expectBlock self
        (U256.fromBigEndian (hash block).asBytes)).bind _ = _
      rw [fromBigEndian_asBytes, expectBlock, run]
      exact runRest

/-- A node that starts again on its database has the same index, and the blocks of its line
in its chain. -/
theorem Canonical.start
    [Rlp.LawfulReader]
    (canonical : self.Canonical chainId g stored blocks records path tail bound)
    (sound : Stored chainId g stored) (small : path.length < 2 ^ 64) (genesis : Executed) :
    ∃ state loaded, start self.mdb.db self.chainId genesis = some state ∧
      state.Canonical chainId g stored loaded records path tail bound ∧
      state.indexed = self.indexed := by
  obtain ⟨table, refines, nowRecords, -⟩ := canonical.keeps.store
  let opened : DemoChainState δ η :=
    ⟨Chain.new g, [some g], ReadWriteDB.new DB_PREFIX_MERKLE self.mdb.db, chainId⟩
  have keeps : opened.Keeps chainId g stored [] records records bound := by
    refine ⟨rfl, Chain.placed_new g, nofun, ⟨table.current, table.current⟩, ?_, nowRecords,
      nowRecords⟩
    have reopened := refines.reopen
    unfold ReadWriteDB.reopen at reopened
    rwa [refines.space] at reopened
  have lineage : BlockLine g stored path tail :=
    canonical.lineage.mono fun isLoaded => canonical.keeps.loaded isLoaded
  have first : path.take 1 = [g] := by
    have taken := lineage.head?_eq
    cases path with
    | nil => contradiction
    | cons head rest =>
        rw [Option.some.inj taken]
        rfl
  have someLine : 0 < path.length := by
    have depth := lineage.length_eq sound.ranked
    omega
  have entries := canonical.entries
  have length := canonical.length
  rw [canonical.indexed] at entries
  rw [IndexLength, canonical.indexed, List.length_map] at length
  obtain ⟨chain, more, run, still, allLoaded⟩ :=
    keeps.loadIndex sound canonical.kept lineage entries
      (show 1 + (path.length - 1) = path.length by omega) Nat.one_pos
      (by rw [first]; rfl) (by rw [first]; exact nofun)
  refine ⟨{ opened with chain := chain, indexed := path.map some }, [] ++ more, ?_, ?_,
    canonical.indexed.symm⟩
  · have genesisRead := keeps.get (.block 0)
    rw [canonical.kept.genesis] at genesisRead
    have lengthRead := keeps.get (.index 0)
    rw [length] at lengthRead
    unfold DemoChainState.start
    change (Database.get self.mdb.db (RecordKey.block 0).bytes).bind _ = _
    change Database.get self.mdb.db (RecordKey.block 0).bytes = _ at genesisRead
    rw [genesisRead, Option.bind_some, canonical.keeps.chain_id]
    simp only [(sound.plain (.inl rfl)).decode_encode]
    change (Database.get self.mdb.db (RecordKey.index 0).bytes).bind _ = _
    change Database.get self.mdb.db (RecordKey.index 0).bytes = _ at lengthRead
    rw [lengthRead, Option.bind_some]
    simp only [AccountState.length_u64ToLeBytes, if_true, toNat_fromLeBytes_ofNat small]
    exact run
  · exact
      { keeps := still.reindexed _
        lineage := lineage.of_mem_tail allLoaded
        indexed := rfl
        kept := canonical.kept
        entries := entries
        length := by
          rw [IndexLength, List.length_map]
          exact length }

/-- The genesis block with the root of its execution. -/
def genesisBlock (genesis : Executed) : DemoBlock :=
  { DemoBlock.new 0 0 0 (some 1655254842) 0 [] with rootHash := genesis.rootHash }

/-- The records that are written for the genesis block. -/
def genesisRecords (genesis : Executed) : RecordKey → Option Bytes :=
  Function.update
    (Function.update
      (Function.update
        (Function.update (fun _ => none) (.block 0) (some (genesisBlock genesis).encode))
        (.outcome (hash (genesisBlock genesis))) (some genesis.outcome.encode))
      (.index 0) (some (u64ToLeBytes 1)))
    (.index 1) (some (hash (genesisBlock genesis)).asBytes)

omit [NodeHasher η] [Database δ Bytes Bytes] [ReliableDatabase δ] in
theorem stored_genesis (chainId : U256) {genesis : Executed}
    (nonzero : hash (genesisBlock genesis) ≠ 0) : Stored chainId (genesisBlock genesis) [] where
  ranked :=
    { identified := fun first second _ => by
        rw [first.resolve_right List.not_mem_nil, second.resolve_right List.not_mem_nil]
      rank_root := rfl
      rank_child := nofun }
  nonzero known := by rwa [known.resolve_right List.not_mem_nil]
  plain known := by
    rw [known.resolve_right List.not_mem_nil]
    exact ⟨Nat.two_pow_pos 64, nofun, nofun⟩
  few := nofun

omit [NodeHasher η] [Database δ Bytes Bytes] [ReliableDatabase δ] [Secp256k1]
  [Rlp.Reader] in
theorem blockRecords_genesis (genesis : Executed) :
    BlockRecords (genesisBlock genesis) [] (genesisRecords genesis) where
  genesis := by simp [genesisRecords]
  block := nofun
  only nonzero found := by
    simp only [genesisRecords, ne_eq, reduceCtorEq, not_false_eq_true,
      Function.update_of_ne] at found
    rw [Function.update_of_ne fun same => nonzero (RecordKey.block.inj same)] at found
    contradiction
  outcome known := by
    rw [known.resolve_right List.not_mem_nil]
    exact ⟨genesis.outcome, by simp [genesisRecords]⟩

/-- A node that starts on an empty database makes the genesis block and indexes it. -/
theorem start_fresh
    [Rlp.LawfulReader] {db : δ} (fresh : Database.contents db = fun _ => none)
    (chainId : U256) {genesis : Executed}
    (small : genesis.nodes.length + 1 ≤ 2 ^ 63) :
    ∃ state : DemoChainState δ η, start db chainId genesis = some state ∧
      state.Canonical chainId (genesisBlock genesis) [] [] (genesisRecords genesis)
        [genesisBlock genesis] (genesisBlock genesis) (genesis.nodes.length + 1) := by
  let placeholder := DemoBlock.new 0 0 0 none 0 []
  let opened : DemoChainState δ η :=
    ⟨Chain.new placeholder, [], ReadWriteDB.new DB_PREFIX_MERKLE db, chainId⟩
  have keeps : opened.Keeps chainId placeholder [] [] (fun _ => none) (fun _ => none) 0 :=
    ⟨rfl, Chain.placed_new placeholder, nofun, NodeTable.empty, ReadWriteDB.refines_new fresh,
      fun _ => rfl, fun _ => rfl⟩
  obtain ⟨mdb, wrote, keepsNodes⟩ := keeps.writeNodes genesis.nodes (by omega)
  have keepsPut := (((keepsNodes.put (.block 0) (genesisBlock genesis).encode).put
    (.outcome (hash (genesisBlock genesis))) genesis.outcome.encode).put
    (.index 0) (u64ToLeBytes 1)).put (.index 1) (hash (genesisBlock genesis)).asBytes
  obtain ⟨mdb', committed, settled⟩ := keepsPut.commit
  let state : DemoChainState δ η :=
    ⟨Chain.new (genesisBlock genesis), [some (genesisBlock genesis)], mdb', chainId⟩
  have keepsState : state.Keeps chainId (genesisBlock genesis) [] [] (genesisRecords genesis)
      (genesisRecords genesis) (genesis.nodes.length + 1) := by
    refine ⟨rfl, Chain.placed_new _, nofun, ?_⟩
    have store := settled.store
    rwa [Nat.zero_add] at store
  refine ⟨state, ?_, keepsState, .root, rfl, blockRecords_genesis genesis, ?_, ?_⟩
  · have made : opened.newGenesis genesis =
        some (genesisBlock genesis, { opened with mdb := mdb' }) := by
      change (opened.writeNodes genesis.nodes).bind _ = _
      rw [wrote, Option.bind_some]
      refine (congrArg (·.bind fun state => some (genesisBlock genesis, state))
        committed).trans ?_
      rfl
    have noGenesis : Database.get db (genBlockKey 0) = some none := by
      rw [Database.get_of_reliable, fresh]
    have lengthRead := keepsState.get (.index 0)
    have one : genesisRecords genesis (.index 0) = some (u64ToLeBytes 1) := by
      simp [genesisRecords]
    rw [one] at lengthRead
    unfold DemoChainState.start
    change (Database.get db (genBlockKey 0)).bind _ = _
    rw [noGenesis, Option.bind_some]
    change (opened.newGenesis genesis).bind _ = _
    rw [made, Option.bind_some]
    change (Database.get mdb'.db (RecordKey.index 0).bytes).bind _ = _
    change Database.get mdb'.db (RecordKey.index 0).bytes = _ at lengthRead
    rw [lengthRead, Option.bind_some]
    rfl
  · intro i block found
    obtain ⟨rfl, rfl⟩ : i = 0 ∧ genesisBlock genesis = block := by
      cases i with
      | zero => exact ⟨rfl, Option.some.inj (Option.some.inj found)⟩
      | succ i => contradiction
    exact Function.update_self _ _ _
  · simp [IndexLength, genesisRecords, state]

end DemoChainState
end State
end Qevm
