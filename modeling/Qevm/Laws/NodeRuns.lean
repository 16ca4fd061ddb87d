import Qevm.Laws.CanonicalChain

/-!
# Runs of a node

A node serves requests, adds blocks and starts again.  As long as the blocks are such that
their hashes identify them and the database has room for the counts of its nodes, no step
panics, the index is a line of stored blocks, and what was stored stays stored.
-/

namespace Qevm

open Block (hash)
open DemoChainState (Executed genesisBlock)

/-- A block that may be stored beside others: it is read back as it is, and its hash is
neither zero nor that of another block. -/
structure Storable
    [Keccak256] [Secp256k1] [Rlp.Reader] (chainId : U256) (g : DemoBlock)
    (stored : List DemoBlock) (block : DemoBlock) : Prop where
  plain : block.Plain chainId
  nonzero : hash block ≠ 0
  identified : ∀ {other}, other = g ∨ other ∈ stored → hash other = hash block → other = block

/-- A block on top of a stored one is stored. -/
theorem Stored.concat
    [Keccak256] [Secp256k1] [Rlp.Reader] {chainId : U256} {g above block : DemoBlock}
    {stored : List DemoBlock} (sound : Stored chainId g stored)
    (storable : Storable chainId g stored block) (known : above = g ∨ above ∈ stored)
    (named : block.parentHash = hash above) (number : block.number = above.number + 1)
    (small : stored.length + 1 < 2 ^ 64) : Stored chainId g (stored ++ [block]) := by
  have cases {other : DemoBlock} (isKnown : other = g ∨ other ∈ stored ++ [block]) :
      (other = g ∨ other ∈ stored) ∨ other = block := by
    rw [List.mem_append, List.mem_singleton, ← or_assoc] at isKnown
    exact isKnown
  have before {other : DemoBlock} (isKnown : other = g ∨ other ∈ stored) :
      other = g ∨ other ∈ stored ++ [block] := isKnown.imp_right (List.mem_append_left [block])
  have low : above.number.toNat ≤ stored.length := by
    obtain rfl | member := known
    · rw [sound.ranked.rank_root]
      exact Nat.zero_le _
    · exact sound.few member
  have deeper : block.number.toNat = above.number.toNat + 1 := by
    rw [number, UInt64.toNat_add]
    exact Nat.mod_eq_of_lt (Nat.lt_of_le_of_lt (Nat.add_le_add_right low 1) small)
  refine ⟨⟨?_, sound.ranked.rank_root, ?_⟩, ?_, ?_, ?_⟩
  · intro first second firstKnown secondKnown same
    obtain old | rfl := cases firstKnown
    · obtain oldToo | rfl := cases secondKnown
      · exact sound.ranked.identified old oldToo same
      · exact storable.identified old same
    · obtain old | rfl := cases secondKnown
      · exact (storable.identified old same.symm).symm
      · rfl
  · intro below member
    obtain old | last := List.mem_append.mp member
    · obtain ⟨parent, parentKnown, rest⟩ := sound.ranked.rank_child old
      exact ⟨parent, before parentKnown, rest⟩
    · rw [List.mem_singleton.mp last]
      exact ⟨above, before known, named, deeper⟩
  · intro other isKnown
    obtain old | rfl := cases isKnown
    · exact sound.nonzero old
    · exact storable.nonzero
  · intro other isKnown
    obtain old | rfl := cases isKnown
    · exact sound.plain old
    · exact storable.plain
  · intro other member
    rw [List.length_append, List.length_singleton]
    obtain old | last := List.mem_append.mp member
    · exact Nat.le_succ_of_le (sound.few old)
    · rw [List.mem_singleton.mp last, deeper]
      exact Nat.add_le_add_right low 1

section Runs

variable {δ η : Type} [Keccak256] [Secp256k1] [Rlp.Reader] [Database δ Bytes Bytes]
  [NodeHasher η]

/-! ## The latest block and the blocks by number -/

namespace DemoChainState.Canonical

variable [ReliableDatabase δ] {self : DemoChainState δ η} {chainId : U256} {g tail : DemoBlock}
  {stored blocks path : List DemoBlock} {records : RecordKey → Option Bytes} {bound : Nat}

omit [ReliableDatabase δ] [Secp256k1] [Rlp.Reader] in
/-- The latest block is the tail. -/
theorem getBlockByNumber_latest
    (canonical : self.Canonical chainId g stored blocks records path tail bound) :
    self.getBlockByNumber .latest = some (some tail) := by
  unfold DemoChainState.getBlockByNumber
  change (match self.indexed[self.indexed.length - 1]? with | _ => _) = _
  rw [canonical.indexed, List.length_map, List.getElem?_map, ← List.getLast?_eq_getElem?,
    canonical.lineage.getLast?_eq]
  rfl

omit [ReliableDatabase δ] [Secp256k1] [Rlp.Reader] in
/-- The blocks of the line are found under their numbers. -/
theorem getBlockByNumber_number
    (canonical : self.Canonical chainId g stored blocks records path tail bound)
    (number : U256) :
    self.getBlockByNumber (.number number) = some path[number.lowU64.toNat]? := by
  unfold DemoChainState.getBlockByNumber
  change (match self.indexed[number.lowU64.toNat]? with | _ => _) = _
  rw [canonical.indexed, List.getElem?_map]
  cases path[number.lowU64.toNat]? <;> rfl

/-- A request for a block changes no more than the chain. -/
theorem getBlockByHash
    [Rlp.LawfulReader]
    (canonical : self.Canonical chainId g stored blocks records path tail bound)
    (sound : Stored chainId g stored) {h : Hash} (nonzero : h ≠ 0) :
    ∃ found chain more, self.getBlockByHash h = some (found, { self with chain := chain }) ∧
      ({ self with chain := chain } : DemoChainState δ η).Canonical chainId g stored
        (blocks ++ more) records path tail bound ∧
      ∀ block, found = some block ↔ (block = g ∨ block ∈ stored) ∧ hash block = h := by
  obtain ⟨found, chain, more, read, keeps, only, -⟩ :=
    canonical.keeps.getBlockByHash sound canonical.kept nonzero
  refine ⟨found, chain, more, read, ?_, only⟩
  exact
    { canonical with
      keeps := keeps
      lineage := canonical.lineage.mono fun member => List.mem_append_left more member }

end DemoChainState.Canonical

namespace DemoNode

/-! ## Which events may happen -/

/-- The number of writes of nodes that an event makes, with the commit after them. -/
def Event.writes : Event → Nat
  | .getBlock _ | .addBlocks | .restart => 0
  | .addBlock _ _ executed | .endAfterStoring _ _ executed => executed.nodes.length + 1
  | .endAfterExecution nodes => nodes.length + 1

/-- The process does not end between the record of a block and its place in the index. -/
def Event.Indexes : Event → Prop
  | .endAfterStoring .. => False
  | _ => True

/-- The process ends. -/
def Event.Ends : Event → Prop
  | .endAfterExecution _ | .endAfterStoring .. | .restart => True
  | _ => False

/-- A block that a list of blocks adds may be stored. -/
def AddBlocks.Allowed
    (node : DemoNode δ η) (genesis : Executed) (i : Nat) (block : DemoBlock)
    (executed : Executed) : Prop :=
  ∀ handler, node.handlers[i]? = some handler →
    Storable node.state.chainId (genesisBlock genesis) node.stored
      (AddBlocks.fill handler block executed)

/-- No one asks for the hash zero, and blocks that are added may be stored. -/
def Event.Allowed (node : DemoNode δ η) (genesis : Executed) : Event → Prop
  | .getBlock h => h ≠ 0
  | .addBlock i block executed | .endAfterStoring i block executed =>
      AddBlocks.Allowed node genesis i block executed
  | .addBlocks | .endAfterExecution _ | .restart => True

/-- The events of a run are all allowed where they happen. -/
def Admits (node : DemoNode δ η) (genesis : Executed) : List Event → Prop
  | [] => True
  | event :: events =>
      event.Allowed node genesis ∧
        ∀ after, node.step genesis event = some after → after.Admits genesis events

/-! ## What every step keeps -/

variable [ReliableDatabase δ]

/-- The index of a node is a line of stored blocks, and every list of blocks goes on from
a block of the chain. -/
structure Valid
    (node : DemoNode δ η) (chainId : U256) (g : DemoBlock) (bound : Nat) : Prop where
  sound : Stored chainId g node.stored
  few : node.stored.length ≤ bound
  held : ∃ blocks records path tail,
    node.state.Canonical chainId g node.stored blocks records path tail bound ∧
      ∀ handler ∈ node.handlers, ∃ path above, BlockLine g blocks path above ∧
        handler.number = above.number ∧ handler.pHash = hash above

variable {node : DemoNode δ η} {chainId : U256} {g : DemoBlock} {genesis : Executed}
  {bound : Nat}

omit [ReliableDatabase δ] in
/-- More writes may be counted. -/
theorem Valid.mono
    (valid : node.Valid chainId g bound) {more : Nat} (less : bound ≤ more) :
    node.Valid chainId g more := by
  obtain ⟨blocks, records, path, tail, canonical, handlers⟩ := valid.held
  obtain ⟨table, refines, nowRecords, nextRecords⟩ := canonical.keeps.store
  refine ⟨valid.sound, valid.few.trans less, blocks, records, path, tail, ?_, handlers⟩
  exact
    { canonical with
      keeps :=
        { canonical.keeps with
          store := ⟨table, refines.mono less, nowRecords, nextRecords⟩ } }

/-- A node that has served a request for a block. -/
theorem Valid.getBlock
    [Rlp.LawfulReader] (valid : node.Valid chainId (genesisBlock genesis) bound) {h : Hash}
    (nonzero : h ≠ 0) :
    ∃ after, node.step genesis (.getBlock h) = some after ∧
      after.Valid chainId (genesisBlock genesis) bound ∧
      after.state.indexed = node.state.indexed ∧ after.stored = node.stored ∧
      after.handlers = node.handlers := by
  obtain ⟨blocks, records, path, tail, canonical, handlers⟩ := valid.held
  obtain ⟨found, chain, more, read, still, -⟩ := canonical.getBlockByHash valid.sound nonzero
  refine ⟨{ node with state := { node.state with chain := chain } }, ?_, ?_, rfl, rfl, rfl⟩
  · rw [step, read, Option.map_some]
  · refine ⟨valid.sound, valid.few, _, _, _, _, still, ?_⟩
    intro handler member
    obtain ⟨pathAbove, above, lineage, rest⟩ := handlers handler member
    exact ⟨pathAbove, above,
      lineage.mono fun isLoaded => List.mem_append_left more isLoaded, rest⟩

omit [ReliableDatabase δ] in
/-- A list of blocks that comes in goes on from the tail. -/
theorem Valid.addBlocks (valid : node.Valid chainId (genesisBlock genesis) bound) :
    ∃ after tail, node.step genesis .addBlocks = some after ∧
      after.Valid chainId (genesisBlock genesis) bound ∧
      after.state = node.state ∧ after.stored = node.stored ∧
      node.state.getBlockByNumber .latest = some (some tail) ∧
      after.handlers = node.handlers ++ [⟨tail.number, hash tail⟩] := by
  obtain ⟨blocks, records, path, tail, canonical, handlers⟩ := valid.held
  refine ⟨{ node with handlers := node.handlers ++ [⟨tail.number, hash tail⟩] }, tail, ?_, ?_,
    rfl, rfl, canonical.getBlockByNumber_latest, rfl⟩
  · change (node.state.getBlockByNumber .latest).bind _ = _
    rw [canonical.getBlockByNumber_latest]
    rfl
  · refine ⟨valid.sound, valid.few, blocks, records, path, tail, canonical, ?_⟩
    intro handler member
    obtain old | last := List.mem_append.mp member
    · exact handlers handler old
    · rw [List.mem_singleton.mp last]
      exact ⟨path, tail, canonical.lineage, rfl, rfl⟩

/-- A node that has executed and stored the next block of a list. -/
theorem Valid.storeBlock
    (valid : node.Valid chainId (genesisBlock genesis) bound) {handler : AddBlocks}
    (member : handler ∈ node.handlers) {block : DemoBlock}
    (number : block.number = handler.number + 1) (parent : block.parentHash = handler.pHash)
    (storable : Storable chainId (genesisBlock genesis) node.stored block)
    (nodes : List (NodePrefix × Bytes)) (outcome : BlockOutcome Unit)
    (small : bound + (nodes.length + 1) ≤ 2 ^ 63) :
    ∃ written state, node.state.writeNodes nodes = some written ∧
      written.storeBlock block outcome = some (block, state) ∧
      state.indexed = node.state.indexed ∧
      Stored chainId (genesisBlock genesis) (node.stored ++ [block]) ∧
      ∃ blocks records path tail newPath,
        state.Canonical chainId (genesisBlock genesis) (node.stored ++ [block]) blocks records
          path tail (bound + (nodes.length + 1)) ∧
        BlockLine (genesisBlock genesis) blocks newPath block ∧
        ∀ handler ∈ node.handlers, ∃ path above,
          BlockLine (genesisBlock genesis) blocks path above ∧
            handler.number = above.number ∧ handler.pHash = hash above := by
  obtain ⟨blocks, records, path, tail, canonical, handlers⟩ := valid.held
  obtain ⟨pathAbove, above, lineage, numberAbove, named⟩ := handlers handler member
  obtain ⟨mdb, run, canonicalNodes⟩ := canonical.writeNodes nodes (by omega)
  have loaded {block : DemoBlock} (isLoaded : block ∈ blocks) : block ∈ node.stored :=
    canonical.keeps.loaded isLoaded
  rw [numberAbove] at number
  rw [named] at parent
  have sound := valid.sound.concat storable (lineage.mono loaded).last_known parent number
    (by have few := valid.few; omega)
  obtain ⟨state, records', stores, still, newPathage, sameIndex⟩ :=
    canonicalNodes.storeBlock sound lineage parent outcome
  refine ⟨_, state, run, stores, sameIndex, sound, _, records', path, tail, _, still,
    newPathage, ?_⟩
  intro other isOther
  obtain ⟨otherPath, otherAbove, otherPathage, rest⟩ := handlers other isOther
  exact ⟨otherPath, otherAbove,
    otherPathage.mono fun isLoaded => List.mem_append_left _ isLoaded, rest⟩

/-- A node that has added the next block of a list. -/
theorem Valid.addBlock
    (valid : node.Valid chainId (genesisBlock genesis) bound) {i : Nat} {handler : AddBlocks}
    (found : node.handlers[i]? = some handler) {block : DemoBlock} {executed : Executed}
    (storable : Storable chainId (genesisBlock genesis) node.stored
      (AddBlocks.fill handler block executed))
    (small : bound + (executed.nodes.length + 1) ≤ 2 ^ 63) :
    ∃ after, node.step genesis (.addBlock i block executed) = some after ∧
      after.Valid chainId (genesisBlock genesis) (bound + (executed.nodes.length + 1)) ∧
      node.state.indexed.length ≤ after.state.indexed.length ∧
      (AddBlocks.fill handler block executed).number.toNat < after.state.indexed.length ∧
      after.stored = node.stored ++ [AddBlocks.fill handler block executed] ∧
      after.handlers = node.handlers.set i
        ⟨handler.number + 1, hash (AddBlocks.fill handler block executed)⟩ ∧
      (∀ tail, node.state.getBlockByNumber .latest = some (some tail) →
        handler = ⟨tail.number, hash tail⟩ → after.state.indexed =
          node.state.indexed ++ [some (AddBlocks.fill handler block executed)]) := by
  obtain ⟨written, state, run, stores, sameIndex, sound, blocks, records, path, tail, newPath,
    canonical, lineage, handlers⟩ := valid.storeBlock (List.mem_of_getElem? found) rfl rfl
      storable executed.nodes executed.outcome small
  have low := sound.few (List.mem_append_right node.stored List.mem_cons_self)
  have few := valid.few
  rw [List.length_append, List.length_singleton] at low
  obtain ⟨state', records', path', tail', indexes, still, longer, reaches, onTop⟩ :=
    canonical.indexBlock sound lineage (by omega)
  refine ⟨⟨state', node.handlers.set i ⟨handler.number + 1,
    hash (AddBlocks.fill handler block executed)⟩, node.stored ++ [_]⟩, ?_, ⟨sound, ?_, ?_⟩, ?_,
    reaches, rfl, rfl, ?_⟩
  · simp only [step, found, run, stores, indexes, Option.bind_eq_bind, Option.bind_some]
  · rw [List.length_append, List.length_singleton]
    omega
  · refine ⟨_, _, _, _, still, ?_⟩
    intro other member
    obtain old | rfl := List.mem_or_eq_of_mem_set member
    · exact handlers other old
    · exact ⟨newPath, _, lineage, rfl, rfl⟩
  · rwa [sameIndex] at longer
  · intro above latest onTail
    rw [DemoChainState.getBlockByNumber, ← sameIndex] at latest
    obtain rfl : tail = above := by
      have same := canonical.getBlockByNumber_latest
      rw [DemoChainState.getBlockByNumber] at same
      exact Option.some.inj (Option.some.inj (same.symm.trans latest))
    have loaded {block : DemoBlock} (isLoaded : block ∈ blocks) : block ∈ _ :=
      canonical.keeps.loaded isLoaded
    have depth := DemoChainState.length_of_line sound loaded canonical.lineage
    have tailLow : tail.number.toNat ≤ node.stored.length + 1 := by
      obtain isRoot | isLoaded := canonical.lineage.last_known
      · rw [isRoot, sound.ranked.rank_root]
        exact Nat.zero_le _
      · simpa using sound.few (loaded isLoaded)
    have number : (AddBlocks.fill handler block executed).number.toNat = path.length := by
      rw [depth, AddBlocks.fill, onTail]
      change (tail.number + 1).toNat = _
      rw [UInt64.toNat_add]
      exact Nat.mod_eq_of_lt (by change tail.number.toNat + 1 < _; omega)
    have isLoaded : AddBlocks.fill handler block executed ∈ blocks := by
      apply lineage.last_known.resolve_left
      intro isRoot
      have zero : (genesisBlock genesis).number.toNat = 0 := sound.ranked.rank_root
      rw [isRoot, zero] at number
      omega
    have named : (AddBlocks.fill handler block executed).parentHash = hash tail :=
      congrArg AddBlocks.pHash onTail
    have whole := (lineage.mono loaded).unique
      ((canonical.lineage.child isLoaded named).mono loaded) sound.ranked
    rw [onTop (by rw [canonical.indexed, List.length_map, number]), whole, List.map_append,
      ← canonical.indexed, sameIndex, List.map_singleton]

/-- A node that starts again. -/
theorem valid_restarted
    [Rlp.LawfulReader] (node : DemoNode δ η) {state : DemoChainState δ η}
    {blocks path : List DemoBlock} {records : RecordKey → Option Bytes} {tail : DemoBlock}
    (canonical : state.Canonical chainId (genesisBlock genesis) node.stored blocks records path
      tail bound)
    (sound : Stored chainId (genesisBlock genesis) node.stored)
    (few : node.stored.length ≤ bound) (small : bound ≤ 2 ^ 63) :
    ∃ after, node.restarted state genesis = some after ∧
      after.Valid chainId (genesisBlock genesis) bound ∧
      after.state.indexed = state.indexed ∧ after.stored = node.stored := by
  have tailLow : tail.number.toNat ≤ bound := by
    obtain isRoot | isLoaded := canonical.lineage.last_known
    · rw [isRoot, sound.ranked.rank_root]
      exact Nat.zero_le bound
    · exact (sound.few (canonical.keeps.loaded isLoaded)).trans few
  have length := DemoChainState.length_of_line sound
    (fun isLoaded => canonical.keeps.loaded isLoaded) canonical.lineage
  obtain ⟨opened, loaded, starts, still, sameIndex⟩ :=
    canonical.start sound (by omega) genesis
  refine ⟨⟨opened, [], node.stored⟩, ?_, ⟨sound, few, loaded, records, path, tail, still, ?_⟩,
    sameIndex, rfl⟩
  · rw [restarted, starts, Option.map_some]
  · exact nofun

/-- How a node after some events stands to the node before: its index is no shorter, and
what was stored is. -/
structure Goes (node after : DemoNode δ η) (events : List Event) : Prop where
  longer : node.state.indexed.length ≤ after.state.indexed.length
  stored : node.stored <+: after.stored
  indexes : (∀ event ∈ events, event.Indexes) → ∀ block ∈ after.stored,
    block ∈ node.stored ∨ block.number.toNat < after.state.indexed.length
  ends : (∀ event ∈ events, event.Ends) → after.state.indexed = node.state.indexed

namespace Goes

omit [Keccak256] [Secp256k1] [Rlp.Reader] [Database δ Bytes Bytes] [NodeHasher η]
  [ReliableDatabase δ]

variable {after : DemoNode δ η} {event : Event} {events : List Event}

/-- Nothing is stored, and the index is the same. -/
theorem same (index : after.state.indexed = node.state.indexed)
    (stored : after.stored = node.stored) : node.Goes after events where
  longer := (congrArg List.length index).ge
  stored := by rw [stored]
  indexes _ block member := by
    rw [stored] at member
    exact .inl member
  ends _ := index

/-- A block is stored. -/
theorem concat {block : DemoBlock}
    (longer : node.state.indexed.length ≤ after.state.indexed.length)
    (stored : after.stored = node.stored ++ [block])
    (indexes : event.Indexes → block.number.toNat < after.state.indexed.length)
    (ends : event.Ends → after.state.indexed = node.state.indexed) :
    node.Goes after [event] where
  longer := longer
  stored := ⟨[block], stored.symm⟩
  indexes all other member := by
    rw [stored] at member
    obtain old | last := List.mem_append.mp member
    · exact .inl old
    · rw [List.mem_singleton.mp last]
      exact .inr (indexes (all event List.mem_cons_self))
  ends all := ends (all event List.mem_cons_self)

/-- One event and then others. -/
theorem cons {middle : DemoNode δ η}
    (first : node.Goes middle [event]) (rest : middle.Goes after events) :
    node.Goes after (event :: events) where
  longer := first.longer.trans rest.longer
  stored := first.stored.trans rest.stored
  indexes all block member := by
    rw [List.forall_mem_cons] at all
    obtain old | low := rest.indexes all.2 block member
    · have single : ∀ other ∈ [event], other.Indexes := by simpa using all.1
      exact (first.indexes single block old).imp_right
        fun low => Nat.lt_of_lt_of_le low rest.longer
    · exact .inr low
  ends all := by
    rw [List.forall_mem_cons] at all
    have single : ∀ other ∈ [event], other.Ends := by simpa using all.1
    rw [rest.ends all.2, first.ends single]

end Goes

/-- Every allowed step succeeds and keeps the index a line of stored blocks. -/
theorem Valid.step
    [Rlp.LawfulReader] (valid : node.Valid chainId (genesisBlock genesis) bound) {event : Event}
    (allowed : event.Allowed node genesis) (small : bound + event.writes ≤ 2 ^ 63) :
    ∃ after, node.step genesis event = some after ∧
      after.Valid chainId (genesisBlock genesis) (bound + event.writes) ∧
      node.Goes after [event] := by
  have sameChain : node.state.chainId = chainId := by
    obtain ⟨_, _, _, _, canonical, _⟩ := valid.held
    exact canonical.keeps.chain_id
  cases event with
  | getBlock h =>
      obtain ⟨after, steps, still, index, stored, -⟩ := valid.getBlock allowed
      exact ⟨after, steps, still, .same index stored⟩
  | addBlocks =>
      obtain ⟨after, _, steps, still, state, stored, -⟩ := valid.addBlocks
      exact ⟨after, steps, still, .same (congrArg _ state) stored⟩
  | addBlock i block executed =>
      cases found : node.handlers[i]? with
      | none =>
          exact ⟨node, by rw [DemoNode.step, found], valid.mono (Nat.le_add_right _ _),
            .same rfl rfl⟩
      | some handler =>
          have storable := allowed handler found
          rw [sameChain] at storable
          obtain ⟨after, steps, still, longer, reaches, stored, -, -⟩ :=
            valid.addBlock found storable small
          exact ⟨after, steps, still, .concat longer stored (fun _ => reaches) nofun⟩
  | endAfterExecution nodes =>
      obtain ⟨_, _, _, _, canonical, _⟩ := valid.held
      obtain ⟨mdb, run, canonicalNodes⟩ := canonical.writeNodes nodes small
      have few := valid.few
      obtain ⟨after, steps, still, index, stored⟩ :=
        valid_restarted node canonicalNodes valid.sound (by omega) small
      refine ⟨after, ?_, still, .same index stored⟩
      rw [DemoNode.step, run]
      exact steps
  | endAfterStoring i block executed =>
      cases found : node.handlers[i]? with
      | none =>
          exact ⟨node, by rw [DemoNode.step, found], valid.mono (Nat.le_add_right _ _),
            .same rfl rfl⟩
      | some handler =>
          have storable := allowed handler found
          rw [sameChain] at storable
          obtain ⟨written, state, run, stores, sameIndex, sound, _, _, _, _, _, canonical, -⟩ :=
            valid.storeBlock (List.mem_of_getElem? found) rfl rfl storable executed.nodes
              executed.outcome small
          have few := valid.few
          let before : DemoNode δ η :=
            { node with stored := node.stored ++ [AddBlocks.fill handler block executed] }
          obtain ⟨after, steps, still, index, stored⟩ :=
            valid_restarted before canonical sound
              (by simp only [before, List.length_append, List.length_singleton]; omega) small
          refine ⟨after, ?_, still,
            .concat (congrArg List.length (index.trans sameIndex)).ge stored nofun
              fun _ => index.trans sameIndex⟩
          simp only [DemoNode.step, found, run, stores, Option.bind_eq_bind, Option.bind_some]
          exact steps
  | restart =>
      obtain ⟨_, _, _, _, canonical, _⟩ := valid.held
      obtain ⟨after, steps, still, index, stored⟩ :=
        valid_restarted node canonical valid.sound valid.few small
      refine ⟨after, ?_, still, .same index stored⟩
      rw [DemoNode.step]
      exact steps

/-! ## Runs -/

/-- A whole run succeeds and keeps the index a line of stored blocks. -/
theorem Valid.run
    [Rlp.LawfulReader] {node : DemoNode δ η} {bound : Nat}
    (valid : node.Valid chainId (genesisBlock genesis) bound) {events : List Event}
    (admits : node.Admits genesis events)
    (small : bound + (events.map Event.writes).sum ≤ 2 ^ 63) :
    ∃ after, node.run genesis events = some after ∧
      after.Valid chainId (genesisBlock genesis) (bound + (events.map Event.writes).sum) ∧
      node.Goes after events := by
  induction events generalizing node bound with
  | nil => exact ⟨node, rfl, valid, .same rfl rfl⟩
  | cons event events inductionHypothesis =>
      rw [List.map_cons, List.sum_cons, ← Nat.add_assoc] at small ⊢
      obtain ⟨middle, steps, validMiddle, goes⟩ := valid.step admits.1 (by omega)
      obtain ⟨after, runs, validAfter, goesOn⟩ :=
        inductionHypothesis validMiddle (admits.2 middle steps) small
      refine ⟨after, ?_, validAfter, goes.cons goesOn⟩
      rw [DemoNode.run, steps, Option.bind_some, runs]

omit [ReliableDatabase δ] in
/-- The first events of a run are admitted, and after them the others are. -/
theorem admits_append
    {node : DemoNode δ η} {events more : List Event} :
    node.Admits genesis (events ++ more) ↔ node.Admits genesis events ∧
      ∀ after, node.run genesis events = some after → after.Admits genesis more := by
  induction events generalizing node with
  | nil => simp [Admits, DemoNode.run]
  | cons event events inductionHypothesis =>
      simp only [List.cons_append, Admits, inductionHypothesis, DemoNode.run,
        Option.bind_eq_some_iff]
      grind

/-- A node on an empty database has the genesis block only. -/
theorem valid_boot
    [Rlp.LawfulReader] {db : δ} (fresh : Database.contents db = fun _ => none)
    (chainId : U256) (named : hash (genesisBlock genesis) ≠ 0)
    (small : genesis.nodes.length + 1 ≤ 2 ^ 63) :
    ∃ node : DemoNode δ η, boot db chainId genesis = some node ∧
      node.Valid chainId (genesisBlock genesis) (genesis.nodes.length + 1) ∧
      node.stored = [] := by
  obtain ⟨state, starts, canonical⟩ := DemoChainState.start_fresh (η := η) fresh chainId small
  refine ⟨⟨state, [], []⟩, ?_, ⟨DemoChainState.stored_genesis chainId named, Nat.zero_le _, [],
    _, _, _, canonical, nofun⟩, rfl⟩
  rw [boot, starts, Option.map_some]

/-- A node that was started on an empty database has served a run of events. -/
theorem boot_run
    [Rlp.LawfulReader] {db : δ} (fresh : Database.contents db = fun _ => none)
    (chainId : U256) (named : hash (genesisBlock genesis) ≠ 0) {events : List Event}
    (admitted : ∀ node : DemoNode δ η, boot db chainId genesis = some node →
      node.Admits genesis events)
    (small : genesis.nodes.length + 1 + (events.map Event.writes).sum ≤ 2 ^ 63) :
    ∃ first node : DemoNode δ η, boot db chainId genesis = some first ∧
      first.run genesis events = some node ∧
      node.Valid chainId (genesisBlock genesis)
        (genesis.nodes.length + 1 + (events.map Event.writes).sum) ∧
      first.Goes node events ∧ first.stored = [] := by
  obtain ⟨first, boots, valid, none⟩ :=
    valid_boot (η := η) fresh chainId named (by omega)
  obtain ⟨node, runs, still, goes⟩ := valid.run (admitted first boots) small
  exact ⟨first, node, boots, runs, still, goes, none⟩

end DemoNode
end Runs

/-! ## A node that adds a block and starts again -/

namespace Sample

instance : ReliableDatabase Entries where
  answers _ _ := nofun
  accepts _ _ := nofun

/-- An execution that leaves an empty state. -/
def execution : Executed where
  rootHash := 0xbc36789e7a1e281436464229828f817d6612f7b477d66591ff96a9e064bcc98a
  nodes := [(([], none), [0])]
  outcome := ⟨(), [], []⟩

def genesisHash : Hash := 0x9c93a568fca4f26bb020f6bd2945e0428d3025a6af9bee8c5dd0f8bc9a76e30f

/-- The block without transactions on top of the genesis block. -/
def emptyBlock : DemoBlock :=
  { DemoBlock.new 1 genesisHash 0 (some 1655254900) 0 [] with rootHash := execution.rootHash }

/-- The hashes of the two blocks. -/
@[reducible] def blockKeccak : Keccak256 :=
  keccak
    [((genesisBlock execution).hashedBytes, genesisHash),
      (emptyBlock.hashedBytes,
        0xec35b775f9f743d8179c43fe307d92711b3365a13a9747d42be522534c5a3e6b)]

/-- The block is added, and the process ends while another is executed. -/
def nodeEvents : List DemoNode.Event :=
  [.addBlocks, .addBlock 0 emptyBlock execution, .endAfterExecution execution.nodes]

attribute [local instance] nodeHasher blockKeccak Tx.Sample.secp256k1 Rlp.standardReader

/-- The list of blocks goes on from the genesis block. -/
theorem nodeEvents_admitted
    (node : DemoNode Entries Hash)
    (boots : DemoNode.boot (⟨[]⟩ : Entries) 1 execution = some node) :
    node.Admits execution (nodeEvents ++ [.restart]) := by
  refine ⟨trivial, fun next steps => ⟨?_, fun _ _ => ⟨trivial, fun _ _ => ⟨trivial,
    fun _ _ => trivial⟩⟩⟩⟩
  have starts : ((DemoNode.boot ⟨[]⟩ 1 execution : Option (DemoNode Entries Hash)).bind
      fun node => node.step execution .addBlocks).map
        (fun node => (node.handlers.map fun handler => (handler.number, handler.pHash),
          node.stored, node.state.chainId)) = some ([(0, genesisHash)], [], 1) := by
    decide +kernel
  rw [boots, Option.bind_some, steps, Option.map_some, Option.some.injEq, Prod.mk.injEq,
    Prod.mk.injEq] at starts
  obtain ⟨handlers, stored, chainId⟩ := starts
  intro handler found
  have first := congrArg (·[0]?) handlers
  simp only [List.getElem?_map, found] at first
  obtain ⟨number, parent⟩ := Prod.mk.inj (Option.some.inj first)
  have filled : DemoNode.AddBlocks.fill handler emptyBlock execution = emptyBlock := by
    rw [DemoNode.AddBlocks.fill, number, parent]
    rfl
  rw [filled, stored]
  refine ⟨⟨by decide, nofun, nofun⟩, by decide +kernel, ?_⟩
  rintro other (rfl | member) same
  · exact absurd same (by decide +kernel)
  · exact absurd member List.not_mem_nil

end Sample

section

attribute [local instance] Sample.nodeHasher Sample.blockKeccak Tx.Sample.secp256k1
  Rlp.standardReader

namespace DemoNode

end DemoNode

end
end Qevm
