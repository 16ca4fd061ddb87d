import Qevm.Node.Records
import Qevm.State.ReadWriteDB

/-!
# The chain of a node

A node keeps the blocks it knows in a chain, the canonical ones among them in an index by
number, and both in its database.  Blocks come in lists: each is put on top of the one
before, the first on top of the canonical tail.  Between two blocks other requests are
served, so that lists of blocks may be put on top of one tail; the higher block is canonical.

A result `none` of an operation stands for a panic.
-/

namespace Qevm

open Block (hash)

/-- The part of a node's state that blocks and requests for blocks change. -/
structure DemoChainState (δ η : Type) where
  chain : Chain DemoBlock
  indexed : List (Option DemoBlock)
  mdb : ReadWriteDB δ η
  chainId : U256

inductive BlockNumber
  | number (number : U256)
  | latest
  | earliest
  | pending

namespace DemoChainState

variable {δ η : Type} [Keccak256] [Secp256k1] [Rlp.Reader] [Database δ Bytes Bytes]

/-- The block with a hash: one of the chain, or else one from the database, which the chain
then keeps. -/
def getBlockByHash
    (self : DemoChainState δ η) (h : Hash) : Option (Option DemoBlock × DemoChainState δ η) :=
  if h = 0 then none
  else
    match self.chain.getBlock h with
    | some block => some (some block, self)
    | none =>
        match (Database.get self.mdb.db (genBlockKey h)).join with
        | none => some (none, self)
        | some raw =>
            match DemoBlock.decode raw self.chainId with
            | .error _ => none
            | .ok none => some (none, self)
            | .ok (some block) =>
                (self.chain.addBlock block).map fun (block, chain) =>
                  (some block, { self with chain := chain })

/-- A block that has to be there. -/
def expectBlock
    (self : DemoChainState δ η) (h : Hash) : Option (DemoBlock × DemoChainState δ η) :=
  (self.getBlockByHash h).bind fun (block, self) => block.map fun block => (block, self)

omit [Keccak256] [Secp256k1] [Rlp.Reader] [Database δ Bytes Bytes] in
def getBlockByNumber (self : DemoChainState δ η) (number : BlockNumber) :
    Option (Option DemoBlock) :=
  let number := match number with
    | .earliest => 0
    | .latest | .pending => self.indexed.length - 1
    | .number x => x.lowU64.toNat
  match self.indexed[number]? with
  | some (some block) => some (some block)
  | some none => none
  | none => some none

/-- Add a record to the pending batch. -/
def put (self : DemoChainState δ η) (key value : Bytes) : DemoChainState δ η :=
  { self with mdb := self.mdb.putAll [(key, value)] }

/-- Index a block and its ancestors from the top down, until one is there already. -/
def indexDown
    (self : DemoChainState δ η) (nextBlock : DemoBlock) : Nat → Option (DemoChainState δ η)
  | 0 => some self
  | i + 1 =>
      let nblock := hash nextBlock
      if self.indexed[i]?.join.any fun block => Block.hash block = nblock then some self
      else do
        let self := self.put (genIndexKey (UInt64.ofNat (i + 1))) nblock.asBytes
        let (block, self) ← self.expectBlock nblock
        let self := { self with indexed := self.indexed.set i (some block) }
        if nextBlock.number = 0 then some self
        else
          let (nextBlock, self) ← self.expectBlock nextBlock.parentHash
          self.indexDown nextBlock i

/-- Write the pending batch. -/
def commitWritebatch (self : DemoChainState δ η) : Option (DemoChainState δ η) :=
  self.mdb.commit.map fun mdb => { self with mdb := mdb }

/-- Make the index end with a block. -/
def setCanonicalTail
    (self : DemoChainState δ η) (newTail : DemoBlock) : Option (DemoChainState δ η) := do
  let length := (newTail.number + 1).toNat
  let indexed := self.indexed.take length ++
    List.replicate (length - self.indexed.length) none
  let self := { self with indexed := indexed }
  let self := self.put (genIndexKey 0) (u64ToLeBytes (UInt64.ofNat indexed.length))
  let self ← self.indexDown newTail indexed.length
  self.commitWritebatch

/-! ## Blocks that arrive -/

/-- What the execution of a block gives: the root of the state, the nodes that were written
to its tries, and the outcome. -/
structure Executed where
  rootHash : Hash
  nodes : List (NodePrefix × Bytes)
  outcome : BlockOutcome Unit

/-- Write the nodes of the tries that the execution of a block has changed. -/
def writeNodes
    [NodeHasher η] (self : DemoChainState δ η) (nodes : List (NodePrefix × Bytes)) :
    Option (DemoChainState δ η) :=
  (self.mdb.run ((nodes.map fun node => .insert node.1 node.2) ++ [.commit])).map
    fun mdb => { self with mdb := mdb }

/-- Add an executed block to the chain and to the database. -/
def storeBlock (self : DemoChainState δ η) (block : DemoBlock) (outcome : BlockOutcome Unit) :
    Option (DemoBlock × DemoChainState δ η) := do
  let (b, chain) ← self.chain.addBlock block
  let self := { self with chain := chain }
  let self := self.put (genBlockKey (hash b)) b.encode
  let self := self.put (genOutcomeKey (hash b)) outcome.encode
  let self ← self.commitWritebatch
  some (b, self)

/-- A block that is higher than the index and attached becomes the canonical tail. -/
def indexBlock (self : DemoChainState δ η) (b : DemoBlock) : Option (DemoChainState δ η) :=
  if b.number.toNat ≥ self.indexed.length ∧ self.chain.isAttached (hash b) then
    self.setCanonicalTail b
  else some self

/-! ## The start of a node -/

/-- Load the canonical chain from the `i`-th entry on. -/
def loadIndex (self : DemoChainState δ η) : (remaining i : Nat) → Option (DemoChainState δ η)
  | 0, _ => some self
  | remaining + 1, i => do
      let found ← Database.get self.mdb.db (genIndexKey (UInt64.ofNat (i + 1)))
      match found with
      | none => loadIndex { self with indexed := self.indexed ++ [none] } remaining (i + 1)
      | some raw => do
          let (block, self) ← self.expectBlock (U256.fromBigEndian raw)
          loadIndex { self with indexed := self.indexed ++ [some block] } remaining (i + 1)

/-- Write the genesis block into an empty database. -/
def newGenesis
    [NodeHasher η] (self : DemoChainState δ η) (executed : Executed) :
    Option (DemoBlock × DemoChainState δ η) := do
  let g := DemoBlock.new 0 0 0 (some 1655254842) 0 []
  let self ← self.writeNodes executed.nodes
  let g := { g with rootHash := executed.rootHash }
  let self := self.put (genBlockKey 0) g.encode
  let self := self.put (genOutcomeKey (hash g)) executed.outcome.encode
  let self := self.put (genIndexKey 0) (u64ToLeBytes 1)
  let self := self.put (genIndexKey 1) (hash g).asBytes
  let self ← self.commitWritebatch
  some (g, self)

/-- Start on a database: the genesis block is stored under zero, or else is made by
executing it; then the canonical chain is loaded.  A batch that was pending is lost. -/
def start
    [NodeHasher η] (db : δ) (chainId : U256) (genesis : Executed) :
    Option (DemoChainState δ η) := do
  let placeholder := DemoBlock.new 0 0 0 none 0 []
  let self : DemoChainState δ η :=
    ⟨Chain.new placeholder, [], ReadWriteDB.new DB_PREFIX_MERKLE db, chainId⟩
  let gRet ← Database.get db (genBlockKey 0)
  let (g, self) ← match gRet with
    | some gRaw =>
        match DemoBlock.decode gRaw chainId with
        | .ok (some g) => some (g, self)
        | _ => none
    | none => self.newGenesis genesis
  let self := { self with chain := Chain.new g }
  let val ← Database.get self.mdb.db (genIndexKey 0)
  match val with
  | none => some self
  | some rawLen =>
      if rawLen.length = 8 then
        let indexLen := (u64FromLeBytes rawLen).toNat
        loadIndex { self with indexed := [some self.chain.base] } (indexLen - 1) 1
      else none

end DemoChainState

/-! ## The node -/

/-- How far the handler of a list of blocks has come: the number and the hash of the block
below the next one. -/
structure AddBlocks where
  number : UInt64
  pHash : Hash

/-- A node with the lists of blocks that it is adding, and the blocks that it has stored
since its database was empty. -/
structure DemoNode (δ η : Type) where
  state : DemoChainState δ η
  handlers : List AddBlocks
  stored : List DemoBlock

namespace DemoNode

open DemoChainState (Executed)

variable {δ η : Type} [Keccak256] [Secp256k1] [Rlp.Reader] [Database δ Bytes Bytes]
  [NodeHasher η]

/-- A request that the node serves, or the end of its process, after which it starts again.
While a block is executed other requests are served, and the execution itself asks for
blocks; from the nodes of its tries on, a block is added at once.  The process may end after
each of the batches that are written. -/
inductive Event
  | getBlock (h : Hash)
  | addBlocks
  | addBlock (handler : Nat) (block : DemoBlock) (executed : Executed)
  | endAfterExecution (nodes : List (NodePrefix × Bytes))
  | endAfterStoring (handler : Nat) (block : DemoBlock) (executed : Executed)
  | restart

/-- The block that a handler makes of the next one of its list. -/
def AddBlocks.fill (self : AddBlocks) (block : DemoBlock) (executed : Executed) : DemoBlock :=
  { block with
    number := self.number + 1
    parentHash := self.pHash
    rootHash := executed.rootHash }

/-- Start again on the database. -/
def restarted (self : DemoNode δ η) (state : DemoChainState δ η) (genesis : Executed) :
    Option (DemoNode δ η) :=
  (DemoChainState.start state.mdb.db state.chainId genesis).map fun state =>
    ⟨state, [], self.stored⟩

def step (self : DemoNode δ η) (genesis : Executed) : Event → Option (DemoNode δ η)
  | .getBlock h =>
      (self.state.getBlockByHash h).map fun (_, state) => { self with state := state }
  | .addBlocks => do
      let latest ← (← self.state.getBlockByNumber .latest)
      some { self with handlers := self.handlers ++ [⟨latest.number, hash latest⟩] }
  | .addBlock i block executed =>
      match self.handlers[i]? with
      | none => some self
      | some handler => do
          let block := AddBlocks.fill handler block executed
          let state ← self.state.writeNodes executed.nodes
          let (b, state) ← state.storeBlock block executed.outcome
          let state ← state.indexBlock b
          some ⟨state, self.handlers.set i ⟨handler.number + 1, hash b⟩, self.stored ++ [b]⟩
  | .endAfterExecution nodes => do
      let state ← self.state.writeNodes nodes
      self.restarted state genesis
  | .endAfterStoring i block executed =>
      match self.handlers[i]? with
      | none => some self
      | some handler => do
          let block := AddBlocks.fill handler block executed
          let state ← self.state.writeNodes executed.nodes
          let (b, state) ← state.storeBlock block executed.outcome
          restarted { self with stored := self.stored ++ [b] } state genesis
  | .restart => self.restarted self.state genesis

def run (self : DemoNode δ η) (genesis : Executed) : List Event → Option (DemoNode δ η)
  | [] => some self
  | event :: events => (self.step genesis event).bind fun self => self.run genesis events

/-- A node that is started for the first time. -/
def boot (db : δ) (chainId : U256) (genesis : Executed) : Option (DemoNode δ η) :=
  (DemoChainState.start db chainId genesis).map fun state => ⟨state, [], []⟩

end DemoNode
end Qevm
