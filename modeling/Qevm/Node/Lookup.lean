import Qevm.Collections.Memo
import Qevm.Node.ChainState

/-!
# Finding transactions

A transaction is looked up by its hash in the blocks of the index, from the top down.  Where
it was found is kept until the process ends, also when the index changes.
-/

namespace Qevm

/-- The first transaction of a block with a hash. -/
def DemoBlock.findTx (block : DemoBlock) (txHash : Hash) : Option (DemoBlock × Nat) :=
  (block.txs.findIdx? fun tx => tx.txHash = txHash).map fun idx => (block, idx)

/-- Look through the blocks of an index, which have to be there. -/
def lookThrough (txHash : Hash) : List (Option DemoBlock) → Option (Option (DemoBlock × Nat))
  | [] => some none
  | none :: _ => none
  | some block :: rest =>
      match block.findTx txHash with
      | some found => some (some found)
      | none => lookThrough txHash rest

/-- The part of a node's state that finds transactions, with the requests for them since its
process has begun and the index at the time of each. -/
structure DemoLookup (δ η : Type) where
  node : DemoNode δ η
  txCache : HashMap Hash (DemoBlock × Nat)
  asked : List (Hash × List (Option DemoBlock))

namespace DemoLookup

open DemoChainState (Executed)

variable {δ η : Type}

/-- Where a transaction is: a place that is known, or else one in the index. -/
def getCachedTx (self : DemoLookup δ η) (txHash : Hash) :
    Option (Option (DemoBlock × Nat) × DemoLookup δ η) :=
  let index := self.node.state.indexed
  let asked := self.asked ++ [(txHash, index)]
  match self.txCache.lookup txHash with
  | some found => some (some found, { self with asked := asked })
  | none =>
      (lookThrough txHash index.reverse).map fun
        | some found =>
            (some found, { self with txCache := self.txCache.insert txHash found, asked := asked })
        | none => (none, { self with asked := asked })

/-- A request for a transaction, or another event of the node. -/
inductive Event
  | getTx (txHash : Hash)
  | node (event : DemoNode.Event)

/-- Go on with a node; one that has just been started knows no places. -/
def goOn (self : DemoLookup δ η) (node : DemoNode δ η) : DemoNode.Event → DemoLookup δ η
  | .endAfterExecution _ | .restart => ⟨node, ∅, []⟩
  | .endAfterStoring i .. =>
      if i < self.node.handlers.length then ⟨node, ∅, []⟩ else { self with node := node }
  | .getBlock _ | .addBlocks | .addBlock .. => { self with node := node }

variable [Keccak256] [Secp256k1] [Rlp.Reader] [Database δ Bytes Bytes] [NodeHasher η]

def step (self : DemoLookup δ η) (genesis : Executed) : Event → Option (DemoLookup δ η)
  | .getTx txHash => (self.getCachedTx txHash).map Prod.snd
  | .node event => (self.node.step genesis event).map fun node => self.goOn node event

def run (self : DemoLookup δ η) (genesis : Executed) : List Event → Option (DemoLookup δ η)
  | [] => some self
  | event :: events => (self.step genesis event).bind fun self => self.run genesis events

/-- A node that is started for the first time. -/
def boot (db : δ) (chainId : U256) (genesis : Executed) : Option (DemoLookup δ η) :=
  (DemoNode.boot db chainId genesis).map fun node => ⟨node, ∅, []⟩

end DemoLookup
end Qevm
