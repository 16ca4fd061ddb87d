import Mathlib.Data.Finset.Insert
import Qevm.Node.ChainState

/-!
# The process of a node

A mempool takes in transactions and makes blocks of them from time to time; these it sends
to the chain state, and it waits for the answer.  While it waits its state stays borrowed:
whatever else it is asked for, it panics.

The two are actors, which take turns: between any two steps of one, the other may take some.
-/

namespace Qevm

structure DemoMempool where
  txQueue : List Tx
  inQueue : Finset Hash
  chainId : U256
  /-- Whether the state is borrowed. -/
  borrowed : Bool

/-- What a process panics of. -/
inductive DemoPanic
  | decode (panic : TxPanic)
  | borrowed
  | chain
deriving DecidableEq

namespace DemoMempool

def new (chainId : U256) : DemoMempool := ⟨[], ∅, chainId, false⟩

/-- A transaction that was taken in before is answered with its hash, but not queued. -/
def addTransaction
    [Keccak256] [Secp256k1] [Rlp.Reader] (self : DemoMempool) (raw : Bytes) :
    Except DemoPanic (Option Hash × DemoMempool) :=
  if self.borrowed then .error .borrowed
  else
    match Tx.decode raw self.chainId with
    | .error panic => .error (.decode panic)
    | .ok none => .ok (none, self)
    | .ok (some tx) =>
        if tx.txHash ∈ self.inQueue then .ok (some tx.txHash, self)
        else
          .ok (some tx.txHash,
            { self with
              inQueue := insert tx.txHash self.inQueue
              txQueue := self.txQueue ++ [tx] })

/-- Fill blocks with the transactions of a queue, in its order. -/
def fillBlocks (blockTxs : List Tx) : List Tx → List (List Tx)
  | [] => if blockTxs.length > 0 then [blockTxs] else []
  | p :: txQueue =>
      let blockTxs := blockTxs ++ [p]
      if blockTxs.length = MAX_BLOCK_TXS then blockTxs :: fillBlocks [] txQueue
      else fillBlocks blockTxs txQueue

/-- Make blocks of all transactions.  Their numbers, parents and roots are filled in by the
chain state; the clock gives the time of each. -/
def genBlocks (self : DemoMempool) (clock : Nat → UInt64) :
    Except DemoPanic (List DemoBlock × DemoMempool) :=
  if self.borrowed then .error .borrowed
  else
    .ok ((fillBlocks [] self.txQueue).mapIdx fun i txs =>
        DemoBlock.new 0 0 0 none (clock i) txs,
      { self with txQueue := [], borrowed := true })

/-- The chain state has answered. -/
def answered (self : DemoMempool) : DemoMempool := { self with borrowed := false }

end DemoMempool

/-- A process: the mempool, the node, the lists of blocks that were sent, and what each
handler of the node has still to add, until it has answered. -/
structure DemoProcess (δ η : Type) where
  mempool : DemoMempool
  node : DemoNode δ η
  mailbox : List (List DemoBlock)
  adding : List (Option (List DemoBlock))

namespace DemoProcess

open DemoChainState (Executed)

variable {δ η : Type} [Keccak256] [Secp256k1] [Rlp.Reader] [Database δ Bytes Bytes]
  [NodeHasher η]

/-- A process on a node that has just been started. -/
def start (node : DemoNode δ η) : DemoProcess δ η :=
  ⟨DemoMempool.new node.state.chainId, node, [], []⟩

/-- What may happen next: a transaction or a poll comes in, the chain state receives a list
of blocks, adds the next block of one that it has received, or answers it; or a block is
asked for. -/
inductive Event
  | addTransaction (raw : Bytes)
  | genBlocks (clock : Nat → UInt64)
  | receive
  | addBlock (i : Nat) (executed : Executed)
  | answer (i : Nat)
  | getBlock (h : Hash)

/-- A step of the chain state. -/
def stepNode
    (self : DemoProcess δ η) (genesis : Executed) (event : DemoNode.Event) :
    Except DemoPanic (DemoProcess δ η) :=
  match self.node.step genesis event with
  | none => .error .chain
  | some node => .ok { self with node := node }

def step (self : DemoProcess δ η) (genesis : Executed) :
    Event → Except DemoPanic (DemoProcess δ η)
  | .addTransaction raw => do
      let (_, mempool) ← self.mempool.addTransaction raw
      .ok { self with mempool := mempool }
  | .genBlocks clock => do
      let (blocks, mempool) ← self.mempool.genBlocks clock
      .ok { self with mempool := mempool, mailbox := self.mailbox ++ [blocks] }
  | .receive =>
      match self.mailbox with
      | [] => .ok self
      | blocks :: mailbox =>
          { self with
            mailbox := mailbox
            adding := self.adding ++ [some blocks] }.stepNode genesis .addBlocks
  | .addBlock i executed =>
      match self.adding[i]? with
      | some (some (block :: blocks)) =>
          { self with adding := self.adding.set i (some blocks) }.stepNode genesis
            (.addBlock i block executed)
      | _ => .ok self
  | .answer i =>
      match self.adding[i]? with
      | some (some []) =>
          .ok { self with mempool := self.mempool.answered, adding := self.adding.set i none }
      | _ => .ok self
  | .getBlock h => self.stepNode genesis (.getBlock h)

def run (self : DemoProcess δ η) (genesis : Executed) :
    List Event → Except DemoPanic (DemoProcess δ η)
  | [] => .ok self
  | event :: events => do (← self.step genesis event).run genesis events

end DemoProcess
end Qevm
