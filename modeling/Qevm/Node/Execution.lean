import Qevm.Core.Run
import Qevm.Node.ChainState

/-!
# The execution of blocks

The transactions of a block are executed one after the other on one state.  Each pays for
all of its gas before it is executed; one that cannot is skipped.

Reading the state at the end of a block, and sharing the one that a block leaves, are
parameters.  A result `none` of an operation stands for a panic, and for the execution of a
transaction that takes longer than the fuel; an inner one is the `None` of the source.
-/

namespace Qevm

open Block (hash)

namespace Transaction

variable {S : Type} [WorldState S] [Keccak256]

/-- Feed a transaction back to the interpreter until it has finished. -/
def feed : Nat → TxExecContext S → Option (TxExecResult × S)
  | fuel, context =>
      match context.status with
      | .finished result => some (result, context.state)
      | .running =>
          match fuel with
          | 0 => none
          | fuel + 1 => (stepOnce context).bind (feed fuel)

/-- Execute one transaction. -/
def runSingleTx (tx : Transaction S) (fuel : Nat) : Option (TxExecResult × S) :=
  tx.entry.bind (feed fuel)

end Transaction

/-! ## Transactions of a block -/

/-- A transaction as it is executed in a block: its nonce and its access list are left out. -/
def Tx.execArgs {S : Type} (tx : Tx) (state committedState : S) (env : TxExecEnv) :
    Transaction S where
  sender := tx.from_
  recipient := tx.inner.to_
  value := tx.inner.value
  gas := tx.inner.gas
  gasPrice := tx.inner.gasPrice
  input := tx.inner.data
  accessList := none
  state := state
  committedState := committedState
  env := env

/-- The fee for all of the gas of a transaction. -/
def Tx.paid (tx : Tx) : Option Wei :=
  if tx.inner.gasPrice.toNat * tx.inner.gas.toNat < 2 ^ 256 then
    some (tx.inner.gasPrice * BitVec.ofNat 256 tx.inner.gas.toNat)
  else none

/-- How far the execution of a block has come. -/
structure BlockExec (S : Type) where
  curState : S
  gasCumu : Gas
  gasUsed : List (Gas × Gas)
  contractAddrs : List (Option Addr)

namespace BlockExec

variable {S : Type}

/-- Before the first transaction. -/
def new (state : S) : BlockExec S := ⟨state, 0, [], []⟩

/-- Note the result of a transaction.  The arithmetic on gas wraps. -/
def note (self : BlockExec S) (tx : Tx) (result : TxExecResult) (state : S) : BlockExec S :=
  match result with
  | .succeeded _ unusedGas contractAddr =>
      let usedGas := tx.inner.gas - unusedGas
      let gasCumu := self.gasCumu + usedGas
      { curState := state
        gasCumu := gasCumu
        gasUsed := self.gasUsed ++ [(gasCumu, usedGas)]
        contractAddrs := self.contractAddrs ++ [contractAddr] }
  | .reverted .. => { self with curState := state }

variable [WorldState S] [Keccak256]

/-- Execute the transactions of a block. -/
def runTxs (prevState : S) (env : TxExecEnv) (fuel : Nat) :
    BlockExec S → List Tx → Option (Option (BlockExec S))
  | self, [] => some (some self)
  | self, tx :: txs =>
      match tx.paid with
      | none => some none
      | some paid =>
          match WorldState.transferBalance self.curState tx.from_ 0 paid with
          | (state, none) => runTxs prevState env fuel { self with curState := state } txs
          | (state, some ()) =>
              (tx.execArgs state prevState env).runSingleTx fuel |>.bind
                fun (result, state) => runTxs prevState env fuel (self.note tx result state) txs

end BlockExec

/-! ## Blocks -/

/-- The root of the state at the end of a block; zero is that of no state. -/
def DemoBlock.stateRoot (block : DemoBlock) : Option Hash :=
  if block.rootHash = 0 then none else some block.rootHash

namespace DemoChainState

variable {δ η S T : Type} [Keccak256] [Secp256k1] [Rlp.Reader] [Database δ Bytes Bytes]

omit [Secp256k1] [Rlp.Reader] [Database δ Bytes Bytes] in
/-- The environment of a block, with the index as it is before the execution.  For a number
above the index the source panics; the hash here is zero. -/
def getExecEnv (self : DemoChainState δ η) (block : DemoBlock) : TxExecEnv where
  chainId := self.chainId
  precompiledContracts := ∅
  block :=
    { coinbase := 0
      timestamp := BitVec.ofNat 256 block.timestamp.toNat
      number := BitVec.ofNat 256 block.number.toNat
      difficulty := 0
      gasLimit := block.gasLimit
      baseFee := block.baseFee
      fork := .london }
  blockHashGetter number :=
    match self.indexed[number.toNat]? with
    | some (some block) => hash block
    | _ => 0

omit [Secp256k1] [Rlp.Reader] in
/-- The outcome that is stored for a block, on top of the state with its root. -/
def getBlockState
    (self : DemoChainState δ η) (read : Option Hash → T) (block : DemoBlock) :
    Option (Option (BlockOutcome T)) :=
  match (Database.get self.mdb.db (genOutcomeKey (hash block))).join with
  | none => some none
  | some raw =>
      (BlockOutcome.decode raw (read block.stateRoot)).toOption

/-- Execute a block on top of its parent.  The root of the parent comes with the outcome. -/
def processStateTransition
    [WorldState S] (self : DemoChainState δ η) (read : Option Hash → T) (opened : T → S)
    (shared : S → T) (fuel : Nat) (block : DemoBlock) :
    Option (Option (BlockOutcome T × Hash) × DemoChainState δ η) := do
  let (prevBlock, self) ← self.getBlockByHash block.parentHash
  match prevBlock with
  | none => some (none, self)
  | some prevBlock =>
      match ← self.getBlockState read prevBlock with
      | none => some (none, self)
      | some prev =>
          let prevState := opened prev.worldState
          let ended ← BlockExec.runTxs prevState (self.getExecEnv block) fuel
            (BlockExec.new prevState) block.txs
          some (ended.map fun exec =>
            (⟨shared exec.curState, exec.gasUsed, exec.contractAddrs⟩, prevBlock.rootHash), self)

end DemoChainState

/-! ## Receipts -/

structure TxReceipt where
  txHash : Hash
  txIndex : UInt64
  blockHash : Hash
  blockNumber : U256
  from_ : Addr
  to_ : Option Addr
  cuGasUsed : Gas
  gasUsed : Gas
  contractAddr : Option Addr
  status : UInt64
deriving DecidableEq

/-- The receipt of a transaction of a block. -/
def DemoBlock.receipt
    [Keccak256] {T : Type} (block : DemoBlock) (bs : BlockOutcome T) (idx : Nat) :
    Option TxReceipt := do
  let tx ← block.txs[idx]?
  let (cuGasUsed, gasUsed) ← bs.gasUsed[idx]?
  let contractAddr ← bs.contractAddrs[idx]?
  some
    { txHash := tx.txHash
      txIndex := UInt64.ofNat idx
      blockHash := hash block
      blockNumber := BitVec.ofNat 256 block.number.toNat
      from_ := tx.from_
      to_ := tx.inner.to_
      cuGasUsed := cuGasUsed
      gasUsed := gasUsed
      contractAddr := contractAddr
      status := 1 }

end Qevm
