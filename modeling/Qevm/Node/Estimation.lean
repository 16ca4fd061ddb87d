import Qevm.Node.Execution

/-!
# Calls and estimates of their gas

A call is executed on top of the state of a block, and nothing is kept of it.  The gas that
it needs is found by executing it again and again; other requests are served in between, so
that the node need not be in the same state each time.
-/

namespace Qevm

/-- Why a request has no answer: a panic, a transaction that takes longer than the fuel, or
the `None` of the source. -/
inductive Unanswered
  | panicked
  | absent
deriving DecidableEq

/-- The answer of a request. -/
def answerOf {α : Type} : Option (Option α) → Except Unanswered α
  | none => .error .panicked
  | some none => .error .absent
  | some (some answer) => .ok answer

/-- The arguments of a call. -/
structure Chain.TxArgs where
  from_ : Option Addr
  to_ : Option Addr
  gas : Option Gas
  gasPrice : Option Wei
  maxFeePerGas : Option Wei
  maxPriorityFeePerGas : Option Wei
  value : Option Wei
  data : Option Bytes

/-- The highest price of gas that the caller pays; both kinds of prices cannot be given. -/
def Chain.TxArgs.feeCap (txArgs : Chain.TxArgs) : Except Unanswered Wei :=
  if txArgs.gasPrice.isSome ∧
      (txArgs.maxFeePerGas.isSome ∨ txArgs.maxPriorityFeePerGas.isSome) then
    .error .absent
  else
    match txArgs.gasPrice, txArgs.maxFeePerGas with
    | some price, _ => .ok price
    | none, some price => .ok price
    | none, none => .ok 0

/-- The most gas that a request to the node may use. -/
def RPC_GAS_CAP : Gas := 50000000

namespace DemoChainState

variable {δ η S T : Type} [Keccak256] [Database δ Bytes Bytes] [WorldState S]

/-- Execute a call on top of the state of a block. -/
def doCall
    (self : DemoChainState δ η) (read : Option Hash → T) (opened : T → S) (fuel : Nat)
    (txArgs : Chain.TxArgs) (number : BlockNumber) (globalGasCap : Gas) :
    Except Unanswered TxExecResult := do
  let block ← answerOf (self.getBlockByNumber number)
  let prev ← answerOf (self.getBlockState read block)
  let prevState := opened prev.worldState
  let tx : Transaction S :=
    { sender := txArgs.from_.getD 0
      recipient := txArgs.to_
      value := txArgs.value.getD 0
      gas := txArgs.gas.getD globalGasCap
      gasPrice := txArgs.gasPrice.getD 0
      input := txArgs.data.getD []
      accessList := none
      state := prevState
      committedState := prevState
      env := self.getExecEnv block }
  match tx.runSingleTx fuel with
  | none => .error .panicked
  | some (result, _) => .ok result

/-- Where the search for the gas of a call begins: the gas that is given, if it is enough for
any transaction, or else that of the block. -/
def estimateGiven
    (self : DemoChainState δ η) (txArgs : Chain.TxArgs) (number : BlockNumber) :
    Except Unanswered Gas :=
  match txArgs.gas.filter fun gas => 21000 ≤ gas with
  | some gas => .ok gas
  | none => (answerOf (self.getBlockByNumber number)).map DemoBlock.gasLimit

/-- What of some gas the caller can pay for. -/
def estimateAllowed
    (self : DemoChainState δ η) (read : Option Hash → T) (opened : T → S)
    (txArgs : Chain.TxArgs) (number : BlockNumber) (feeCap : Wei) (high : Gas) :
    Except Unanswered Gas :=
  if feeCap = 0 then .ok high
  else do
    let block ← answerOf (self.getBlockByNumber number)
    let state ← answerOf (self.getBlockState read block)
    let balance := WorldState.getBalance (opened state.worldState) (txArgs.from_.getD 0)
    if txArgs.value.any fun val => balance ≤ val then .error .absent
    else
      match checkedAsU64 (balance / feeCap) with
      | some allow => .ok (if high > allow then allow else high)
      | none => .ok high

/-- The most gas that is tried for a call. -/
def estimateCap
    (states : Nat → DemoChainState δ η) (read : Option Hash → T) (opened : T → S)
    (txArgs : Chain.TxArgs) (number : BlockNumber) (gasCap : Gas) : Except Unanswered Gas := do
  let high ← (states 0).estimateGiven txArgs number
  let feeCap ← txArgs.feeCap
  let high ← (states 1).estimateAllowed read opened txArgs number feeCap high
  .ok (if gasCap ≠ 0 ∧ high > gasCap then gasCap else high)

/-- Search between two gas limits by halving.  One round halves what is between two words, so
that there is nothing left after as many rounds as a word has bits. -/
def searchGas (call : Nat → Gas → Except Unanswered TxExecResult) :
    (rounds time : Nat) → (low high : Gas) → Except Unanswered (Nat × Gas)
  | 0, time, low, high => if low + 1 < high then .error .panicked else .ok (time, high)
  | rounds + 1, time, low, high =>
      if low + 1 < high then do
        let mid := (low + high) / 2
        match ← call time mid with
        | .succeeded .. => searchGas call rounds (time + 1) low mid
        | .reverted .. => searchGas call rounds (time + 1) mid high
      else .ok (time, high)

/-- The call with some gas, at one of the times at which it is executed. -/
def estimateCall
    (states : Nat → DemoChainState δ η) (read : Option Hash → T) (opened : T → S) (fuel : Nat)
    (txArgs : Chain.TxArgs) (number : BlockNumber) (gasCap : Gas) (time : Nat) (gas : Gas) :
    Except Unanswered TxExecResult :=
  (states time).doCall read opened fuel { txArgs with gas := some gas } number gasCap

/-- Estimate the gas of a call.  The node is in one of the given states at each of the times
at which it is asked; the arithmetic on gas wraps. -/
def doEstimateGas
    (states : Nat → DemoChainState δ η) (read : Option Hash → T) (opened : T → S) (fuel : Nat)
    (txArgs : Chain.TxArgs) (number : BlockNumber) (gasCap : Gas) : Except Unanswered Gas := do
  let call := estimateCall states read opened fuel txArgs number gasCap
  let cap ← estimateCap states read opened txArgs number gasCap
  let (time, high) ← searchGas call 64 2 20999 cap
  if cap = high then
    match ← call time high with
    | .succeeded .. => .ok high
    | .reverted .. => .error .absent
  else .ok high

end DemoChainState
end Qevm
