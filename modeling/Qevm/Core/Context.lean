import Qevm.Core.AccessList
import Qevm.Core.Call

/-!
# The execution context of a transaction

The context holds the call stack, the world state and the transaction-wide
counters and sets.  This module defines the context and the primitive actions
on it; the instructions are built from these.
-/

namespace Qevm

open Params

/-- Information about the block. -/
structure BlockInfo where
  coinbase : Addr
  timestamp : U256
  number : U256
  difficulty : U256
  gasLimit : UInt64
  baseFee : U256
  fork : Fork

/-- The environment of an execution. -/
structure TxExecEnv where
  chainId : U256
  block : BlockInfo
  /-- The precompiled contracts. -/
  precompiledContracts : HashMap Addr PrecompiledContract
  /-- The hash of the block with a given number. -/
  blockHashGetter : UInt64 → Hash

/-- The result of a transaction. -/
inductive TxExecResult
  | succeeded (data : Bytes) (unusedGas : Gas) (contract : Option Addr)
  | reverted (data : Bytes) (unusedGas : Gas) (err : ExecError)

/-- The gas that a transaction leaves. -/
def TxExecResult.unusedGas : TxExecResult → Gas
  | succeeded _ unusedGas _ => unusedGas
  | reverted _ unusedGas _ => unusedGas

/-- Whether a transaction is still executing. -/
inductive TxExecStatus
  | running
  | finished (result : TxExecResult)

/-- The state of the execution of one transaction. -/
structure TxExecContext (S : Type) where
  /-- The suspended frames, the most recent one first. -/
  callStack : List (CallFrame S)
  /-- The executing frame, which is not part of `callStack`. -/
  curCall : CallFrame S
  state : S
  /-- The world state at the end of the last block. -/
  committedState : S
  /-- The global refund counter. -/
  refund : UInt64
  accessList : AccessList
  /-- The self-destructed accounts. -/
  destroyed : HashSet Addr
  /-- The accounts whose state changed during the transaction. -/
  dirty : HashSet Addr
  status : TxExecStatus
  origin : Addr
  gasPrice : Wei
  env : TxExecEnv

/-- A procedure of the interpreter on the context of a transaction. -/
abbrev Exec (S : Type) := Run (TxExecContext S)

namespace Exec

variable {S : Type}

/-- Work on the executing frame. -/
def onCall (part : Run (CallFrame S) α) : Exec S α :=
  Procedure.zoom TxExecContext.curCall
    (fun call self => { self with curCall := call }) part

/-- Charge gas to the executing frame. -/
def useGas (gas : Gas) : Exec S Unit := onCall (CallFrame.useGas gas)

/-- Fail unless the fork of the executing frame has an instruction. -/
def requireFork (fork : Fork) : Exec S Unit :=
  onCall (CallFrame.requireFork fork)

/-- Pop one word of the executing frame. -/
def consume1 : Exec S U256 := onCall (CallFrame.onStack Stack.consume1)

/-- Pop two words of the executing frame. -/
def consume2 : Exec S (U256 × U256) :=
  onCall (CallFrame.onStack Stack.consume2)

/-- Pop three words of the executing frame. -/
def consume3 : Exec S (U256 × U256 × U256) :=
  onCall (CallFrame.onStack Stack.consume3)

/-- Pop four words of the executing frame. -/
def consume4 : Exec S (U256 × U256 × U256 × U256) :=
  onCall (CallFrame.onStack Stack.consume4)

/-- Push a word on the stack of the executing frame. -/
def push (word : U256) : Exec S Unit :=
  onCall (CallFrame.onStack (Stack.push word))

/-- Copy a memory region of the executing frame, with the fee of growing the
memory to contain it. -/
def getSlice (off len : U256) : Exec S (Bytes × Gas) :=
  onCall (CallFrame.onMemory (Memory.getSlice off len))

/-- The executing frame. -/
def call : Exec S (CallFrame S) := Procedure.reads TxExecContext.curCall

/-- The fork of the executing frame. -/
def fork : Exec S Fork := Procedure.reads fun self => self.curCall.fork

/-- Read the world state. -/
def readState (query : S → α) : Exec S α :=
  Procedure.reads fun self => query self.state

/-- Change the world state. -/
def writeState (change : S → S) : Exec S Unit :=
  Procedure.update fun self => { self with state := change self.state }

/-- Take a snapshot of the world state. -/
def takeSnapshot [WorldState S] : Exec S S := fun self =>
  let (state, snapshot) := WorldState.snapshot self.state
  .ok snapshot { self with state := state }

/-- Move funds between accounts; the transfer is unwrapped. -/
def transfer [WorldState S] (sender recipient : Addr) (value : Wei) :
    Exec S Unit := fun self =>
  match WorldState.transferBalance self.state sender recipient value with
  | (state, some ()) => .ok () { self with state := state }
  | (_, none) => .panic .transferFailed

/-- Record that an account was modified. -/
def markDirty (addr : Addr) : Exec S Unit :=
  Procedure.update fun self =>
    { self with dirty := self.dirty.insert addr }

/-- Record that an account self-destructed. -/
def markDestroyed (addr : Addr) : Exec S Unit :=
  Procedure.update fun self =>
    { self with destroyed := self.destroyed.insert addr }

/-- Add an address to the access list. -/
def addAddr (addr : Addr) : Exec S Unit :=
  Procedure.update fun self =>
    { self with accessList := (self.accessList.addAddr addr).1 }

/-- Whether an address and a slot of it are in the access list. -/
def accessed (addr : Addr) (slot : Hash) : Exec S (Bool × Bool) := do
  let list ← Procedure.reads TxExecContext.accessList
  Procedure.unwrap .indexOutOfBounds (list.contains addr slot)

/-- Add a slot to the access list. -/
def addSlot (addr : Addr) (slot : Hash) : Exec S Unit := do
  let list ← Procedure.reads TxExecContext.accessList
  let (list, _) ← Procedure.unwrap .indexOutOfBounds (list.addSlot addr slot)
  Procedure.update fun self => { self with accessList := list }

/-- Add to the refund counter. -/
def addRefund (gas : UInt64) : Exec S Unit :=
  Procedure.update fun self => { self with refund := self.refund + gas }

/-- Take from the refund counter, which panics when it holds less. -/
def subRefund (gas : UInt64) : Exec S Unit := fun self =>
  if gas > self.refund then
    .panic .refundBelowZero
  else
    .ok () { self with refund := self.refund - gas }

/-- Number of suspended frames. -/
def callDepth : Exec S Nat :=
  Procedure.reads fun self => self.callStack.length

/-- Suspend the executing frame and start a new one.  A child of a read-only
frame is read-only. -/
def callPush
    (code : Code) (input : Bytes) (value : Wei) (callee caller : Addr)
    (callType : CallType S) (gas : Gas) (readOnly : Bool) : Exec S Unit :=
  Procedure.update fun self =>
    { self with
      callStack := self.curCall :: self.callStack
      curCall := CallFrame.new code input value callee caller callType gas
        (self.curCall.readOnly || readOnly) self.env.block.fork }

/-- Resume the most recently suspended frame and return the one that was
executing. -/
def callPop : Exec S (CallFrame S) := fun self =>
  match self.callStack with
  | [] => .panic .callStackEmpty
  | frame :: callStack =>
      .ok self.curCall { self with callStack := callStack, curCall := frame }

/-- Move the executing frame to its next instruction. -/
def advancePc (skip : UInt64) (enterCall : Bool) : Exec S Unit :=
  onCall (Procedure.update fun call =>
    if enterCall then call else { call with pc := call.pc + (skip + 1) })

end Exec
end Qevm
