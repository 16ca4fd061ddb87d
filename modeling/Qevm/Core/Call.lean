import Qevm.Core.Alu
import Qevm.Core.Memory
import Qevm.Core.Stack
import Qevm.Core.World

/-!
# Call frames

The frame of an executing contract and the instructions that touch nothing but
the frame.
-/

namespace Qevm

open Params

/-- Whom a transaction-level frame was started for. -/
inductive TxAux
  | sender (addr : Addr)
  | contract (addr : Addr)

/-- What is kept for the end of a transaction-level frame. -/
structure TxArgs (S : Type) where
  /-- The world state to go back to. -/
  snapshot : S
  /-- The sender, or the created contract. -/
  aux : TxAux

/-- What is kept for the end of a message call. -/
structure CallArgs (S : Type) where
  /-- The world state to go back to, if the call took one. -/
  snapshot : Option S
  /-- Offset of the return region in the memory of the caller. -/
  retOff : U256
  /-- Length of the return region. -/
  retLen : U256

/-- What is kept for the end of a contract creation. -/
structure CreateArgs (S : Type) where
  /-- The world state to go back to. -/
  snapshot : S
  /-- The address of the new contract. -/
  contractAddr : Addr

/-- Why a frame was pushed. -/
inductive CallType (S : Type)
  | tx (args : TxArgs S)
  | call (args : CallArgs S)
  | create (args : CreateArgs S)

/-- The frame of an executing contract. -/
structure CallFrame (S : Type) where
  /-- Offset of the next instruction. -/
  pc : UInt64
  memory : Memory
  stack : Stack
  code : Code
  /-- Address of the executing contract. -/
  callee : Addr
  /-- Address of the caller. -/
  caller : Addr
  callType : CallType S
  input : Bytes
  value : Wei
  lastReturned : Bytes
  unusedGas : Gas
  readOnly : Bool
  fork : Fork

namespace CallFrame

variable {S : Type}

/-- A frame at the start of its code. -/
def new
    (code : Code) (input : Bytes) (value : Wei) (callee caller : Addr)
    (callType : CallType S) (gas : Gas) (readOnly : Bool) (fork : Fork) :
    CallFrame S where
  pc := 0
  memory := Memory.new
  stack := Stack.new
  code := code
  callee := callee
  caller := caller
  callType := callType
  input := input
  value := value
  lastReturned := []
  unusedGas := gas
  readOnly := readOnly
  fork := fork

/-- Work on the stack of a frame. -/
def onStack (part : Run Stack α) : Run (CallFrame S) α :=
  Procedure.zoom CallFrame.stack
    (fun stack frame => { frame with stack := stack }) part

/-- Work on the memory of a frame. -/
def onMemory (part : Run Memory α) : Run (CallFrame S) α :=
  Procedure.zoom CallFrame.memory
    (fun memory frame => { frame with memory := memory }) part

/-- Charge gas. -/
def useGas (gas : Gas) : Run (CallFrame S) Unit := fun self =>
  if self.unusedGas < gas then
    .error .outOfGas self
  else
    .ok () { self with unusedGas := self.unusedGas - gas }

/-- Fail unless the fork of the frame has an instruction. -/
def requireFork (fork : Fork) : Run (CallFrame S) Unit := fun self =>
  if self.fork < fork then .error .invalidOpcode self else .ok () self

/-- An instruction that replaces the top word. -/
def makeUnaryOp (op : U256 → U256) (gas : Gas) : Run (CallFrame S) Unit := do
  let a ← onStack Stack.consume1
  onStack (Stack.push (op a))
  useGas gas

/-- An instruction that replaces the two top words. -/
def makeBinaryOp (op : U256 → U256 → U256) (gas : Gas) :
    Run (CallFrame S) Unit := do
  let (a, b) ← onStack Stack.consume2
  onStack (Stack.push (op a b))
  useGas gas

/-- An instruction that replaces the three top words. -/
def makeTernaryOp (op : U256 → U256 → U256 → U256) (gas : Gas) :
    Run (CallFrame S) Unit := do
  let (a, b, c) ← onStack Stack.consume3
  onStack (Stack.push (op a b c))
  useGas gas

/-- A binary instruction of Constantinople. -/
def makeBinaryOpSince (op : U256 → U256 → U256) (gas : Gas) (fork : Fork) :
    Run (CallFrame S) Unit := do
  requireFork fork
  makeBinaryOp op gas

def add : Run (CallFrame S) Unit := makeBinaryOp Alu.add gasFastest
def mul : Run (CallFrame S) Unit := makeBinaryOp Alu.mul gasFast
def sub : Run (CallFrame S) Unit := makeBinaryOp Alu.sub gasFastest
def div : Run (CallFrame S) Unit := makeBinaryOp Alu.div gasFast
def sdiv : Run (CallFrame S) Unit := makeBinaryOp Alu.sdiv gasFast
def rem : Run (CallFrame S) Unit := makeBinaryOp Alu.rem gasFast
def smod : Run (CallFrame S) Unit := makeBinaryOp Alu.smod gasFast
def addMod : Run (CallFrame S) Unit := makeTernaryOp Alu.addMod gasMid
def mulMod : Run (CallFrame S) Unit := makeTernaryOp Alu.mulMod gasMid

def exp : Run (CallFrame S) Unit := do
  let (a, b) ← onStack Stack.consume2
  onStack (Stack.push (Alu.exp a b))
  let fork ← Procedure.reads CallFrame.fork
  let gas ← gasCheckedMul
    (if fork ≥ .spuriousDragon then gasExpByteSpuriousDragon
      else gasExpByteFrontier)
    ((UInt64.ofNat (U256.bits b) + 7) >>> 3)
  useGas gas

def signExtend : Run (CallFrame S) Unit := makeBinaryOp Alu.signExtend gasFast
def lt : Run (CallFrame S) Unit := makeBinaryOp Alu.lt gasFastest
def gt : Run (CallFrame S) Unit := makeBinaryOp Alu.gt gasFastest
def slt : Run (CallFrame S) Unit := makeBinaryOp Alu.slt gasFastest
def sgt : Run (CallFrame S) Unit := makeBinaryOp Alu.sgt gasFastest
def eq : Run (CallFrame S) Unit := makeBinaryOp Alu.eq gasFastest
def isZero : Run (CallFrame S) Unit := makeUnaryOp Alu.isZero gasFastest
def and : Run (CallFrame S) Unit := makeBinaryOp Alu.and gasFastest
def or : Run (CallFrame S) Unit := makeBinaryOp Alu.or gasFastest
def xor : Run (CallFrame S) Unit := makeBinaryOp Alu.xor gasFastest
def not : Run (CallFrame S) Unit := makeUnaryOp Alu.not gasFastest
def byte : Run (CallFrame S) Unit := makeBinaryOp Alu.byte gasFastest
def shl : Run (CallFrame S) Unit :=
  makeBinaryOpSince Alu.shl gasFastest .constantinople

/-- The shift itself may panic, so `shr` is not one of the total operations. -/
def shr : Run (CallFrame S) Unit := do
  requireFork .constantinople
  let (a, b) ← onStack Stack.consume2
  let shifted ← Procedure.unwrap .integerOverflow (Alu.shr a b)
  onStack (Stack.push shifted)
  useGas gasFastest

def sar : Run (CallFrame S) Unit :=
  makeBinaryOpSince Alu.sar gasFastest .constantinople

def sha3 [Keccak256] : Run (CallFrame S) Unit := do
  useGas gasSha3
  let (off, len) ← onStack Stack.consume2
  let (data, gas) ← onMemory (Memory.getSlice off len)
  onStack (Stack.push (Hash.hash data))
  useGas (← gasCheckedMul (Memory.toWordSize (U256.lowU64 len)) gasSha3Word)
  useGas gas

/-- An instruction that pushes a word computed from the frame. -/
def pushOf (gas : Gas) (word : CallFrame S → U256) :
    Run (CallFrame S) Unit := do
  useGas gas
  let self ← Procedure.read
  onStack (Stack.push (word self))

def addr : Run (CallFrame S) Unit :=
  pushOf gasQuick fun self => self.callee.toU256

def pushCaller : Run (CallFrame S) Unit :=
  pushOf gasQuick fun self => self.caller.toU256

def callValue : Run (CallFrame S) Unit :=
  pushOf gasQuick fun self => self.value

def callDataLoad : Run (CallFrame S) Unit := do
  useGas gasFastest
  let off ← onStack Stack.consume1
  let input ← Procedure.reads CallFrame.input
  let data :=
    match checkedAsU64 off with
    | some off => U256.fromBigEndian (getData input off 32)
    | none => 0
  onStack (Stack.push data)

def callDataSize : Run (CallFrame S) Unit :=
  pushOf gasQuick fun self => U256.ofLen self.input.length

def codeSize : Run (CallFrame S) Unit :=
  pushOf gasQuick fun self => U256.ofLen self.code.asBytes.length

def codeCopy : Run (CallFrame S) Unit := do
  useGas gasFastest
  let (memOff, codeOff, len) ← onStack Stack.consume3
  let (mem, gas) ← onMemory (Memory.getSliceMut memOff len)
  let len := U256.lowU64 len
  let codeOff := (checkedAsU64 codeOff).getD 0xffffffffffffffff
  let code ← Procedure.reads CallFrame.code
  onMemory (Memory.write mem (getData code.asBytes codeOff len))
  useGas (← gasCheckedMul (Memory.toWordSize len) gasCopyWord)
  useGas gas

def callDataCopy : Run (CallFrame S) Unit := do
  useGas gasFastest
  let (memOff, dataOff, len) ← onStack Stack.consume3
  let (mem, gas) ← onMemory (Memory.getSliceMut memOff len)
  let len := U256.lowU64 len
  let dataOff := (checkedAsU64 dataOff).getD 0xffffffffffffffff
  let input ← Procedure.reads CallFrame.input
  onMemory (Memory.write mem (getData input dataOff len))
  useGas gas
  useGas (← gasCheckedMul (Memory.toWordSize len) gasCopyWord)

def returnDataSize : Run (CallFrame S) Unit := do
  requireFork .byzantium
  pushOf gasQuick fun self => U256.ofLen self.lastReturned.length

def returnDataCopy : Run (CallFrame S) Unit := do
  requireFork .byzantium
  useGas gasFastest
  let (memOff, dataOff, len) ← onStack Stack.consume3
  -- the sum wraps around
  let stop ← Procedure.okOr .returnDataOutOfBounds
    (checkedAsU64 (dataOff + len))
  let data ← Procedure.reads CallFrame.lastReturned
  if stop.toNat > data.length then
    Procedure.raise .returnDataOutOfBounds
  else
    let dataOff ← Procedure.okOr .returnDataOutOfBounds (checkedAsU64 dataOff)
    let (mem, gas) ← onMemory (Memory.getSliceMut memOff len)
    let source ← Procedure.unwrap .indexOutOfBounds
      (if dataOff ≤ stop then
        some ((data.take stop.toNat).drop dataOff.toNat) else none)
    onMemory (Memory.write mem source)
    useGas gas
    useGas (← gasCheckedMul (Memory.toWordSize (U256.lowU64 len)) gasCopyWord)

def pop : Run (CallFrame S) Unit := do
  useGas gasQuick
  let _ ← onStack Stack.consume1

def mload : Run (CallFrame S) Unit := do
  useGas gasFastest
  let off ← onStack Stack.consume1
  let (mem, gas) ← onMemory (Memory.getSlice off 32)
  onStack (Stack.push (U256.fromBigEndian mem))
  useGas gas

def mstore : Run (CallFrame S) Unit := do
  useGas gasFastest
  let (off, val) ← onStack Stack.consume2
  let (mem, gas) ← onMemory (Memory.getSliceMut off 32)
  onMemory (Memory.write mem (U256.toBigEndian val))
  useGas gas

def mstore8 : Run (CallFrame S) Unit := do
  useGas gasFastest
  let (off, val) ← onStack Stack.consume2
  let (mem, gas) ← onMemory (Memory.getSliceMut off 1)
  onMemory (Memory.write mem [UInt8.ofNat (U256.lowU64 val).toNat])
  useGas gas

def pushPc : Run (CallFrame S) Unit :=
  pushOf gasQuick fun self => U256.ofU64 self.pc

def msize : Run (CallFrame S) Unit :=
  pushOf gasQuick fun self => U256.ofLen self.memory.len

def gas : Run (CallFrame S) Unit :=
  pushOf gasQuick fun self => U256.ofU64 self.unusedGas

/-- Push immediate data, at most 32 bytes of it. -/
def push (data : Bytes) : Run (CallFrame S) Unit := do
  useGas gasFastest
  onStack (Stack.push (U256.fromBigEndian data))

def dup (pos : Nat) : Run (CallFrame S) Unit := do
  useGas gasFastest
  onStack (Stack.dup pos)

def swap (pos : Nat) : Run (CallFrame S) Unit := do
  useGas gasFastest
  onStack (Stack.swap pos)

end CallFrame
end Qevm
