import Qevm.Core.Frames

/-!
# The interpreter loop

Decoding, dispatch, the loop over instructions and the start of a transaction.
One iteration of the loop is `Exec.iterate`; `Step` relates the contexts before
and after an iteration of a running transaction.
-/

namespace Qevm

open Params WorldState

/-- A decoded instruction. -/
structure Inst where
  opcode : Opcode
  /-- The data pushed by a `PUSH` instruction. -/
  data : Option Bytes
  /-- The number of a `DUP` or `SWAP` instruction. -/
  pos : Nat
  deriving DecidableEq

namespace Inst

/-- Number of bytes that follow the opcode. -/
def skip (self : Inst) : UInt64 :=
  match self.data with
  | some data => UInt64.ofNat data.length
  | none => 0

end Inst

/-- Decode the instruction at an offset; `none` stands for a slice out of the
bounds of the code. -/
def decode (code : Bytes) (pc : UInt64) : Option Inst :=
  let rawOpcode := code[pc.toNat]?.getD 0
  if 0x60 ≤ rawOpcode ∧ rawOpcode ≤ 0x7f then
    let base := pc.toNat + 1
    let stop := base + (rawOpcode.toNat - 0x60 + 1)
    if stop ≤ code.length then
      some ⟨.push, some ((code.take stop).drop base), 0⟩
    else
      none
  else if 0x80 ≤ rawOpcode ∧ rawOpcode ≤ 0x8f then
    some ⟨.dup, none, rawOpcode.toNat - 0x80 + 1⟩
  else if 0x90 ≤ rawOpcode ∧ rawOpcode ≤ 0x9f then
    some ⟨.swap, none, rawOpcode.toNat - 0x90 + 1⟩
  else
    match Opcode.fromU8 rawOpcode with
    | some opcode => some ⟨opcode, none, 0⟩
    | none => some ⟨.invalid, none, 0⟩

namespace Exec

variable {S : Type} [WorldState S] [Keccak256]

/-- Decode the next instruction of the executing frame. -/
def fetch : Exec S Inst := do
  let call ← call
  Procedure.unwrap .indexOutOfBounds (decode call.code.asBytes call.pc)

/-- Execute an instruction. -/
def dispatch (inst : Inst) : Exec S Unit :=
  match inst.opcode with
  | .stop => finishCall [] (.ok ())
  | .add => onCall CallFrame.add
  | .mul => onCall CallFrame.mul
  | .sub => onCall CallFrame.sub
  | .div => onCall CallFrame.div
  | .sdiv => onCall CallFrame.sdiv
  | .mod => onCall CallFrame.rem
  | .smod => onCall CallFrame.smod
  | .addMod => onCall CallFrame.addMod
  | .mulMod => onCall CallFrame.mulMod
  | .exp => onCall CallFrame.exp
  | .signExtend => onCall CallFrame.signExtend
  | .lt => onCall CallFrame.lt
  | .gt => onCall CallFrame.gt
  | .slt => onCall CallFrame.slt
  | .sgt => onCall CallFrame.sgt
  | .eql => onCall CallFrame.eq
  | .isZero => onCall CallFrame.isZero
  | .and => onCall CallFrame.and
  | .or => onCall CallFrame.or
  | .xor => onCall CallFrame.xor
  | .not => onCall CallFrame.not
  | .byte => onCall CallFrame.byte
  | .shl => onCall CallFrame.shl
  | .shr => onCall CallFrame.shr
  | .sar => onCall CallFrame.sar
  | .sha3 => onCall CallFrame.sha3
  | .addr => onCall CallFrame.addr
  | .balance => balance
  | .origin => origin
  | .caller => onCall CallFrame.pushCaller
  | .callValue => onCall CallFrame.callValue
  | .callDataLoad => onCall CallFrame.callDataLoad
  | .callDataSize => onCall CallFrame.callDataSize
  | .callDataCopy => onCall CallFrame.callDataCopy
  | .codeSize => onCall CallFrame.codeSize
  | .codeCopy => onCall CallFrame.codeCopy
  | .gasPrice => gasPrice
  | .extCodeSize => extCodeSize
  | .extCodeCopy => extCodeCopy
  | .returnDataSize => onCall CallFrame.returnDataSize
  | .returnDataCopy => onCall CallFrame.returnDataCopy
  | .extCodeHash => extCodeHash
  | .blockHash => blockHash
  | .coinbase => coinbase
  | .timestamp => timestamp
  | .number => number
  | .difficulty => difficulty
  | .gasLimit => gasLimit
  | .chainId => chainId
  | .selfBalance => selfBalance
  | .baseFee => baseFee
  | .pop => onCall CallFrame.pop
  | .mload => onCall CallFrame.mload
  | .mstore => onCall CallFrame.mstore
  | .mstore8 => onCall CallFrame.mstore8
  | .sload => sload
  | .sstore => sstore
  | .jump => jump
  | .jumpi => jumpi
  | .pc => onCall CallFrame.pushPc
  | .msize => onCall CallFrame.msize
  | .gas => onCall CallFrame.gas
  | .jumpDest => useGas gasJumpdest
  | .log0 => log 0
  | .log1 => log 1
  | .log2 => log 2
  | .log3 => log 3
  | .log4 => log 4
  | .push => do
      let data ← Procedure.unwrap .noInstructionData inst.data
      onCall (CallFrame.push data)
  | .dup => onCall (CallFrame.dup inst.pos)
  | .swap => onCall (CallFrame.swap inst.pos)
  | .create => createBegin
  | .call => callBegin
  | .callCode => callCodeBegin
  | .return => return_
  | .delegateCall => delegateCallBegin
  | .create2 => create2Begin
  | .staticCall => staticCallBegin
  | .revert => revert
  | .selfDestruct => selfDestruct
  | .pushN _ | .dupN _ | .swapN _ | .invalid =>
      Procedure.raise .invalidOpcode

/-- The loop that hands a failure down the call stack until a frame takes it.
The counter is the number of suspended frames; without any, popping the next one
panics. -/
def unwind : Nat → ExecError → Exec S Unit
  | 0, _ => Procedure.abort .callStackEmpty
  | depth + 1, err =>
      Procedure.handle (finishCall [] (.error err)) (unwind depth)

/-- Hand a failure of the executing frame down the call stack. -/
def fail (err : ExecError) : Exec S Unit := do
  let callDepth ← callDepth
  unwind callDepth err

/-- One iteration of the interpreter loop. -/
def iterate : Exec S Unit := do
  let inst ← fetch
  Procedure.handle (dispatch inst) fail
  advancePc inst.skip inst.opcode.entersCall

end Exec

/-- An iteration of the loop takes a running context to the next one. -/
def Step {S : Type} [WorldState S] [Keccak256]
    (before after : TxExecContext S) : Prop :=
  before.status = .running ∧ Exec.iterate before = .ok () after

/-- A transaction and what it is executed with. -/
structure Transaction (S : Type) where
  sender : Addr
  /-- The called account; a transaction without one creates a contract. -/
  recipient : Option Addr
  value : Wei
  gas : Gas
  gasPrice : Wei
  input : Bytes
  accessList : Option (List TxAccessTuple)
  state : S
  committedState : S
  env : TxExecEnv

namespace Transaction

variable {S : Type} [WorldState S] [Keccak256]

/-- The frame below the top-level one, whose values are not used. -/
def dummyFrame (tx : Transaction S) : CallFrame S :=
  CallFrame.new (PlainCode.new []).toCode [] 0 0 0 (.call ⟨none, 0, 0⟩) tx.gas
    false tx.env.block.fork

/-- The context before the top-level frame is started, unless building the
access list indexes out of bounds. -/
def context (tx : Transaction S) : Option (TxExecContext S) :=
  (AccessList.new tx.sender tx.recipient
      (tx.env.precompiledContracts.entries.map Sigma.fst) tx.accessList).map
    fun accessList =>
      { callStack := []
        curCall := tx.dummyFrame
        state := tx.state
        committedState := tx.committedState
        refund := 0
        accessList := accessList
        destroyed := HashSet.empty
        dirty := HashSet.empty
        status := .running
        origin := tx.sender
        gasPrice := tx.gasPrice
        env := tx.env }

/-- The gas that the top-level frame starts with; the subtraction wraps. -/
def executionGas (tx : Transaction S) : Gas := tx.gas - 21000

/-- Start the top-level frame of a message call. -/
def startCall (tx : Transaction S) (recipient : Addr) : Exec S Unit := do
  let nonce ← Exec.readState (getNonce · tx.sender)
  Exec.writeState (setNonce · tx.sender (nonce + 1))
  let snapshot ← Exec.takeSnapshot
  Exec.call_ recipient tx.sender tx.input tx.executionGas tx.value
    (.tx ⟨snapshot, .sender tx.sender⟩)

/-- Start the top-level frame of a contract creation. -/
def startCreate (tx : Transaction S) : Exec S Unit := do
  let snapshot ← Exec.takeSnapshot
  let nonce ← Exec.readState (getNonce · tx.sender)
  let contractAddr := createAddr tx.sender nonce
  Exec.create_ contractAddr tx.sender tx.input tx.value tx.executionGas
    (.tx ⟨snapshot, .contract contractAddr⟩)

/-- Start the top-level frame. -/
def startFrame (tx : Transaction S) : Exec S Unit :=
  match tx.recipient with
  | some recipient => tx.startCall recipient
  | none => tx.startCreate

/-- Everything that happens before the interpreter loop. -/
def begin (tx : Transaction S) : Exec S Unit :=
  Procedure.handle tx.startFrame fun err =>
    Procedure.update fun self =>
      { self with status := .finished (.reverted [] tx.executionGas err) }

/-- The context with which a transaction enters the interpreter loop. -/
def Enters (tx : Transaction S) (entered : TxExecContext S) : Prop :=
  ∃ initial, tx.context = some initial ∧ tx.begin initial = .ok () entered

/-- The contexts that a transaction reaches after some iterations. -/
def Reaches (tx : Transaction S) (reached : TxExecContext S) : Prop :=
  ∃ entered, tx.Enters entered ∧ Relation.ReflTransGen Step entered reached

end Transaction
end Qevm
