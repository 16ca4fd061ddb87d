import Qevm.Core.Context

/-!
# Instructions that read or write the context

The instructions of the interpreter that neither push nor pop a frame but touch
more than the executing frame.
-/

namespace Qevm
namespace Exec

open Params WorldState

variable {S : Type} [WorldState S] [Keccak256]

/-- The gas of an instruction that looks at an account: from Berlin on a warm
read, with a surcharge for the first access of the transaction. -/
def useGasAccountAccess (addr : Addr) (gasBefore : Fork → Gas) :
    Exec S Unit := do
  let fork ← fork
  if fork ≥ .berlin then
    useGas gasWarmStorageReadCostBerlin
    let list ← Procedure.reads TxExecContext.accessList
    Procedure.when (!list.containsAddr addr) do
      addAddr addr
      useGas (gasColdAccountAccessCostBerlin - gasWarmStorageReadCostBerlin)
  else
    useGas (gasBefore fork)

/-- The gas of `BALANCE` before Berlin. -/
def balanceGas (fork : Fork) : Gas :=
  if fork ≥ .istanbul then gasBalanceIstanbul
  else if fork ≥ .tangerineWhistle then gasBalanceTangerine
  else gasBalanceFrontier

def balance : Exec S Unit := do
  let addr := U256.toAddr (← consume1)
  useGasAccountAccess addr balanceGas
  push (← readState (getBalance · addr))

/-- An instruction that pushes a word of the context. -/
def pushOf (gas : Gas) (word : TxExecContext S → U256) : Exec S Unit := do
  useGas gas
  push (← Procedure.reads word)

def origin : Exec S Unit := pushOf gasQuick fun self => self.origin.toU256

/-- The gas of `EXTCODESIZE` before Berlin. -/
def extCodeSizeGas (fork : Fork) : Gas :=
  if fork ≥ .tangerineWhistle then gasExtCodeSizeTangerine
  else gasExtCodeSizeFrontier

def extCodeSize : Exec S Unit := do
  let addr := U256.toAddr (← consume1)
  useGasAccountAccess addr extCodeSizeGas
  let code ← readState (getCode · addr)
  push (U256.ofLen code.asBytes.length)

/-- The gas of `EXTCODECOPY` before Berlin. -/
def extCodeCopyGas (fork : Fork) : Gas :=
  if fork ≥ .tangerineWhistle then gasExtBaseTangerine else gasExtBaseFrontier

def extCodeCopy : Exec S Unit := do
  let (addr, memOff, codeOff, len) ← consume4
  let addr := U256.toAddr addr
  useGasAccountAccess addr extCodeCopyGas
  let codeOff := (checkedAsU64 codeOff).getD 0xffffffffffffffff
  let code ← readState (getCode · addr)
  let (mem, memGas) ← onCall
    (CallFrame.onMemory (Memory.getSliceMut memOff len))
  let len := U256.lowU64 len
  onCall (CallFrame.onMemory
    (Memory.write mem (getData code.asBytes codeOff len)))
  useGas memGas
  useGas (← gasCheckedMul (Memory.toWordSize len) gasCopyWord)

/-- The gas of `EXTCODEHASH` before Berlin. -/
def extCodeHashGas (fork : Fork) : Gas :=
  if fork ≥ .istanbul then gasExtCodeHashIstanbul
  else gasExtCodeHashConstantinople

def extCodeHash : Exec S Unit := do
  requireFork .constantinople
  let addr := U256.toAddr (← consume1)
  useGasAccountAccess addr extCodeHashGas
  let code ← readState (getCode · addr)
  push code.getHash

/-- The word pushed by `BLOCKHASH`: zero outside the last 256 blocks. -/
def blockHashWord (env : TxExecEnv) (number : U256) : U256 :=
  match checkedAsU64 number with
  | some n =>
      let upper := U256.lowU64 env.block.number
      let lower := if upper ≥ 256 then upper - 256 else 0
      if n < lower ∨ n ≥ upper then 0 else env.blockHashGetter n
  | none => 0

def blockHash : Exec S Unit := do
  useGas gasExt
  let number ← consume1
  push (← Procedure.reads fun self => blockHashWord self.env number)

def gasPrice : Exec S Unit := pushOf gasQuick fun self => self.gasPrice

def coinbase : Exec S Unit :=
  pushOf gasQuick fun self => self.env.block.coinbase.toU256

def timestamp : Exec S Unit :=
  pushOf gasQuick fun self => self.env.block.timestamp

def number : Exec S Unit := pushOf gasQuick fun self => self.env.block.number

def difficulty : Exec S Unit :=
  pushOf gasQuick fun self => self.env.block.difficulty

def gasLimit : Exec S Unit :=
  pushOf gasQuick fun self => U256.ofU64 self.env.block.gasLimit

def chainId : Exec S Unit := do
  requireFork .istanbul
  pushOf gasQuick fun self => self.env.chainId

def selfBalance : Exec S Unit := do
  requireFork .istanbul
  pushOf gasFast fun self => getBalance self.state self.curCall.callee

def baseFee : Exec S Unit := do
  requireFork .london
  pushOf gasQuick fun self => self.env.block.baseFee

/-- The gas of `SLOAD` before Berlin. -/
def sloadGas (fork : Fork) : Gas :=
  if fork ≥ .istanbul then gasSloadIstanbul
  else if fork ≥ .tangerineWhistle then gasSloadTangerine
  else gasSloadFrontier

/-- The gas of `SLOAD`: from Berlin on a first access of the slot costs more. -/
def useGasSload (call : CallFrame S) (key : Hash) : Exec S Unit := do
  if call.fork ≥ .berlin then
    let (_, slotExist) ← accessed call.callee key
    if slotExist then
      useGas gasWarmStorageReadCostBerlin
    else
      addSlot call.callee key
      useGas gasColdSloadCostBerlin
  else
    useGas (sloadGas call.fork)

def sload : Exec S Unit := do
  let key ← consume1
  let call ← call
  useGasSload call key
  push (← readState (getState · call.callee key))

/-- Jump to a destination; the counter is advanced by one afterwards, so it is
set one below the destination. -/
def setPc (dest : U256) : Exec S Unit := do
  let call ← call
  Procedure.raiseIf (!call.code.isValidJumpdest dest) .invalidJump
  let dest ← Procedure.unwrap .integerOverflow (checkedAsU64 dest)
  onCall (Procedure.update fun call => { call with pc := dest - 1 })

def jump : Exec S Unit := do
  useGas gasMid
  let dest ← consume1
  setPc dest

def jumpi : Exec S Unit := do
  useGas gasSlow
  let (dest, cond) ← consume2
  Procedure.when (cond ≠ 0) (setPc dest)

/-- The metering of `SSTORE` in Istanbul. -/
def sstoreIstanbulGas (key : Hash) (val : U256) : Exec S Unit := do
  let call ← call
  -- not enough gas for the re-entrancy sentry
  Procedure.raiseIf (call.unusedGas ≤ gasSstoreSentryIstanbul) .outOfGas
  let cur ← readState (getState · call.callee key)
  if cur = val then
    useGas gasSloadIstanbul
  else
    let orig ← Procedure.reads fun self =>
      getState self.committedState call.callee key
    if orig = cur then
      if orig = 0 then
        useGas gasSstoreSetIstanbul
      else
        Procedure.when (val = 0) (addRefund gasSstoreRefundIstanbul)
        useGas gasSstoreResetIstanbul
    else
      Procedure.when (orig ≠ 0) do
        if cur = 0 then
          subRefund gasSstoreRefundIstanbul
        else
          Procedure.when (val = 0) (addRefund gasSstoreRefundIstanbul)
      Procedure.when (orig = val) do
        addRefund (if orig = 0 then
          gasSstoreSetIstanbul - gasSloadIstanbul
        else
          gasSstoreResetIstanbul - gasSloadIstanbul)
      useGas gasSloadIstanbul

/-- The metering of `SSTORE` from Berlin on. -/
def sstoreBerlinLondonGas (key : Hash) (val : U256) (clearingRefund : UInt64) :
    Exec S Unit := do
  let call ← call
  -- not enough gas for the re-entrancy sentry
  Procedure.raiseIf (call.unusedGas ≤ gasSstoreSentryIstanbul) .outOfGas
  let (addrExist, slotExist) ← accessed call.callee key
  Procedure.when (!slotExist) do
    addSlot call.callee key
    Procedure.abortIf (!addrExist) .addrNotInAccessList
  let cost : Gas := if slotExist then 0 else gasColdSloadCostBerlin
  let cur ← readState (getState · call.callee key)
  if cur = val then
    useGas (cost + gasWarmStorageReadCostBerlin)
  else
    let orig ← Procedure.reads fun self =>
      getState self.committedState call.callee key
    if orig = cur then
      if orig = 0 then
        useGas (cost + gasSstoreSetIstanbul)
      else
        Procedure.when (val = 0) (addRefund clearingRefund)
        useGas (cost + (gasSstoreResetIstanbul - gasColdSloadCostBerlin))
    else
      Procedure.when (orig ≠ 0) do
        if cur = 0 then
          subRefund clearingRefund
        else
          Procedure.when (val = 0) (addRefund clearingRefund)
      Procedure.when (orig = val) do
        addRefund (if orig = 0 then
          gasSstoreSetIstanbul - gasWarmStorageReadCostBerlin
        else
          gasSstoreResetIstanbul - gasColdSloadCostBerlin -
            gasWarmStorageReadCostBerlin)
      useGas (cost + gasWarmStorageReadCostBerlin)

/-- The metering of `SSTORE` in Constantinople. -/
def sstoreConstantinopleGas (key : Hash) (val : U256) : Exec S Unit := do
  let call ← call
  let cur ← readState (getState · call.callee key)
  if cur = 0 ∧ val ≠ 0 then
    useGas gasSstoreSet
  else if cur ≠ 0 ∧ val = 0 then
    addRefund gasSstoreRefund
    useGas gasSstoreClear
  else
    useGas gasSstoreReset

/-- The metering of `SSTORE`; the forks before Constantinople charge nothing. -/
def sstoreGas (key : Hash) (val : U256) : Exec S Unit := do
  let fork ← fork
  if fork ≥ .berlin then
    sstoreBerlinLondonGas key val
      (if fork ≥ .london then gasSstoreRefundLondon
        else gasSstoreRefundIstanbul)
  else if fork ≥ .istanbul then
    sstoreIstanbulGas key val
  else if fork ≥ .constantinople then
    sstoreConstantinopleGas key val
  else
    pure ()

def sstore : Exec S Unit := do
  let call ← call
  Procedure.raiseIf call.readOnly .writeProtection
  let (key, val) ← consume2
  sstoreGas key val
  writeState (setState · call.callee key val)
  markDirty call.callee

/-- Pop a number of log topics. -/
def consumeTopics : Nat → Exec S (List Hash)
  | 0 => pure []
  | num + 1 => do
      let topic ← consume1
      let topics ← consumeTopics num
      pure (topic :: topics)

/-- Append a record to the log of the world state. -/
def appendLog (topics : List Hash) (data : Bytes) : Exec S Unit := do
  let self ← Procedure.read
  let state ← Procedure.unwrap .hashLength
    (addLog self.state self.curCall.callee topics data self.env.block.number)
  writeState fun _ => state

def log (num : Nat) : Exec S Unit := do
  let call ← call
  Procedure.raiseIf call.readOnly .writeProtection
  useGas gasLog
  useGas (← gasCheckedMul (UInt64.ofNat num) gasLogTopic)
  let (off, length) ← consume2
  let length64 ← Procedure.okOr .outOfMemory (checkedAsU64 length)
  useGas (← gasCheckedMul length64 gasLogData)
  let topics ← consumeTopics num
  let (mem, memGas) ← getSlice off length
  appendLog topics mem
  useGas memGas

end Exec
end Qevm
