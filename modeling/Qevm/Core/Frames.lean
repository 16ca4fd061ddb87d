import Qevm.Core.Instr

/-!
# Opening and ending call frames

The six instructions that may push a frame, the two helpers they share with the
transaction level, and the three ways in which the end of a frame is settled.
A call is settled without a frame when there is no code to run.
-/

namespace Qevm
namespace Exec

open Params WorldState

variable {S : Type} [WorldState S] [Keccak256]

/-! ### Ending frames -/

/-- Accept or reject the returned code of a contract creation. -/
def createPostProcessing (contractAddr : Addr) (data : Bytes) (ret : Result) :
    Exec S Unit := do
  let call ← call
  match ret with
  | .error .reverted => pure ()
  | .error _ => useGas call.unusedGas
  | .ok () => do
      Procedure.raiseIf
        (call.fork ≥ .spuriousDragon ∧ data.length > maxCodeSize)
        .maxCodeSizeExceeded
      Procedure.raiseIf
        (call.fork ≥ .london ∧ data.length ≥ 1 ∧ data[0]? = some 0xef)
        .invalidCode
      let gas ← gasCheckedMul (UInt64.ofNat data.length) gasCreateData
      Procedure.handle (useGas gas)
        fun _ => Procedure.raise .codeStoreOutOfGas
      writeState (setCode · contractAddr data)
      markDirty contractAddr

/-- Settle the end of a contract creation in the frame of its creator. -/
def createEnd
    (args : CreateArgs S) (data : Bytes) (unusedGas : Gas) (ret : Result) :
    Exec S Unit := do
  Procedure.when ret.isErr (writeState (rollback · args.snapshot))
  let ret : Result ← Procedure.attempt
    (createPostProcessing args.contractAddr data ret)
  onCall (Procedure.update fun call =>
    { call with unusedGas := call.unusedGas + unusedGas })
  push (if ret.isErr then 0 else args.contractAddr.toU256)
  onCall (Procedure.update fun call =>
    { call with
      lastReturned := if ret = .error .reverted then data else [] })

/-- Write the returned data of a call and tell how much gas it hands back. -/
def callReturn
    (args : CallArgs S) (data : Bytes) (unusedGas : Gas) (ret : Result) :
    Exec S Gas :=
  match ret with
  | .ok () | .error .reverted => do
      let _ ← onCall (CallFrame.onMemory
        (Memory.set args.retOff args.retLen data))
      pure unusedGas
  | .error _ => pure 0

/-- Settle the end of a message call in the frame of its caller. -/
def callEnd
    (args : CallArgs S) (data : Bytes) (unusedGas : Gas) (ret : Result) :
    Exec S Unit := do
  Procedure.when ret.isErr
    (writeState fun state => args.snapshot.elim state (rollback state))
  let unusedGas ← callReturn args data unusedGas ret
  onCall (Procedure.update fun call =>
    { call with unusedGas := call.unusedGas + unusedGas })
  push (if ret.isErr then 0 else 1)
  onCall (Procedure.update fun call => { call with lastReturned := data })

/-- Delete those of the given accounts that are empty when their turn comes. -/
def deleteEmpty (state : S) (accounts : List Addr) : S :=
  accounts.foldl
    (fun state acc => if isEmpty state acc then deleteAccount state acc
      else state) state

/-- Delete the given accounts. -/
def deleteAll (state : S) (accounts : List Addr) : S :=
  accounts.foldl deleteAccount state

/-- The context after the touched empty accounts and the self-destructed ones
have been deleted. -/
def cleaned (self : TxExecContext S) : TxExecContext S :=
  let state :=
    if self.curCall.fork ≥ .spuriousDragon then
      deleteEmpty self.state self.dirty.toList
    else
      self.state
  { self with
    state := deleteAll state self.destroyed.toList
    dirty := HashSet.empty
    destroyed := HashSet.empty }

/-- Delete the touched empty accounts and the self-destructed ones. -/
def cleanUp : Exec S Unit := Procedure.update cleaned

/-- What the end of a transaction is settled with: the result of its top-level
frame after the processing of a created contract, and the contract. -/
def txResult (args : TxArgs S) (data : Bytes) (err : Result) :
    Exec S (Result × Option Addr) :=
  match args.aux with
  | .contract addr => do
      let ret ← Procedure.attempt (createPostProcessing addr data err)
      pure (ret, some addr)
  | .sender addr => do
      markDirty addr
      pure (err, none)

/-- Finish the transaction. -/
def finish (args : TxArgs S) (data : Bytes) (unusedGas : Gas)
    (ret : Result) (addr : Option Addr) : Exec S Unit := do
  match ret with
  | .error err => do
      writeState (rollback · args.snapshot)
      Procedure.update fun self =>
        { self with status := .finished (.reverted data unusedGas err) }
  | .ok () =>
      Procedure.update fun self =>
        { self with status := .finished (.succeeded data unusedGas addr) }

/-- Settle the end of the top-level frame. -/
def txEnd (args : TxArgs S) (data : Bytes) (unusedGas : Gas) (err : Result) :
    Exec S Unit := do
  let callDepth ← callDepth
  Procedure.abortIf (callDepth ≠ 0) .callStackNotEmpty
  let (ret, addr) ← txResult args data err
  let status ← Procedure.reads TxExecContext.status
  match status with
  | .running => do
      cleanUp
      finish args data unusedGas ret addr
  | .finished _ => Procedure.abort .unreachable

/-- End the executing frame with returned data and a result. -/
def finishCall (data : Bytes) (err : Result) : Exec S Unit := do
  let frame ← callPop
  match frame.callType with
  | .tx args => txEnd args data frame.unusedGas err
  | .create args => createEnd args data frame.unusedGas err
  | .call args => callEnd args data frame.unusedGas err

/-- Settle a call that runs no code.  The caller is moved on here because no
frame was entered. -/
def returnWithoutCallstack
    (args : CallType S) (ret : Bytes) (unusedGas : Gas) (err : Result) :
    Exec S Unit :=
  match args with
  | .tx args => txEnd args ret unusedGas err
  | .call args => do
      let c ← Procedure.attempt (callEnd args ret unusedGas err)
      advancePc 0 false
      match c with
      | .ok () => pure ()
      | .error err => Procedure.raise err
  | .create _ => Procedure.abort .unreachable

/-! ### The helpers shared with the transaction level -/

/-- Everything that the start of a contract creation does before its frame is
pushed. -/
def openCreate (contractAddr caller : Addr) (value : Wei) : Exec S Unit := do
  let callee := contractAddr
  let balance ← readState (getBalance · caller)
  Procedure.raiseIf (balance < value) .insufficientBalance
  let code_ ← readState (getCode · contractAddr)
  let nonce ← readState (getNonce · caller)
  let nonce ← Procedure.okOr .nonceIntOverflow (checkedAddU64 nonce 1)
  let cnonce ← readState (getNonce · contractAddr)
  writeState (setNonce · caller nonce)
  let fork ← fork
  Procedure.when (fork ≥ .berlin) (addAddr contractAddr)
  let h := code_.getHash
  Procedure.raiseIf (cnonce ≠ 0) .contractAddrCollision
  Procedure.raiseIf (h ≠ 0 ∧ h ≠ Hash.emptyBytesHash) .contractAddrCollision
  writeState (createAccount · contractAddr)
  Procedure.when (fork ≥ .spuriousDragon)
    (writeState (setNonce · contractAddr 1))
  transfer caller callee value
  markDirty contractAddr
  markDirty caller
  markDirty callee

/-- Start the frame of a contract creation. -/
def create_
    (contractAddr caller : Addr) (code : Bytes) (value : Wei) (gas : Gas)
    (args : CallType S) : Exec S Unit := do
  openCreate contractAddr caller value
  callPush (PlainCode.new code).toCode [] value contractAddr caller args gas
    false

/-- The checks of a message call, which also touch both accounts. -/
def admitCall (callee caller : Addr) (value : Wei) : Exec S Unit := do
  let callDepth ← callDepth
  Procedure.raiseIf (callDepth = maxCallDepth) .depth
  let balance ← readState (getBalance · caller)
  Procedure.raiseIf (balance < value) .insufficientBalance
  markDirty caller
  markDirty callee

/-- Move the funds of a message call to its callee, which is created when it is
missing. -/
def fundCall (callee caller : Addr) (value : Wei) : Exec S Unit := do
  let exists_ ← readState (exist · callee)
  Procedure.when (!exists_) (writeState (createAccount · callee))
  transfer caller callee value

/-- Run the code of the called account, or settle the call when it has none. -/
def runCode
    (callee caller : Addr) (input : Bytes) (gas : Gas) (value : Wei)
    (args : CallType S) : Exec S Unit := do
  let code ← readState (getCode · callee)
  if code.asBytes ≠ [] then
    callPush code input value callee caller args gas false
  else
    returnWithoutCallstack args [] gas (.ok ())

/-- Start the frame of a message call, or settle the call at once. -/
def call_
    (callee caller : Addr) (input : Bytes) (gas : Gas) (value : Wei)
    (args : CallType S) : Exec S Unit := do
  admitCall callee caller value
  let self ← Procedure.read
  let precompiled := self.env.precompiledContracts.lookup callee
  if !exist self.state callee ∧ precompiled.isNone ∧
      self.curCall.fork ≥ .spuriousDragon ∧ value = 0 then
    returnWithoutCallstack args [] gas (.ok ())
  else
    fundCall callee caller value
    match precompiled with
    | none => runCode callee caller input gas value args
    | some contract =>
        returnWithoutCallstack args (contract input).1 gas (contract input).2

/-! ### Gas of the call family -/

/-- The gas handed to a call: the request, capped from EIP-150 on. -/
def gasCallCommon (callCost : U256) : Exec S Gas := do
  let call ← call
  let gas := call.unusedGas - call.unusedGas / 64
  match checkedAsU64 callCost with
  | some cost =>
      pure (if call.fork ≥ .tangerineWhistle ∧ gas < cost then gas else cost)
  | none =>
      if call.fork ≥ .tangerineWhistle then
        pure gas
      else
        Procedure.raise .gasIntOverflow

/-- The surcharge of Berlin for the first access to an account. -/
def useGasCallCommonBerlin (addr : Addr) : Exec S Unit := do
  let self ← Procedure.read
  Procedure.when
    (self.curCall.fork ≥ .berlin ∧ !self.accessList.containsAddr addr) do
      addAddr addr
      useGas (gasColdAccountAccessCostBerlin - gasWarmStorageReadCostBerlin)

/-- Charge the memory fee and the gas handed to a call. -/
def useGasQuota (gas : U256) (memGas : Gas) : Exec S Gas := do
  useGas memGas
  let gasTmp ← gasCallCommon gas
  useGas gasTmp
  pure gasTmp

def useGasCall (val : U256) (addr : Addr) (gas : U256) (memGas : Gas) :
    Exec S Gas := do
  useGasCallCommonBerlin addr
  Procedure.when (val ≠ 0) do
    let self ← Procedure.read
    Procedure.when
      (self.curCall.fork ≥ .spuriousDragon ∧ isEmpty self.state addr)
      (useGas gasCallNewAccount)
    useGas gasCallValueTrans
  useGasQuota gas memGas

def useGasDelegateCall (addr : Addr) (gas : U256) (memGas : Gas) :
    Exec S Gas := do
  useGasCallCommonBerlin addr
  useGasQuota gas memGas

def useGasCallCode (val : U256) (addr : Addr) (gas : U256) (memGas : Gas) :
    Exec S Gas := do
  useGasCallCommonBerlin addr
  Procedure.when (val ≠ 0) (useGas gasCallValueTrans)
  useGasQuota gas memGas

def useGasStaticCall (addr : Addr) (gas : U256) (memGas : Gas) :
    Exec S Gas := do
  useGasCallCommonBerlin addr
  useGasQuota gas memGas

/-! ### The instructions that open frames

Each of them first pops its operands and pays, which only touches the executing
frame and the access list, and then takes its snapshot and starts the frame. -/

/-- What a call asks for, once it is paid. -/
structure CallRequest where
  addr : Addr
  value : U256
  input : Bytes
  retOff : U256
  retLen : U256
  /-- The gas taken from the caller for the callee. -/
  gasQuota : Gas

/-- What a creation asks for, once it is paid. -/
structure CreateRequest where
  value : U256
  code : Bytes
  /-- The salt of `CREATE2`. -/
  salt : U256
  /-- The gas taken from the creator for the initialization code. -/
  gasQuota : Gas

/-- The base cost of a call. -/
def callBaseGas (fork : Fork) : Gas :=
  if fork ≥ .berlin then gasWarmStorageReadCostBerlin
  else if fork ≥ .tangerineWhistle then gasCallTangerine
  else gasCallFrontier

/-- Fail at the limit of the call depth. -/
def requireDepth : Exec S Unit := do
  let callDepth ← callDepth
  Procedure.raiseIf (callDepth = maxCallDepth) .depth

/-- Operands and gas of `CREATE`. -/
def chargeCreate : Exec S CreateRequest := do
  useGas gasCreate
  let call ← call
  Procedure.raiseIf call.readOnly .writeProtection
  requireDepth
  let (value, off, len) ← consume3
  let (code, memGas) ← getSlice off len
  useGas memGas
  let call ← Exec.call
  -- the gas of the nested call is borrowed, the residual is returned later
  let gasQuota := if call.fork ≥ .tangerineWhistle then
      call.unusedGas - call.unusedGas / 64
    else
      call.unusedGas
  useGas gasQuota
  pure ⟨value, code, 0, gasQuota⟩

def createBegin : Exec S Unit := do
  let request ← chargeCreate
  let caller ← Procedure.reads fun self => self.curCall.callee
  let nonce ← readState (getNonce · caller)
  let snapshot ← takeSnapshot
  let contractAddr := createAddr caller nonce
  create_ contractAddr caller request.code request.value request.gasQuota
    (.create ⟨snapshot, contractAddr⟩)

/-- Operands and gas of `CREATE2`. -/
def chargeCreate2 : Exec S CreateRequest := do
  requireFork .constantinople
  let call ← call
  Procedure.raiseIf call.readOnly .writeProtection
  requireDepth
  useGas gasCreate2
  let (value, off, len, salt) ← consume4
  let (code, memGas) ← getSlice off len
  useGas memGas
  useGas (← gasCheckedMul (Memory.toWordSize (U256.lowU64 len)) gasSha3Word)
  let call ← Exec.call
  let gasQuota := call.unusedGas - call.unusedGas / 64
  useGas gasQuota
  pure ⟨value, code, salt, gasQuota⟩

def create2Begin : Exec S Unit := do
  let request ← chargeCreate2
  let caller ← Procedure.reads fun self => self.curCall.callee
  let contractAddr := createAddr2 caller (U256.toBigEndian request.salt)
    (U256.toBigEndian (Hash.hash request.code))
  let snapshot ← takeSnapshot
  create_ contractAddr caller request.code request.value request.gasQuota
    (.create ⟨snapshot, contractAddr⟩)

/-- The operands of `CALL` and `CALLCODE`. -/
structure CallOperands where
  gas : U256
  addr : Addr
  value : U256
  input : Bytes
  /-- The fee of growing the memory to contain the input. -/
  memGas : Gas
  retOff : U256
  retLen : U256

/-- Base cost and operands of `CALL` and `CALLCODE`. -/
def callOperands : Exec S CallOperands := do
  let fork ← fork
  useGas (callBaseGas fork)
  let (gas, addr, val) ← consume3
  let (inOff, inLen) ← consume2
  let (retOff, retLen) ← consume2
  let (input, memGas) ← getSlice inOff inLen
  pure ⟨gas, U256.toAddr addr, val, input, memGas, retOff, retLen⟩

/-- Operands and gas of `CALL`. -/
def chargeCall : Exec S CallRequest := do
  let args ← callOperands
  let call ← call
  Procedure.raiseIf (call.readOnly ∧ args.value ≠ 0) .writeProtection
  let gasQuota ← useGasCall args.value args.addr args.gas args.memGas
  pure ⟨args.addr, args.value, args.input, args.retOff, args.retLen, gasQuota⟩

/-- The gas given to the callee of `CALL` and `CALLCODE`. -/
def addStipend (request : CallRequest) : Gas :=
  if request.value = 0 then request.gasQuota + gasCallStipend
  else request.gasQuota

def callBegin : Exec S Unit := do
  let request ← chargeCall
  let caller ← Procedure.reads fun self => self.curCall.callee
  let snapshot ← takeSnapshot
  call_ request.addr caller request.input (addStipend request) request.value
    (.call ⟨some snapshot, request.retOff, request.retLen⟩)

/-- Run the precompiled contract of the address `callee`, or the code of the
address `codeAddr` if there is none. -/
def enter
    (codeAddr : Addr) (input : Bytes) (value : Wei) (callee caller : Addr)
    (args : CallArgs S) (gas : Gas) (readOnly : Bool) : Exec S Unit := do
  let self ← Procedure.read
  match self.env.precompiledContracts.lookup callee with
  | none =>
      callPush (getCode self.state codeAddr) input value callee caller
        (.call args) gas readOnly
  | some contract =>
      returnWithoutCallstack (.call args) (contract input).1 gas
        (contract input).2

/-- Operands and gas of `CALLCODE`. -/
def chargeCallCode : Exec S CallRequest := do
  requireDepth
  let args ← callOperands
  let gasQuota ← useGasCallCode args.value args.addr args.gas args.memGas
  pure ⟨args.addr, args.value, args.input, args.retOff, args.retLen, gasQuota⟩

def callCodeBegin : Exec S Unit := do
  let request ← chargeCallCode
  let callee ← Procedure.reads fun self => self.curCall.callee
  let snapshot ← takeSnapshot
  let balance ← readState (getBalance · callee)
  Procedure.raiseIf (balance < request.value) .insufficientBalance
  enter request.addr request.input request.value callee callee
    ⟨some snapshot, request.retOff, request.retLen⟩ (addStipend request) false

/-- Operands and gas of `DELEGATECALL`. -/
def chargeDelegateCall : Exec S CallRequest := do
  requireFork .homestead
  requireDepth
  let fork ← fork
  useGas (callBaseGas fork)
  let (gas, addr) ← consume2
  let (inOff, inLen) ← consume2
  let (retOff, retLen) ← consume2
  let (input, memGas) ← getSlice inOff inLen
  let addr := U256.toAddr addr
  let gasQuota ← useGasDelegateCall addr gas memGas
  let call ← call
  pure ⟨addr, call.value, input, retOff, retLen, gasQuota⟩

def delegateCallBegin : Exec S Unit := do
  let request ← chargeDelegateCall
  -- callee, caller and value are inherited
  let call ← call
  let snapshot ← takeSnapshot
  enter request.addr request.input request.value call.callee call.caller
    ⟨some snapshot, request.retOff, request.retLen⟩ request.gasQuota false

/-- Operands and gas of `STATICCALL`. -/
def chargeStaticCall : Exec S CallRequest := do
  requireFork .byzantium
  requireDepth
  let fork ← fork
  useGas (if fork ≥ .berlin then gasWarmStorageReadCostBerlin
    else gasCallTangerine)
  let (gas, addr) ← consume2
  let (inOff, inLen) ← consume2
  let (retOff, retLen) ← consume2
  let (input, memGas) ← getSlice inOff inLen
  let addr := U256.toAddr addr
  let gasQuota ← useGasStaticCall addr gas memGas
  pure ⟨addr, 0, input, retOff, retLen, gasQuota⟩

def staticCallBegin : Exec S Unit := do
  let request ← chargeStaticCall
  let caller ← Procedure.reads fun self => self.curCall.callee
  -- no snapshot is taken because the callee is read-only
  enter request.addr request.input request.value request.addr caller
    ⟨none, request.retOff, request.retLen⟩ request.gasQuota true

/-! ### The instructions that end frames -/

/-- Read the region that a frame returns. -/
def returnRegion : Exec S Bytes := do
  let (off, len) ← consume2
  let (retval, memGas) ← getSlice off len
  useGas memGas
  pure retval

def return_ : Exec S Unit := do
  let retval ← returnRegion
  finishCall retval (.ok ())

/-- Read the region that a failing frame returns. -/
def revertRegion : Exec S Bytes := do
  requireFork .byzantium
  returnRegion

def revert : Exec S Unit := do
  let retval ← revertRegion
  finishCall retval (.error .reverted)

/-- The gas of `SELFDESTRUCT` from EIP-150 on, and its refund. -/
def useGasSelfDestruct (call : CallFrame S) (beneficiary : Addr) :
    Exec S Unit := do
  useGas gasSelfDestruct
  let self ← Procedure.read
  if call.fork ≥ .spuriousDragon then
    Procedure.when
      (isEmpty self.state beneficiary ∧ getBalance self.state call.callee ≠ 0)
      (useGas gasCreateBySelfDestruct)
  else
    Procedure.when (!exist self.state beneficiary)
      (useGas gasCreateBySelfDestruct)
  Procedure.when
    (call.fork < .london ∧ call.callee ∉ self.destroyed)
    (addRefund gasSelfDestructRefund)

/-- Move the whole balance of an account; a credit that overflows is dropped. -/
def sweep (callee beneficiary : Addr) : Exec S Unit :=
  writeState fun state =>
    setBalance (addBalance state beneficiary (getBalance state callee)).1
      callee 0

/-- Everything that `SELFDESTRUCT` does before the frame ends. -/
def destroy : Exec S Unit := do
  let call ← call
  Procedure.raiseIf call.readOnly .writeProtection
  let beneficiary := U256.toAddr (← consume1)
  let self ← Procedure.read
  Procedure.when
    (call.fork ≥ .berlin ∧ !self.accessList.containsAddr beneficiary) do
      addAddr beneficiary
      useGas gasColdAccountAccessCostBerlin
  Procedure.when (call.fork ≥ .tangerineWhistle)
    (useGasSelfDestruct call beneficiary)
  sweep call.callee beneficiary
  markDestroyed call.callee
  markDirty call.callee
  markDirty beneficiary

def selfDestruct : Exec S Unit := do
  destroy
  finishCall [] (.ok ())

end Exec
end Qevm
