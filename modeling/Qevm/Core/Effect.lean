import Qevm.Core.Quiet

/-!
# Instructions as local work followed by one frame operation

Whatever an instruction does, it pushes, settles or ends a frame at most once,
and then as its last action.  `effect` is the work before that action together
with the choice of the action, and `dispatch_eq` says that an instruction is its
effect followed by the action.  Everything before the action leaves the
suspended frames alone.
-/

set_option synthInstance.maxSize 100000

namespace Qevm

open Params WorldState

/-- The last action of an instruction. -/
inductive Tail (S : Type)
  /-- Go on with the next instruction of the frame. -/
  | next
  /-- Push a frame. -/
  | enter
      (code : Code) (input : Bytes) (value : Wei) (callee caller : Addr)
      (callType : CallType S) (gas : Gas) (readOnly : Bool)
  /-- Settle a call that runs no code. -/
  | settle (args : CallType S) (ret : Bytes) (gas : Gas) (err : Result)
  /-- End the frame. -/
  | finish (data : Bytes) (err : Result)

/-- The last actions of an instruction of the loop: the instructions that open
frames push the frame of a call or of a creation or settle a call, and the
others do neither. -/
def Tail.Nested {S : Type} (enters : Bool) : Tail S → Prop
  | .next | .finish _ _ => enters = false
  | .enter _ _ _ _ _ (.tx _) _ _ => False
  | .enter _ _ _ _ _ _ _ _ => enters = true
  | .settle (.call _) _ _ _ => enters = true
  | .settle _ _ _ _ => False

namespace Exec

variable {S : Type} [WorldState S] [Keccak256]

/-- Perform the last action of an instruction. -/
def runTail : Tail S → Exec S Unit
  | .next => pure ()
  | .enter code input value callee caller callType gas readOnly =>
      callPush code input value callee caller callType gas readOnly
  | .settle args ret gas err => returnWithoutCallstack args ret gas err
  | .finish data err => finishCall data err

/-- The part of `create_` before its last action. -/
def createEffect
    (contractAddr caller : Addr) (code : Bytes) (value : Wei) (gas : Gas)
    (args : CallType S) : Exec S (Tail S) := do
  openCreate contractAddr caller value
  pure (.enter (PlainCode.new code).toCode [] value contractAddr caller args gas
    false)

/-- The part of `run_code` before its last action. -/
def runCodeEffect
    (callee caller : Addr) (input : Bytes) (gas : Gas) (value : Wei)
    (args : CallType S) : Exec S (Tail S) := do
  let code ← readState (getCode · callee)
  pure (if code.asBytes ≠ [] then
      .enter code input value callee caller args gas false
    else
      .settle args [] gas (.ok ()))

/-- The part of `call_` before its last action. -/
def callEffect
    (callee caller : Addr) (input : Bytes) (gas : Gas) (value : Wei)
    (args : CallType S) : Exec S (Tail S) := do
  admitCall callee caller value
  let self ← Procedure.read
  let precompiled := self.env.precompiledContracts.lookup callee
  if !exist self.state callee ∧ precompiled.isNone ∧
      self.curCall.fork ≥ .spuriousDragon ∧ value = 0 then
    pure (.settle args [] gas (.ok ()))
  else
    fundCall callee caller value
    match precompiled with
    | none => runCodeEffect callee caller input gas value args
    | some contract =>
        pure (.settle args (contract input).1 gas (contract input).2)

/-- The part of `enter` before its last action. -/
def enterEffect
    (codeAddr : Addr) (input : Bytes) (value : Wei) (callee caller : Addr)
    (args : CallArgs S) (gas : Gas) (readOnly : Bool) : Exec S (Tail S) := do
  let self ← Procedure.read
  pure (match self.env.precompiledContracts.lookup callee with
    | none =>
        .enter (getCode self.state codeAddr) input value callee caller
          (.call args) gas readOnly
    | some contract =>
        .settle (.call args) (contract input).1 gas (contract input).2)

/-- The part of `CREATE` before its last action. -/
def createBeginEffect : Exec S (Tail S) := do
  let request ← chargeCreate
  let caller ← Procedure.reads fun self => self.curCall.callee
  let nonce ← readState (getNonce · caller)
  let snapshot ← takeSnapshot
  let contractAddr := createAddr caller nonce
  createEffect contractAddr caller request.code request.value request.gasQuota
    (.create ⟨snapshot, contractAddr⟩)

/-- The part of `CREATE2` before its last action. -/
def create2BeginEffect : Exec S (Tail S) := do
  let request ← chargeCreate2
  let caller ← Procedure.reads fun self => self.curCall.callee
  let contractAddr := createAddr2 caller (U256.toBigEndian request.salt)
    (U256.toBigEndian (Hash.hash request.code))
  let snapshot ← takeSnapshot
  createEffect contractAddr caller request.code request.value request.gasQuota
    (.create ⟨snapshot, contractAddr⟩)

/-- The part of `CALL` before its last action. -/
def callBeginEffect : Exec S (Tail S) := do
  let request ← chargeCall
  let caller ← Procedure.reads fun self => self.curCall.callee
  let snapshot ← takeSnapshot
  callEffect request.addr caller request.input (addStipend request)
    request.value (.call ⟨some snapshot, request.retOff, request.retLen⟩)

/-- The part of `CALLCODE` before its last action. -/
def callCodeBeginEffect : Exec S (Tail S) := do
  let request ← chargeCallCode
  let callee ← Procedure.reads fun self => self.curCall.callee
  let snapshot ← takeSnapshot
  let balance ← readState (getBalance · callee)
  Procedure.raiseIf (balance < request.value) .insufficientBalance
  enterEffect request.addr request.input request.value callee callee
    ⟨some snapshot, request.retOff, request.retLen⟩ (addStipend request) false

/-- The part of `DELEGATECALL` before its last action. -/
def delegateCallBeginEffect : Exec S (Tail S) := do
  let request ← chargeDelegateCall
  let call ← call
  let snapshot ← takeSnapshot
  enterEffect request.addr request.input request.value call.callee call.caller
    ⟨some snapshot, request.retOff, request.retLen⟩ request.gasQuota false

/-- The part of `STATICCALL` before its last action. -/
def staticCallBeginEffect : Exec S (Tail S) := do
  let request ← chargeStaticCall
  let caller ← Procedure.reads fun self => self.curCall.callee
  enterEffect request.addr request.input request.value request.addr caller
    ⟨none, request.retOff, request.retLen⟩ request.gasQuota true

/-- The part of an instruction before its last action, with that action. -/
def effect (inst : Inst) : Exec S (Tail S) :=
  match inst.opcode with
  | .stop => pure (.finish [] (.ok ()))
  | .return => do
      let retval ← returnRegion
      pure (.finish retval (.ok ()))
  | .revert => do
      let retval ← revertRegion
      pure (.finish retval (.error .reverted))
  | .selfDestruct => do
      destroy
      pure (.finish [] (.ok ()))
  | .create => createBeginEffect
  | .create2 => create2BeginEffect
  | .call => callBeginEffect
  | .callCode => callCodeBeginEffect
  | .delegateCall => delegateCallBeginEffect
  | .staticCall => staticCallBeginEffect
  | _ => do
      dispatch inst
      pure .next

/-! ### An instruction is its effect followed by the last action -/

theorem create_eq
    (contractAddr caller : Addr) (code : Bytes) (value : Wei) (gas : Gas)
    (args : CallType S) :
    create_ contractAddr caller code value gas args =
      createEffect contractAddr caller code value gas args >>= runTail := by
  simp only [create_, createEffect, Procedure.bind_assoc,
    Procedure.pure_bind, runTail]

theorem runCode_eq
    (callee caller : Addr) (input : Bytes) (gas : Gas) (value : Wei)
    (args : CallType S) :
    runCode callee caller input gas value args =
      runCodeEffect callee caller input gas value args >>= runTail := by
  simp only [runCode, runCodeEffect, Procedure.bind_assoc,
    Procedure.pure_bind]
  congr
  funext code
  split <;> rfl

theorem call_eq
    (callee caller : Addr) (input : Bytes) (gas : Gas) (value : Wei)
    (args : CallType S) :
    call_ callee caller input gas value args =
      callEffect callee caller input gas value args >>= runTail := by
  simp only [call_, callEffect, Procedure.bind_assoc, runCode_eq]
  congr
  funext _
  congr
  funext self
  split
  · rfl
  · rw [Procedure.bind_assoc]
    congr
    funext _
    cases self.env.precompiledContracts.lookup callee <;> rfl

theorem enter_eq
    (codeAddr : Addr) (input : Bytes) (value : Wei) (callee caller : Addr)
    (args : CallArgs S) (gas : Gas) (readOnly : Bool) :
    enter codeAddr input value callee caller args gas readOnly =
      enterEffect codeAddr input value callee caller args gas readOnly >>=
        runTail := by
  simp only [enter, enterEffect, Procedure.bind_assoc, Procedure.pure_bind]
  congr
  funext self
  cases self.env.precompiledContracts.lookup callee <;> rfl

/-- Everything that the start of a creation does before it moves the funds. -/
def prepareCreate (contractAddr caller : Addr) (value : Wei) : Exec S Unit := do
  let balance ← readState (getBalance · caller)
  Procedure.raiseIf (balance < value) .insufficientBalance
  let code_ ← readState (getCode · contractAddr)
  let nonce ← readState (getNonce · caller)
  let nonce ← Procedure.okOr .nonceIntOverflow (checkedAddU64 nonce 1)
  let cnonce ← readState (getNonce · contractAddr)
  writeState (setNonce · caller nonce)
  let fork ← fork
  Procedure.when (fork ≥ .berlin) (addAddr contractAddr)
  let h := code_.getHash
  Procedure.raiseIf (cnonce ≠ 0) .contractAddrCollision
  Procedure.raiseIf (h ≠ 0 ∧ h ≠ Hash.emptyBytesHash) .contractAddrCollision
  writeState (createAccount · contractAddr)
  Procedure.when (fork ≥ .spuriousDragon)
    (writeState (setNonce · contractAddr 1))

/-- A new contract is paid after it has been set up. -/
theorem openCreate_eq (contractAddr caller : Addr) (value : Wei) :
    (openCreate contractAddr caller value : Exec S Unit) = (do
      prepareCreate contractAddr caller value
      transfer caller contractAddr value
      markDirty contractAddr
      markDirty caller
      markDirty contractAddr) := by
  simp only [openCreate, prepareCreate, Procedure.bind_assoc]

/-- Create an account unless it exists. -/
def createMissing (callee : Addr) : Exec S Unit := do
  let exists_ ← readState (exist · callee)
  Procedure.when (!exists_) (writeState (createAccount · callee))

omit [Keccak256] in
/-- A called account is created before it is paid. -/
theorem fundCall_eq (callee caller : Addr) (value : Wei) :
    (fundCall callee caller value : Exec S Unit) = (do
      createMissing callee
      transfer caller callee value) := by
  simp only [fundCall, createMissing, Procedure.bind_assoc]

/-- An instruction is its effect followed by the last action. -/
theorem dispatch_eq (inst : Inst) :
    (dispatch inst : Exec S Unit) = effect inst >>= runTail := by
  obtain ⟨opcode, data, pos⟩ := inst
  cases opcode with
  | stop => rfl
  | create | create2 | call | callCode | delegateCall | staticCall =>
      simp only [dispatch, effect, createBegin, createBeginEffect, create2Begin,
        create2BeginEffect, callBegin, callBeginEffect, callCodeBegin,
        callCodeBeginEffect, delegateCallBegin, delegateCallBeginEffect,
        staticCallBegin, staticCallBeginEffect, Procedure.bind_assoc,
        create_eq, call_eq, enter_eq]
  | «return» | revert | selfDestruct =>
      simp only [dispatch, effect, return_, revert, selfDestruct,
        Procedure.bind_assoc, Procedure.pure_bind, runTail]
  | _ =>
      simp only [effect, Procedure.bind_assoc, Procedure.pure_bind, runTail]
      exact (Procedure.bind_pure _).symm


end Exec

/-! ### What an effect keeps -/

variable {S : Type}

/-- Work that may also write the world state and the sets and counters of the
transaction, but leaves the suspended frames alone. -/
structure TxExecContext.Works (before after : TxExecContext S) : Prop where
  curCall : before.curCall.Continues after.curCall
  callStack : after.callStack = before.callStack
  committedState : after.committedState = before.committedState
  status : after.status = before.status
  origin : after.origin = before.origin
  gasPrice : after.gasPrice = before.gasPrice
  env : after.env = before.env

/-- Such work that neither jumps nor marks an account as destroyed. -/
structure TxExecContext.Stays (before after : TxExecContext S) : Prop
    extends before.Works after where
  pc : after.curCall.pc = before.curCall.pc
  destroyed : after.destroyed = before.destroyed

namespace TxExecContext

theorem Works.refl (context : TxExecContext S) : context.Works context :=
  ⟨CallFrame.Continues.refl _, rfl, rfl, rfl, rfl, rfl, rfl⟩

theorem Works.trans {first second third : TxExecContext S}
    (left : first.Works second) (right : second.Works third) :
    first.Works third where
  curCall := left.curCall.trans right.curCall
  callStack := right.callStack.trans left.callStack
  committedState := right.committedState.trans left.committedState
  status := right.status.trans left.status
  origin := right.origin.trans left.origin
  gasPrice := right.gasPrice.trans left.gasPrice
  env := right.env.trans left.env

instance : IsPreorder (TxExecContext S) Works where
  refl := Works.refl
  trans _ _ _ := Works.trans

theorem Stays.refl (context : TxExecContext S) : context.Stays context :=
  ⟨Works.refl context, rfl, rfl⟩

instance : IsPreorder (TxExecContext S) Stays where
  refl := Stays.refl
  trans _ _ _ left right :=
    ⟨left.toWorks.trans right.toWorks, right.pc.trans left.pc,
      right.destroyed.trans left.destroyed⟩

theorem Continues.works {before after : TxExecContext S}
    (work : before.Continues after) : before.Works after :=
  ⟨work.curCall, work.callStack, work.committedState, work.status, work.origin,
    work.gasPrice, work.env⟩

theorem Quiet.stays {before after : TxExecContext S}
    (work : before.Quiet after) : before.Stays after :=
  ⟨work.toContinues.works, work.pc, work.destroyed⟩

/-- Writing the world state, the refund counter and the set of modified
accounts stays in the frame. -/
theorem stays_write (context : TxExecContext S) (state : S) (refund : UInt64)
    (dirty : HashSet Addr) :
    context.Stays
      { context with state := state, refund := refund, dirty := dirty } :=
  ⟨⟨CallFrame.Continues.refl _, rfl, rfl, rfl, rfl, rfl, rfl⟩, rfl, rfl⟩

end TxExecContext

namespace Exec

open TxExecContext

instance (priority := low) stays_of_quiet
    (program : Exec S α) [quiet : Procedure.Moves Quiet program] :
    Procedure.Moves Stays program :=
  quiet.mono fun _ _ work => work.stays

instance (priority := low) works_of_continues
    (program : Exec S α) [continues : Procedure.Moves Continues program] :
    Procedure.Moves Works program :=
  continues.mono fun _ _ work => work.works

instance (priority := low) works_of_stays
    (program : Exec S α) [stays : Procedure.Moves Stays program] :
    Procedure.Moves Works program :=
  stays.mono fun _ _ work => work.toWorks

instance stays_writeState (change : S → S) :
    Procedure.Moves Stays (writeState change) :=
  Procedure.Moves.update fun context =>
    stays_write context _ context.refund context.dirty

instance stays_markDirty (addr : Addr) :
    Procedure.Moves Stays (markDirty addr : Exec S Unit) :=
  Procedure.Moves.update fun context =>
    stays_write context context.state context.refund _

instance stays_addRefund (gas : UInt64) :
    Procedure.Moves Stays (addRefund gas : Exec S Unit) :=
  Procedure.Moves.update fun context =>
    stays_write context context.state _ context.dirty

instance stays_subRefund (gas : UInt64) :
    Procedure.Moves Stays (subRefund gas : Exec S Unit) := by
  refine ⟨fun context => ?_⟩
  unfold Procedure.wp subRefund
  by_cases less : gas > context.refund
  · simp [less]
  · simp only [less, if_false]
    exact stays_write context context.state _ context.dirty

instance works_markDestroyed (addr : Addr) :
    Procedure.Moves Works (markDestroyed addr : Exec S Unit) :=
  Procedure.Moves.update fun _ =>
    ⟨CallFrame.Continues.refl _, rfl, rfl, rfl, rfl, rfl, rfl⟩

variable [WorldState S] [Keccak256]

instance stays_takeSnapshot :
    Procedure.Moves Stays (takeSnapshot : Exec S S) :=
  ⟨fun context => stays_write context _ context.refund context.dirty⟩

instance stays_transfer (sender recipient : Addr) (value : Wei) :
    Procedure.Moves Stays (transfer sender recipient value : Exec S Unit) := by
  refine ⟨fun context => ?_⟩
  unfold Procedure.wp transfer
  obtain ⟨state, result⟩ :=
    transferBalance context.state sender recipient value
  cases result with
  | none => trivial
  | some _ => exact stays_write context state context.refund context.dirty

instance stays_sstoreGas (key : Hash) (val : U256) :
    Procedure.Moves Stays (sstoreGas key val : Exec S Unit) := by
  unfold sstoreGas sstoreBerlinLondonGas sstoreIstanbulGas
    sstoreConstantinopleGas
  infer_instance

instance stays_sstore : Procedure.Moves Stays (sstore : Exec S Unit) := by
  unfold sstore
  infer_instance

instance stays_log (num : Nat) :
    Procedure.Moves Stays (log num : Exec S Unit) := by
  unfold log appendLog
  infer_instance

instance stays_openCreate (contractAddr caller : Addr) (value : Wei) :
    Procedure.Moves Stays
      (openCreate contractAddr caller value : Exec S Unit) := by
  unfold openCreate
  infer_instance

instance stays_createEffect
    (contractAddr caller : Addr) (code : Bytes) (value : Wei) (gas : Gas)
    (args : CallType S) :
    Procedure.Moves Stays
      (createEffect contractAddr caller code value gas args) := by
  unfold createEffect
  infer_instance

omit [Keccak256] in
/-- A message call keeps what its checks, its transfer and its code keep. -/
theorem moves_callEffect
    {related : TxExecContext S → TxExecContext S → Prop}
    [IsPreorder (TxExecContext S) related]
    {callee caller : Addr} {input : Bytes} {gas : Gas} {value : Wei} {args : CallType S}
    (admits : Procedure.Moves related (admitCall callee caller value : Exec S Unit))
    (funds : Procedure.Moves related (fundCall callee caller value : Exec S Unit))
    (runs : Procedure.Moves related (runCodeEffect callee caller input gas value args)) :
    Procedure.Moves related (callEffect callee caller input gas value args) := by
  have choose (self : TxExecContext S) :
      Procedure.Moves related
        (match self.env.precompiledContracts.lookup callee with
        | none => runCodeEffect callee caller input gas value args
        | some contract =>
            (pure (.settle args (contract input).1 gas (contract input).2) :
              Exec S (Tail S))) := by
    cases self.env.precompiledContracts.lookup callee with
    | none => exact runs
    | some contract => infer_instance
  unfold callEffect
  infer_instance

instance stays_callEffect
    (callee caller : Addr) (input : Bytes) (gas : Gas) (value : Wei)
    (args : CallType S) :
    Procedure.Moves Stays
      (callEffect callee caller input gas value args) := by
  refine moves_callEffect ?_ ?_ ?_
  · unfold admitCall
    infer_instance
  · unfold fundCall
    infer_instance
  · unfold runCodeEffect
    infer_instance

instance stays_enterEffect
    (codeAddr : Addr) (input : Bytes) (value : Wei) (callee caller : Addr)
    (args : CallArgs S) (gas : Gas) (readOnly : Bool) :
    Procedure.Moves Stays
      (enterEffect codeAddr input value callee caller args gas readOnly) := by
  unfold enterEffect
  infer_instance

instance works_destroy : Procedure.Moves Works (destroy : Exec S Unit) := by
  unfold destroy useGasSelfDestruct sweep
  infer_instance

/-- An instruction that may push a frame stays in its own frame first. -/
theorem stays_opener {inst : Inst} (enters : inst.opcode.entersCall) :
    Procedure.Moves Stays (effect inst : Exec S (Tail S)) := by
  obtain ⟨opcode, data, pos⟩ := inst
  cases opcode <;> simp only [Opcode.entersCall, Bool.false_eq_true] at enters <;>
    simp only [effect, createBeginEffect, create2BeginEffect, callBeginEffect,
      callCodeBeginEffect, delegateCallBeginEffect, staticCallBeginEffect] <;>
    infer_instance

/-- The effect of a plain instruction is the instruction. -/
theorem effect_plain {inst : Inst} (plain : inst.opcode.isPlain) :
    (effect inst : Exec S (Tail S)) = (do dispatch inst; pure .next) := by
  obtain ⟨opcode, data, pos⟩ := inst
  cases opcode <;> simp only [Opcode.isPlain, Bool.false_eq_true] at plain <;> rfl

/-- The effect of a plain instruction is work inside its frame. -/
theorem quiet_effect {inst : Inst} (plain : inst.opcode.isPlain) :
    Procedure.Moves Quiet (effect inst : Exec S (Tail S)) := by
  have quiet : Procedure.Moves Quiet (dispatch inst : Exec S Unit) :=
    quiet_dispatch plain
  rw [effect_plain plain]
  infer_instance

/-- The effect of every instruction leaves the suspended frames alone. -/
instance works_effect (inst : Inst) :
    Procedure.Moves Works (effect inst : Exec S (Tail S)) := by
  by_cases plain : inst.opcode.isPlain
  · have quiet : Procedure.Moves Quiet (effect inst : Exec S (Tail S)) :=
      quiet_effect plain
    infer_instance
  · obtain ⟨opcode, data, pos⟩ := inst
    cases opcode <;> simp only [Opcode.isPlain, not_true_eq_false] at plain <;>
      simp only [effect, dispatch, createBeginEffect, create2BeginEffect,
        callBeginEffect, callCodeBeginEffect, delegateCallBeginEffect,
        staticCallBeginEffect] <;>
      infer_instance

/-! ### The actions that occur inside the loop -/

section Nested

variable {σ : Type}

instance nested_next :
    Procedure.Returns (Tail.Nested false) (pure .next : Run σ (Tail S)) :=
  Procedure.Returns.pure rfl

instance nested_finish (data : Bytes) (err : Result) :
    Procedure.Returns (Tail.Nested false)
      (pure (.finish data err) : Run σ (Tail S)) :=
  Procedure.Returns.pure rfl

instance nested_settle
    (args : CallArgs S) (ret : Bytes) (gas : Gas) (err : Result) :
    Procedure.Returns (Tail.Nested true)
      (pure (.settle (.call args) ret gas err) : Run σ (Tail S)) :=
  Procedure.Returns.pure rfl

instance nested_createEffect
    (contractAddr caller : Addr) (code : Bytes) (value : Wei) (gas : Gas)
    (args : CreateArgs S) :
    Procedure.Returns (Tail.Nested true)
      (createEffect contractAddr caller code value gas (.create args)) := by
  unfold createEffect
  exact @Procedure.Returns.bind _ _ _ _ _ _ _ _
    fun _ => Procedure.Returns.pure rfl

instance nested_runCodeEffect
    (callee caller : Addr) (input : Bytes) (gas : Gas) (value : Wei)
    (args : CallArgs S) :
    Procedure.Returns (Tail.Nested true)
      (runCodeEffect callee caller input gas value (.call args)) := by
  refine @Procedure.Returns.bind _ _ _ _ _ _ _ _
    fun code => Procedure.Returns.pure ?_
  split <;> rfl

instance nested_callEffect
    (callee caller : Addr) (input : Bytes) (gas : Gas) (value : Wei)
    (args : CallArgs S) :
    Procedure.Returns (Tail.Nested true)
      (callEffect callee caller input gas value (.call args)) := by
  have choose (self : TxExecContext S) :
      Procedure.Returns (Tail.Nested true)
        (match self.env.precompiledContracts.lookup callee with
        | none => runCodeEffect callee caller input gas value (.call args)
        | some contract =>
            (pure (.settle (.call args) (contract input).1 gas
              (contract input).2) : Exec S (Tail S))) := by
    cases self.env.precompiledContracts.lookup callee <;> infer_instance
  unfold callEffect
  infer_instance

instance nested_enterEffect
    (codeAddr : Addr) (input : Bytes) (value : Wei) (callee caller : Addr)
    (args : CallArgs S) (gas : Gas) (readOnly : Bool) :
    Procedure.Returns (Tail.Nested true)
      (enterEffect codeAddr input value callee caller args gas readOnly) := by
  refine @Procedure.Returns.bind _ _ _ _ _ _ _ _
    fun self => Procedure.Returns.pure ?_
  cases self.env.precompiledContracts.lookup callee <;> rfl

/-- The last action of an instruction is one that its opcode allows. -/
instance nested_effect (inst : Inst) :
    Procedure.Returns (Tail.Nested inst.opcode.entersCall)
      (effect inst : Exec S (Tail S)) := by
  obtain ⟨opcode, data, pos⟩ := inst
  cases opcode <;>
    simp only [effect, createBeginEffect, create2BeginEffect, callBeginEffect,
      callCodeBeginEffect, delegateCallBeginEffect, staticCallBeginEffect,
      Opcode.entersCall] <;>
    infer_instance

end Nested

end Exec
end Qevm
