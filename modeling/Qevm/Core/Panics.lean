import Qevm.Core.Endings

/-!
# What an instruction panics with

The panics that concern the call stack are raised where frames are pushed and
popped, and the one that concerns funds where they are moved.  Everything else
that an instruction does panics for other reasons.
-/

set_option synthInstance.maxSize 100000

namespace Qevm

open Procedure (Permits Panics)

variable {S : Type} {allowed : Panic → Prop}

/-- The panics that concern neither the call stack nor a transfer of funds are
permitted. -/
class PermitsLocal (allowed : Panic → Prop) : Prop where
  refundBelowZero : allowed .refundBelowZero
  addrNotInAccessList : allowed .addrNotInAccessList
  indexOutOfBounds : allowed .indexOutOfBounds
  arithmeticOverflow : allowed .arithmeticOverflow
  integerOverflow : allowed .integerOverflow
  noInstructionData : allowed .noInstructionData
  hashLength : allowed .hashLength

/-- Those of them that do not concern the refund counter are permitted. -/
class PermitsPlain (allowed : Panic → Prop) : Prop where
  addrNotInAccessList : allowed .addrNotInAccessList
  indexOutOfBounds : allowed .indexOutOfBounds
  arithmeticOverflow : allowed .arithmeticOverflow
  integerOverflow : allowed .integerOverflow
  noInstructionData : allowed .noInstructionData
  hashLength : allowed .hashLength

/-- Those of them that do not concern the access list either are permitted. -/
class PermitsBare (allowed : Panic → Prop) : Prop where
  indexOutOfBounds : allowed .indexOutOfBounds
  arithmeticOverflow : allowed .arithmeticOverflow
  integerOverflow : allowed .integerOverflow
  noInstructionData : allowed .noInstructionData
  hashLength : allowed .hashLength

section Permits

instance [locally : PermitsLocal allowed] : Permits allowed .refundBelowZero :=
  ⟨locally.refundBelowZero⟩

instance [locally : PermitsLocal allowed] : PermitsPlain allowed :=
  ⟨locally.addrNotInAccessList, locally.indexOutOfBounds, locally.arithmeticOverflow,
    locally.integerOverflow, locally.noInstructionData, locally.hashLength⟩

instance [plain : PermitsPlain allowed] : Permits allowed .addrNotInAccessList :=
  ⟨plain.addrNotInAccessList⟩

instance [plain : PermitsPlain allowed] : PermitsBare allowed :=
  ⟨plain.indexOutOfBounds, plain.arithmeticOverflow, plain.integerOverflow,
    plain.noInstructionData, plain.hashLength⟩

variable [bare : PermitsBare allowed]

instance : Permits allowed .indexOutOfBounds := ⟨bare.indexOutOfBounds⟩
instance : Permits allowed .arithmeticOverflow := ⟨bare.arithmeticOverflow⟩
instance : Permits allowed .integerOverflow := ⟨bare.integerOverflow⟩
instance : Permits allowed .noInstructionData := ⟨bare.noInstructionData⟩
instance : Permits allowed .hashLength := ⟨bare.hashLength⟩

end Permits

instance panics_gasCheckedMul {σ : Type} (x y : Gas) :
    Panics allowed (gasCheckedMul x y : Run σ Gas) := Panics.okOr _ _

/-! ### The parts of a frame -/

namespace Stack

instance panics_push (val : U256) : Panics allowed (push val) := by
  refine Panics.never fun state reason run => ?_
  unfold push at run
  split at run <;> contradiction

instance panics_swap (pos : Nat) : Panics allowed (swap pos) := by
  refine Panics.never fun state reason run => ?_
  unfold swap at run
  split at run <;> contradiction

instance panics_consume1 : Panics allowed consume1 := by
  refine Panics.never fun state reason run => ?_
  unfold consume1 at run
  split at run <;> contradiction

instance panics_consume2 : Panics allowed consume2 := by
  refine Panics.never fun state reason run => ?_
  unfold consume2 at run
  split at run <;> contradiction

instance panics_consume3 : Panics allowed consume3 := by
  refine Panics.never fun state reason run => ?_
  unfold consume3 at run
  split at run <;> contradiction

instance panics_consume4 : Panics allowed consume4 := by
  refine Panics.never fun state reason run => ?_
  unfold consume4 at run
  split at run <;> contradiction

instance panics_dup [PermitsBare allowed] (pos : Nat) :
    Panics allowed (dup pos) := by
  refine ⟨fun {state reason} run => ?_⟩
  unfold dup at run
  split at run
  · contradiction
  · split at run
    · exact (panics_push _).holds run
    · rw [← Outcome.panic.inj run]
      exact PermitsBare.indexOutOfBounds

end Stack

namespace Memory

instance panics_resize (size : U256) : Panics allowed (resize size) := by
  refine Panics.never fun state reason run => ?_
  unfold resize at run
  split at run
  · contradiction
  · dsimp only at run
    split at run <;> contradiction

instance panics_write (slice : Slice) (data : Bytes) :
    Panics allowed (write slice data) := Panics.update _

variable [PermitsBare allowed]

instance panics_getSliceMut (off len : U256) :
    Panics allowed (getSliceMut off len) := by
  unfold getSliceMut
  infer_instance

instance panics_getSlice (off len : U256) : Panics allowed (getSlice off len) := by
  unfold getSlice
  infer_instance

instance panics_set (off len : U256) (data : Bytes) :
    Panics allowed (set off len data) := by
  unfold set
  infer_instance

end Memory

namespace CallFrame

instance panics_onStack (part : Run Stack α) [Panics allowed part] :
    Panics allowed (onStack part : Run (CallFrame S) α) := Panics.zoom _ _ _

instance panics_onMemory (part : Run Memory α) [Panics allowed part] :
    Panics allowed (onMemory part : Run (CallFrame S) α) := Panics.zoom _ _ _

instance panics_useGas (gas : Gas) :
    Panics allowed (useGas gas : Run (CallFrame S) Unit) := by
  refine Panics.never fun state reason run => ?_
  unfold useGas at run
  split at run <;> contradiction

instance panics_requireFork (fork : Fork) :
    Panics allowed (requireFork fork : Run (CallFrame S) Unit) := by
  refine Panics.never fun state reason run => ?_
  unfold requireFork at run
  split at run <;> contradiction

instance panics_makeUnaryOp (op : U256 → U256) (gas : Gas) :
    Panics allowed (makeUnaryOp op gas : Run (CallFrame S) Unit) := by
  unfold makeUnaryOp
  infer_instance

instance panics_makeBinaryOp (op : U256 → U256 → U256) (gas : Gas) :
    Panics allowed (makeBinaryOp op gas : Run (CallFrame S) Unit) := by
  unfold makeBinaryOp
  infer_instance

instance panics_makeTernaryOp (op : U256 → U256 → U256 → U256) (gas : Gas) :
    Panics allowed (makeTernaryOp op gas : Run (CallFrame S) Unit) := by
  unfold makeTernaryOp
  infer_instance

instance panics_makeBinaryOpSince
    (op : U256 → U256 → U256) (gas : Gas) (fork : Fork) :
    Panics allowed (makeBinaryOpSince op gas fork : Run (CallFrame S) Unit) := by
  unfold makeBinaryOpSince
  infer_instance

instance panics_pushOf (gas : Gas) (word : CallFrame S → U256) :
    Panics allowed (pushOf gas word) := by
  unfold pushOf
  infer_instance

end CallFrame

namespace Exec

/-! ### The primitives of an execution -/

instance panics_onCall (part : Run (CallFrame S) α) [Panics allowed part] :
    Panics allowed (onCall part : Exec S α) := Panics.zoom _ _ _

instance panics_useGas (gas : Gas) :
    Panics allowed (useGas gas : Exec S Unit) := panics_onCall _

instance panics_requireFork (fork : Fork) :
    Panics allowed (requireFork fork : Exec S Unit) := panics_onCall _

instance panics_consume1 : Panics allowed (consume1 : Exec S _) := panics_onCall _

instance panics_consume2 : Panics allowed (consume2 : Exec S _) := panics_onCall _

instance panics_consume3 : Panics allowed (consume3 : Exec S _) := panics_onCall _

instance panics_consume4 : Panics allowed (consume4 : Exec S _) := panics_onCall _

instance panics_push (word : U256) :
    Panics allowed (push word : Exec S Unit) := panics_onCall _

instance panics_call : Panics allowed (call : Exec S _) := Panics.reads _

instance panics_fork : Panics allowed (fork : Exec S _) := Panics.reads _

instance panics_callDepth : Panics allowed (callDepth : Exec S _) :=
  Panics.reads _

instance panics_readState (query : S → α) :
    Panics allowed (readState query : Exec S α) := Panics.reads _

instance panics_writeState (change : S → S) :
    Panics allowed (writeState change) := Panics.update _

instance panics_markDirty (addr : Addr) :
    Panics allowed (markDirty addr : Exec S Unit) := Panics.update _

instance panics_markDestroyed (addr : Addr) :
    Panics allowed (markDestroyed addr : Exec S Unit) := Panics.update _

instance panics_addAddr (addr : Addr) :
    Panics allowed (addAddr addr : Exec S Unit) := Panics.update _

instance panics_addRefund (gas : UInt64) :
    Panics allowed (addRefund gas : Exec S Unit) := Panics.update _

instance panics_advancePc (skip : UInt64) (enterCall : Bool) :
    Panics allowed (advancePc skip enterCall : Exec S Unit) := panics_onCall _

instance panics_callPush
    (code : Code) (input : Bytes) (value : Wei) (callee caller : Addr)
    (callType : CallType S) (gas : Gas) (readOnly : Bool) :
    Panics allowed
      (callPush code input value callee caller callType gas readOnly) :=
  Panics.update _

instance panics_pushOf (gas : Gas) (word : TxExecContext S → U256) :
    Panics allowed (pushOf gas word) := by
  unfold pushOf
  infer_instance

instance panics_useGasAccountAccess (addr : Addr) (gasBefore : Fork → Gas) :
    Panics allowed (useGasAccountAccess addr gasBefore : Exec S Unit) := by
  unfold useGasAccountAccess
  infer_instance

instance panics_requireDepth : Panics allowed (requireDepth : Exec S Unit) := by
  unfold requireDepth
  infer_instance

instance panics_gasCallCommon (callCost : U256) :
    Panics allowed (gasCallCommon callCost : Exec S Gas) := by
  unfold gasCallCommon
  cases checkedAsU64 callCost <;> infer_instance

instance panics_useGasCallCommonBerlin (addr : Addr) :
    Panics allowed (useGasCallCommonBerlin addr : Exec S Unit) := by
  unfold useGasCallCommonBerlin
  infer_instance

instance panics_useGasQuota (gas : U256) (memGas : Gas) :
    Panics allowed (useGasQuota gas memGas : Exec S Gas) := by
  unfold useGasQuota
  infer_instance

instance panics_consumeTopics (num : Nat) :
    Panics allowed (consumeTopics num : Exec S (List Hash)) := by
  induction num with
  | zero =>
      unfold consumeTopics
      infer_instance
  | succ num inductionHypothesis =>
      unfold consumeTopics
      infer_instance

instance panics_takeSnapshot [WorldState S] :
    Panics allowed (takeSnapshot : Exec S S) :=
  Panics.never fun _ _ run => nomatch run

instance panics_transfer
    [WorldState S] [permits : Permits allowed .transferFailed]
    (sender recipient : Addr) (value : Wei) :
    Panics allowed (transfer sender recipient value : Exec S Unit) := by
  refine ⟨fun {state reason} run => ?_⟩
  unfold transfer at run
  split at run
  · contradiction
  · exact Outcome.panic.inj run ▸ permits.permitted

instance panics_subRefund
    [permits : Permits allowed .refundBelowZero] (gas : UInt64) :
    Panics allowed (subRefund gas : Exec S Unit) := by
  refine ⟨fun {state reason} run => ?_⟩
  unfold subRefund at run
  split at run
  · exact Outcome.panic.inj run ▸ permits.permitted
  · contradiction

section Local

variable [PermitsBare allowed]

instance panics_getSlice (off len : U256) :
    Panics allowed (getSlice off len : Exec S _) := panics_onCall _

instance panics_accessed (addr : Addr) (slot : Hash) :
    Panics allowed (accessed addr slot : Exec S _) := by
  unfold accessed
  infer_instance

instance panics_addSlot (addr : Addr) (slot : Hash) :
    Panics allowed (addSlot addr slot : Exec S Unit) := by
  unfold addSlot
  infer_instance

instance panics_setPc (dest : U256) :
    Panics allowed (setPc dest : Exec S Unit) := by
  unfold setPc
  infer_instance

instance panics_fetch : Panics allowed (fetch : Exec S Inst) := by
  unfold fetch
  infer_instance

end Local

/-! ### Instructions -/

open WorldState

variable [WorldState S] [Keccak256] [PermitsBare allowed]

/-- A plain instruction panics for local reasons. -/
theorem panics_dispatch {inst : Inst} (plain : inst.opcode.isPlain) :
    Panics allowed (dispatch inst : Exec S Unit) := by
  obtain ⟨opcode, data, pos⟩ := inst
  cases opcode <;> simp only [Opcode.isPlain, Bool.false_eq_true] at plain <;>
    simp only [dispatch, CallFrame.add, CallFrame.mul, CallFrame.sub,
      CallFrame.div, CallFrame.sdiv, CallFrame.rem, CallFrame.smod,
      CallFrame.addMod, CallFrame.mulMod, CallFrame.exp, CallFrame.signExtend,
      CallFrame.lt, CallFrame.gt, CallFrame.slt, CallFrame.sgt, CallFrame.eq,
      CallFrame.isZero, CallFrame.and, CallFrame.or, CallFrame.xor,
      CallFrame.not, CallFrame.byte, CallFrame.shl, CallFrame.shr,
      CallFrame.sar, CallFrame.sha3, CallFrame.addr, CallFrame.pushCaller,
      CallFrame.callValue, CallFrame.callDataLoad, CallFrame.callDataSize,
      CallFrame.callDataCopy, CallFrame.codeSize, CallFrame.codeCopy,
      CallFrame.returnDataSize, CallFrame.returnDataCopy, CallFrame.pop,
      CallFrame.mload, CallFrame.mstore, CallFrame.mstore8, CallFrame.pushPc,
      CallFrame.msize, CallFrame.gas, CallFrame.push, CallFrame.dup,
      CallFrame.swap, balance, origin, gasPrice, extCodeSize, extCodeCopy,
      extCodeHash, blockHash, coinbase, timestamp, number, difficulty,
      gasLimit, chainId, selfBalance, baseFee, sload, useGasSload] <;>
    infer_instance

instance panics_jump : Panics allowed (jump : Exec S Unit) := by
  unfold jump
  infer_instance

instance panics_jumpi : Panics allowed (jumpi : Exec S Unit) := by
  unfold jumpi
  infer_instance

instance panics_sstore
    [Permits allowed .refundBelowZero] [Permits allowed .addrNotInAccessList] :
    Panics allowed (sstore : Exec S Unit) := by
  unfold sstore sstoreGas sstoreBerlinLondonGas sstoreIstanbulGas
    sstoreConstantinopleGas
  infer_instance

instance panics_log (num : Nat) : Panics allowed (log num : Exec S Unit) := by
  unfold log appendLog
  infer_instance

instance panics_destroy : Panics allowed (destroy : Exec S Unit) := by
  unfold destroy useGasSelfDestruct sweep
  infer_instance

/-! ### Settling the end of a frame -/

instance panics_createPostProcessing
    (contractAddr : Addr) (data : Bytes) (ret : Result) :
    Panics allowed
      (createPostProcessing contractAddr data ret : Exec S Unit) := by
  unfold createPostProcessing
  obtain err | _ := ret
  · cases err <;> infer_instance
  · infer_instance

instance panics_createEnd
    (args : CreateArgs S) (data : Bytes) (unusedGas : Gas) (ret : Result) :
    Panics allowed (createEnd args data unusedGas ret) := by
  unfold createEnd
  infer_instance

instance panics_callEnd
    (args : CallArgs S) (data : Bytes) (unusedGas : Gas) (ret : Result) :
    Panics allowed (callEnd args data unusedGas ret) := by
  have writes : Panics allowed (callReturn args data unusedGas ret) := by
    unfold callReturn
    obtain err | _ := ret
    · cases err <;> infer_instance
    · infer_instance
  unfold callEnd
  infer_instance

instance panics_txResult (args : TxArgs S) (data : Bytes) (err : Result) :
    Panics allowed (txResult args data err) := by
  unfold txResult
  cases args.aux <;> infer_instance

instance panics_cleanUp : Panics allowed (cleanUp : Exec S Unit) :=
  Panics.update _

instance panics_finish
    (args : TxArgs S) (data : Bytes) (unusedGas : Gas) (ret : Result)
    (addr : Option Addr) : Panics allowed (finish args data unusedGas ret addr) := by
  unfold finish
  cases ret <;> infer_instance

instance panics_enterEffect
    (codeAddr : Addr) (input : Bytes) (value : Wei) (callee caller : Addr)
    (args : CallArgs S) (gas : Gas) (readOnly : Bool) :
    Panics allowed
      (enterEffect codeAddr input value callee caller args gas readOnly) := by
  unfold enterEffect
  infer_instance

/-! ### Paying for a call -/

instance panics_chargeCreate :
    Panics allowed (chargeCreate : Exec S CreateRequest) := by
  unfold chargeCreate
  infer_instance

instance panics_chargeCreate2 :
    Panics allowed (chargeCreate2 : Exec S CreateRequest) := by
  unfold chargeCreate2
  infer_instance

instance panics_chargeCall :
    Panics allowed (chargeCall : Exec S CallRequest) := by
  unfold chargeCall callOperands useGasCall
  infer_instance

instance panics_chargeCallCode :
    Panics allowed (chargeCallCode : Exec S CallRequest) := by
  unfold chargeCallCode callOperands useGasCallCode
  infer_instance

instance panics_chargeDelegateCall :
    Panics allowed (chargeDelegateCall : Exec S CallRequest) := by
  unfold chargeDelegateCall useGasDelegateCall
  infer_instance

instance panics_chargeStaticCall :
    Panics allowed (chargeStaticCall : Exec S CallRequest) := by
  unfold chargeStaticCall useGasStaticCall
  infer_instance

instance panics_returnRegion :
    Panics allowed (returnRegion : Exec S Bytes) := by
  unfold returnRegion
  infer_instance

instance panics_revertRegion :
    Panics allowed (revertRegion : Exec S Bytes) := by
  unfold revertRegion
  infer_instance

/-- What an instruction does before its last action panics for local reasons when
`SSTORE`, creations and calls with funds do. -/
theorem panics_effect
    {inst : Inst}
    (stores : inst.opcode = .sstore → Panics allowed (sstore : Exec S Unit))
    (creates : ∀ contractAddr caller code value gas (args : CallType S),
      Panics allowed (createEffect contractAddr caller code value gas args))
    (calls : ∀ callee caller input gas value (args : CallType S),
      Panics allowed (callEffect callee caller input gas value args)) :
    Panics allowed (effect inst : Exec S (Tail S)) := by
  by_cases plain : inst.opcode.isPlain
  · have dispatched : Panics allowed (dispatch inst : Exec S Unit) :=
      panics_dispatch plain
    rw [effect_plain plain]
    infer_instance
  · obtain ⟨opcode, data, pos⟩ := inst
    cases opcode <;> simp only [Opcode.isPlain, not_true_eq_false] at plain <;>
      simp only [effect, dispatch, createBeginEffect, create2BeginEffect,
        callBeginEffect, callCodeBeginEffect, delegateCallBeginEffect,
        staticCallBeginEffect]
    case sstore =>
      have stored := stores rfl
      infer_instance
    all_goals infer_instance

section Transfer

variable [Permits allowed .transferFailed]

instance panics_createEffect
    (contractAddr caller : Addr) (code : Bytes) (value : Wei) (gas : Gas)
    (args : CallType S) :
    Panics allowed (createEffect contractAddr caller code value gas args) := by
  unfold createEffect openCreate
  infer_instance

instance panics_callEffect
    (callee caller : Addr) (input : Bytes) (gas : Gas) (value : Wei)
    (args : CallType S) :
    Panics allowed (callEffect callee caller input gas value args) := by
  have choose (self : TxExecContext S) :
      Panics allowed
        (match self.env.precompiledContracts.lookup callee with
        | none => runCodeEffect callee caller input gas value args
        | some contract =>
            (pure (.settle args (contract input).1 gas (contract input).2) :
              Exec S (Tail S))) := by
    cases self.env.precompiledContracts.lookup callee with
    | none =>
        unfold runCodeEffect
        infer_instance
    | some contract => infer_instance
  unfold callEffect admitCall fundCall
  infer_instance

end Transfer

/-! ### The last action of an instruction -/

omit [WorldState S] [Keccak256] [PermitsBare allowed] in
instance panics_callPop [permits : Permits allowed .callStackEmpty] :
    Panics allowed (callPop : Exec S (CallFrame S)) := by
  refine ⟨fun {state reason} run => ?_⟩
  unfold callPop at run
  split at run
  · exact Outcome.panic.inj run ▸ permits.permitted
  · contradiction

section Actions

variable [Permits allowed .callStackEmpty] [Permits allowed .callStackNotEmpty]
  [Permits allowed .unreachable]

instance panics_txEnd
    (args : TxArgs S) (data : Bytes) (unusedGas : Gas) (err : Result) :
    Panics allowed (txEnd args data unusedGas err) := by
  have choose (status : TxExecStatus) (ret : Result) (addr : Option Addr) :
      Panics allowed
        (match status with
        | .running => do
            cleanUp
            finish args data unusedGas ret addr
        | .finished _ => Procedure.abort .unreachable : Exec S Unit) := by
    cases status <;> infer_instance
  unfold txEnd
  infer_instance

instance panics_finishCall (data : Bytes) (err : Result) :
    Panics allowed (finishCall data err : Exec S Unit) := by
  have ends (frame : CallFrame S) :
      Panics allowed
        (match frame.callType with
        | .tx args => txEnd args data frame.unusedGas err
        | .create args => createEnd args data frame.unusedGas err
        | .call args => callEnd args data frame.unusedGas err) := by
    cases frame.callType <;> infer_instance
  unfold finishCall
  infer_instance

instance panics_returnWithoutCallstack
    (args : CallType S) (ret : Bytes) (unusedGas : Gas) (err : Result) :
    Panics allowed (returnWithoutCallstack args ret unusedGas err) := by
  unfold returnWithoutCallstack
  cases args with
  | tx args => infer_instance
  | create args => infer_instance
  | call args =>
      have hands (result : Result) :
          Panics allowed
            (match result with
            | .ok () => pure ()
            | .error err => Procedure.raise err : Exec S Unit) := by
        cases result <;> infer_instance
      infer_instance

instance panics_runTail (tail : Tail S) :
    Panics allowed (runTail tail) := by
  cases tail <;> unfold runTail <;> infer_instance

instance panics_unwind (depth : Nat) (err : ExecError) :
    Panics allowed (unwind depth err : Exec S Unit) := by
  induction depth generalizing err with
  | zero =>
      unfold unwind
      infer_instance
  | succ depth inductionHypothesis =>
      unfold unwind
      infer_instance

instance panics_fail (err : ExecError) :
    Panics allowed (fail err : Exec S Unit) := by
  unfold fail
  infer_instance

/-- When `SSTORE` and the creations and calls panic for other reasons only, an
iteration panics for another reason, or in `SSTORE`. -/
theorem iterate_panic_cases
    (creates : ∀ contractAddr caller code value gas (args : CallType S),
      Panics allowed (createEffect contractAddr caller code value gas args))
    (calls : ∀ callee caller input gas value (args : CallType S),
      Panics allowed (callEffect callee caller input gas value args))
    {before : TxExecContext S} {reason : Panic}
    (run : iterate before = .panic reason) :
    allowed reason ∨
      ∃ inst, Fetches before inst ∧ inst.opcode = .sstore ∧
        sstore before = .panic reason := by
  unfold iterate at run
  obtain run | ⟨inst, found, fetched, rest⟩ := Procedure.bind_panic.mp run
  · exact .inl (panics_fetch.holds run)
  obtain ⟨rfl, fetches⟩ := fetch_ok.mp fetched
  obtain run | ⟨_, _, -, advances⟩ := Procedure.bind_panic.mp rest
  · unfold Procedure.handle at run
    cases dispatched : dispatch inst found with
    | ok value after => simp [dispatched] at run
    | error err after =>
        simp only [dispatched] at run
        exact .inl ((panics_fail err).holds run)
    | panic raised =>
        simp only [dispatched, Outcome.panic.injEq] at run
        subst run
        by_cases store : inst.opcode = .sstore
        · refine .inr ⟨inst, fetches, store, ?_⟩
          obtain ⟨opcode, data, pos⟩ := inst
          obtain rfl : opcode = .sstore := store
          exact dispatched
        · refine .inl ?_
          have effected : Panics allowed (effect inst : Exec S (Tail S)) :=
            panics_effect (fun stores => absurd stores store) creates calls
          rw [dispatch_eq] at dispatched
          obtain panics | ⟨tail, working, -, panics⟩ :=
            Procedure.bind_panic.mp dispatched
          · exact effected.holds panics
          · exact (panics_runTail tail).holds panics
  · exact .inl ((panics_advancePc _ _).holds advances)

end Actions

end Exec
end Qevm
