import Qevm.Core.Interpreter

/-!
# Work inside the executing frame

Most instructions only work on the stack, the memory and the gas of the
executing frame and on the access list.  `Continues` relates the contexts
before and after such work, whether or not it ends in an error; `Quiet` says in
addition that the program counter is kept.

The program of every instruction is a composition of a few primitives, so the
search for instances of `Procedure.Moves` finds these relations along it.
-/

set_option synthInstance.maxSize 100000

namespace Qevm

variable {S : Type}

/-- The fields that a frame keeps for as long as it exists. -/
structure CallFrame.Same (before after : CallFrame S) : Prop where
  code : after.code = before.code
  callee : after.callee = before.callee
  caller : after.caller = before.caller
  callType : after.callType = before.callType
  input : after.input = before.input
  value : after.value = before.value
  readOnly : after.readOnly = before.readOnly
  fork : after.fork = before.fork

/-- Work inside a frame: only the stack, the memory and the program counter
change, and gas is only spent. -/
structure CallFrame.Continues (before after : CallFrame S) : Prop
    extends before.Same after where
  lastReturned : after.lastReturned = before.lastReturned
  unusedGas : after.unusedGas ≤ before.unusedGas

/-- Work inside a frame that does not jump. -/
structure CallFrame.Quiet (before after : CallFrame S) : Prop
    extends before.Continues after where
  pc : after.pc = before.pc

namespace CallFrame

theorem Same.refl (frame : CallFrame S) : frame.Same frame :=
  ⟨rfl, rfl, rfl, rfl, rfl, rfl, rfl, rfl⟩

theorem Same.trans {first second third : CallFrame S}
    (left : first.Same second) (right : second.Same third) :
    first.Same third where
  code := right.code.trans left.code
  callee := right.callee.trans left.callee
  caller := right.caller.trans left.caller
  callType := right.callType.trans left.callType
  input := right.input.trans left.input
  value := right.value.trans left.value
  readOnly := right.readOnly.trans left.readOnly
  fork := right.fork.trans left.fork

theorem Continues.refl (frame : CallFrame S) : frame.Continues frame :=
  ⟨Same.refl frame, rfl, UInt64.le_refl _⟩

theorem Continues.trans {first second third : CallFrame S}
    (left : first.Continues second) (right : second.Continues third) :
    first.Continues third :=
  ⟨left.toSame.trans right.toSame, right.lastReturned.trans left.lastReturned,
    UInt64.le_trans right.unusedGas left.unusedGas⟩

theorem Quiet.refl (frame : CallFrame S) : frame.Quiet frame :=
  ⟨Continues.refl frame, rfl⟩

instance : IsPreorder (CallFrame S) Quiet where
  refl := Quiet.refl
  trans _ _ _ left right :=
    ⟨left.toContinues.trans right.toContinues, right.pc.trans left.pc⟩

/-- Changing the stack is quiet. -/
theorem quiet_stack (frame : CallFrame S) (stack : Stack) :
    frame.Quiet { frame with stack := stack } :=
  ⟨⟨⟨rfl, rfl, rfl, rfl, rfl, rfl, rfl, rfl⟩, rfl, UInt64.le_refl _⟩, rfl⟩

/-- Changing the memory is quiet. -/
theorem quiet_memory (frame : CallFrame S) (memory : Memory) :
    frame.Quiet { frame with memory := memory } :=
  ⟨⟨⟨rfl, rfl, rfl, rfl, rfl, rfl, rfl, rfl⟩, rfl, UInt64.le_refl _⟩, rfl⟩

instance quiet_onStack (part : Run Stack α) :
    Procedure.Moves Quiet (onStack part : Run (CallFrame S) α) :=
  Procedure.Moves.zoom_any part quiet_stack

instance quiet_onMemory (part : Run Memory α) :
    Procedure.Moves Quiet (onMemory part : Run (CallFrame S) α) :=
  Procedure.Moves.zoom_any part quiet_memory

@[simp] theorem wp_useGas
    {gas : Gas} {post : Unit → CallFrame S → Prop}
    {fail : ExecError → CallFrame S → Prop} {frame : CallFrame S} :
    Procedure.wp (useGas gas) post fail frame ↔
      (frame.unusedGas < gas → fail .outOfGas frame) ∧
        (gas ≤ frame.unusedGas →
          post () { frame with unusedGas := frame.unusedGas - gas }) := by
  by_cases short : frame.unusedGas < gas
  · simp [Procedure.wp, useGas, short, UInt64.not_le.mpr short]
  · simp [Procedure.wp, useGas, short, UInt64.not_lt.mp short]

/-- Gas that is there can be taken without wrapping around. -/
theorem toNat_paid {gas available : Gas} (paid : gas ≤ available) :
    (available - gas).toNat + gas.toNat = available.toNat := by
  have enough : gas.toNat ≤ available.toNat := UInt64.le_iff_toNat_le.mp paid
  rw [UInt64.toNat_sub_of_le _ _ paid]
  omega

instance quiet_useGas (gas : Gas) :
    Procedure.Moves Quiet (useGas gas : Run (CallFrame S) Unit) := by
  refine ⟨fun frame => wp_useGas.mpr ⟨fun _ => Quiet.refl frame, fun paid => ?_⟩⟩
  have less : frame.unusedGas - gas ≤ frame.unusedGas := by
    have := toNat_paid paid
    rw [UInt64.le_iff_toNat_le]
    omega
  exact ⟨⟨⟨rfl, rfl, rfl, rfl, rfl, rfl, rfl, rfl⟩, rfl, less⟩, rfl⟩

@[simp] theorem wp_requireFork
    {fork : Fork} {post : Unit → CallFrame S → Prop}
    {fail : ExecError → CallFrame S → Prop} {frame : CallFrame S} :
    Procedure.wp (requireFork fork) post fail frame ↔
      (frame.fork < fork → fail .invalidOpcode frame) ∧
        (¬frame.fork < fork → post () frame) := by
  by_cases before : frame.fork < fork <;>
    simp [Procedure.wp, requireFork, before]

instance quiet_requireFork (fork : Fork) :
    Procedure.Moves Quiet (requireFork fork : Run (CallFrame S) Unit) :=
  ⟨fun frame => wp_requireFork.mpr
    ⟨fun _ => Quiet.refl frame, fun _ => Quiet.refl frame⟩⟩

instance quiet_makeUnaryOp (op : U256 → U256) (gas : Gas) :
    Procedure.Moves Quiet (makeUnaryOp op gas : Run (CallFrame S) Unit) := by
  unfold makeUnaryOp
  infer_instance

instance quiet_makeBinaryOp (op : U256 → U256 → U256) (gas : Gas) :
    Procedure.Moves Quiet (makeBinaryOp op gas : Run (CallFrame S) Unit) := by
  unfold makeBinaryOp
  infer_instance

instance quiet_makeTernaryOp (op : U256 → U256 → U256 → U256) (gas : Gas) :
    Procedure.Moves Quiet (makeTernaryOp op gas : Run (CallFrame S) Unit) := by
  unfold makeTernaryOp
  infer_instance

instance quiet_makeBinaryOpSince
    (op : U256 → U256 → U256) (gas : Gas) (fork : Fork) :
    Procedure.Moves Quiet
      (makeBinaryOpSince op gas fork : Run (CallFrame S) Unit) := by
  unfold makeBinaryOpSince
  infer_instance

instance quiet_pushOf (gas : Gas) (word : CallFrame S → U256) :
    Procedure.Moves Quiet (pushOf gas word) := by
  unfold pushOf
  infer_instance

end CallFrame

instance quiet_gasCheckedMul
    {σ : Type} {related : σ → σ → Prop} [IsPreorder σ related] (x y : Gas) :
    Procedure.Moves related (gasCheckedMul x y : Run σ Gas) :=
  Procedure.Moves.okOr _ _

/-- Work inside the executing frame, seen from the context. -/
structure TxExecContext.Continues (before after : TxExecContext S) : Prop where
  curCall : before.curCall.Continues after.curCall
  callStack : after.callStack = before.callStack
  state : after.state = before.state
  committedState : after.committedState = before.committedState
  refund : after.refund = before.refund
  destroyed : after.destroyed = before.destroyed
  dirty : after.dirty = before.dirty
  status : after.status = before.status
  origin : after.origin = before.origin
  gasPrice : after.gasPrice = before.gasPrice
  env : after.env = before.env

/-- Work inside the executing frame that does not jump. -/
structure TxExecContext.Quiet (before after : TxExecContext S) : Prop
    extends before.Continues after where
  pc : after.curCall.pc = before.curCall.pc

namespace TxExecContext

theorem Continues.refl (context : TxExecContext S) : context.Continues context :=
  ⟨CallFrame.Continues.refl _, rfl, rfl, rfl, rfl, rfl, rfl, rfl, rfl, rfl, rfl⟩

theorem Continues.trans {first second third : TxExecContext S}
    (left : first.Continues second) (right : second.Continues third) :
    first.Continues third where
  curCall := left.curCall.trans right.curCall
  callStack := right.callStack.trans left.callStack
  state := right.state.trans left.state
  committedState := right.committedState.trans left.committedState
  refund := right.refund.trans left.refund
  destroyed := right.destroyed.trans left.destroyed
  dirty := right.dirty.trans left.dirty
  status := right.status.trans left.status
  origin := right.origin.trans left.origin
  gasPrice := right.gasPrice.trans left.gasPrice
  env := right.env.trans left.env

instance : IsPreorder (TxExecContext S) Continues where
  refl := Continues.refl
  trans _ _ _ := Continues.trans

theorem Quiet.refl (context : TxExecContext S) : context.Quiet context :=
  ⟨Continues.refl context, rfl⟩

instance : IsPreorder (TxExecContext S) Quiet where
  refl := Quiet.refl
  trans _ _ _ left right :=
    ⟨left.toContinues.trans right.toContinues, right.pc.trans left.pc⟩

end TxExecContext

namespace Exec

open TxExecContext

instance quiet_onCall
    (part : Run (CallFrame S) α) [Procedure.Moves CallFrame.Quiet part] :
    Procedure.Moves Quiet (onCall part : Exec S α) :=
  Procedure.Moves.zoom CallFrame.Quiet part fun _ _ quiet =>
    ⟨⟨quiet.toContinues, rfl, rfl, rfl, rfl, rfl, rfl, rfl, rfl, rfl, rfl⟩,
      quiet.pc⟩

instance quiet_useGas (gas : Gas) :
    Procedure.Moves Quiet (useGas gas : Exec S Unit) := quiet_onCall _

instance quiet_requireFork (fork : Fork) :
    Procedure.Moves Quiet (requireFork fork : Exec S Unit) := quiet_onCall _

instance quiet_consume1 : Procedure.Moves Quiet (consume1 : Exec S _) :=
  quiet_onCall _

instance quiet_consume2 : Procedure.Moves Quiet (consume2 : Exec S _) :=
  quiet_onCall _

instance quiet_consume3 : Procedure.Moves Quiet (consume3 : Exec S _) :=
  quiet_onCall _

instance quiet_consume4 : Procedure.Moves Quiet (consume4 : Exec S _) :=
  quiet_onCall _

instance quiet_push (word : U256) :
    Procedure.Moves Quiet (push word : Exec S Unit) := quiet_onCall _

instance quiet_getSlice (off len : U256) :
    Procedure.Moves Quiet (getSlice off len : Exec S _) := quiet_onCall _

section Reads

variable {related : TxExecContext S → TxExecContext S → Prop}
  [IsPreorder (TxExecContext S) related]

instance moves_call : Procedure.Moves related (call : Exec S _) :=
  Procedure.Moves.reads _

instance moves_fork : Procedure.Moves related (fork : Exec S _) :=
  Procedure.Moves.reads _

instance moves_callDepth : Procedure.Moves related (callDepth : Exec S _) :=
  Procedure.Moves.reads _

instance moves_readState (query : S → α) :
    Procedure.Moves related (readState query : Exec S α) :=
  Procedure.Moves.reads _

instance moves_accessed (addr : Addr) (slot : Hash) :
    Procedure.Moves related (accessed addr slot : Exec S _) := by
  unfold accessed
  infer_instance

end Reads

/-- Changing the access list is quiet. -/
theorem quiet_accessList (context : TxExecContext S) (list : AccessList) :
    context.Quiet { context with accessList := list } :=
  ⟨⟨CallFrame.Continues.refl _, rfl, rfl, rfl, rfl, rfl, rfl, rfl, rfl, rfl,
    rfl⟩, rfl⟩

instance quiet_addAddr (addr : Addr) :
    Procedure.Moves Quiet (addAddr addr : Exec S Unit) :=
  Procedure.Moves.update fun context => quiet_accessList context _

instance quiet_addSlot (addr : Addr) (slot : Hash) :
    Procedure.Moves Quiet (addSlot addr slot : Exec S Unit) := by
  have changes (list : AccessList) :
      Procedure.Moves Quiet (Procedure.update fun self =>
        { self with accessList := list } : Exec S Unit) :=
    Procedure.Moves.update fun context => quiet_accessList context list
  unfold addSlot
  infer_instance

instance quiet_useGasAccountAccess (addr : Addr) (gasBefore : Fork → Gas) :
    Procedure.Moves Quiet (useGasAccountAccess addr gasBefore : Exec S Unit) := by
  unfold useGasAccountAccess
  infer_instance

instance quiet_pushOf (gas : Gas) (word : TxExecContext S → U256) :
    Procedure.Moves Quiet (pushOf gas word) := by
  unfold pushOf
  infer_instance


end Exec

/-- The opcodes that neither jump, nor write the world state, nor open or end a
frame. -/
def Opcode.isPlain : Opcode → Bool
  | stop | jump | jumpi | sstore | log0 | log1 | log2 | log3 | log4
  | create | call | callCode | Opcode.return | delegateCall | create2
  | staticCall | revert | selfDestruct => false
  | _ => true

namespace Exec

open TxExecContext

variable [WorldState S] [Keccak256]

/-- A plain instruction is quiet. -/
theorem quiet_dispatch {inst : Inst} (plain : inst.opcode.isPlain) :
    Procedure.Moves Quiet (dispatch inst : Exec S Unit) := by
  obtain ⟨opcode, data, pos⟩ := inst
  cases opcode <;> simp only [Opcode.isPlain, Bool.false_eq_true] at plain <;>
    simp only [dispatch, CallFrame.add, CallFrame.mul, CallFrame.sub,
      CallFrame.div, CallFrame.sdiv, CallFrame.rem, CallFrame.smod,
      CallFrame.addMod, CallFrame.mulMod, CallFrame.exp, CallFrame.signExtend,
      CallFrame.lt, CallFrame.gt, CallFrame.slt, CallFrame.sgt, CallFrame.eq,
      CallFrame.isZero, CallFrame.and, CallFrame.or, CallFrame.xor,
      CallFrame.not, CallFrame.byte, CallFrame.shl, CallFrame.shr,
      CallFrame.sar, CallFrame.sha3, CallFrame.addr, CallFrame.pushCaller,
      CallFrame.callValue, CallFrame.callDataLoad, CallFrame.callDataSize,
      CallFrame.callDataCopy, CallFrame.codeSize, CallFrame.codeCopy,
      CallFrame.returnDataSize, CallFrame.returnDataCopy, CallFrame.pop,
      CallFrame.mload, CallFrame.mstore, CallFrame.mstore8, CallFrame.pushPc,
      CallFrame.msize, CallFrame.gas, CallFrame.push, CallFrame.dup,
      CallFrame.swap, balance, origin, gasPrice, extCodeSize, extCodeCopy,
      extCodeHash, blockHash, coinbase, timestamp, number, difficulty,
      gasLimit, chainId, selfBalance, baseFee, sload, useGasSload] <;>
    infer_instance


/-! ### Jumps -/

/-- Quiet work continues the frame. -/
instance (priority := low) continues_of_quiet
    (program : Exec S α) [quiet : Procedure.Moves Quiet program] :
    Procedure.Moves Continues program :=
  quiet.mono fun _ _ work => work.toContinues

instance continues_setPc (dest : U256) :
    Procedure.Moves Continues (setPc dest : Exec S Unit) := by
  have jumps (pc : UInt64) :
      Procedure.Moves Continues (onCall (Procedure.update fun call =>
        { call with pc := pc }) : Exec S Unit) := by
    refine ⟨fun context => ?_⟩
    rw [onCall, Procedure.wp_zoom, Procedure.wp_update]
    exact ⟨⟨⟨rfl, rfl, rfl, rfl, rfl, rfl, rfl, rfl⟩, rfl, UInt64.le_refl _⟩,
      rfl, rfl, rfl, rfl, rfl, rfl, rfl, rfl, rfl, rfl⟩
  unfold setPc
  infer_instance

instance continues_jump : Procedure.Moves Continues (jump : Exec S Unit) := by
  unfold jump
  infer_instance

instance continues_jumpi : Procedure.Moves Continues (jumpi : Exec S Unit) := by
  unfold jumpi
  infer_instance

/-! ### Operands and gas of the instructions that open or end frames -/

/-- Popping topics is popping words. -/
instance moves_consumeTopics
    {related : TxExecContext S → TxExecContext S → Prop}
    [IsPreorder (TxExecContext S) related]
    [pops : Procedure.Moves related (consume1 : Exec S U256)] (num : Nat) :
    Procedure.Moves related (consumeTopics num : Exec S (List Hash)) := by
  induction num with
  | zero =>
      unfold consumeTopics
      infer_instance
  | succ num inductionHypothesis =>
      unfold consumeTopics
      infer_instance

instance quiet_requireDepth :
    Procedure.Moves Quiet (requireDepth : Exec S Unit) := by
  unfold requireDepth
  infer_instance

instance quiet_gasCallCommon (callCost : U256) :
    Procedure.Moves Quiet (gasCallCommon callCost : Exec S Gas) := by
  unfold gasCallCommon
  cases checkedAsU64 callCost <;> infer_instance

instance quiet_useGasCallCommonBerlin (addr : Addr) :
    Procedure.Moves Quiet (useGasCallCommonBerlin addr : Exec S Unit) := by
  unfold useGasCallCommonBerlin
  infer_instance

instance quiet_useGasQuota (gas : U256) (memGas : Gas) :
    Procedure.Moves Quiet (useGasQuota gas memGas : Exec S Gas) := by
  unfold useGasQuota
  infer_instance

instance quiet_chargeCreate :
    Procedure.Moves Quiet (chargeCreate : Exec S CreateRequest) := by
  unfold chargeCreate
  infer_instance

instance quiet_chargeCreate2 :
    Procedure.Moves Quiet (chargeCreate2 : Exec S CreateRequest) := by
  unfold chargeCreate2
  infer_instance

instance quiet_callOperands :
    Procedure.Moves Quiet (callOperands : Exec S CallOperands) := by
  unfold callOperands
  infer_instance

instance quiet_chargeCall :
    Procedure.Moves Quiet (chargeCall : Exec S CallRequest) := by
  unfold chargeCall useGasCall
  infer_instance

instance quiet_chargeCallCode :
    Procedure.Moves Quiet (chargeCallCode : Exec S CallRequest) := by
  unfold chargeCallCode useGasCallCode
  infer_instance

instance quiet_chargeDelegateCall :
    Procedure.Moves Quiet (chargeDelegateCall : Exec S CallRequest) := by
  unfold chargeDelegateCall useGasDelegateCall
  infer_instance

instance quiet_chargeStaticCall :
    Procedure.Moves Quiet (chargeStaticCall : Exec S CallRequest) := by
  unfold chargeStaticCall useGasStaticCall
  infer_instance

instance quiet_returnRegion :
    Procedure.Moves Quiet (returnRegion : Exec S Bytes) := by
  unfold returnRegion
  infer_instance

instance quiet_revertRegion :
    Procedure.Moves Quiet (revertRegion : Exec S Bytes) := by
  unfold revertRegion
  infer_instance

end Exec

end Qevm
