import Qevm.Core.Creations
import Qevm.Laws.Openers

/-!
# The operands of the instructions that open frames

An instruction that opens a frame pops at least three words, which leaves room on the stack
for the answer.
-/

set_option synthInstance.maxSize 100000

namespace Qevm

open Params Exec TxExecContext Procedure WorldState

variable {S : Type}

namespace Stack

instance falls_consume1 : Moves (Falls top) consume1 := by
  refine ⟨fun stack => ?_⟩
  by_cases enough : stack.top > 0 <;> simp [wp, consume1, enough, Falls]

instance falls_consume2 : Moves (Falls top) consume2 := by
  refine ⟨fun stack => ?_⟩
  by_cases enough : stack.top > 1 <;> simp [wp, consume2, enough, Falls]

instance falls_consume3 : Moves (Falls top) consume3 := by
  refine ⟨fun stack => ?_⟩
  by_cases enough : stack.top > 2 <;> simp [wp, consume3, enough, Falls]

instance falls_consume4 : Moves (Falls top) consume4 := by
  refine ⟨fun stack => ?_⟩
  by_cases enough : stack.top > 3 <;> simp [wp, consume4, enough, Falls]

end Stack

namespace Exec

instance keepsStack_gasCallCommon (callCost : U256) :
    Moves KeepsStack (gasCallCommon callCost : Exec S Gas) := by
  unfold gasCallCommon
  cases checkedAsU64 callCost <;> infer_instance

instance keepsStack_useGasCallCommonBerlin (addr : Addr) :
    Moves KeepsStack (useGasCallCommonBerlin addr : Exec S Unit) := by
  unfold useGasCallCommonBerlin
  infer_instance

instance keepsStack_useGasQuota (gas : U256) (memGas : Gas) :
    Moves KeepsStack (useGasQuota gas memGas : Exec S Gas) := by
  unfold useGasQuota
  infer_instance

/-- Work on the stack that pops words lowers it. -/
instance falls_onStack
    (part : Run Stack α) [falls : Moves (Falls Stack.top) part] :
    Moves (Falls height) (onCall (CallFrame.onStack part) : Exec S α) := by
  refine ⟨fun context => ?_⟩
  rw [onCall, wp_zoom, CallFrame.onStack, wp_zoom]
  exact falls.holds context.curCall.stack

instance falls_consume2 : Moves (Falls height) (consume2 : Exec S _) := falls_onStack _

/-- The operands of `CALL` and `CALLCODE` begin with three words. -/
instance spends_callOperands : Expends height 3 (callOperands : Exec S CallOperands) := by
  unfold callOperands
  infer_instance

/-- Two pairs of operands are more than three words. -/
instance spends_pairs
    (first : Exec S α) [spends : Expends height 2 first]
    (next : α → Exec S β) [rest : ∀ value, Expends height 2 (next value)] :
    Expends height 3 (first >>= next) := by
  have four : Expends height (2 + 2) (first >>= next) := Costs.add
  refine ⟨fun run => ⟨rfl, ?_⟩⟩
  have paid := (four.holds run).2
  omega

variable [WorldState S] [Keccak256]

instance keepsStack_useGasCallValue (addr : Addr) :
    Moves KeepsStack (useGasCallValue addr : Exec S Unit) := by
  unfold useGasCallValue
  infer_instance

omit [Keccak256] in
instance spends_chargeCall : Expends height 3 (chargeCall : Exec S CallRequest) := by
  unfold chargeCall useGasCall
  infer_instance

omit [WorldState S] [Keccak256] in
instance spends_chargeCallCode :
    Expends height 3 (chargeCallCode : Exec S CallRequest) := by
  unfold chargeCallCode useGasCallCode
  infer_instance

omit [WorldState S] [Keccak256] in
instance spends_chargeDelegateCall :
    Expends height 3 (chargeDelegateCall : Exec S CallRequest) := by
  unfold chargeDelegateCall useGasDelegateCall
  infer_instance

omit [WorldState S] [Keccak256] in
instance spends_chargeStaticCall :
    Expends height 3 (chargeStaticCall : Exec S CallRequest) := by
  unfold chargeStaticCall useGasStaticCall
  infer_instance

variable {before after : TxExecContext S} {inst : Inst} {tail : Tail S}

/-- An instruction that calls an account pops at least three words. -/
theorem call_pops (kind : CallKind) (run : effect kind.inst before = .ok tail after) :
    after.height + 3 ≤ before.height := by
  rw [kind.effect_eq] at run
  obtain ⟨request, paid, pays, starts⟩ := bind_ok.mp run
  have keeps := (kind.start_ok (kind.charged pays) starts).1
  have same : after.height = paid.height := congrArg (·.stack.top) keeps.1
  rw [same]
  cases kind with
  | call => exact (spends_chargeCall.holds pays).2
  | callCode => exact (spends_chargeCallCode.holds pays).2
  | delegateCall => exact (spends_chargeDelegateCall.holds pays).2
  | staticCall => exact (spends_chargeStaticCall.holds pays).2

/-- An instruction that creates a contract pops at least three words. -/
theorem creation_pops
    (creation : inst.opcode.isCreation) (run : effect inst before = .ok tail after) :
    after.height + 3 ≤ before.height := by
  obtain ⟨request, contract, paid, saved, snapped, charges, snaps, -, opens⟩ :=
    creation_ok creation run
  have snap : KeepsStack paid snapped := Moves.ok snaps
  have kept : KeepsStack snapped after := Moves.ok opens
  have same : after.height = paid.height := congrArg Stack.top (kept.trans snap)
  rw [same]
  obtain ⟨opcode, data, pos⟩ := inst
  cases charges with
  | create charges => exact (spends_chargeCreate.holds charges).2
  | create2 charges =>
      have paid := (spends_chargeCreate2.holds charges).2
      omega

/-- An instruction that opens a frame, or settles its end at once, pops at least three
words. -/
theorem opener_pops
    {callType : CallType S} (run : effect inst before = .ok tail after)
    (opens : tail.callType = some callType) : after.height + 3 ≤ before.height := by
  obtain call | creation := opener_of_callType run opens
  · obtain ⟨opcode, data, pos⟩ := inst
    cases opcode <;> simp only [Opcode.isMessageCall, Bool.false_eq_true] at call
    case call => exact call_pops .call run
    case callCode => exact call_pops .callCode run
    case delegateCall => exact call_pops .delegateCall run
    case staticCall => exact call_pops .staticCall run
  · exact creation_pops creation run

end Exec
end Qevm
