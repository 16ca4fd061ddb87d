import Qevm.Core.Lawful
import Qevm.Core.Operands
import Qevm.Core.Transaction

/-!
# Snapshots and the end of a call

What an instruction that opens a frame keeps for the end of the frame, what
settling that end does to the world state, and the ways in which a call comes
back to its caller.
-/

set_option synthInstance.maxSize 100000

namespace Qevm

open WorldState TxExecContext

variable {S : Type}

/-- The world state that the end of a frame may go back to. -/
def CallType.snapshot : CallType S → Option S
  | .tx args => some args.snapshot
  | .create args => some args.snapshot
  | .call args => args.snapshot

/-- What an action keeps for the end of the frame that it opens. -/
def Tail.callType : Tail S → Option (CallType S)
  | .enter _ _ _ _ _ callType _ _ => some callType
  | .settle callType _ _ _ => some callType
  | .next | .finish _ _ => none

/-- An action starts no frame that is allowed to write. -/
def Tail.ReadOnly : Tail S → Prop
  | .enter _ _ _ _ _ _ _ readOnly => readOnly = true
  | .settle _ _ _ _ | .next | .finish _ _ => True

/-- The instructions that call another account. -/
def Opcode.isMessageCall : Opcode → Bool
  | call | callCode | delegateCall | staticCall => true
  | _ => false

/-- The instructions that create a contract. -/
def Opcode.isCreation : Opcode → Bool
  | create | create2 => true
  | _ => false

namespace Exec

/-! ### Work that leaves the world state alone -/

/-- The world state is kept. -/
def KeepsState (before after : TxExecContext S) : Prop :=
  after.state = before.state

instance : IsPreorder (TxExecContext S) KeepsState where
  refl _ := rfl
  trans _ _ _ left right := Eq.trans right left

instance keepsState_onCall (part : Run (CallFrame S) α) :
    Procedure.Moves KeepsState (onCall part : Exec S α) :=
  Procedure.Moves.zoom_any part fun _ _ => rfl

instance keepsState_useGas (gas : Gas) :
    Procedure.Moves KeepsState (useGas gas : Exec S Unit) :=
  keepsState_onCall _

instance keepsState_push (word : U256) :
    Procedure.Moves KeepsState (push word : Exec S Unit) :=
  keepsState_onCall _

instance keepsState_markDirty (addr : Addr) :
    Procedure.Moves KeepsState (markDirty addr : Exec S Unit) :=
  Procedure.Moves.update fun _ => rfl

variable [WorldState S]

instance keepsState_callReturn
    (args : CallArgs S) (data : Bytes) (gas : Gas) (ret : Result) :
    Procedure.Moves KeepsState (callReturn args data gas ret) := by
  unfold callReturn
  obtain err | _ := ret
  · cases err <;> infer_instance
  · infer_instance

/-- A transfer that is possible only changes the world state. -/
@[simp] theorem wp_transfer
    (sender recipient : Addr) (value : Wei) {post : Unit → TxExecContext S → Prop}
    {fail : ExecError → TxExecContext S → Prop} {before : TxExecContext S} :
    Procedure.wp (transfer sender recipient value) post fail before ↔
      ((transferBalance before.state sender recipient value).2 = some () →
        post () { before with
          state := (transferBalance before.state sender recipient value).1 }) := by
  unfold Procedure.wp transfer
  obtain ⟨state, result⟩ := transferBalance before.state sender recipient value
  cases result <;> simp

/-- The world state after a call has come back. -/
def returnedState (saved : Option S) (ret : Result) (state : S) : S :=
  if ret.isErr then saved.elim state (rollback state) else state

omit [WorldState S] in
/-- A conditional rollback does not fail. -/
theorem rollBack_error
    {failed : Prop} [Decidable failed] {change : S → S}
    {before after : TxExecContext S} {err : ExecError} :
    Procedure.when failed (writeState change) before ≠ .error err after := by
  by_cases holds : failed <;>
    simp [Procedure.when, writeState, Procedure.update, holds]

omit [WorldState S] in
/-- The world state after a conditional rollback. -/
theorem rollBack_ok
    {failed : Prop} [Decidable failed] {change : S → S}
    {before after : TxExecContext S}
    (run : Procedure.when failed (writeState change) before = .ok () after) :
    after = { before with
      state := if failed then change before.state else before.state } := by
  obtain ⟨holds, run⟩ | ⟨holds, rfl⟩ := Procedure.when_ok.mp run
  · rw [if_pos holds]
    exact (Outcome.ok.inj run).2.symm
  · rw [if_neg holds]

section CallEnd

variable {args : CallArgs S} {data : Bytes} {gas : Gas} {ret : Result}
  {before after : TxExecContext S}

/-- The end of a call goes back, takes what is returned, and leaves an answer. -/
theorem callEnd_ok (run : callEnd args data gas ret before = .ok () after) :
    ∃ left written stack,
      callReturn args data gas ret
          { before with state := returnedState args.snapshot ret before.state } =
        .ok left written ∧
      stack.peek = some (if ret.isErr then 0 else 1) ∧
      after = { written with
        curCall := { written.curCall with
          unusedGas := written.curCall.unusedGas + left
          stack := stack
          lastReturned := data } } := by
  unfold callEnd at run
  obtain ⟨_, rolled, rolls, run⟩ := Procedure.bind_ok.mp run
  obtain ⟨left, written, returned, run⟩ := Procedure.bind_ok.mp run
  obtain ⟨_, credited, credits, run⟩ := Procedure.bind_ok.mp run
  obtain ⟨_, answered, pushes, returns⟩ := Procedure.bind_ok.mp run
  rw [rollBack_ok rolls] at returned
  obtain ⟨-, rfl⟩ := Outcome.ok.inj credits
  obtain ⟨stack, top, rfl⟩ := push_ok pushes
  obtain ⟨-, rfl⟩ := Outcome.ok.inj returns
  exact ⟨left, written, stack, returned, top, rfl⟩

/-- Settling the end of a call goes back to its snapshot when it failed. -/
theorem callEnd_state (run : callEnd args data gas ret before = .ok () after) :
    after.state = returnedState args.snapshot ret before.state := by
  obtain ⟨left, written, stack, returned, -, rfl⟩ := callEnd_ok run
  have kept : KeepsState _ written := Procedure.Moves.ok returned
  exact kept

/-- So does settling it when that fails in the caller. -/
theorem callEnd_error_state {err : ExecError}
    (run : callEnd args data gas ret before = .error err after) :
    after.state = returnedState args.snapshot ret before.state := by
  unfold callEnd at run
  obtain raised | ⟨_, rolled, first, rest⟩ := Procedure.bind_error.mp run
  · exact absurd raised rollBack_error
  · have kept : KeepsState rolled after := Procedure.Moves.error rest
    rw [kept, rollBack_ok first]
    rfl

/-- It does so in any case. -/
theorem callEnd_ended_state
    (run : callEnd args data gas ret before = .ok () after ∨
      ∃ err, callEnd args data gas ret before = .error err after) :
    after.state = returnedState args.snapshot ret before.state := by
  obtain run | ⟨err, run⟩ := run
  · exact callEnd_state run
  · exact callEnd_error_state run

/-- The caller finds the result of a call on its stack. -/
theorem callEnd_peek (run : callEnd args data gas ret before = .ok () after) :
    after.curCall.stack.peek = some (if ret.isErr then 0 else 1) := by
  obtain ⟨left, written, stack, -, top, rfl⟩ := callEnd_ok run
  exact top

end CallEnd

/-! ### What an opener keeps for the end of its frame -/

variable [Keccak256]

instance callType_createEffect
    (contractAddr caller : Addr) (code : Bytes) (value : Wei) (gas : Gas)
    (args : CallType S) :
    Procedure.Returns (fun tail => tail.callType = some args)
      (createEffect contractAddr caller code value gas args) :=
  @Procedure.Returns.bind _ _ _ _ _ _ _ _
    fun _ => Procedure.Returns.pure rfl

instance callType_callEffect
    (callee caller : Addr) (input : Bytes) (gas : Gas) (value : Wei)
    (args : CallType S) :
    Procedure.Returns (fun tail => tail.callType = some args)
      (callEffect callee caller input gas value args) := by
  have settle (ret : Bytes) (err : Result) :
      Procedure.Returns (fun tail : Tail S => tail.callType = some args)
        (pure (.settle args ret gas err) : Exec S (Tail S)) :=
    Procedure.Returns.pure rfl
  have code :
      Procedure.Returns (fun tail => tail.callType = some args)
        (runCodeEffect callee caller input gas value args) := by
    refine @Procedure.Returns.bind _ _ _ _ _ _ _ _
      fun code => Procedure.Returns.pure ?_
    split <;> rfl
  have choose (self : TxExecContext S) :
      Procedure.Returns (fun tail => tail.callType = some args)
        (match self.env.precompiledContracts.lookup callee with
        | none => runCodeEffect callee caller input gas value args
        | some contract =>
            (pure (.settle args (contract input).1 gas (contract input).2) :
              Exec S (Tail S))) := by
    cases self.env.precompiledContracts.lookup callee <;> infer_instance
  unfold callEffect
  infer_instance

/-- Only the instructions that enter calls open frames, or settle their ends at once. -/
theorem enters_of_callType
    {inst : Inst} {tail : Tail S} {callType : CallType S}
    {before after : TxExecContext S} (run : effect inst before = .ok tail after)
    (opens : tail.callType = some callType) : inst.opcode.entersCall = true := by
  have nested := (nested_effect inst).holds run
  cases tail with
  | next => contradiction
  | finish data err => contradiction
  | enter code input value callee caller callType gas readOnly =>
      cases callType <;> first | exact nested | exact nested.elim
  | settle args ret gas err =>
      cases args <;> first | exact nested | exact nested.elim

/-- They are the message calls and the creations. -/
theorem opener_of_callType
    {inst : Inst} {tail : Tail S} {callType : CallType S}
    {before after : TxExecContext S} (run : effect inst before = .ok tail after)
    (opens : tail.callType = some callType) :
    inst.opcode.isMessageCall = true ∨ inst.opcode.isCreation = true := by
  have enters := enters_of_callType run opens
  obtain ⟨opcode, data, pos⟩ := inst
  cases opcode <;> simp [Opcode.entersCall] at enters <;>
    simp [Opcode.isMessageCall, Opcode.isCreation]

omit [Keccak256] in
/-- A call of code, or of a precompiled contract, only looks at the world
state. -/
theorem enterEffect_ok
    {codeAddr : Addr} {input : Bytes} {value : Wei} {callee caller : Addr}
    {args : CallArgs S} {gas : Gas} {readOnly : Bool} {tail : Tail S}
    {before after : TxExecContext S}
    (run : enterEffect codeAddr input value callee caller args gas readOnly
      before = .ok tail after) :
    after = before ∧ tail.callType = some (.call args) ∧
      (readOnly = true → tail.ReadOnly) := by
  unfold enterEffect at run
  replace run := Procedure.reads_bind_ok.mp run
  obtain ⟨rfl, rfl⟩ := Outcome.ok.inj run
  refine ⟨rfl, ?_⟩
  cases before.env.precompiledContracts.lookup callee with
  | none => exact ⟨rfl, id⟩
  | some contract => exact ⟨rfl, fun _ => trivial⟩

variable [LawfulWorldState S] {before after : TxExecContext S} {tail : Tail S}

/-- A snapshot is what can be read when it is taken. -/
theorem takeSnapshot_ok {saved : S}
    (run : takeSnapshot before = .ok saved after) :
    view saved = view before.state ∧
      after = { before with state := after.state } ∧
      view after.state = view before.state := by
  obtain ⟨rfl, rfl⟩ := Outcome.ok.inj run
  exact ⟨LawfulWorldState.view_snapshot _, rfl, LawfulWorldState.view_left _⟩

/-- Paying for an instruction leaves the world state alone, and a snapshot is
taken next. -/
theorem snapshot_after_charge
    {α : Type} {charge : Exec S α} [Procedure.Moves Quiet charge]
    {request : α} {paid snapped : TxExecContext S} {saved : S}
    (charges : charge before = .ok request paid)
    (snaps : takeSnapshot paid = .ok saved snapped) :
    view saved = view before.state ∧ view snapped.state = view before.state := by
  have quiet : before.Quiet paid := Procedure.Moves.ok charges
  obtain ⟨same, -, kept⟩ := takeSnapshot_ok snaps
  rw [same, kept, quiet.state]
  exact ⟨rfl, rfl⟩

/-- A call keeps what could be read before it, or keeps nothing and starts a
read-only frame. -/
theorem messageCall_snapshot
    {inst : Inst} (call : inst.opcode.isMessageCall)
    (run : effect inst before = .ok tail after) :
    ∃ args, tail.callType = some (.call args) ∧
      (∀ saved, args.snapshot = some saved → view saved = view before.state) ∧
      (args.snapshot = none → after.state = before.state ∧ tail.ReadOnly) := by
  obtain ⟨opcode, data, pos⟩ := inst
  cases opcode <;> simp only [Opcode.isMessageCall, Bool.false_eq_true] at call <;>
    simp only [effect] at run
  case call =>
    unfold callBeginEffect at run
    obtain ⟨request, paid, charges, run⟩ := Procedure.bind_ok.mp run
    replace run := Procedure.reads_bind_ok.mp run
    obtain ⟨saved, snapped, snaps, run⟩ := Procedure.bind_ok.mp run
    obtain ⟨same, -⟩ := snapshot_after_charge charges snaps
    refine ⟨⟨some saved, request.retOff, request.retLen⟩,
      (callType_callEffect _ _ _ _ _ _).holds run, ?_, by simp⟩
    rintro _ ⟨⟩
    exact same
  case callCode =>
    unfold callCodeBeginEffect at run
    obtain ⟨request, paid, charges, run⟩ := Procedure.bind_ok.mp run
    replace run := Procedure.reads_bind_ok.mp run
    obtain ⟨saved, snapped, snaps, run⟩ := Procedure.bind_ok.mp run
    obtain ⟨same, -⟩ := snapshot_after_charge charges snaps
    obtain ⟨balance, _, reads, run⟩ := Procedure.bind_ok.mp run
    obtain ⟨_, funded, checks, run⟩ := Procedure.bind_ok.mp run
    refine ⟨⟨some saved, request.retOff, request.retLen⟩,
      (enterEffect_ok run).2.1, ?_, by simp⟩
    rintro _ ⟨⟩
    exact same
  case delegateCall =>
    unfold delegateCallBeginEffect at run
    obtain ⟨request, paid, charges, run⟩ := Procedure.bind_ok.mp run
    replace run := Procedure.reads_bind_ok.mp run
    obtain ⟨saved, snapped, snaps, run⟩ := Procedure.bind_ok.mp run
    obtain ⟨same, -⟩ := snapshot_after_charge charges snaps
    refine ⟨⟨some saved, request.retOff, request.retLen⟩,
      (enterEffect_ok run).2.1, ?_, by simp⟩
    rintro _ ⟨⟩
    exact same
  case staticCall =>
    unfold staticCallBeginEffect at run
    obtain ⟨request, paid, charges, run⟩ := Procedure.bind_ok.mp run
    replace run := Procedure.reads_bind_ok.mp run
    obtain ⟨rfl, callType, starts⟩ := enterEffect_ok run
    have quiet : before.Quiet after := Procedure.Moves.ok charges
    exact ⟨⟨none, request.retOff, request.retLen⟩, callType, by simp,
      fun _ => ⟨quiet.state, starts rfl⟩⟩

end Exec

open Exec

/-! ### How a call comes back -/

variable [WorldState S] [Keccak256] {calling resumed : TxExecContext S}

/-- A call that comes back to its caller: what it returns and its result. -/
inductive CallReturns (calling resumed : TxExecContext S) :
    Bytes → Result → Prop
  /-- The call runs code in a frame of its own. -/
  | ran {pushed ending final : TxExecContext S} {data : Bytes} {err : Result}
      (completion : Completion calling pushed ending resumed final data err) :
      CallReturns calling resumed data err
  /-- The call is settled in the iteration that makes it. -/
  | atOnce {inst : Inst} {args : CallArgs S} {gas : Gas}
      {working settled : TxExecContext S} {data : Bytes} {err : Result}
      (fetches : Fetches calling inst)
      (effected : effect inst calling =
        .ok (.settle (.call args) data gas err) working)
      (ended : callEnd args data gas err working = .ok () settled)
      (moved : resumed = { settled with
        curCall := { settled.curCall with pc := settled.curCall.pc + 1 } }) :
      CallReturns calling resumed data err

/-- A call whose frame ends comes back. -/
theorem Resumption.returns
    {pushed ending : TxExecContext S}
    (resumption : Resumption calling pushed ending resumed) :
    ∃ data err, CallReturns calling resumed data err := by
  obtain ⟨final, data, err, completion⟩ := resumption.completion
  exact ⟨data, err, .ran completion⟩

/-- A call after which the caller goes on at once has come back. -/
theorem Step.returns
    {inst : Inst} (step : Step calling resumed) (fetches : Fetches calling inst)
    (call : inst.opcode.isMessageCall)
    (depth : resumed.callStack.length = calling.callStack.length) :
    ∃ data err, CallReturns calling resumed data err := by
  obtain ⟨found, foundFetches, continues | enters | settled | ended⟩ := step.cases
  · obtain ⟨working, effected, -⟩ := continues
    obtain rfl : found = inst := Option.some.inj (foundFetches.symm.trans fetches)
    have nested : found.opcode.entersCall = false :=
      (nested_effect found).holds effected
    obtain ⟨opcode, data, pos⟩ := found
    cases opcode <;> simp [Opcode.isMessageCall, Opcode.entersCall] at call nested
  · obtain ⟨code, input, value, callee, caller, callType, gas, readOnly, working,
      effected, run⟩ := enters
    have works : calling.Works working := Procedure.Moves.ok effected
    rw [callPush_ok run, List.length_cons, works.callStack] at depth
    omega
  · obtain ⟨args, ret, gas, err, working, moved, effected, ended, advances⟩ :=
      settled
    exact ⟨ret, err, .atOnce foundFetches effected ended advances⟩
  · obtain ⟨ending, data, err, settled, ends, finished, rfl⟩ := ended
    have shorter := ends.shorter finished
    change settled.callStack.length = _ at depth
    omega

/-- A call that comes back has pushed its result. -/
theorem CallReturns.peek
    {inst : Inst} {data : Bytes} {err : Result} [LawfulWorldState S]
    (returns : CallReturns calling resumed data err)
    (fetches : Fetches calling inst) (call : inst.opcode.isMessageCall) :
    resumed.curCall.stack.peek = some (if err.isErr then 0 else 1) := by
  cases returns with
  | atOnce fetches effected ended moved =>
      have top := callEnd_peek ended
      rw [moved]
      exact top
  | @ran pushed ending final data err completion =>
      obtain ⟨found, code, input, value, callee, caller, callType, gas, readOnly,
        working, foundFetches, -, effected, -, rfl⟩ := completion.opens.cases
      obtain rfl : found = inst := Option.some.inj (foundFetches.symm.trans fetches)
      obtain ⟨args, opens, -⟩ := messageCall_snapshot call effected
      obtain rfl := Option.some.inj opens
      obtain ⟨last, waiting, settled, -, -, ended, rfl⟩ := completion.settled
      have top := callEnd_peek ended
      unfold advanced
      split <;> exact top

end Qevm
