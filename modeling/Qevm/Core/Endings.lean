import Qevm.Core.Effect

/-!
# How frames end

One iteration of the loop may end any number of frames: the executing frame ends
by its own instruction or by an error, and when settling its end fails in the
frame below, that frame ends with an error as well, and so on.  `Ends` lists
these ends.  `Step.cases` says that an iteration continues the executing frame,
pushes a frame, settles a call without a frame, or settles the last of the ends.
-/

set_option synthInstance.maxSize 100000

namespace Qevm

open Params WorldState

variable {S : Type}

/-- A suspended frame and what becomes of it when it is resumed. -/
structure CallFrame.Resumes (suspended resumed : CallFrame S) : Prop
    extends suspended.Same resumed where
  pc : resumed.pc = suspended.pc

/-- Work on a frame that is resumed: the frames below are left alone. -/
structure TxExecContext.Leaves (before after : TxExecContext S) : Prop where
  curCall : before.curCall.Resumes after.curCall
  callStack : after.callStack = before.callStack
  committedState : after.committedState = before.committedState
  origin : after.origin = before.origin
  gasPrice : after.gasPrice = before.gasPrice
  env : after.env = before.env

/-- Such work that concerns only the world state and the set of modified
accounts. -/
structure TxExecContext.Settles (before after : TxExecContext S) : Prop
    extends before.Leaves after where
  refund : after.refund = before.refund
  accessList : after.accessList = before.accessList
  destroyed : after.destroyed = before.destroyed
  status : after.status = before.status

namespace CallFrame

instance : IsPreorder (CallFrame S) Resumes where
  refl frame := ⟨Same.refl frame, rfl⟩
  trans _ _ _ left right :=
    ⟨left.toSame.trans right.toSame, right.pc.trans left.pc⟩

theorem Resumes.refl (frame : CallFrame S) : frame.Resumes frame :=
  refl_of Resumes frame

theorem Quiet.resumes {before after : CallFrame S}
    (quiet : before.Quiet after) : before.Resumes after :=
  ⟨quiet.toSame, quiet.pc⟩

end CallFrame

namespace TxExecContext

instance : IsPreorder (TxExecContext S) Leaves where
  refl _ := ⟨CallFrame.Resumes.refl _, rfl, rfl, rfl, rfl, rfl⟩
  trans _ _ _ left right :=
    ⟨trans_of CallFrame.Resumes left.curCall right.curCall,
      right.callStack.trans left.callStack,
      right.committedState.trans left.committedState,
      right.origin.trans left.origin, right.gasPrice.trans left.gasPrice,
      right.env.trans left.env⟩

theorem Leaves.refl (context : TxExecContext S) : context.Leaves context :=
  refl_of Leaves context

instance : IsPreorder (TxExecContext S) Settles where
  refl context := ⟨Leaves.refl context, rfl, rfl, rfl, rfl⟩
  trans _ _ _ left right :=
    ⟨trans_of Leaves left.toLeaves right.toLeaves,
      right.refund.trans left.refund, right.accessList.trans left.accessList,
      right.destroyed.trans left.destroyed, right.status.trans left.status⟩

theorem Settles.refl (context : TxExecContext S) : context.Settles context :=
  refl_of Settles context

end TxExecContext

namespace Exec

open TxExecContext

/-- Work on the frame settles when the frame is resumed by it. -/
instance settles_onCall
    (part : Run (CallFrame S) α) [Procedure.Moves CallFrame.Resumes part] :
    Procedure.Moves Settles (onCall part : Exec S α) :=
  Procedure.Moves.zoom CallFrame.Resumes part fun _ _ resumes =>
    ⟨⟨resumes, rfl, rfl, rfl, rfl, rfl⟩, rfl, rfl, rfl, rfl⟩

instance (priority := low) resumes_of_quiet
    (part : Run (CallFrame S) α) [quiet : Procedure.Moves CallFrame.Quiet part] :
    Procedure.Moves CallFrame.Resumes part :=
  quiet.mono fun _ _ work => work.resumes

instance settles_useGas (gas : Gas) :
    Procedure.Moves Settles (useGas gas : Exec S Unit) := settles_onCall _

instance settles_push (word : U256) :
    Procedure.Moves Settles (push word : Exec S Unit) := settles_onCall _

/-- Gas and returned data may be written to a resumed frame. -/
instance settles_returned (gas : CallFrame S → Gas) (data : CallFrame S → Bytes) :
    Procedure.Moves Settles (onCall (Procedure.update fun call =>
      { call with unusedGas := gas call, lastReturned := data call }) :
        Exec S Unit) :=
  ⟨fun _ => ⟨⟨⟨⟨rfl, rfl, rfl, rfl, rfl, rfl, rfl, rfl⟩, rfl⟩, rfl, rfl, rfl,
    rfl, rfl⟩, rfl, rfl, rfl, rfl⟩⟩

instance settles_writeState (change : S → S) :
    Procedure.Moves Settles (writeState change) :=
  Procedure.Moves.update fun _ =>
    ⟨⟨CallFrame.Resumes.refl _, rfl, rfl, rfl, rfl, rfl⟩, rfl, rfl, rfl, rfl⟩

instance settles_markDirty (addr : Addr) :
    Procedure.Moves Settles (markDirty addr : Exec S Unit) :=
  Procedure.Moves.update fun _ =>
    ⟨⟨CallFrame.Resumes.refl _, rfl, rfl, rfl, rfl, rfl⟩, rfl, rfl, rfl, rfl⟩

variable [WorldState S] [Keccak256]

omit [Keccak256] in
/-- Processing a created contract charges for its code, stores it and marks the
account. -/
theorem moves_createPostProcessing
    {related : TxExecContext S → TxExecContext S → Prop}
    [IsPreorder (TxExecContext S) related]
    [∀ gas, Procedure.Moves related (useGas gas : Exec S Unit)]
    [∀ addr, Procedure.Moves related (markDirty addr : Exec S Unit)]
    (contractAddr : Addr) (data : Bytes) (ret : Result)
    [Procedure.Moves related (writeState (setCode · contractAddr data))] :
    Procedure.Moves related
      (createPostProcessing contractAddr data ret : Exec S Unit) := by
  unfold createPostProcessing
  obtain err | _ := ret
  · cases err <;> infer_instance
  · infer_instance

instance settles_createPostProcessing
    (contractAddr : Addr) (data : Bytes) (ret : Result) :
    Procedure.Moves Settles
      (createPostProcessing contractAddr data ret : Exec S Unit) :=
  moves_createPostProcessing contractAddr data ret

instance settles_createEnd
    (args : CreateArgs S) (data : Bytes) (unusedGas : Gas) (ret : Result) :
    Procedure.Moves Settles (createEnd args data unusedGas ret) := by
  have gas : Procedure.Moves Settles (onCall (Procedure.update fun call =>
      { call with unusedGas := call.unusedGas + unusedGas }) : Exec S Unit) :=
    settles_returned _ _
  have returned (ret : Result) :
      Procedure.Moves Settles (onCall (Procedure.update fun call =>
        { call with
          lastReturned := if ret = .error .reverted then data else [] }) :
            Exec S Unit) :=
    settles_returned _ _
  unfold createEnd
  infer_instance

instance settles_callEnd
    (args : CallArgs S) (data : Bytes) (unusedGas : Gas) (ret : Result) :
    Procedure.Moves Settles (callEnd args data unusedGas ret) := by
  have gas (unusedGas : Gas) :
      Procedure.Moves Settles (onCall (Procedure.update fun call =>
        { call with unusedGas := call.unusedGas + unusedGas }) :
          Exec S Unit) :=
    settles_returned _ _
  have returned :
      Procedure.Moves Settles (onCall (Procedure.update fun call =>
        { call with lastReturned := data }) : Exec S Unit) :=
    settles_returned _ _
  have writes :
      Procedure.Moves Settles (callReturn args data unusedGas ret) := by
    unfold callReturn
    obtain err | _ := ret
    · cases err <;> infer_instance
    · infer_instance
  unfold callEnd
  infer_instance

/-! ### Settling the end of a frame -/

/-- What happens in the frame below when a frame ends. -/
def settleEnd (callType : CallType S) (data : Bytes) (gas : Gas) (err : Result) :
    Exec S Unit :=
  match callType with
  | .tx args => txEnd args data gas err
  | .create args => createEnd args data gas err
  | .call args => callEnd args data gas err

/-- The end of a frame is settled in the frame below. -/
theorem finishCall_cons
    {context : TxExecContext S} {frame : CallFrame S}
    {callStack : List (CallFrame S)} (data : Bytes) (err : Result)
    (suspended : context.callStack = frame :: callStack) :
    finishCall data err context =
      settleEnd context.curCall.callType data context.curCall.unusedGas err
        { context with callStack := callStack, curCall := frame } := by
  simp only [finishCall, callPop, bind, Procedure.bind, suspended]
  cases context.curCall.callType <;> rfl

/-- Without a suspended frame the end of a frame panics. -/
theorem finishCall_nil
    {context : TxExecContext S} (data : Bytes) (err : Result)
    (empty : context.callStack = []) :
    finishCall data err context = .panic .callStackEmpty := by
  simp only [finishCall, callPop, bind, Procedure.bind, empty]

/-- The end of a transaction is only settled below the last frame. -/
theorem txEnd_suspended
    {context : TxExecContext S} (args : TxArgs S) (data : Bytes) (gas : Gas)
    (err : Result) (suspended : context.callStack ≠ []) :
    txEnd args data gas err context = .panic .callStackNotEmpty := by
  have deep : context.callStack.length ≠ 0 := by simpa using suspended
  simp only [txEnd, callDepth, bind, Procedure.bind, Procedure.reads,
    Procedure.abortIf, deep, ne_eq, not_false_eq_true, if_true]

instance leaves_of_settles
    (program : Exec S α) [settles : Procedure.Moves Settles program] :
    Procedure.Moves Leaves program :=
  settles.mono fun _ _ work => work.toLeaves

instance leaves_cleanUp : Procedure.Moves Leaves (cleanUp : Exec S Unit) :=
  Procedure.Moves.update fun _ =>
    ⟨CallFrame.Resumes.refl _, rfl, rfl, rfl, rfl, rfl⟩

instance leaves_finish
    (args : TxArgs S) (data : Bytes) (unusedGas : Gas) (ret : Result)
    (addr : Option Addr) :
    Procedure.Moves Leaves (finish args data unusedGas ret addr) := by
  have ends (result : TxExecResult) :
      Procedure.Moves Leaves (Procedure.update fun self =>
        { self with status := .finished result } : Exec S Unit) :=
    Procedure.Moves.update fun _ =>
      ⟨CallFrame.Resumes.refl _, rfl, rfl, rfl, rfl, rfl⟩
  unfold finish
  cases ret <;> infer_instance

omit [Keccak256] in
/-- The result of a transaction is that of the created contract, or the given one. -/
theorem moves_txResult
    {related : TxExecContext S → TxExecContext S → Prop}
    [IsPreorder (TxExecContext S) related] (args : TxArgs S) (data : Bytes) (err : Result)
    [∀ addr, Procedure.Moves related (markDirty addr : Exec S Unit)]
    [∀ addr, Procedure.Moves related (createPostProcessing addr data err : Exec S Unit)] :
    Procedure.Moves related (txResult args data err) := by
  unfold txResult
  cases args.aux <;> infer_instance

/-- The end of a transaction settles its result, cleans up and finishes. -/
instance moves_txEnd
    {related : TxExecContext S → TxExecContext S → Prop}
    [IsPreorder (TxExecContext S) related]
    (args : TxArgs S) (data : Bytes) (unusedGas : Gas) (err : Result)
    [Procedure.Moves related (txResult args data err)]
    [Procedure.Moves related (cleanUp : Exec S Unit)]
    [∀ ret addr, Procedure.Moves related (finish args data unusedGas ret addr)] :
    Procedure.Moves related (txEnd args data unusedGas err) := by
  have rest (ret : Result) (addr : Option Addr) (status : TxExecStatus) :
      Procedure.Moves related
        (match status with
        | .running => do
            cleanUp
            finish args data unusedGas ret addr
        | .finished _ => Procedure.abort .unreachable : Exec S Unit) := by
    cases status <;> infer_instance
  unfold txEnd
  infer_instance

instance leaves_txEnd
    (args : TxArgs S) (data : Bytes) (unusedGas : Gas) (err : Result) :
    Procedure.Moves Leaves (txEnd args data unusedGas err) := by
  have result : Procedure.Moves Leaves (txResult args data err) :=
    moves_txResult args data err
  infer_instance

instance leaves_settleEnd
    (callType : CallType S) (data : Bytes) (gas : Gas) (err : Result) :
    Procedure.Moves Leaves (settleEnd callType data gas err) := by
  unfold settleEnd
  cases callType <;> infer_instance

/-- A frame that ends gives way to the frame below it. -/
theorem finishCall_ok
    {context final : TxExecContext S} {data : Bytes} {err : Result}
    (run : finishCall data err context = .ok () final) :
    ∃ frame callStack, context.callStack = frame :: callStack ∧
      TxExecContext.Leaves
        { context with callStack := callStack, curCall := frame } final := by
  cases suspended : context.callStack with
  | nil =>
      rw [finishCall_nil data err suspended] at run
      contradiction
  | cons frame callStack =>
      rw [finishCall_cons data err suspended] at run
      exact ⟨frame, callStack, rfl, Procedure.Moves.ok run⟩

/-- It also gives way when its end cannot be settled. -/
theorem finishCall_error
    {context final : TxExecContext S} {data : Bytes} {err : Result}
    {raised : ExecError}
    (run : finishCall data err context = .error raised final) :
    ∃ frame callStack, context.callStack = frame :: callStack ∧
      TxExecContext.Leaves
        { context with callStack := callStack, curCall := frame } final := by
  cases suspended : context.callStack with
  | nil =>
      rw [finishCall_nil data err suspended] at run
      contradiction
  | cons frame callStack =>
      rw [finishCall_cons data err suspended] at run
      exact ⟨frame, callStack, rfl, Procedure.Moves.error run⟩

/-! ### One iteration of the loop -/

/-- The instruction that the executing frame executes next. -/
def Fetches (context : TxExecContext S) (inst : Inst) : Prop :=
  decode context.curCall.code.asBytes context.curCall.pc = some inst

instance (context : TxExecContext S) (inst : Inst) :
    Decidable (Fetches context inst) :=
  inferInstanceAs (Decidable (decode _ _ = some inst))

/-- The context in which the next iteration starts. -/
def advanced (inst : Inst) (context : TxExecContext S) : TxExecContext S :=
  { context with
    curCall :=
      if inst.opcode.entersCall then context.curCall
      else { context.curCall with
        pc := context.curCall.pc + (inst.skip + 1) } }

section Advanced

omit [WorldState S] [Keccak256]

@[simp] theorem advanced_state (inst : Inst) (context : TxExecContext S) :
    (advanced inst context).state = context.state := rfl

@[simp] theorem advanced_stack (inst : Inst) (context : TxExecContext S) :
    (advanced inst context).curCall.stack = context.curCall.stack := by
  unfold advanced
  split <;> rfl

@[simp] theorem advanced_lastReturned (inst : Inst) (context : TxExecContext S) :
    (advanced inst context).curCall.lastReturned =
      context.curCall.lastReturned := by
  unfold advanced
  split <;> rfl

end Advanced

omit [WorldState S] [Keccak256] in
/-- An instruction that opens frames has already moved its frame on. -/
theorem advanced_enters
    {inst : Inst} (enters : inst.opcode.entersCall)
    (context : TxExecContext S) : advanced inst context = context := by
  simp [advanced, enters]

/-- The frames that end in the iteration that starts in `context`: the context
in which the ending frame is the executing one, what it returns and its
result. -/
inductive Ends (context : TxExecContext S) :
    TxExecContext S → Bytes → Result → Prop
  /-- The executing instruction ends its frame. -/
  | instruction {inst : Inst} {ending : TxExecContext S} {data : Bytes}
      {err : Result}
      (fetches : Fetches context inst)
      (runs : effect inst context = .ok (.finish data err) ending) :
      Ends context ending data err
  /-- The executing instruction raises an error. -/
  | raised {inst : Inst} {ending : TxExecContext S} {err : ExecError}
      (fetches : Fetches context inst)
      (raises : dispatch inst context = .error err ending) :
      Ends context ending [] (.error err)
  /-- The end of a failing frame cannot be settled in the frame below. -/
  | unwound {failing ending : TxExecContext S} {err raised : ExecError}
      (ends : Ends context failing [] (.error err))
      (raises : finishCall [] (.error err) failing = .error raised ending) :
      Ends context ending [] (.error raised)

omit [WorldState S] [Keccak256] in
theorem fetch_ok
    {context final : TxExecContext S} {inst : Inst} :
    fetch context = .ok inst final ↔ final = context ∧ Fetches context inst := by
  unfold fetch Fetches call
  simp only [bind, Procedure.bind, Procedure.reads]
  cases decode context.curCall.code.asBytes context.curCall.pc with
  | none => simp [Procedure.unwrap, Procedure.abort]
  | some found =>
      simp only [Procedure.unwrap, Procedure.pure, Outcome.ok.injEq,
        Option.some.injEq]
      tauto

omit [WorldState S] [Keccak256] in
theorem advancePc_ok
    {context final : TxExecContext S} {inst : Inst} :
    advancePc inst.skip inst.opcode.entersCall context = .ok () final ↔
      final = advanced inst context := by
  simp only [advancePc, onCall, Procedure.zoom, Procedure.update,
    Outcome.ok.injEq, true_and, advanced]
  exact eq_comm

/-- Handing a failure down settles the end of the executing frame, and hands
the failure of that down. -/
theorem fail_eq (err : ExecError) (context : TxExecContext S) :
    fail err context =
      Procedure.handle (finishCall [] (.error err)) fail context := by
  change unwind context.callStack.length err context = _
  cases suspended : context.callStack with
  | nil =>
      simp only [Procedure.handle, finishCall_nil [] (.error err) suspended]
      rfl
  | cons frame callStack =>
      simp only [List.length_cons, unwind, Procedure.handle]
      cases run : finishCall [] (.error err) context with
      | ok value settled => rfl
      | panic reason => rfl
      | error raised next =>
          obtain ⟨_, rest, stack, leaves⟩ := finishCall_error run
          obtain ⟨rfl, rfl⟩ := List.cons.inj (suspended.symm.trans stack)
          change _ = unwind next.callStack.length raised next
          rw [leaves.callStack]

/-- The failing frames of an iteration are unwound until one is settled. -/
theorem Ends.fail
    {context failing : TxExecContext S} {err : ExecError}
    (ends : Ends context failing [] (.error err)) {final : TxExecContext S}
    (runs : Exec.fail err failing = .ok () final) :
    ∃ ending raised, Ends context ending [] (.error raised) ∧
      finishCall [] (.error raised) ending = .ok () final := by
  generalize depth : failing.callStack.length = count
  induction count generalizing failing err with
  | zero =>
      rw [fail_eq, Procedure.handle,
        finishCall_nil [] (.error err) (List.eq_nil_of_length_eq_zero depth)] at runs
      contradiction
  | succ count inductionHypothesis =>
      rw [fail_eq, Procedure.handle] at runs
      cases run : finishCall [] (.error err) failing with
      | ok value settled =>
          simp only [run, Outcome.ok.injEq, true_and] at runs
          exact ⟨failing, err, ends, by rw [run, runs]⟩
      | error raised next =>
          simp only [run] at runs
          obtain ⟨frame, callStack, suspended, leaves⟩ := finishCall_error run
          refine inductionHypothesis (ends.unwound run) runs ?_
          simpa [leaves.callStack, suspended] using depth
      | panic reason => simp [run] at runs

/-- An iteration is a dispatched instruction or a handled failure, and then the
move to the next instruction. -/
theorem iterate_ok
    {context final : TxExecContext S} :
    iterate context = .ok () final ↔
      ∃ inst, Fetches context inst ∧ ∃ working,
        Procedure.handle (dispatch inst) fail context = .ok () working ∧
          final = advanced inst working := by
  unfold iterate
  rw [Procedure.bind_ok]
  constructor
  · rintro ⟨inst, _, fetched, runs⟩
    obtain ⟨rfl, fetches⟩ := fetch_ok.mp fetched
    obtain ⟨_, working, handled, advances⟩ := Procedure.bind_ok.mp runs
    exact ⟨inst, fetches, working, handled, advancePc_ok.mp advances⟩
  · rintro ⟨inst, fetches, working, handled, rfl⟩
    refine ⟨inst, context, fetch_ok.mpr ⟨rfl, fetches⟩, ?_⟩
    exact Procedure.bind_ok.mpr
      ⟨(), working, handled, advancePc_ok.mpr rfl⟩

/-- The end of a failing frame is where the failure of an iteration is handed
down. -/
theorem Ends.handled
    {context ending : TxExecContext S} {data : Bytes} {err : ExecError}
    {result : Result} (ends : Ends context ending data result)
    (nothing : data = []) (failed : result = .error err) :
    ∃ inst, Fetches context inst ∧
      Procedure.handle (dispatch inst) Exec.fail context =
        Exec.fail err ending := by
  induction ends generalizing err with
  | @instruction inst ending data result fetches runs =>
      subst nothing failed
      refine ⟨inst, fetches, ?_⟩
      rw [fail_eq]
      simp only [Procedure.handle, dispatch_eq, bind, Procedure.bind, runs,
        runTail]
  | @raised inst ending raised fetches raises =>
      obtain rfl := Except.error.inj failed
      refine ⟨inst, fetches, ?_⟩
      simp only [Procedure.handle, raises]
  | @unwound failing ending first raised ends raises inductionHypothesis =>
      obtain rfl := Except.error.inj failed
      obtain ⟨inst, fetches, handled⟩ := inductionHypothesis rfl rfl
      refine ⟨inst, fetches, ?_⟩
      rw [handled, fail_eq, Procedure.handle, raises]

/-- An end that can be settled is what the iteration settles. -/
theorem Ends.iterate
    {context ending settled : TxExecContext S} {data : Bytes} {err : Result}
    (ends : Ends context ending data err)
    (runs : finishCall data err ending = .ok () settled) :
    ∃ inst, Fetches context inst ∧
      Exec.iterate context = .ok () (advanced inst settled) := by
  have failing {err : ExecError} (ends : Ends context ending [] (.error err))
      (runs : finishCall [] (.error err) ending = .ok () settled) :
      ∃ inst, Fetches context inst ∧
        Exec.iterate context = .ok () (advanced inst settled) := by
    obtain ⟨inst, fetches, handled⟩ := ends.handled rfl rfl
    refine ⟨inst, fetches, iterate_ok.mpr ⟨inst, fetches, settled, ?_, rfl⟩⟩
    rw [handled, fail_eq, Procedure.handle, runs]
  cases ends with
  | @instruction inst _ _ _ fetches effected =>
      refine ⟨inst, fetches, iterate_ok.mpr ⟨inst, fetches, settled, ?_, rfl⟩⟩
      simp only [Procedure.handle, dispatch_eq, bind, Procedure.bind,
        effected, runTail, runs]
  | raised fetches raises => exact failing (.raised fetches raises) runs
  | unwound ends raises => exact failing (.unwound ends raises) runs

/-- A call is settled without a frame by settling its end and moving on. -/
theorem returnWithoutCallstack_call
    (args : CallArgs S) (ret : Bytes) (gas : Gas) (err : Result)
    (context : TxExecContext S) :
    returnWithoutCallstack (.call args) ret gas err context =
      match callEnd args ret gas err context with
      | .ok _ settled => .ok () { settled with
          curCall := { settled.curCall with pc := settled.curCall.pc + 1 } }
      | .error err settled => .error err { settled with
          curCall := { settled.curCall with pc := settled.curCall.pc + 1 } }
      | .panic reason => .panic reason := by
  simp only [returnWithoutCallstack, bind, Procedure.bind,
    Procedure.attempt]
  cases callEnd args ret gas err context <;> rfl

end Exec

open Exec

variable [WorldState S] [Keccak256]

/-- What one iteration of the loop does. -/
theorem Step.cases {before after : TxExecContext S} (step : Step before after) :
    ∃ inst, Fetches before inst ∧
      ((∃ working, effect inst before = .ok .next working ∧
          after = advanced inst working) ∨
        (∃ code input value callee caller callType gas readOnly working,
          effect inst before = .ok
            (.enter code input value callee caller callType gas readOnly)
            working ∧
          callPush code input value callee caller callType gas readOnly working =
            .ok () after) ∨
        (∃ args ret gas err working settled,
          effect inst before = .ok (.settle (.call args) ret gas err) working ∧
          callEnd args ret gas err working = .ok () settled ∧
          after = { settled with
            curCall := { settled.curCall with
              pc := settled.curCall.pc + 1 } }) ∨
        (∃ ending data err settled, Ends before ending data err ∧
          finishCall data err ending = .ok () settled ∧
          after = advanced inst settled)) := by
  obtain ⟨-, runs⟩ := step
  obtain ⟨inst, fetches, working, handled, rfl⟩ := iterate_ok.mp runs
  refine ⟨inst, fetches, ?_⟩
  unfold Procedure.handle at handled
  cases dispatched : dispatch inst before with
  | panic reason => simp [dispatched] at handled
  | error err failing =>
      simp only [dispatched] at handled
      have ends : Ends before failing [] (.error err) :=
        .raised fetches dispatched
      obtain ⟨ending, raised, ends, settles⟩ := ends.fail handled
      exact .inr (.inr (.inr ⟨ending, [], _, working, ends, settles, rfl⟩))
  | ok value settled =>
      simp only [dispatched, Outcome.ok.injEq, true_and] at handled
      subst handled
      rw [dispatch_eq, Procedure.bind_ok] at dispatched
      obtain ⟨tail, last, effected, tailRuns⟩ := dispatched
      have nested := (nested_effect inst).holds effected
      cases tail with
      | next =>
          obtain ⟨-, rfl⟩ : value = () ∧ last = settled := by
            simpa [runTail, pure, Procedure.pure] using tailRuns
          exact .inl ⟨last, effected, rfl⟩
      | enter code input value callee caller callType gas readOnly =>
          have enters : inst.opcode.entersCall = true := by
            cases callType <;> first | exact nested | exact nested.elim
          refine .inr (.inl ⟨code, input, value, callee, caller, callType, gas,
            readOnly, last, effected, ?_⟩)
          rw [advanced_enters enters]
          exact tailRuns
      | settle args ret gas err =>
          cases args with
          | tx args => exact nested.elim
          | create args => exact nested.elim
          | call args =>
              have enters : inst.opcode.entersCall = true := nested
              rw [runTail, returnWithoutCallstack_call] at tailRuns
              cases run : callEnd args ret gas err last with
              | ok value moved =>
                  simp only [run, Outcome.ok.injEq, true_and] at tailRuns
                  refine .inr (.inr (.inl ⟨args, ret, gas, err, last, moved,
                    effected, run, ?_⟩))
                  rw [advanced_enters enters, ← tailRuns]
              | error err moved => simp [run] at tailRuns
              | panic reason => simp [run] at tailRuns
      | finish data err =>
          exact .inr (.inr (.inr ⟨last, data, err, settled,
            .instruction fetches effected, tailRuns, rfl⟩))

end Qevm
