import Qevm.Core.Snapshots
import Qevm.Laws.Resume

/-!
# A failed call leaves no trace

A call that fails goes back to the snapshot that it took before it did anything
to the world state.  `STATICCALL` takes none; there nothing that can be read
changes, because no frame above a read-only one is allowed to write.
-/

set_option synthInstance.maxSize 100000

namespace Qevm

open WorldState Exec TxExecContext

section Law

variable {S : Type} [WorldState S] [Keccak256] [LawfulWorldState S]

/-! ### Read-only frames -/

/-- Nothing that can be read changes as long as the frame is read-only. -/
structure TxExecContext.Freezes (before after : TxExecContext S) : Prop where
  readOnly : after.curCall.readOnly = before.curCall.readOnly
  view : before.curCall.readOnly = true →
    Qevm.view after.state = Qevm.view before.state

namespace Exec

instance : IsPreorder (TxExecContext S) Freezes where
  refl _ := ⟨rfl, fun _ => rfl⟩
  trans _ _ _ left right :=
    ⟨right.readOnly.trans left.readOnly, fun frozen =>
      (right.view (left.readOnly.trans frozen)).trans (left.view frozen)⟩

theorem freezes_of_state {before after : TxExecContext S}
    (works : before.Works after) (kept : after.state = before.state) :
    before.Freezes after :=
  ⟨works.curCall.readOnly, fun _ => by rw [kept]⟩

instance (priority := low) freezes_of_continues
    (program : Exec S α) [continues : Procedure.Moves Continues program] :
    Procedure.Moves Freezes program :=
  continues.mono fun _ _ work => freezes_of_state work.works work.state

instance freezes_markDirty (addr : Addr) :
    Procedure.Moves Freezes (markDirty addr : Exec S Unit) :=
  Procedure.Moves.update fun _ => ⟨rfl, fun _ => rfl⟩

instance freezes_takeSnapshot :
    Procedure.Moves Freezes (takeSnapshot : Exec S S) :=
  ⟨fun _ => ⟨rfl, fun _ => LawfulWorldState.view_left _⟩⟩

instance freezes_enterEffect
    (codeAddr : Addr) (input : Bytes) (value : Wei) (callee caller : Addr)
    (args : CallArgs S) (gas : Gas) (readOnly : Bool) :
    Procedure.Moves Freezes
      (enterEffect codeAddr input value callee caller args gas readOnly) := by
  unfold enterEffect
  infer_instance

/-- Calling without funds creates at most a blank account. -/
instance freezes_fundCall (callee caller : Addr) :
    Procedure.Moves Freezes (fundCall callee caller 0 : Exec S Unit) := by
  have moves (context : TxExecContext S) :
      Procedure.wp (transfer caller callee 0)
        (fun _ => Freezes context) (fun _ => Freezes context) context := by
    rw [wp_transfer]
    exact fun _ => ⟨rfl, fun _ => view_transferBalance_zero _ _ _⟩
  refine ⟨fun context => ?_⟩
  unfold fundCall readState writeState
  rw [Procedure.wp_bind, Procedure.wp_reads, Procedure.wp_bind,
    Procedure.wp_when, Procedure.wp_update]
  refine ⟨fun missing => ?_, fun _ => moves context⟩
  have absent : exist context.state callee = false := by simpa using missing
  have created : context.Freezes
      { context with state := createAccount context.state callee } := by
    refine ⟨rfl, fun _ => ?_⟩
    simp only [LawfulWorldState.view_createAccount]
    exact View.createAccount_of_blank (LawfulWorldState.blank absent)
  exact Procedure.wp_mono (moves _)
    (fun _ _ step => trans_of Freezes created step)
    (fun _ _ step => trans_of Freezes created step)

/-- So a call without funds changes nothing that can be read. -/
instance freezes_callEffect
    (callee caller : Addr) (input : Bytes) (gas : Gas) (args : CallType S) :
    Procedure.Moves Freezes
      (callEffect callee caller input gas 0 args) := by
  refine moves_callEffect ?_ ?_ ?_
  · unfold admitCall
    infer_instance
  · infer_instance
  · unfold runCodeEffect
    infer_instance

/-- Work of a frame that may write is not restricted. -/
theorem freezes_of_readOnly
    {program : Exec S α} [works : Procedure.Moves Works program]
    (frozen : ∀ before, before.curCall.readOnly = true →
      Procedure.wp program (fun _ => Freezes before) (fun _ => Freezes before)
        before) :
    Procedure.Moves Freezes program := by
  refine ⟨fun before => ?_⟩
  by_cases readOnly : before.curCall.readOnly = true
  · exact frozen before readOnly
  · exact Procedure.wp_mono (works.holds before)
      (fun _ _ work => ⟨work.curCall.readOnly, fun same => absurd same readOnly⟩)
      (fun _ _ work => ⟨work.curCall.readOnly, fun same => absurd same readOnly⟩)

/-- An instruction that a read-only frame may not execute changes nothing. -/
theorem freezes_of_refusal
    {program : Exec S α} [works : Procedure.Moves Works program]
    (refuses : ∀ before, before.curCall.readOnly = true →
      Procedure.wp program (fun _ _ => False)
        (fun _ after => after.state = before.state) before) :
    Procedure.Moves Freezes program := by
  apply freezes_of_readOnly
  intro before frozen
  refine Procedure.wp_mono
    (Procedure.wp_and (works.holds before) (refuses before frozen)) ?_ ?_
  · intro _ after holds
    exact holds.2.elim
  · intro _ after holds
    exact freezes_of_state holds.1 holds.2

omit [LawfulWorldState S] in
/-- Only a call without funds is paid for in a read-only frame. -/
theorem chargeCall_value {before paid : TxExecContext S} {request : CallRequest}
    (charges : chargeCall before = .ok request paid)
    (frozen : before.curCall.readOnly = true) : request.value = 0 := by
  unfold chargeCall at charges
  obtain ⟨args, popped, operands, run⟩ := Procedure.bind_ok.mp charges
  have quiet : before.Quiet popped := Procedure.Moves.ok operands
  replace run := Procedure.reads_bind_ok.mp run
  obtain ⟨_, checked, guard, run⟩ := Procedure.bind_ok.mp run
  have unfunded := (Procedure.raiseIf_ok.mp guard).1
  obtain ⟨gasQuota, charged, -, run⟩ := Procedure.bind_ok.mp run
  obtain ⟨rfl, -⟩ := Outcome.ok.inj run
  by_contra funded
  exact unfunded ⟨quiet.curCall.readOnly.trans frozen, funded⟩

instance freezes_callBeginEffect :
    Procedure.Moves Freezes (callBeginEffect : Exec S (Tail S)) := by
  have works : Procedure.Moves Works (callBeginEffect : Exec S (Tail S)) :=
    works_effect ⟨.call, none, 0⟩
  apply freezes_of_readOnly
  intro before frozen
  apply Procedure.Moves.bind_run
  intro request paid charges
  rw [chargeCall_value charges frozen]
  infer_instance

omit [LawfulWorldState S] in
/-- A creation is refused while it is paid for. -/
theorem creation_refused
    {inst : Inst} {before : TxExecContext S} (creation : inst.opcode.isCreation)
    (frozen : before.curCall.readOnly = true) :
    Procedure.wp (effect inst) (fun _ _ => False)
      (fun _ after => after.state = before.state) before := by
  obtain ⟨opcode, data, pos⟩ := inst
  cases opcode <;> simp only [Opcode.isCreation, Bool.false_eq_true] at creation
  · simp [effect, createBeginEffect, chargeCreate, useGas, onCall, call, frozen]
  · simp [effect, create2BeginEffect, chargeCreate2, requireFork, onCall, call,
      frozen]

/-- Every instruction freezes a read-only frame. -/
instance freezes_effect (inst : Inst) :
    Procedure.Moves Freezes (effect inst : Exec S (Tail S)) := by
  by_cases plain : inst.opcode.isPlain
  · have quiet : Procedure.Moves Quiet (effect inst : Exec S (Tail S)) :=
      quiet_effect plain
    infer_instance
  by_cases creation : inst.opcode.isCreation
  · exact freezes_of_refusal fun before frozen =>
      creation_refused creation frozen
  · have sstores : Procedure.Moves Freezes (sstore : Exec S Unit) :=
      freezes_of_refusal fun before frozen => by simp [sstore, call, frozen]
    have logs (num : Nat) : Procedure.Moves Freezes (log num : Exec S Unit) :=
      freezes_of_refusal fun before frozen => by simp [log, call, frozen]
    have destroys : Procedure.Moves Freezes (destroy : Exec S Unit) :=
      freezes_of_refusal fun before frozen => by simp [destroy, call, frozen]
    obtain ⟨opcode, data, pos⟩ := inst
    cases opcode <;> simp only [Opcode.isPlain, not_true_eq_false] at plain <;>
      simp only [Opcode.isCreation, not_true_eq_false] at creation <;>
      simp only [effect, dispatch, callCodeBeginEffect, delegateCallBeginEffect,
        staticCallBeginEffect] <;>
      infer_instance

end Exec

/-! ### Everything above a read-only frame -/

/-- A frame that can neither write nor go back to anything but a given view. -/
def CallFrame.Frozen (seen : View) (frame : CallFrame S) : Prop :=
  frame.readOnly = true ∧
    ∃ args, frame.callType = .call args ∧
      ∀ saved, args.snapshot = some saved → view saved = seen

theorem CallFrame.Frozen.same
    {seen : View} (first last : CallFrame S) (same : first.Same last)
    (frozen : first.Frozen seen) : last.Frozen seen := by
  obtain ⟨readOnly, args, callType, saved⟩ := frozen
  exact ⟨same.readOnly.trans readOnly, args, same.callType.trans callType, saved⟩

/-- The frames above the `depth` lowest ones are frozen, and nothing has been
written. -/
structure TxExecContext.Frozen
    (seen : View) (depth : Nat) (context : TxExecContext S) : Prop where
  view : Qevm.view context.state = seen
  frames : Upper depth (CallFrame.Frozen seen) context

namespace TxExecContext.Frozen

variable {seen : View} {depth : Nat} {before after : TxExecContext S}

theorem remains
    (frozen : before.Frozen seen depth) (remains : before.Remains after)
    (kept : Qevm.view after.state = Qevm.view before.state) :
    after.Frozen seen depth :=
  ⟨kept.trans frozen.view, frozen.frames.remains remains CallFrame.Frozen.same⟩

/-- Going back to a snapshot of a frozen call changes nothing. -/
theorem returned
    (frozen : before.Frozen seen depth) {args : CallArgs S} {ret : Result}
    (saved : ∀ saved, args.snapshot = some saved → Qevm.view saved = seen) :
    Qevm.view (returnedState args.snapshot ret before.state) =
      Qevm.view before.state := by
  unfold returnedState
  split
  · cases snapshot : args.snapshot with
    | none => rfl
    | some state =>
        rw [Option.elim_some, LawfulWorldState.view_rollback, saved state snapshot,
          frozen.view]
  · rfl

/-- The end of a frozen frame changes nothing. -/
theorem finished
    {data : Bytes} {err : Result} (frozen : before.Frozen seen depth)
    (deep : depth ≤ before.callStack.length)
    (run : finishCall data err before = .ok () after ∨
      ∃ raised, finishCall data err before = .error raised after) :
    after.Frozen seen depth := by
  obtain ⟨-, args, callType, saved⟩ := frozen.frames.executing deep
  cases suspended : before.callStack with
  | nil => simp [finishCall_nil data err suspended] at run
  | cons next callStack =>
      have popped : Frozen seen depth
          { before with callStack := callStack, curCall := next } :=
        ⟨frozen.view, frozen.frames.popped suspended deep⟩
      rw [finishCall_cons data err suspended, callType] at run
      have ends : callEnd args data before.curCall.unusedGas err
            { before with callStack := callStack, curCall := next } = .ok () after ∨
          ∃ raised, callEnd args data before.curCall.unusedGas err
            { before with callStack := callStack, curCall := next } =
              .error raised after := run
      have settles : Settles _ after := Procedure.Moves.ended ends
      refine popped.remains settles.toLeaves.remains ?_
      rw [callEnd_ended_state ends]
      exact popped.returned saved

/-- An instruction of a frozen frame keeps everything frozen. -/
theorem effected
    {inst : Inst} {tail : Tail S} (frozen : before.Frozen seen depth)
    (deep : depth ≤ before.callStack.length)
    (run : effect inst before = .ok tail after) : after.Frozen seen depth := by
  have works : before.Works after := Procedure.Moves.ok run
  have freezes : before.Freezes after := Procedure.Moves.ok run
  exact frozen.remains works.remains
    (freezes.view (frozen.frames.executing deep).1)

/-- What it opens goes back to nothing but the view. -/
theorem opened
    {inst : Inst} {tail : Tail S} {callType : CallType S}
    (frozen : before.Frozen seen depth)
    (deep : depth ≤ before.callStack.length)
    (run : effect inst before = .ok tail after)
    (opens : tail.callType = some callType) :
    ∃ args, callType = .call args ∧
      ∀ saved, args.snapshot = some saved → Qevm.view saved = seen := by
  obtain call | creation := opener_of_callType run opens
  · obtain ⟨args, callType, saved, -⟩ := messageCall_snapshot call run
    rw [opens] at callType
    exact ⟨args, Option.some.inj callType, fun state snapshot =>
      (saved state snapshot).trans frozen.view⟩
  · exact (Procedure.wp_ok
      (creation_refused creation (frozen.frames.executing deep).1) run).elim

/-- Ending frozen frames changes nothing. -/
theorem ended
    {data : Bytes} {err : Result} (ends : Ends before after data err)
    (frozen : before.Frozen seen depth)
    (deep : depth ≤ before.callStack.length)
    (deepAfter : depth ≤ after.callStack.length) :
    after.Frozen seen depth := by
  induction ends with
  | instruction fetches runs => exact frozen.effected deep runs
  | raised fetches raises =>
      obtain raises | ⟨args, ret, gas, result, working, moved, runs, settles,
        rfl⟩ | ⟨working, data, result, runs, raises⟩ := dispatch_error raises
      · have works : before.Works _ := Procedure.Moves.error raises
        have freezes : before.Freezes _ := Procedure.Moves.error raises
        exact frozen.remains works.remains
          (freezes.view (frozen.frames.executing deep).1)
      · have working := frozen.effected deep runs
        obtain ⟨_, ⟨⟩, saved⟩ := frozen.opened deep runs rfl
        have settled : Settles _ moved := Procedure.Moves.error settles
        refine working.remains
          (settled.toLeaves.remains.trans (remains_pc moved _)) ?_
        exact (congrArg Qevm.view (callEnd_error_state settles)).trans
          (working.returned saved)
      · have works : before.Works working := Procedure.Moves.ok runs
        refine (frozen.effected deep runs).finished ?_ (.inr ⟨_, raises⟩)
        rw [works.callStack]
        exact deep
  | unwound ends raises inductionHypothesis =>
      obtain ⟨next, callStack, suspended, leaves⟩ := finishCall_error raises
      rw [leaves.callStack] at deepAfter
      have deeper : depth ≤ (next :: callStack).length :=
        Nat.le_succ_of_le deepAfter
      rw [← suspended] at deeper
      exact (inductionHypothesis deeper).finished deeper (.inr ⟨_, raises⟩)

end TxExecContext.Frozen

/-- An iteration keeps everything frozen. -/
theorem Step.frozen
    {seen : View} {depth : Nat} {before after : TxExecContext S}
    (step : Step before after) (frozen : before.Frozen seen depth)
    (deep : depth ≤ before.callStack.length)
    (deepAfter : depth ≤ after.callStack.length) :
    after.Frozen seen depth := by
  obtain ⟨inst, fetches, continues | enters | settled | ended⟩ := step.cases
  · obtain ⟨working, effected, rfl⟩ := continues
    exact (frozen.effected deep effected).remains (remains_advanced working inst)
      rfl
  · obtain ⟨code, input, value, callee, caller, callType, gas, readOnly, working,
      effected, run⟩ := enters
    obtain ⟨args, rfl, saved⟩ := frozen.opened deep effected rfl
    have working := frozen.effected deep effected
    have works : before.Works _ := Procedure.Moves.ok effected
    rw [callPush_ok run]
    refine ⟨working.view, working.frames.pushed ⟨?_, args, rfl, saved⟩⟩
    have inherited := works.curCall.readOnly.trans
      (frozen.frames.executing deep).1
    simp [CallFrame.new, inherited]
  · obtain ⟨args, ret, gas, err, working, moved, effected, ends, rfl⟩ := settled
    obtain ⟨_, ⟨⟩, saved⟩ := frozen.opened deep effected rfl
    have working := frozen.effected deep effected
    have settled : Settles _ moved := Procedure.Moves.ok ends
    refine working.remains
      (settled.toLeaves.remains.trans (remains_pc moved _)) ?_
    exact (congrArg view (callEnd_state ends)).trans (working.returned saved)
  · obtain ⟨ending, data, err, settled, ends, finished, rfl⟩ := ended
    obtain ⟨next, callStack, suspended, leaves⟩ := finishCall_ok finished
    have stack : (advanced inst settled).callStack = callStack :=
      leaves.callStack
    rw [stack] at deepAfter
    have deeper : depth ≤ (next :: callStack).length :=
      Nat.le_succ_of_le deepAfter
    rw [← suspended] at deeper
    exact ((frozen.ended ends deep deeper).finished deeper
      (.inl finished)).remains (remains_advanced settled inst) rfl

/-- A run above frozen frames keeps everything frozen. -/
theorem Inside.frozen
    {seen : View} {depth : Nat} {before after : TxExecContext S}
    (inside : Inside depth before after)
    (frozen : before.Frozen seen (depth + 1))
    (deep : depth + 1 ≤ before.callStack.length) :
    after.Frozen seen (depth + 1) ∧ depth + 1 ≤ after.callStack.length := by
  induction inside with
  | refl => exact ⟨frozen, deep⟩
  | tail _ step inductionHypothesis =>
      obtain ⟨middle, deepMiddle⟩ := inductionHypothesis
      have deepAfter := Nat.succ_le_of_lt step.2
      exact ⟨step.1.frozen middle deepMiddle deepAfter, deepAfter⟩

/-- A frame that is pushed without a snapshot, and everything above it, is
frozen. -/
theorem Opens.frozen
    {calling pushed : TxExecContext S} {inst : Inst} {args : CallArgs S}
    (opens : Opens calling pushed) (fetches : Fetches calling inst)
    (call : inst.opcode.isMessageCall)
    (callType : pushed.curCall.callType = .call args)
    (snapshot : args.snapshot = none) :
    pushed.Frozen (view calling.state) (calling.callStack.length + 1) := by
  obtain ⟨found, code, input, value, callee, caller, _, gas, readOnly, working,
    foundFetches, -, effected, stays, rfl⟩ := opens.cases
  obtain rfl : found = inst := Option.some.inj (foundFetches.symm.trans fetches)
  obtain ⟨_, opened, -, unsaved⟩ := messageCall_snapshot call effected
  obtain rfl := Option.some.inj opened
  obtain rfl := CallType.call.inj callType
  obtain ⟨kept, starts⟩ := unsaved snapshot
  refine ⟨congrArg view kept, ?_⟩
  rw [← stays.callStack]
  refine (Upper.lowest working).pushed ⟨?_, _, rfl, ?_⟩
  · rw [show readOnly = true from starts]
    exact Bool.or_true _
  · intro before keeps
    rw [snapshot] at keeps
    contradiction

/-! ### The law -/

/-- A call that fails and comes back to its caller has changed nothing that can
be read. -/
theorem failed_call_leaves_no_trace
    {calling resumed : TxExecContext S} {inst : Inst} {data : Bytes}
    {err : ExecError} (fetches : Fetches calling inst)
    (call : inst.opcode.isMessageCall)
    (returns : CallReturns calling resumed data (.error err)) :
    view resumed.state = view calling.state := by
  have rolled (saved : S) (state : S) :
      returnedState (some saved) (.error err) state = rollback state saved := rfl
  have stayed (state : S) : returnedState none (.error err) state = state := rfl
  cases returns with
  | @atOnce found args gas working settled data _ foundFetches effected ended
      moved =>
      obtain rfl : found = inst := Option.some.inj (foundFetches.symm.trans fetches)
      obtain ⟨_, ⟨⟩, saved, unsaved⟩ := messageCall_snapshot call effected
      have state := callEnd_state ended
      rw [moved]
      change view settled.state = _
      rw [state]
      cases snapshot : args.snapshot with
      | none => rw [stayed, (unsaved snapshot).1]
      | some before =>
          rw [rolled, LawfulWorldState.view_rollback, saved before snapshot]
  | @ran pushed ending final data _ completion =>
      obtain ⟨found, code, input, value, callee, caller, callType, gas, readOnly,
        working, foundFetches, -, effected, stays, rfl⟩ := completion.opens.cases
      obtain rfl : found = inst := Option.some.inj (foundFetches.symm.trans fetches)
      obtain ⟨args, opens, saved, unsaved⟩ := messageCall_snapshot call effected
      obtain rfl := Option.some.inj opens
      obtain ⟨last, waiting, settled, -, stack, ended, rfl⟩ := completion.settled
      have state := callEnd_state ended
      change view settled.state = _
      rw [state]
      cases snapshot : args.snapshot with
      | some before =>
          rw [rolled, LawfulWorldState.view_rollback, saved before snapshot]
      | none =>
          rw [stayed]
          have frozen := completion.opens.frozen fetches call rfl snapshot
          obtain ⟨running, deep⟩ := completion.inside.frozen frozen
            (Nat.le_of_eq completion.opens.2.symm)
          have deepFinal :
              calling.callStack.length + 1 ≤ final.callStack.length := by
            rw [completion.callStack]
            exact Nat.le_of_eq completion.opens.2.symm
          exact (running.ended completion.ends deep deepFinal).view

end Law

/-- A call that hands over a wei and runs out of gas gives it back. -/
theorem failed_call_returns_its_wei :
    letI := Sample.resumeKeccak
    ∃ (calling resumed : TxExecContext DummyStateStore) (data : Bytes)
      (err : ExecError),
      (Sample.callingTx Sample.pushingCode).Reaches calling ∧
        Fetches calling ⟨.call, none, 0⟩ ∧
        CallReturns calling resumed data (.error err) ∧
        view resumed.state = view calling.state := by
  let := Sample.resumeKeccak
  obtain ⟨run, reached, resumption, fetches, failed⟩ :=
    (Sample.callingTx Sample.pushingCode).exists_resumption 7 0
      (fun run => Fetches run.calling ⟨.call, none, 0⟩ ∧
        run.resumed.curCall.stack.peek = some 0)
      (by decide +kernel)
  obtain ⟨data, err, returns⟩ := resumption.returns
  have top := returns.peek fetches rfl
  rw [failed] at top
  cases err with
  | ok _ => simp [Result.isErr] at top
  | error err =>
      exact ⟨run.calling, run.resumed, data, err, reached, fetches, returns,
        failed_call_leaves_no_trace fetches rfl returns⟩

end Qevm
