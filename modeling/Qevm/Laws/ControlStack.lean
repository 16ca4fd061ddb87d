import Qevm.Core.Panics
import Qevm.Core.Snapshots
import Qevm.Laws.Resume

/-!
# The control stack

While a transaction is running there are at least two frames: the dummy frame,
and the frame of the transaction above it.  All other frames are above these and
belong to calls and creations.  So the end of a frame always finds the frame
below, and the end of the transaction finds none but the dummy frame.
-/

namespace Qevm

open Params WorldState Exec TxExecContext
open Procedure (Permits Panics)

variable {S : Type}

/-- A frame is the top-level frame of a transaction. -/
def CallFrame.IsTop (frame : CallFrame S) : Prop :=
  ∃ args, frame.callType = .tx args

/-- The frame of a transaction and one frame below it are there, and all other
frames belong to calls and creations. -/
def TxExecContext.Stacked (bottom : CallFrame S) (context : TxExecContext S) :
    Prop :=
  ∃ above top, context.frames = above ++ [top, bottom] ∧ top.IsTop ∧
    ∀ frame ∈ above, ¬frame.IsTop

namespace CallFrame

theorem Same.isTop {first last : CallFrame S} (same : first.Same last) :
    last.IsTop ↔ first.IsTop := by
  unfold IsTop
  rw [same.callType]

end CallFrame

namespace TxExecContext.Stacked

variable {bottom : CallFrame S} {before after : TxExecContext S}

/-- A frame is suspended. -/
theorem suspended (stacked : before.Stacked bottom) : before.callStack ≠ [] := by
  obtain ⟨above, top, split, -⟩ := stacked
  intro empty
  have lengths := congrArg List.length split
  simp [frames, empty] at lengths

/-- The lowest frame never changes. -/
theorem getLast (stacked : before.Stacked bottom) :
    before.callStack.getLast? = some bottom := by
  obtain ⟨above, top, split, -⟩ := stacked
  have lowest := congrArg List.getLast? split
  cases rest : before.callStack with
  | nil =>
      have lengths := congrArg List.length split
      simp [frames, rest] at lengths
  | cons next callStack =>
      rw [frames, rest, List.getLast?_cons_cons] at lowest
      rw [lowest]
      simp

/-- Work of the executing frame keeps the frames in order. -/
theorem remains
    (stacked : before.Stacked bottom) (remains : before.Remains after) :
    after.Stacked bottom := by
  obtain ⟨above, top, split, isTop, others⟩ := stacked
  cases above with
  | nil =>
      obtain ⟨executing, below⟩ := List.cons.inj split
      refine ⟨[], after.curCall, ?_, ?_, by simp⟩
      · rw [frames, remains.callStack, below]
        rfl
      · rw [remains.curCall.isTop, executing]
        exact isTop
  | cons first above =>
      obtain ⟨executing, below⟩ := List.cons.inj split
      refine ⟨after.curCall :: above, top, ?_, isTop, fun frame member => ?_⟩
      · rw [frames, remains.callStack, below]
        rfl
      · obtain rfl | member := List.mem_cons.mp member
        · rw [remains.curCall.isTop, executing]
          exact others first List.mem_cons_self
        · exact others frame (List.mem_cons_of_mem first member)

/-- Calls and creations are pushed above the others. -/
theorem pushed
    (stacked : before.Stacked bottom) {frame : CallFrame S}
    (nested : ¬frame.IsTop) :
    Stacked bottom
      { before with
        callStack := before.curCall :: before.callStack, curCall := frame } := by
  obtain ⟨above, top, split, isTop, others⟩ := stacked
  refine ⟨frame :: above, top, ?_, isTop, fun other member => ?_⟩
  · rw [List.cons_append, ← split]
    rfl
  · obtain rfl | member := List.mem_cons.mp member
    · exact nested
    · exact others other member

/-- The frames below a call or a creation stay in order. -/
theorem popped
    (stacked : before.Stacked bottom) (nested : ¬before.curCall.IsTop)
    {next : CallFrame S} {callStack : List (CallFrame S)}
    (suspended : before.callStack = next :: callStack) :
    Stacked bottom { before with callStack := callStack, curCall := next } := by
  obtain ⟨above, top, split, isTop, others⟩ := stacked
  cases above with
  | nil =>
      obtain ⟨executing, -⟩ := List.cons.inj split
      rw [executing] at nested
      contradiction
  | cons first above =>
      obtain ⟨-, below⟩ := List.cons.inj split
      rw [suspended] at below
      exact ⟨above, top, below, isTop, fun frame member =>
        others frame (List.mem_cons_of_mem first member)⟩

/-- Nothing but the lowest frame is below the frame of the transaction. -/
theorem lowest
    (stacked : before.Stacked bottom) (top : before.curCall.IsTop) :
    before.callStack = [bottom] := by
  obtain ⟨above, other, split, -, others⟩ := stacked
  cases above with
  | nil => exact (List.cons.inj split).2
  | cons first above =>
      obtain ⟨executing, -⟩ := List.cons.inj split
      rw [executing] at top
      exact absurd top (others first List.mem_cons_self)

variable [WorldState S] [Keccak256]

/-- A frame whose end cannot be settled below it is not that of the
transaction. -/
theorem finish_error
    {data : Bytes} {err : Result} {raised : ExecError}
    (stacked : before.Stacked bottom)
    (run : finishCall data err before = .error raised after) :
    after.Stacked bottom := by
  obtain ⟨frame, callStack, suspended, leaves⟩ := finishCall_error run
  rw [finishCall_cons data err suspended] at run
  have nested : ¬before.curCall.IsTop := by
    rintro ⟨args, callType⟩
    rw [callType] at run
    exact absurd run txEnd_error
  exact (stacked.popped nested suspended).remains leaves.remains

/-- Ending frames keeps the frames in order. -/
theorem ended
    {data : Bytes} {err : Result} (stacked : before.Stacked bottom)
    (ends : Ends before after data err) : after.Stacked bottom := by
  induction ends with
  | instruction fetches runs =>
      have works : before.Works _ := Procedure.Moves.ok runs
      exact stacked.remains works.remains
  | raised fetches raises =>
      obtain remains | ⟨working, data, result, runs, raises⟩ :=
        dispatch_error_remains raises
      · exact stacked.remains remains
      · have works : before.Works working := Procedure.Moves.ok runs
        exact (stacked.remains works.remains).finish_error raises
  | unwound ends raises inductionHypothesis =>
      exact inductionHypothesis.finish_error raises

end TxExecContext.Stacked

/-! ### The limit of the call depth -/

namespace Exec

variable {before after : TxExecContext S}

/-- A program after some work that leaves the suspended frames alone. -/
theorem depth_after
    {α : Type} {program : Exec S α} [works : Procedure.Moves Works program]
    {value : α} (run : program before = .ok value after)
    (allowed : after.callStack.length ≠ maxCallDepth) :
    before.callStack.length ≠ maxCallDepth := by
  have work : before.Works after := works.ok run
  rwa [work.callStack] at allowed

theorem chargeCreate_depth {request : CreateRequest}
    (run : chargeCreate before = .ok request after) :
    before.callStack.length ≠ maxCallDepth := by
  unfold chargeCreate at run
  obtain ⟨_, paid, pays, run⟩ := Procedure.bind_ok.mp run
  have checked := Procedure.reads_bind_ok.mp run
  obtain ⟨_, _, checks, limited⟩ := Procedure.bind_ok.mp checked
  obtain ⟨-, rfl⟩ := Procedure.raiseIf_ok.mp checks
  obtain ⟨_, _, depth, -⟩ := Procedure.bind_ok.mp limited
  exact depth_after pays (requireDepth_ok depth).1

theorem chargeCreate2_depth {request : CreateRequest}
    (run : chargeCreate2 before = .ok request after) :
    before.callStack.length ≠ maxCallDepth := by
  unfold chargeCreate2 at run
  obtain ⟨_, forked, forks, run⟩ := Procedure.bind_ok.mp run
  have checked := Procedure.reads_bind_ok.mp run
  obtain ⟨_, _, checks, limited⟩ := Procedure.bind_ok.mp checked
  obtain ⟨-, rfl⟩ := Procedure.raiseIf_ok.mp checks
  obtain ⟨_, _, depth, -⟩ := Procedure.bind_ok.mp limited
  exact depth_after forks (requireDepth_ok depth).1

theorem chargeCallCode_depth {request : CallRequest}
    (run : chargeCallCode before = .ok request after) :
    before.callStack.length ≠ maxCallDepth := by
  unfold chargeCallCode at run
  obtain ⟨_, _, depth, -⟩ := Procedure.bind_ok.mp run
  exact (requireDepth_ok depth).1

theorem chargeDelegateCall_depth {request : CallRequest}
    (run : chargeDelegateCall before = .ok request after) :
    before.callStack.length ≠ maxCallDepth := by
  unfold chargeDelegateCall at run
  obtain ⟨_, forked, forks, run⟩ := Procedure.bind_ok.mp run
  obtain ⟨_, _, depth, -⟩ := Procedure.bind_ok.mp run
  exact depth_after forks (requireDepth_ok depth).1

theorem chargeStaticCall_depth {request : CallRequest}
    (run : chargeStaticCall before = .ok request after) :
    before.callStack.length ≠ maxCallDepth := by
  unfold chargeStaticCall at run
  obtain ⟨_, forked, forks, run⟩ := Procedure.bind_ok.mp run
  obtain ⟨_, _, depth, -⟩ := Procedure.bind_ok.mp run
  exact depth_after forks (requireDepth_ok depth).1

theorem callEffect_depth
    [WorldState S]
    {callee caller : Addr} {input : Bytes} {gas : Gas} {value : Wei}
    {args : CallType S} {tail : Tail S}
    (run : callEffect callee caller input gas value args before =
      .ok tail after) : before.callStack.length ≠ maxCallDepth := by
  unfold callEffect admitCall at run
  obtain ⟨_, admitted, admits, -⟩ := Procedure.bind_ok.mp run
  have checked := Procedure.reads_bind_ok.mp admits
  obtain ⟨_, _, checks, -⟩ := Procedure.bind_ok.mp checked
  exact (Procedure.raiseIf_ok.mp checks).1

variable [WorldState S] [Keccak256]

/-- No instruction opens a frame at the limit of the call depth. -/
theorem opener_depth
    {inst : Inst} {tail : Tail S} (enters : inst.opcode.entersCall = true)
    (run : effect inst before = .ok tail after) :
    before.callStack.length ≠ maxCallDepth := by
  obtain ⟨opcode, data, pos⟩ := inst
  cases opcode <;> simp only [Opcode.entersCall, Bool.false_eq_true] at enters <;>
    simp only [effect, createBeginEffect, create2BeginEffect, callBeginEffect,
      callCodeBeginEffect, delegateCallBeginEffect, staticCallBeginEffect] at run <;>
    obtain ⟨request, paid, charges, run⟩ := Procedure.bind_ok.mp run
  case create => exact chargeCreate_depth charges
  case create2 => exact chargeCreate2_depth charges
  case callCode => exact chargeCallCode_depth charges
  case delegateCall => exact chargeDelegateCall_depth charges
  case staticCall => exact chargeStaticCall_depth charges
  case call =>
    replace run := Procedure.reads_bind_ok.mp run
    obtain ⟨snapshot, snapped, snaps, run⟩ := Procedure.bind_ok.mp run
    exact depth_after charges (depth_after snaps (callEffect_depth run))

/-! ### What never panics -/

/-- The panics that concern the call stack. -/
def OffStack (reason : Panic) : Prop :=
  reason ≠ .callStackEmpty ∧ reason ≠ .callStackNotEmpty ∧
    reason ≠ .unreachable

instance : PermitsLocal OffStack := by
  constructor <;> simp [OffStack]

instance : Permits OffStack .transferFailed := ⟨by simp [OffStack]⟩

/-- The end of the frame of a running transaction is settled without panic. -/
theorem txEnd_panic
    {allowed : Panic → Prop}
    {args : TxArgs S} {data : Bytes} {gas : Gas} {err : Result} {reason : Panic}
    (empty : before.callStack = []) (running : before.status = .running)
    (run : txEnd args data gas err before = .panic reason) :
    allowed reason := by
  unfold txEnd at run
  obtain run | ⟨depth, _, reads, run⟩ := Procedure.bind_panic.mp run
  · contradiction
  obtain ⟨rfl, rfl⟩ := Outcome.ok.inj reads
  obtain run | ⟨_, _, checks, results⟩ := Procedure.bind_panic.mp run
  · simp [Procedure.abortIf, empty] at run
  obtain ⟨-, rfl⟩ := Procedure.abortIf_ok.mp checks
  obtain run | ⟨⟨ret, addr⟩, processed, result, rest⟩ :=
    Procedure.bind_panic.mp results
  · exact (panics_txResult args data err).holds run
  have settles : Procedure.Moves Settles (txResult args data err) := by
    unfold txResult
    cases args.aux <;> infer_instance
  have status : processed.status = .running :=
    (settles.ok result).status.trans running
  obtain run | ⟨found, _, reads, ends⟩ := Procedure.bind_panic.mp rest
  · contradiction
  obtain ⟨rfl, rfl⟩ := Outcome.ok.inj reads
  rw [status] at ends
  have panics : Panics allowed (do
      cleanUp
      finish args data gas ret addr) := inferInstance
  exact panics.holds ends

/-- When the frames are in order, the end of a frame is settled without panic unless
that of a call panics. -/
theorem finishCall_panic
    {allowed : Panic → Prop}
    {bottom : CallFrame S} {data : Bytes} {err : Result} {reason : Panic}
    (calls : ∀ (args : CallArgs S) gas, Panics allowed (callEnd args data gas err))
    (stacked : before.Stacked bottom) (running : before.status = .running)
    (run : finishCall data err before = .panic reason) : allowed reason := by
  cases suspended : before.callStack with
  | nil => exact absurd suspended stacked.suspended
  | cons frame callStack =>
      rw [finishCall_cons data err suspended] at run
      cases callType : before.curCall.callType with
      | tx args =>
          rw [callType] at run
          have lowest := stacked.lowest ⟨args, callType⟩
          rw [suspended] at lowest
          have empty : TxExecContext.callStack { before with
              callStack := callStack, curCall := frame } = [] :=
            (List.cons.inj lowest).2
          exact txEnd_panic empty running run
      | create args =>
          rw [callType] at run
          exact (panics_createEnd args data _ err).holds run
      | call args =>
          rw [callType] at run
          exact (calls args _).holds run

/-- Handing a failure down the call stack does not panic unless the end of a call
does, with one of the errors that are handed down. -/
theorem fail_panic
    (allowed : Panic → Prop) (handed : ExecError → Prop)
    {bottom : CallFrame S} {err : ExecError} {reason : Panic}
    (calls : ∀ (args : CallArgs S) gas err, handed err →
      Panics allowed (callEnd args [] gas (.error err)))
    (hands : ∀ {err raised : ExecError} {first last : TxExecContext S}, handed err →
      finishCall [] (.error err) first = .error raised last → handed raised)
    (starts : handed err)
    (stacked : before.Stacked bottom) (running : before.status = .running)
    (run : Exec.fail err before = .panic reason) : allowed reason := by
  generalize depth : before.callStack.length = count
  induction count generalizing before err with
  | zero =>
      exact absurd (List.eq_nil_of_length_eq_zero depth) stacked.suspended
  | succ count inductionHypothesis =>
      rw [fail_eq] at run
      unfold Procedure.handle at run
      cases finished : finishCall [] (.error err) before with
      | ok value after => simp [finished] at run
      | panic found =>
          simp only [finished, Outcome.panic.injEq] at run
          exact run ▸ finishCall_panic (fun args gas => calls args gas err starts)
            stacked running finished
      | error raised after =>
          simp only [finished] at run
          obtain ⟨frame, callStack, suspended, settles⟩ :=
            finishCall_error_settles finished
          refine inductionHypothesis (hands starts finished)
            (stacked.finish_error finished) (settles.status.trans running) run ?_
          rw [suspended, List.length_cons] at depth
          rw [settles.callStack]
          exact Nat.succ.inj depth

/-- An instruction does not panic when the frames are in order. -/
theorem dispatch_panic
    {bottom : CallFrame S} {inst : Inst} {reason : Panic}
    (stacked : before.Stacked bottom) (running : before.status = .running)
    (run : dispatch inst before = .panic reason) : OffStack reason := by
  rw [dispatch_eq] at run
  obtain run | ⟨tail, working, effected, run⟩ := Procedure.bind_panic.mp run
  · exact (panics_effect (fun _ => inferInstance) inferInstance inferInstance).holds run
  have works : before.Works working := Procedure.Moves.ok effected
  have nested := (nested_effect inst).holds effected
  cases tail with
  | next => contradiction
  | enter code input value callee caller callType gas readOnly => contradiction
  | finish data err =>
      exact finishCall_panic (fun _ _ => inferInstance)
        (stacked.remains works.remains) (works.status.trans running) run
  | settle args ret gas err =>
      cases args with
      | tx args => exact nested.elim
      | create args => exact nested.elim
      | call args =>
          have panics : Panics OffStack
              (returnWithoutCallstack (.call args) ret gas err : Exec S Unit) := by
            unfold returnWithoutCallstack
            apply +allowSynthFailures Panics.bind
            intro result
            apply +allowSynthFailures Panics.bind
            intro _
            cases result <;> infer_instance
          exact panics.holds run

/-- An iteration does not panic when the frames are in order. -/
theorem iterate_panic
    {bottom : CallFrame S} {reason : Panic}
    (stacked : before.Stacked bottom) (running : before.status = .running)
    (run : Exec.iterate before = .panic reason) : OffStack reason := by
  unfold Exec.iterate at run
  obtain run | ⟨inst, context, fetched, handles⟩ := Procedure.bind_panic.mp run
  · exact panics_fetch.holds run
  obtain ⟨rfl, fetches⟩ := fetch_ok.mp fetched
  obtain failed | ⟨_, handled, -, advances⟩ := Procedure.bind_panic.mp handles
  · unfold Procedure.handle at failed
    cases dispatched : dispatch inst context with
    | ok value after => simp [dispatched] at failed
    | panic found =>
        simp only [dispatched, Outcome.panic.injEq] at failed
        exact failed ▸ dispatch_panic stacked running dispatched
    | error err failing =>
        simp only [dispatched] at failed
        have ends : Ends context failing [] (.error err) :=
          .raised fetches dispatched
        exact fail_panic OffStack (fun _ => True) (fun _ _ _ _ => inferInstance)
          (fun _ _ => trivial) trivial (stacked.ended ends)
          (ends.lasts.status.trans running) failed
  · exact (panics_advancePc _ _).holds advances

end Exec

/-! ### The invariant along a run -/

section Law

variable [WorldState S] [Keccak256] {before after : TxExecContext S}

/-- An iteration keeps the frames in order or finishes the transaction. -/
theorem Step.stacked
    {bottom : CallFrame S} (step : Step before after)
    (stacked : before.Stacked bottom)
    (limited : before.callStack.length ≤ maxCallDepth) :
    after.Stacked bottom ∧ after.callStack.length ≤ maxCallDepth ∨
      ∃ result, after.status = .finished result := by
  obtain ⟨inst, fetches, continues | enters | settled | ended⟩ := step.cases
  · obtain ⟨working, effected, rfl⟩ := continues
    have works : before.Works working := Procedure.Moves.ok effected
    have remains := works.remains.trans (remains_advanced working inst)
    exact .inl ⟨stacked.remains remains, remains.callStack ▸ limited⟩
  · obtain ⟨code, input, value, callee, caller, callType, gas, readOnly, working,
      effected, run⟩ := enters
    have works : before.Works working := Procedure.Moves.ok effected
    have nested := (nested_effect inst).holds effected
    rw [callPush_ok run]
    refine .inl ⟨(stacked.remains works.remains).pushed ?_, ?_⟩
    · rintro ⟨args, top⟩
      obtain rfl : callType = .tx args := top
      exact nested
    · have enters : inst.opcode.entersCall = true := by
        cases callType <;> first | exact nested | exact nested.elim
      have room := opener_depth enters effected
      rw [List.length_cons, works.callStack]
      omega
  · obtain ⟨args, ret, gas, err, working, moved, effected, ended, rfl⟩ := settled
    have works : before.Works working := Procedure.Moves.ok effected
    have settles : working.Settles moved := Procedure.Moves.ok ended
    have remains := works.remains.trans
      (settles.toLeaves.remains.trans
        (remains_pc moved (moved.curCall.pc + 1)))
    exact .inl ⟨stacked.remains remains, remains.callStack ▸ limited⟩
  · obtain ⟨ending, data, err, settled, ends, finished, rfl⟩ := ended
    obtain ⟨frame, callStack, suspended, leaves⟩ := finishCall_ok finished
    have stack : (advanced inst settled).callStack = callStack :=
      leaves.callStack
    rw [finishCall_cons data err suspended] at finished
    by_cases top : ending.curCall.IsTop
    · obtain ⟨args, callType⟩ := top
      rw [callType] at finished
      obtain ⟨-, ret, addr, processed, -, -, rfl⟩ := txEnd_ok finished
      exact .inr ⟨_, rfl⟩
    · refine .inl ⟨(((stacked.ended ends).popped top suspended).remains
        leaves.remains).remains (remains_advanced settled inst), ?_⟩
      have depth := ends.depth
      rw [suspended, List.length_cons] at depth
      rw [stack]
      omega

namespace Transaction

variable {tx : Transaction S}

/-- A transaction enters the loop with its own frame above the dummy frame. -/
theorem Enters.stacked {entered : TxExecContext S} (enters : tx.Enters entered)
    (running : entered.status = .running) :
    ∃ bottom, tx.dummyFrame.Same bottom ∧ entered.Stacked bottom ∧
      entered.callStack.length ≤ maxCallDepth := by
  obtain ⟨initial, code, input, value, callee, caller, args, readOnly, working, context,
    effected, stays, -, rfl⟩ := enters.pushed running
  obtain ⟨accessList, rfl⟩ := context_eq_some context
  have limited : 1 ≤ maxCallDepth := by decide
  exact ⟨working.curCall, stays.curCall.toSame,
    ⟨[], CallFrame.new code input value callee caller (.tx args) tx.executionGas
      (working.curCall.readOnly || readOnly) working.env.block.fork, rfl, ⟨args, rfl⟩,
      by simp⟩, limited⟩

/-- The frames of a running transaction are in order. -/
theorem Reaches.stacked
    {reached : TxExecContext S} (reaches : tx.Reaches reached)
    (running : reached.status = .running) :
    ∃ bottom, tx.dummyFrame.Same bottom ∧ reached.Stacked bottom ∧
      reached.callStack.length ≤ maxCallDepth := by
  refine reaches.while_running (fun _ => Enters.stacked) ?_ running
  intro before after _ earlier step running
  obtain ⟨bottom, same, stacked, limited⟩ := earlier
  obtain ⟨stacked, limited⟩ | ⟨result, finished⟩ := step.stacked stacked limited
  · exact ⟨bottom, same, stacked, limited⟩
  · rw [running] at finished
    contradiction

/-- The start of a transaction does not panic. -/
theorem begin_panic
    {initial : TxExecContext S} {reason : Panic}
    (context : tx.context = some initial)
    (run : tx.begin initial = .panic reason) : OffStack reason := by
  unfold begin Procedure.handle at run
  cases started : tx.startFrame initial with
  | ok value working => simp [started] at run
  | error err working => simp [started, Procedure.update] at run
  | panic found =>
      simp only [started, Outcome.panic.injEq] at run
      subst run
      rw [startFrame_eq] at started
      obtain run | ⟨tail, working, effected, run⟩ :=
        Procedure.bind_panic.mp started
      · have panics : Panics OffStack (tx.startEffect : Exec S (Tail S)) := by
          unfold startEffect startCallEffect startCreateEffect
          cases tx.recipient <;> infer_instance
        exact panics.holds run
      obtain ⟨accessList, rfl⟩ := context_eq_some context
      have stays : Stays _ working := Procedure.Moves.ok effected
      obtain ⟨code, input, value, callee, caller, args, readOnly, rfl⟩ |
          ⟨args, ret, err, rfl⟩ := ((topLevel_startEffect tx).holds effected).cases
      · contradiction
      · exact txEnd_panic stays.callStack stays.status run

end Transaction

/-- The loop that hands a failure down the call stack is well-founded: each of its
iterations pops a frame. -/
theorem wellFounded_unwinding :
    WellFounded fun (next previous : ExecError × TxExecContext S) =>
      finishCall [] (.error previous.1) previous.2 =
        .error next.1 next.2 := by
  have shorter : WellFounded (InvImage (· < ·)
      fun failing : ExecError × TxExecContext S => failing.2.callStack.length) :=
    InvImage.wf _ Nat.lt_wfRel.wf
  refine Subrelation.wf (fun {next previous} run => ?_) shorter
  obtain ⟨frame, callStack, suspended, leaves⟩ := finishCall_error run
  change next.2.callStack.length < previous.2.callStack.length
  rw [suspended, leaves.callStack]
  exact Nat.lt_succ_self _

/-- While a transaction is running its call stack is never empty and never longer
than the limit, the dummy frame is at its bottom, and the frame of the transaction
is the only one of its kind and the oldest of the others.  So an iteration never
pops an empty call stack, never ends the transaction above other frames and
reaches no unreachable branch, and the loop over the failing frames ends. -/
theorem Transaction.control_stack (tx : Transaction S) :
    (∀ reached, tx.Reaches reached → reached.status = .running →
      reached.callStack ≠ [] ∧ reached.callStack.length ≤ maxCallDepth ∧
      (∃ above top bottom,
        reached.callStack.getLast? = some bottom ∧ tx.dummyFrame.Same bottom ∧
        reached.curCall :: reached.callStack = above ++ [top, bottom] ∧
        top.IsTop ∧ ∀ frame ∈ above, ¬frame.IsTop) ∧
      ∀ reason, Exec.iterate reached = .panic reason →
        reason ≠ .callStackEmpty ∧ reason ≠ .callStackNotEmpty ∧
          reason ≠ .unreachable) ∧
    (∀ initial reason, tx.context = some initial →
      tx.begin initial = .panic reason →
        reason ≠ .callStackEmpty ∧ reason ≠ .callStackNotEmpty ∧
          reason ≠ .unreachable) ∧
    WellFounded fun (next previous : ExecError × TxExecContext S) =>
      finishCall [] (.error previous.1) previous.2 =
        .error next.1 next.2 := by
  refine ⟨fun reached reaches running => ?_, fun initial reason context run =>
    begin_panic context run, wellFounded_unwinding⟩
  obtain ⟨bottom, same, stacked, limited⟩ := reaches.stacked running
  refine ⟨stacked.suspended, limited, ?_, fun reason run =>
    iterate_panic stacked running run⟩
  obtain ⟨above, top, split, isTop, others⟩ := id stacked
  exact ⟨above, top, bottom, stacked.getLast, same, split, isTop, others⟩

end Law

/-- While the callee of a call runs, its frame is above that of the transaction. -/
theorem callee_is_above_the_transaction :
    letI := Sample.resumeKeccak
    ∃ (reached : TxExecContext DummyStateStore) (callee top bottom : CallFrame _),
      (Sample.callingTx Sample.stoppingCode).Reaches reached ∧
        reached.curCall :: reached.callStack = [callee, top, bottom] ∧
        top.IsTop ∧ ¬callee.IsTop := by
  let := Sample.resumeKeccak
  obtain ⟨reached, reaches, running, depth⟩ :=
    (Sample.callingTx Sample.stoppingCode).exists_reached 8
      (fun reached => reached.status.leftGas = none ∧ reached.callStack.length = 2)
      (by decide +kernel)
  obtain ⟨-, -, ⟨above, top, bottom, -, -, split, isTop, others⟩, -⟩ :=
    (Transaction.control_stack (Sample.callingTx Sample.stoppingCode)).1 reached
      reaches (TxExecStatus.leftGas_eq_none.mp running)
  have lengths := congrArg List.length split
  simp only [List.length_cons, List.length_append, List.length_nil, depth]
    at lengths
  obtain ⟨callee, rfl⟩ : ∃ callee, above = [callee] :=
    List.length_eq_one_iff.mp (by omega)
  exact ⟨reached, callee, top, bottom, reaches, split, isTop,
    others callee List.mem_cons_self⟩

end Qevm
