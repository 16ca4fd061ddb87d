import Qevm.Core.Endings

/-!
# Frames over the iterations of the loop

A frame that has been pushed stays on the call stack, and the frames below it
are not touched, until the call stack becomes as short as it was before the
push.  `Rooted` is the invariant that says so, and it is preserved by every
iteration.
-/

namespace Qevm

open WorldState

variable {S : Type}

/-- Work after which the same frames are there. -/
structure TxExecContext.Remains (before after : TxExecContext S) : Prop where
  curCall : before.curCall.Same after.curCall
  callStack : after.callStack = before.callStack
  committedState : after.committedState = before.committedState
  origin : after.origin = before.origin
  gasPrice : after.gasPrice = before.gasPrice
  env : after.env = before.env

namespace TxExecContext

variable {first second third before after : TxExecContext S}

theorem Remains.trans
    (left : first.Remains second) (right : second.Remains third) :
    first.Remains third where
  curCall := left.curCall.trans right.curCall
  callStack := right.callStack.trans left.callStack
  committedState := right.committedState.trans left.committedState
  origin := right.origin.trans left.origin
  gasPrice := right.gasPrice.trans left.gasPrice
  env := right.env.trans left.env

theorem Works.remains (works : before.Works after) : before.Remains after :=
  ⟨works.curCall.toSame, works.callStack, works.committedState, works.origin,
    works.gasPrice, works.env⟩

theorem Leaves.remains (leaves : before.Leaves after) : before.Remains after :=
  ⟨leaves.curCall.toSame, leaves.callStack, leaves.committedState,
    leaves.origin, leaves.gasPrice, leaves.env⟩

theorem remains_pc (context : TxExecContext S) (pc : UInt64) :
    context.Remains
      { context with curCall := { context.curCall with pc := pc } } :=
  ⟨⟨rfl, rfl, rfl, rfl, rfl, rfl, rfl, rfl⟩, rfl, rfl, rfl, rfl, rfl⟩

theorem remains_advanced (context : TxExecContext S) (inst : Inst) :
    context.Remains (Exec.advanced inst context) := by
  unfold Exec.advanced
  split
  · exact ⟨CallFrame.Same.refl _, rfl, rfl, rfl, rfl, rfl⟩
  · exact remains_pc context _

/-- What no iteration changes while the transaction is running. -/
structure Lasts (before after : TxExecContext S) :
    Prop where
  committedState : after.committedState = before.committedState
  status : after.status = before.status
  origin : after.origin = before.origin
  gasPrice : after.gasPrice = before.gasPrice
  env : after.env = before.env

theorem Lasts.trans
    (left : first.Lasts second) (right : second.Lasts third) :
    first.Lasts third where
  committedState := right.committedState.trans left.committedState
  status := right.status.trans left.status
  origin := right.origin.trans left.origin
  gasPrice := right.gasPrice.trans left.gasPrice
  env := right.env.trans left.env

theorem Works.lasts (works : before.Works after) :
    before.Lasts after :=
  ⟨works.committedState, works.status, works.origin, works.gasPrice, works.env⟩

theorem Settles.lasts (settles : before.Settles after) :
    before.Lasts after :=
  ⟨settles.committedState, settles.status, settles.origin, settles.gasPrice,
    settles.env⟩

/-- The executing frame and the suspended ones. -/
def frames (context : TxExecContext S) : List (CallFrame S) :=
  context.curCall :: context.callStack

/-- A frame is still there, and the frames below it are the given ones. -/
def Rooted
    (frame : CallFrame S) (below : List (CallFrame S))
    (context : TxExecContext S) : Prop :=
  ∃ above current, context.frames = above ++ current :: below ∧
    frame.Same current

namespace Rooted

variable {frame : CallFrame S} {below : List (CallFrame S)}

/-- The executing frame is there. -/
theorem executing (context : TxExecContext S) :
    Rooted context.curCall context.callStack context :=
  ⟨[], context.curCall, rfl, CallFrame.Same.refl _⟩

/-- Work of the executing frame keeps every frame. -/
theorem remains
    (rooted : Rooted frame below before) (remains : before.Remains after) :
    Rooted frame below after := by
  obtain ⟨above, current, split, same⟩ := rooted
  cases above with
  | nil =>
      obtain ⟨rfl, rfl⟩ := List.cons.inj split
      exact ⟨[], after.curCall, by rw [frames, remains.callStack]; rfl,
        same.trans remains.curCall⟩
  | cons top above =>
      obtain ⟨-, split⟩ := List.cons.inj split
      exact ⟨after.curCall :: above, current,
        by rw [frames, remains.callStack, split]; rfl, same⟩

/-- A frame stays below the frames that are pushed. -/
theorem pushed
    (rooted : Rooted frame below before) (top : CallFrame S) :
    Rooted frame below
      { before with
        callStack := before.curCall :: before.callStack, curCall := top } := by
  obtain ⟨above, current, split, same⟩ := rooted
  exact ⟨top :: above, current, by rw [List.cons_append, ← split]; rfl, same⟩

/-- A frame below the executing one stays when the executing one gives way. -/
theorem popped
    {next : CallFrame S} {callStack : List (CallFrame S)}
    (rooted : Rooted frame below before)
    (suspended : before.callStack = next :: callStack)
    (deeper : below.length ≤ callStack.length) :
    Rooted frame below
      { before with callStack := callStack, curCall := next } := by
  obtain ⟨above, current, split, same⟩ := rooted
  cases above with
  | nil =>
      obtain ⟨-, rfl⟩ := List.cons.inj split
      rw [suspended, List.length_cons] at deeper
      omega
  | cons top above =>
      obtain ⟨-, split⟩ := List.cons.inj split
      refine ⟨above, current, ?_, same⟩
      rw [frames, ← suspended, split]
      rfl

/-- The executing frame is the one that is there when nothing is above it. -/
theorem on_top
    (rooted : Rooted frame below before)
    (depth : before.callStack.length = below.length) :
    before.callStack = below ∧ frame.Same before.curCall := by
  obtain ⟨above, current, split, same⟩ := rooted
  have lengths := congrArg List.length split
  simp only [frames, List.length_cons, List.length_append] at lengths
  have empty : above = [] := List.eq_nil_of_length_eq_zero (by omega)
  subst empty
  obtain ⟨rfl, rfl⟩ := List.cons.inj split
  exact ⟨rfl, same⟩

/-- The frames below are suspended as long as the frame is there. -/
theorem depth (rooted : Rooted frame below before) :
    below.length ≤ before.callStack.length := by
  obtain ⟨above, current, split, -⟩ := rooted
  have lengths := congrArg List.length split
  simp only [frames, List.length_cons, List.length_append] at lengths
  omega

end Rooted
/-- All frames but the `depth` lowest ones have a property. -/
def Upper
    (depth : Nat) (property : CallFrame S → Prop)
    (context : TxExecContext S) : Prop :=
  ∃ above below, context.frames = above ++ below ∧ below.length = depth ∧
    ∀ frame ∈ above, property frame

namespace Upper

variable {depth : Nat} {property : CallFrame S → Prop}

/-- Nothing is asked of the lowest frames. -/
theorem lowest (context : TxExecContext S) :
    Upper (context.callStack.length + 1) property context :=
  ⟨[], context.frames, rfl, rfl, by simp⟩

/-- When enough frames are below, the executing one is the first of the upper ones. -/
theorem exposed
    (upper : Upper depth property before) (deep : depth ≤ before.callStack.length) :
    ∃ above below, before.callStack = above ++ below ∧ below.length = depth ∧
      property before.curCall ∧ ∀ frame ∈ above, property frame := by
  obtain ⟨above, below, split, lowest, all⟩ := upper
  cases above with
  | nil =>
      have lengths := congrArg List.length split
      simp only [frames, List.nil_append, List.length_cons] at lengths
      omega
  | cons top above =>
      obtain ⟨same, split⟩ := List.cons.inj split
      rw [same]
      exact ⟨above, below, split, lowest, all top List.mem_cons_self,
        fun frame member => all frame (List.mem_cons_of_mem top member)⟩

/-- The executing frame is one of the upper ones when others are below. -/
theorem executing
    (upper : Upper depth property before)
    (deep : depth ≤ before.callStack.length) : property before.curCall := by
  obtain ⟨-, -, -, -, holds, -⟩ := upper.exposed deep
  exact holds

/-- Work of the executing frame keeps a property of what does not change. -/
theorem remains
    (upper : Upper depth property before) (remains : before.Remains after)
    (respects : ∀ first last : CallFrame S, first.Same last → property first →
      property last) :
    Upper depth property after := by
  obtain ⟨above, below, split, lowest, all⟩ := upper
  cases above with
  | nil =>
      refine ⟨[], after.frames, rfl, ?_, by simp⟩
      rw [← lowest, ← List.nil_append below, ← split, frames, frames,
        remains.callStack, List.length_cons, List.length_cons]
  | cons top above =>
      obtain ⟨same, split⟩ := List.cons.inj split
      refine ⟨after.curCall :: above, below, ?_, lowest, ?_⟩
      · rw [frames, remains.callStack, split]
        rfl
      · intro frame member
        obtain rfl | member := List.mem_cons.mp member
        · refine respects top _ ?_ (all top List.mem_cons_self)
          rw [← same]
          exact remains.curCall
        · exact all frame (List.mem_cons_of_mem top member)

/-- A pushed frame is one of the upper ones. -/
theorem pushed
    (upper : Upper depth property before) {top : CallFrame S}
    (holds : property top) :
    Upper depth property
      { before with
        callStack := before.curCall :: before.callStack, curCall := top } := by
  obtain ⟨above, below, split, lowest, all⟩ := upper
  refine ⟨top :: above, below, ?_, lowest, ?_⟩
  · rw [List.cons_append, ← split]
    rfl
  · intro frame member
    obtain rfl | member := List.mem_cons.mp member
    · exact holds
    · exact all frame member

/-- The frames below the executing one stay when it gives way. -/
theorem popped
    {next : CallFrame S} {callStack : List (CallFrame S)}
    (upper : Upper depth property before)
    (suspended : before.callStack = next :: callStack)
    (deep : depth ≤ before.callStack.length) :
    Upper depth property
      { before with callStack := callStack, curCall := next } := by
  obtain ⟨above, below, split, lowest, -, all⟩ := upper.exposed deep
  exact ⟨above, below, suspended.symm.trans split, lowest, all⟩

end Upper
end TxExecContext

namespace Exec

open TxExecContext

variable {before after ending : TxExecContext S}
  {frame : CallFrame S} {below : List (CallFrame S)}

/-- A pushed frame executes on top of the frame that pushed it. -/
theorem callPush_ok
    {code : Code} {input : Bytes} {value : Wei} {callee caller : Addr}
    {callType : CallType S} {gas : Gas} {readOnly : Bool}
    (run : callPush code input value callee caller callType gas readOnly before =
      .ok () after) :
    after =
      { before with
        callStack := before.curCall :: before.callStack
        curCall := CallFrame.new code input value callee caller callType gas
          (before.curCall.readOnly || readOnly) before.env.block.fork } := by
  simpa [callPush, Procedure.update, eq_comm] using run

variable [WorldState S] [Keccak256]

/-- An error of an instruction is raised by its own work, while settling a call
without a frame, or while settling the end of its frame. -/
theorem dispatch_error
    {inst : Inst} {err : ExecError}
    (raises : dispatch inst before = .error err after) :
    effect inst before = .error err after ∨
      (∃ args ret gas result working moved,
        effect inst before = .ok (.settle (.call args) ret gas result) working ∧
        callEnd args ret gas result working = .error err moved ∧
        after = { moved with
          curCall := { moved.curCall with pc := moved.curCall.pc + 1 } }) ∨
      ∃ working data result,
        effect inst before = .ok (.finish data result) working ∧
        finishCall data result working = .error err after := by
  rw [dispatch_eq, Procedure.bind_error] at raises
  obtain raises | ⟨tail, working, effected, raises⟩ := raises
  · exact .inl raises
  have nested := (nested_effect inst).holds effected
  cases tail with
  | next => simp [runTail, pure, Procedure.pure] at raises
  | enter code input value callee caller callType gas readOnly =>
      simp [runTail, callPush, Procedure.update] at raises
  | finish data result =>
      exact .inr (.inr ⟨working, data, result, effected, raises⟩)
  | settle args ret gas result =>
      cases args with
      | tx args => exact nested.elim
      | create args => exact nested.elim
      | call args =>
          rw [runTail, returnWithoutCallstack_call] at raises
          cases run : callEnd args ret gas result working with
          | ok value moved => simp [run] at raises
          | panic reason => simp [run] at raises
          | error raised moved =>
              simp only [run, Outcome.error.injEq] at raises
              obtain ⟨rfl, rfl⟩ := raises
              exact .inr (.inl ⟨args, ret, gas, result, working, moved,
                effected, run, rfl⟩)

/-- An error of an instruction leaves the frames alone unless it is raised while
settling the end of the frame. -/
theorem dispatch_error_remains
    {inst : Inst} {err : ExecError}
    (raises : dispatch inst before = .error err after) :
    before.Remains after ∨
      ∃ working data result,
        effect inst before = .ok (.finish data result) working ∧
        finishCall data result working = .error err after := by
  obtain raises | ⟨args, ret, gas, result, working, moved, effected, ended, rfl⟩ |
    finished := dispatch_error raises
  · have works : before.Works after := Procedure.Moves.error raises
    exact .inl works.remains
  · have works : before.Works working := Procedure.Moves.ok effected
    have settles : working.Settles moved := Procedure.Moves.error ended
    exact .inl (works.remains.trans
      (settles.remains.trans (remains_pc moved _)))
  · exact .inr finished

/-- The frames below an ending frame have not been touched. -/
theorem Ends.rooted
    {data : Bytes} {err : Result} (ends : Ends before ending data err)
    (rooted : Rooted frame below before)
    (deeper : below.length ≤ ending.callStack.length) :
    Rooted frame below ending := by
  induction ends with
  | instruction fetches effected =>
      have works : before.Works _ := Procedure.Moves.ok effected
      exact rooted.remains works.remains
  | raised fetches raises =>
      obtain remains | ⟨working, data, result, effected, raises⟩ :=
        dispatch_error_remains raises
      · exact rooted.remains remains
      · have works : before.Works working := Procedure.Moves.ok effected
        obtain ⟨next, callStack, suspended, leaves⟩ := finishCall_error raises
        rw [leaves.callStack] at deeper
        exact ((rooted.remains works.remains).popped suspended
          deeper).remains leaves.remains
  | unwound ends raises inductionHypothesis =>
      obtain ⟨next, callStack, suspended, leaves⟩ := finishCall_error raises
      rw [leaves.callStack] at deeper
      refine ((inductionHypothesis ?_).popped suspended deeper).remains
        leaves.remains
      rw [suspended, List.length_cons]
      exact Nat.le_succ_of_le deeper

/-- Ending frames make the call stack shorter. -/
theorem Ends.depth
    {data : Bytes} {err : Result} (ends : Ends before ending data err) :
    ending.callStack.length ≤ before.callStack.length := by
  induction ends with
  | instruction fetches effected =>
      have works : before.Works _ := Procedure.Moves.ok effected
      rw [works.callStack]
  | raised fetches raises =>
      obtain remains | ⟨working, data, result, effected, raises⟩ :=
        dispatch_error_remains raises
      · rw [remains.callStack]
      · have works : before.Works working := Procedure.Moves.ok effected
        obtain ⟨next, callStack, suspended, leaves⟩ := finishCall_error raises
        rw [← works.callStack, suspended, leaves.callStack]
        exact Nat.le_succ _
  | unwound ends raises inductionHypothesis =>
      obtain ⟨next, callStack, suspended, leaves⟩ := finishCall_error raises
      rw [suspended, List.length_cons] at inductionHypothesis
      rw [leaves.callStack]
      exact Nat.le_of_succ_le inductionHypothesis

/-- Settling the end of the last frame makes it shorter still. -/
theorem Ends.shorter
    {data : Bytes} {err : Result} {settled : TxExecContext S}
    (ends : Ends before ending data err)
    (finished : finishCall data err ending = .ok () settled) :
    settled.callStack.length < before.callStack.length := by
  obtain ⟨next, callStack, suspended, leaves⟩ := finishCall_ok finished
  have shorter := ends.depth
  rw [suspended, List.length_cons] at shorter
  rw [leaves.callStack]
  exact shorter

end Exec

open Exec TxExecContext

variable [WorldState S] [Keccak256]
  {before after : TxExecContext S}
  {frame : CallFrame S} {below : List (CallFrame S)}

/-- An iteration keeps a frame unless the call stack becomes too short. -/
theorem Step.rooted
    (step : Step before after) (rooted : Rooted frame below before)
    (deeper : below.length ≤ after.callStack.length) :
    Rooted frame below after := by
  obtain ⟨inst, fetches, continues | enters | settled | ended⟩ := step.cases
  · obtain ⟨working, effected, rfl⟩ := continues
    have works : before.Works working := Procedure.Moves.ok effected
    exact rooted.remains (works.remains.trans (remains_advanced working inst))
  · obtain ⟨code, input, value, callee, caller, callType, gas, readOnly, working,
      effected, pushed⟩ := enters
    have works : before.Works working := Procedure.Moves.ok effected
    rw [callPush_ok pushed]
    exact (rooted.remains works.remains).pushed _
  · obtain ⟨args, ret, gas, err, working, moved, effected, ended, rfl⟩ := settled
    have works : before.Works working := Procedure.Moves.ok effected
    have settles : working.Settles moved := Procedure.Moves.ok ended
    exact rooted.remains (works.remains.trans
      (settles.remains.trans (remains_pc moved _)))
  · obtain ⟨ending, data, err, settled, ends, finished, rfl⟩ := ended
    obtain ⟨next, callStack, suspended, leaves⟩ := finishCall_ok finished
    have stack : (advanced inst settled).callStack = callStack :=
      leaves.callStack
    rw [stack] at deeper
    have before_popped : below.length ≤ ending.callStack.length := by
      rw [suspended, List.length_cons]
      omega
    exact ((ends.rooted rooted before_popped).popped suspended deeper).remains
      (leaves.remains.trans (remains_advanced settled inst))

/-- An iteration that pushes a frame. -/
def Opens (before after : TxExecContext S) : Prop :=
  Step before after ∧
    after.callStack.length = before.callStack.length + 1

/-- A run of the loop during which more than `depth` frames are suspended. -/
def Inside (depth : Nat) : TxExecContext S → TxExecContext S → Prop :=
  Relation.ReflTransGen fun before after =>
    Step before after ∧ depth < after.callStack.length

/-- A run above a frame keeps it and the frames below it. -/
theorem Inside.rooted
    {depth : Nat} (inside : Inside depth before after)
    (rooted : Rooted frame below before) (bound : below.length ≤ depth + 1) :
    Rooted frame below after := by
  induction inside with
  | refl => exact rooted
  | tail _ step inductionHypothesis =>
      exact step.1.rooted inductionHypothesis
        (Nat.le_trans bound (Nat.succ_le_of_lt step.2))

/-- The step that pushes a frame executes an instruction that opens frames, and
pushes the frame as its last action. -/
theorem Opens.cases (opens : Opens before after) :
    ∃ inst code input value callee caller callType gas readOnly working,
      Fetches before inst ∧ inst.opcode.entersCall = true ∧
      effect inst before = .ok
        (.enter code input value callee caller callType gas readOnly) working ∧
      before.Stays working ∧
      after =
        { working with
          callStack := working.curCall :: working.callStack
          curCall := CallFrame.new code input value callee caller callType gas
            (working.curCall.readOnly || readOnly) working.env.block.fork } := by
  obtain ⟨step, deeper⟩ := opens
  obtain ⟨inst, fetches, continues | enters | settled | ended⟩ := step.cases
  · obtain ⟨working, effected, rfl⟩ := continues
    have works : before.Works working := Procedure.Moves.ok effected
    have stack : (advanced inst working).callStack = working.callStack := rfl
    rw [stack, works.callStack] at deeper
    omega
  · obtain ⟨code, input, value, callee, caller, callType, gas, readOnly, working,
      effected, run⟩ := enters
    have opener : inst.opcode.entersCall = true := by
      have nested := (nested_effect inst).holds effected
      cases callType <;> first | exact nested | exact nested.elim
    have stays : Procedure.Moves Stays (effect inst : Exec S (Tail S)) :=
      stays_opener opener
    exact ⟨inst, code, input, value, callee, caller, callType, gas, readOnly,
      working, fetches, opener, effected, Procedure.Moves.ok effected,
      callPush_ok run⟩
  · obtain ⟨args, ret, gas, err, working, moved, effected, ended, rfl⟩ := settled
    have works : before.Works working := Procedure.Moves.ok effected
    have settles : working.Settles moved := Procedure.Moves.ok ended
    simp only [settles.callStack, works.callStack] at deeper
    omega
  · obtain ⟨ending, data, err, settled, ends, finished, rfl⟩ := ended
    have shorter := ends.shorter finished
    change settled.callStack.length = _ at deeper
    omega

/-- While the pushed frame is there, the frame that pushed it waits below it
with its program counter at the call. -/
theorem Opens.waits (opens : Opens before after) :
    ∃ caller, after.callStack = caller :: before.callStack ∧
      before.curCall.Resumes caller := by
  obtain ⟨_, _, _, _, _, _, _, _, _, working, -, -, -, stays, rfl⟩ := opens.cases
  exact ⟨working.curCall, by rw [← stays.callStack],
    stays.curCall.toSame, stays.pc⟩

/-- A step that makes the call stack shorter ends frames. -/
theorem Step.ends_of_shorter
    (step : Step before after)
    (shorter : after.callStack.length < before.callStack.length) :
    ∃ inst ending data err settled, Fetches before inst ∧
      Ends before ending data err ∧
      finishCall data err ending = .ok () settled ∧
      after = advanced inst settled := by
  obtain ⟨inst, fetches, continues | enters | settled | ended⟩ := step.cases
  · obtain ⟨working, effected, rfl⟩ := continues
    have works : before.Works working := Procedure.Moves.ok effected
    have stack : (advanced inst working).callStack = working.callStack := rfl
    rw [stack, works.callStack] at shorter
    omega
  · obtain ⟨code, input, value, callee, caller, callType, gas, readOnly, working,
      effected, run⟩ := enters
    have works : before.Works working := Procedure.Moves.ok effected
    rw [callPush_ok run, List.length_cons, works.callStack] at shorter
    omega
  · obtain ⟨args, ret, gas, err, working, moved, effected, ended, rfl⟩ := settled
    have works : before.Works working := Procedure.Moves.ok effected
    have settles : working.Settles moved := Procedure.Moves.ok ended
    simp only [settles.callStack, works.callStack] at shorter
    omega
  · obtain ⟨ending, data, err, settled, ends, finished, rfl⟩ := ended
    exact ⟨inst, ending, data, err, settled, fetches, ends, finished, rfl⟩

/-! ### A frame from its push to its end -/

/-- A frame that is pushed, runs and ends, so that the frame that pushed it is
resumed. -/
structure Resumption
    (calling pushed ending resumed : TxExecContext S) : Prop where
  /-- The call pushes the frame of the callee. -/
  opens : Opens calling pushed
  /-- The callee and its own callees run. -/
  inside : Inside calling.callStack.length pushed ending
  /-- The iteration in which the callee ends and the caller does not. -/
  step : Step ending resumed
  /-- The caller is the executing frame again. -/
  depth : resumed.callStack.length = calling.callStack.length

namespace Resumption

variable {calling pushed ending resumed : TxExecContext S}

/-- More frames than those of the caller are suspended while the callee runs. -/
theorem deeper (resumption : Resumption calling pushed ending resumed) :
    calling.callStack.length < ending.callStack.length := by
  obtain run | ⟨_, _, step⟩ := resumption.inside.cases_tail
  · rw [run, resumption.opens.2]
    exact Nat.lt_succ_self _
  · exact step.2

/-- The callee is the last frame that ends in the iteration that resumes its
caller. -/
theorem ends (resumption : Resumption calling pushed ending resumed) :
    ∃ inst final data err settled, Fetches ending inst ∧
      Ends ending final data err ∧
      finishCall data err final = .ok () settled ∧
      resumed = advanced inst settled ∧
      final.callStack = pushed.callStack ∧
      pushed.curCall.Same final.curCall := by
  obtain ⟨inst, final, data, err, settled, fetches, ends, finished, rfl⟩ :=
    resumption.step.ends_of_shorter (by
      rw [resumption.depth]
      exact resumption.deeper)
  obtain ⟨next, callStack, suspended, leaves⟩ := finishCall_ok finished
  have depth : final.callStack.length = pushed.callStack.length := by
    have resumedDepth := resumption.depth
    have stack : (advanced inst settled).callStack = callStack :=
      leaves.callStack
    rw [stack] at resumedDepth
    rw [suspended, List.length_cons, resumedDepth, resumption.opens.2]
  have rooted : Rooted pushed.curCall pushed.callStack ending :=
    resumption.inside.rooted (Rooted.executing pushed)
      (Nat.le_of_eq resumption.opens.2)
  obtain ⟨stack, same⟩ :=
    (ends.rooted rooted (Nat.le_of_eq depth.symm)).on_top depth
  exact ⟨inst, final, data, err, settled, fetches, ends, finished, rfl, stack,
    same⟩

end Resumption

/-- A frame from its push to its end, with the context `final` in which it ends,
what it returns and its result. -/
structure Completion
    (calling pushed ending resumed final : TxExecContext S)
    (data : Bytes) (err : Result) : Prop
    extends Resumption calling pushed ending resumed where
  /-- The frame is one of those that end in the last iteration. -/
  ends : Ends ending final data err
  /-- The ending frame is the one that was pushed. -/
  frame : pushed.curCall.Same final.curCall
  callStack : final.callStack = pushed.callStack
  /-- Its end is settled in the frame of the caller. -/
  settled : ∃ inst caller settled, Fetches ending inst ∧
    pushed.callStack = caller :: calling.callStack ∧
    settleEnd pushed.curCall.callType data final.curCall.unusedGas err
      { final with callStack := calling.callStack, curCall := caller } =
        .ok () settled ∧
    resumed = advanced inst settled

/-- Every frame whose caller is resumed has completed in some way. -/
theorem Resumption.completion
    {calling pushed ending resumed : TxExecContext S}
    (resumption : Resumption calling pushed ending resumed) :
    ∃ final data err, Completion calling pushed ending resumed final data err := by
  obtain ⟨caller, waiting, -⟩ := resumption.opens.waits
  obtain ⟨inst, final, data, err, settled, fetches, ends, finished, advances,
    stack, same⟩ := resumption.ends
  rw [finishCall_cons data err (stack.trans waiting), same.callType] at finished
  exact ⟨final, data, err, resumption, ends, same, stack, inst, caller, settled,
    fetches, waiting, finished, advances⟩

end Qevm
