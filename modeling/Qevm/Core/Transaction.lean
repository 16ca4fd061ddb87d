import Qevm.Core.Nesting

/-!
# The top-level frame of a transaction

A transaction runs on top of one frame that it starts itself.  As long as that
frame is there the transaction is running; the iteration that ends it finishes
the transaction.
-/

namespace Qevm

open WorldState Exec TxExecContext

variable {S : Type}

/-- The top-level frame of a transaction, with what it keeps for its end, and the
dummy frame below it are there. -/
def TxExecContext.Carries (args : TxArgs S) (context : TxExecContext S) : Prop :=
  ∃ (top bottom : CallFrame S), top.callType = .tx args ∧
    Rooted top [bottom] context

/-- The top-level frame of a transaction and the dummy frame below it are
there. -/
def TxExecContext.InTransaction (context : TxExecContext S) : Prop :=
  ∃ args, context.Carries args

/-- The result of a transaction whose end has been processed. -/
def finalResult (data : Bytes) (gas : Gas) (ret : Result) (addr : Option Addr) :
    TxExecResult :=
  match ret with
  | .error err => .reverted data gas err
  | .ok () => .succeeded data gas addr

@[simp] theorem unusedGas_finalResult
    (data : Bytes) (gas : Gas) (ret : Result) (addr : Option Addr) :
    (finalResult data gas ret addr).unusedGas = gas := by
  cases ret <;> rfl

variable [WorldState S] [Keccak256] {before after : TxExecContext S}

omit [WorldState S] [Keccak256] in
/-- A frame is suspended as long as the top-level frame is there. -/
theorem TxExecContext.InTransaction.suspended
    (inside : before.InTransaction) : before.callStack ≠ [] := by
  obtain ⟨args, top, bottom, -, rooted⟩ := inside
  have depth := rooted.depth
  intro empty
  simp [empty] at depth

/-- The end of the top-level frame of a transaction. -/
structure Finishes (before after : TxExecContext S) (args : TxArgs S)
    (data : Bytes) (err : Result) (ending : TxExecContext S)
    (bottom : CallFrame S) : Prop where
  ends : Ends before ending data err
  callStack : ending.callStack = [bottom]
  callType : ending.curCall.callType = .tx args
  settled : ∃ inst settled, Fetches before inst ∧
    txEnd args data ending.curCall.unusedGas err
      { ending with callStack := [], curCall := bottom } = .ok () settled ∧
    after = advanced inst settled

/-- An iteration keeps the top-level frame or ends it. -/
theorem Step.carries
    {args : TxArgs S} (step : Step before after) (inside : before.Carries args) :
    after.Carries args ∨
      ∃ data err ending bottom,
        Finishes before after args data err ending bottom := by
  obtain ⟨top, bottom, callType, rooted⟩ := inside
  by_cases deeper : [bottom].length ≤ after.callStack.length
  · exact .inl ⟨top, bottom, callType, step.rooted rooted deeper⟩
  · have shorter : after.callStack.length < before.callStack.length :=
      Nat.lt_of_lt_of_le (Nat.lt_of_not_le deeper) rooted.depth
    obtain ⟨inst, ending, data, err, settled, fetches, ends, finished, rfl⟩ :=
      step.ends_of_shorter shorter
    obtain ⟨next, callStack, suspended, leaves⟩ := finishCall_ok finished
    have stack : (advanced inst settled).callStack = callStack :=
      leaves.callStack
    rw [stack] at deeper
    obtain rfl : callStack = [] :=
      List.eq_nil_of_length_eq_zero (by simpa using deeper)
    have depth : ending.callStack.length = [bottom].length := by
      rw [suspended]
      rfl
    obtain ⟨below, same⟩ :=
      (ends.rooted rooted (Nat.le_of_eq depth.symm)).on_top depth
    obtain rfl : next = bottom := by
      rw [suspended] at below
      exact (List.cons.inj below).1
    rw [finishCall_cons data err suspended, same.callType, callType] at finished
    exact .inr ⟨data, err, ending, next, ends, suspended,
      same.callType.trans callType, inst, settled, fetches, finished, rfl⟩

theorem Step.inTransaction
    (step : Step before after) (inside : before.InTransaction) :
    after.InTransaction ∨
      ∃ args data err ending bottom,
        Finishes before after args data err ending bottom := by
  obtain ⟨args, inside⟩ := inside
  obtain inside | finishes := step.carries inside
  · exact .inl ⟨args, inside⟩
  · exact .inr ⟨args, finishes⟩

/-! ### The end of a transaction -/

/-- The world state of a transaction whose end has been processed. -/
def finalState (args : TxArgs S) (ret : Result) (state : S) : S :=
  match ret with
  | .error _ => rollback state args.snapshot
  | .ok () => state

/-- Settling the end of the top-level frame processes a created contract, cleans
up, and goes back to the snapshot or not. -/
theorem txEnd_ok
    {context final : TxExecContext S} {args : TxArgs S} {data : Bytes}
    {gas : Gas} {err : Result}
    (run : txEnd args data gas err context = .ok () final) :
    context.callStack = [] ∧
      ∃ ret addr processed,
        txResult args data err context = .ok (ret, addr) processed ∧
        processed.status = .running ∧
        final = { cleaned processed with
          state := finalState args ret (cleaned processed).state
          status := .finished (finalResult data gas ret addr) } := by
  unfold txEnd at run
  have checks := Procedure.reads_bind_ok.mp run
  obtain ⟨_, shallow, aborts, results⟩ := Procedure.bind_ok.mp checks
  obtain ⟨empty, rfl⟩ := Procedure.abortIf_ok.mp aborts
  obtain ⟨⟨ret, addr⟩, processed, result, rest⟩ := Procedure.bind_ok.mp results
  have ends := Procedure.reads_bind_ok.mp rest
  refine ⟨List.eq_nil_of_length_eq_zero (not_not.mp empty), ret, addr, processed, result, ?_⟩
  cases status : processed.status with
  | finished _ =>
      simp only [status] at ends
      contradiction
  | running =>
      simp only [status] at ends
      refine ⟨rfl, ?_⟩
      cases ret with
      | error err => exact (Outcome.ok.inj ends).2.symm
      | ok _ => exact (Outcome.ok.inj ends).2.symm

/-- The end of the top-level frame can be settled once a created contract has been
processed. -/
theorem txEnd_processed
    {context processed : TxExecContext S} {args : TxArgs S} {data : Bytes}
    (gas : Gas) {err ret : Result} {addr : Option Addr}
    (empty : context.callStack = [])
    (result : txResult args data err context = .ok (ret, addr) processed)
    (running : processed.status = .running) :
    txEnd args data gas err context =
      .ok () { cleaned processed with
        state := finalState args ret (cleaned processed).state
        status := .finished (finalResult data gas ret addr) } := by
  simp only [txEnd, callDepth, bind, Procedure.bind, Procedure.reads,
    Procedure.abortIf, empty, List.length_nil, ne_eq, not_true_eq_false,
    if_false, result, running]
  cases ret <;> rfl

omit [Keccak256] in
theorem txResult_never
    {context : TxExecContext S} {args : TxArgs S} {data : Bytes} {err : Result} :
    Procedure.wp (txResult args data err) (fun _ _ => True) (fun _ _ => False)
      context := by
  unfold txResult
  cases args.aux with
  | sender addr => trivial
  | contract addr =>
      rw [Procedure.wp_bind, Procedure.wp_attempt]
      exact (Procedure.wp_true _).mpr trivial

/-- Settling the end of the top-level frame raises no error. -/
theorem txEnd_error
    {context final : TxExecContext S} {args : TxArgs S} {data : Bytes}
    {gas : Gas} {err : Result} {raised : ExecError} :
    txEnd args data gas err context ≠ .error raised final := by
  have never : Procedure.wp (txEnd args data gas err) (fun _ _ => True)
      (fun _ _ => False) context := by
    unfold txEnd
    simp only [Procedure.wp_bind, callDepth, Procedure.wp_reads,
      Procedure.wp_abortIf]
    intro _
    refine Procedure.wp_mono txResult_never ?_ fun _ _ raised => raised
    rintro ⟨ret, addr⟩ processed -
    cases processed.status with
    | finished _ => trivial
    | running => cases ret <;> trivial
  intro run
  exact Procedure.wp_error never run

/-- The end of a frame whose settling fails in the frame below. -/
theorem finishCall_error_settles
    {context final : TxExecContext S} {data : Bytes} {err : Result}
    {raised : ExecError}
    (run : finishCall data err context = .error raised final) :
    ∃ frame callStack, context.callStack = frame :: callStack ∧
      Settles { context with callStack := callStack, curCall := frame }
        final := by
  obtain ⟨frame, callStack, suspended, -⟩ := finishCall_error run
  rw [finishCall_cons data err suspended] at run
  refine ⟨frame, callStack, suspended, ?_⟩
  cases callType : context.curCall.callType with
  | tx args =>
      rw [callType] at run
      exact absurd run txEnd_error
  | create args =>
      rw [callType] at run
      have settling : createEnd args data context.curCall.unusedGas err
          { context with callStack := callStack, curCall := frame } =
            .error raised final := run
      exact Procedure.Moves.error settling
  | call args =>
      rw [callType] at run
      have settling : callEnd args data context.curCall.unusedGas err
          { context with callStack := callStack, curCall := frame } =
            .error raised final := run
      exact Procedure.Moves.error settling

/-- The end of a frame that resumes a frame of the transaction. -/
theorem finishCall_ok_settles
    {context final : TxExecContext S} {data : Bytes} {err : Result}
    (run : finishCall data err context = .ok () final)
    (suspended : final.callStack ≠ []) :
    ∃ frame callStack, context.callStack = frame :: callStack ∧
      Settles { context with callStack := callStack, curCall := frame }
        final := by
  obtain ⟨frame, callStack, stack, leaves⟩ := finishCall_ok run
  rw [finishCall_cons data err stack] at run
  refine ⟨frame, callStack, stack, ?_⟩
  cases callType : context.curCall.callType with
  | tx args =>
      rw [callType] at run
      have empty : callStack = [] := (txEnd_ok run).1
      exact absurd (leaves.callStack.trans empty) suspended
  | create args =>
      rw [callType] at run
      have settling : createEnd args data context.curCall.unusedGas err
          { context with callStack := callStack, curCall := frame } =
            .ok () final := run
      exact Procedure.Moves.ok settling
  | call args =>
      rw [callType] at run
      have settling : callEnd args data context.curCall.unusedGas err
          { context with callStack := callStack, curCall := frame } =
            .ok () final := run
      exact Procedure.Moves.ok settling

/-! ### What lasts during a transaction -/

/-- Ending frames change none of it. -/
theorem Exec.Ends.lasts
    {ending : TxExecContext S} {data : Bytes} {err : Result}
    (ends : Ends before ending data err) : before.Lasts ending := by
  induction ends with
  | instruction fetches effected =>
      have works : before.Works _ := Procedure.Moves.ok effected
      exact works.lasts
  | raised fetches raises =>
      obtain raises | ⟨args, ret, gas, result, working, moved, effected, ended,
        rfl⟩ | ⟨working, data, result, effected, raises⟩ := dispatch_error raises
      · have works : before.Works _ := Procedure.Moves.error raises
        exact works.lasts
      · have works : before.Works working := Procedure.Moves.ok effected
        have settles : working.Settles moved := Procedure.Moves.error ended
        exact works.lasts.trans
          ⟨settles.committedState, settles.status, settles.origin,
            settles.gasPrice, settles.env⟩
      · have works : before.Works working := Procedure.Moves.ok effected
        obtain ⟨frame, callStack, suspended, settles⟩ :=
          finishCall_error_settles raises
        exact works.lasts.trans
          ⟨settles.committedState, settles.status, settles.origin,
            settles.gasPrice, settles.env⟩
  | unwound ends raises inductionHypothesis =>
      obtain ⟨frame, callStack, suspended, settles⟩ :=
        finishCall_error_settles raises
      exact inductionHypothesis.trans
        ⟨settles.committedState, settles.status, settles.origin,
          settles.gasPrice, settles.env⟩

/-- The iteration that ends the top-level frame finishes the transaction. -/
theorem Finishes.status
    {args : TxArgs S} {data : Bytes} {err : Result}
    {ending : TxExecContext S} {bottom : CallFrame S}
    (finishes : Finishes before after args data err ending bottom) :
    ∃ ret addr, after.status =
      .finished (finalResult data ending.curCall.unusedGas ret addr) := by
  obtain ⟨inst, settled, fetches, run, rfl⟩ := finishes.settled
  obtain ⟨-, ret, addr, processed, -, -, rfl⟩ := txEnd_ok run
  exact ⟨ret, addr, rfl⟩

/-- The transaction does not run on after its top-level frame has ended. -/
theorem Finishes.not_running
    {args : TxArgs S} {data : Bytes} {err : Result}
    {ending : TxExecContext S} {bottom : CallFrame S}
    (finishes : Finishes before after args data err ending bottom) :
    after.status ≠ .running := by
  obtain ⟨ret, addr, status⟩ := finishes.status
  simp [status]

/-- An iteration changes nothing that lasts unless it ends the last frame. -/
theorem Step.lasts
    (step : Step before after) (suspended : after.callStack ≠ []) :
    before.Lasts after := by
  obtain ⟨inst, fetches, continues | enters | settled | ended⟩ := step.cases
  · obtain ⟨working, effected, rfl⟩ := continues
    have works : before.Works working := Procedure.Moves.ok effected
    exact ⟨works.committedState, works.status, works.origin, works.gasPrice,
      works.env⟩
  · obtain ⟨code, input, value, callee, caller, callType, gas, readOnly, working,
      effected, run⟩ := enters
    have works : before.Works working := Procedure.Moves.ok effected
    rw [callPush_ok run]
    exact ⟨works.committedState, works.status, works.origin, works.gasPrice,
      works.env⟩
  · obtain ⟨args, ret, gas, err, working, moved, effected, ended, rfl⟩ := settled
    have works : before.Works working := Procedure.Moves.ok effected
    have settles : working.Settles moved := Procedure.Moves.ok ended
    exact works.lasts.trans
      ⟨settles.committedState, settles.status, settles.origin,
        settles.gasPrice, settles.env⟩
  · obtain ⟨ending, data, err, settled, ends, finished, rfl⟩ := ended
    obtain ⟨frame, callStack, stack, settles⟩ :=
      finishCall_ok_settles finished suspended
    exact ends.lasts.trans
      ⟨settles.committedState, settles.status, settles.origin,
        settles.gasPrice, settles.env⟩

/-- A run above a frame changes nothing that lasts. -/
theorem Inside.lasts {depth : Nat} (inside : Inside depth before after) :
    before.Lasts after := by
  induction inside with
  | refl => exact ⟨rfl, rfl, rfl, rfl, rfl⟩
  | tail _ step inductionHypothesis =>
      refine inductionHypothesis.trans (step.1.lasts ?_)
      intro empty
      have deep := step.2
      rw [empty] at deep
      exact absurd deep (Nat.not_lt_zero _)

/-- A frame completes when its end can be settled in the frame of its caller. -/
theorem Opens.completes
    {calling pushed ending final settled : TxExecContext S}
    {caller : CallFrame S} {data : Bytes} {err : Result}
    (opens : Opens calling pushed)
    (inside : Inside calling.callStack.length pushed ending)
    (ends : Ends ending final data err)
    (depth : final.callStack.length = pushed.callStack.length)
    (waiting : pushed.callStack = caller :: calling.callStack)
    (settles : settleEnd pushed.curCall.callType data final.curCall.unusedGas err
      { final with callStack := calling.callStack, curCall := caller } =
        .ok () settled) :
    ∃ inst, Completion calling pushed ending (advanced inst settled) final data
      err := by
  have rooted : Rooted pushed.curCall pushed.callStack ending :=
    inside.rooted (Rooted.executing pushed) (Nat.le_of_eq opens.2)
  obtain ⟨stack, same⟩ :=
    (ends.rooted rooted (Nat.le_of_eq depth.symm)).on_top depth
  have finished : finishCall data err final = .ok () settled := by
    rw [finishCall_cons data err (stack.trans waiting), same.callType]
    exact settles
  obtain ⟨inst, fetches, runs⟩ := ends.iterate finished
  have suspended : pushed.callStack ≠ [] := by
    rw [waiting]
    exact List.cons_ne_nil _ _
  have running : ending.status = .running := by
    rw [inside.lasts.status, (opens.1.lasts suspended).status, opens.1.1]
  have leaves :
      TxExecContext.Leaves
        { final with callStack := calling.callStack, curCall := caller }
        settled := Procedure.Moves.ok settles
  have below : (advanced inst settled).callStack = calling.callStack :=
    leaves.callStack
  exact ⟨inst, ⟨opens, inside, ⟨running, runs⟩, by rw [below]⟩, ends, same, stack,
    inst, caller, settled, fetches, waiting, settles, rfl⟩

/-! ### The start of a transaction -/

/-- The last actions of the start of a transaction: the top-level frame is pushed
or settled at once, with all of the execution gas. -/
def Tail.TopLevel (gas : Gas) : Tail S → Prop
  | .enter _ _ _ _ _ (.tx _) quota _ => quota = gas
  | .settle (.tx _) _ quota _ => quota = gas
  | _ => False

omit [WorldState S] [Keccak256] in
/-- The frame is pushed or settled. -/
theorem Tail.TopLevel.cases
    {gas : Gas} {tail : Tail S} (topLevel : tail.TopLevel gas) :
    (∃ code input value callee caller args readOnly,
      tail = .enter code input value callee caller (.tx args) gas readOnly) ∨
    ∃ args ret err, tail = .settle (.tx args) ret gas err := by
  cases tail with
  | next => exact topLevel.elim
  | finish data err => exact topLevel.elim
  | enter code input value callee caller callType quota readOnly =>
      cases callType with
      | call args => exact topLevel.elim
      | create args => exact topLevel.elim
      | tx args =>
          obtain rfl : quota = gas := topLevel
          exact .inl ⟨code, input, value, callee, caller, args, readOnly, rfl⟩
  | settle callType ret quota err =>
      cases callType with
      | call args => exact topLevel.elim
      | create args => exact topLevel.elim
      | tx args =>
          obtain rfl : quota = gas := topLevel
          exact .inr ⟨args, ret, err, rfl⟩

namespace Transaction

variable (tx : Transaction S)

/-- The part of the start of a message call before its last action. -/
def startCallEffect (recipient : Addr) : Exec S (Tail S) := do
  let nonce ← Exec.readState (getNonce · tx.sender)
  Exec.writeState (setNonce · tx.sender (nonce + 1))
  let snapshot ← Exec.takeSnapshot
  callEffect recipient tx.sender tx.input tx.executionGas tx.value
    (.tx ⟨snapshot, .sender tx.sender⟩)

/-- The part of the start of a creation before its last action. -/
def startCreateEffect : Exec S (Tail S) := do
  let snapshot ← Exec.takeSnapshot
  let nonce ← Exec.readState (getNonce · tx.sender)
  let contractAddr := createAddr tx.sender nonce
  createEffect contractAddr tx.sender tx.input tx.value tx.executionGas
    (.tx ⟨snapshot, .contract contractAddr⟩)

/-- The part of the start of a transaction before its last action. -/
def startEffect : Exec S (Tail S) :=
  match tx.recipient with
  | some recipient => tx.startCallEffect recipient
  | none => tx.startCreateEffect

/-- The start of a transaction is its effect followed by the last action. -/
theorem startFrame_eq : tx.startFrame = tx.startEffect >>= runTail := by
  unfold startFrame startEffect
  cases tx.recipient with
  | none =>
      simp only [startCreate, startCreateEffect, Procedure.bind_assoc,
        create_eq]
  | some recipient =>
      simp only [startCall, startCallEffect, Procedure.bind_assoc, call_eq]

instance stays_startEffect :
    Procedure.Moves Stays (tx.startEffect : Exec S (Tail S)) := by
  unfold startEffect startCallEffect startCreateEffect
  cases tx.recipient <;> infer_instance

instance topLevel_createEffect
    (contractAddr caller : Addr) (code : Bytes) (value : Wei) (gas : Gas)
    (args : TxArgs S) :
    Procedure.Returns (Tail.TopLevel gas)
      (createEffect contractAddr caller code value gas (.tx args)) :=
  @Procedure.Returns.bind _ _ _ _ _ _ _ _
    fun _ => Procedure.Returns.pure rfl

instance topLevel_callEffect
    (callee caller : Addr) (input : Bytes) (gas : Gas) (value : Wei)
    (args : TxArgs S) :
    Procedure.Returns (Tail.TopLevel gas)
      (callEffect callee caller input gas value (.tx args)) := by
  have settle (ret : Bytes) (err : Result) :
      Procedure.Returns (Tail.TopLevel gas)
        (pure (.settle (.tx args) ret gas err) : Exec S (Tail S)) :=
    Procedure.Returns.pure rfl
  have code :
      Procedure.Returns (Tail.TopLevel gas)
        (runCodeEffect callee caller input gas value (.tx args)) := by
    refine @Procedure.Returns.bind _ _ _ _ _ _ _ _
      fun code => Procedure.Returns.pure ?_
    split <;> rfl
  have choose (self : TxExecContext S) :
      Procedure.Returns (Tail.TopLevel gas)
        (match self.env.precompiledContracts.lookup callee with
        | none => runCodeEffect callee caller input gas value (.tx args)
        | some contract =>
            (pure (.settle (.tx args) (contract input).1 gas
              (contract input).2) : Exec S (Tail S))) := by
    cases self.env.precompiledContracts.lookup callee <;> infer_instance
  unfold callEffect
  infer_instance

instance topLevel_startEffect :
    Procedure.Returns (Tail.TopLevel tx.executionGas)
      (tx.startEffect : Exec S (Tail S)) := by
  unfold startEffect startCallEffect startCreateEffect
  cases tx.recipient <;> infer_instance

variable {tx}

/-- A transaction that fails to start its top-level frame fails before its last action. -/
theorem startFrame_error {initial working : TxExecContext S} {err : ExecError} :
    tx.startFrame initial = .error err working ↔
      tx.startEffect initial = .error err working := by
  rw [startFrame_eq, Procedure.bind_error]
  refine ⟨?_, .inl⟩
  rintro (raised | ⟨tail, last, effected, tailRuns⟩)
  · exact raised
  obtain ⟨code, input, value, callee, caller, args, readOnly, rfl⟩ | ⟨args, ret, err, rfl⟩ :=
    ((topLevel_startEffect tx).holds effected).cases
  · simp [runTail, callPush, Procedure.update] at tailRuns
  · exact absurd tailRuns txEnd_error

/-- A transaction enters the loop with its top-level frame, or finished. -/
theorem Enters.cases {entered : TxExecContext S} (enters : tx.Enters entered) :
    ∃ initial, tx.context = some initial ∧
      ((∃ code input value callee caller args readOnly working,
          tx.startEffect initial = .ok
            (.enter code input value callee caller (.tx args) tx.executionGas
              readOnly) working ∧
          entered =
            { working with
              callStack := working.curCall :: working.callStack
              curCall := CallFrame.new code input value callee caller (.tx args)
                tx.executionGas (working.curCall.readOnly || readOnly)
                working.env.block.fork }) ∨
        (∃ args ret err working,
          tx.startEffect initial = .ok
            (.settle (.tx args) ret tx.executionGas err) working ∧
          txEnd args ret tx.executionGas err working = .ok () entered) ∨
        (∃ err working, tx.startEffect initial = .error err working ∧
          entered = { working with
            status := .finished (.reverted [] tx.executionGas err) })) := by
  obtain ⟨initial, context, run⟩ := enters
  refine ⟨initial, context, ?_⟩
  unfold begin Procedure.handle at run
  cases started : tx.startFrame initial with
  | panic reason => simp [started] at run
  | error err working =>
      simp only [started, Procedure.update, Outcome.ok.injEq, true_and] at run
      exact .inr (.inr ⟨err, working, startFrame_error.mp started, run.symm⟩)
  | ok value working =>
      simp only [started, Outcome.ok.injEq, true_and] at run
      subst run
      rw [startFrame_eq, Procedure.bind_ok] at started
      obtain ⟨tail, last, effected, tailRuns⟩ := started
      obtain ⟨code, input, value, callee, caller, args, readOnly, rfl⟩ |
          ⟨args, ret, err, rfl⟩ := ((topLevel_startEffect tx).holds effected).cases
      · exact .inl ⟨code, input, value, callee, caller, args, readOnly, last, effected,
          callPush_ok tailRuns⟩
      · exact .inr (.inl ⟨args, ret, err, last, effected, tailRuns⟩)

omit [WorldState S] in
/-- The context before the top-level frame is started. -/
theorem context_eq_some {initial : TxExecContext S}
    (context : tx.context = some initial) :
    ∃ accessList, initial =
      { callStack := []
        curCall := tx.dummyFrame
        state := tx.state
        committedState := tx.committedState
        refund := 0
        accessList := accessList
        destroyed := HashSet.empty
        dirty := HashSet.empty
        status := .running
        origin := tx.sender
        gasPrice := tx.gasPrice
        env := tx.env } := by
  obtain ⟨accessList, -, built⟩ := Option.map_eq_some_iff.mp context
  exact ⟨accessList, built.symm⟩

/-- A transaction that enters the loop running has pushed its frame upon the dummy frame,
which has nothing below. -/
theorem Enters.pushed {entered : TxExecContext S} (enters : tx.Enters entered)
    (running : entered.status = .running) :
    ∃ initial code input value callee caller args readOnly working,
      tx.context = some initial ∧
        tx.startEffect initial = .ok
          (.enter code input value callee caller (.tx args) tx.executionGas readOnly)
          working ∧
        initial.Stays working ∧ working.callStack = [] ∧
        entered = { working with
          callStack := [working.curCall]
          curCall := CallFrame.new code input value callee caller (.tx args)
            tx.executionGas (working.curCall.readOnly || readOnly)
            working.env.block.fork } := by
  obtain ⟨initial, context, pushed | settled | failed⟩ := enters.cases
  · obtain ⟨code, input, value, callee, caller, args, readOnly, working, effected,
      rfl⟩ := pushed
    have stays : initial.Stays working := Procedure.Moves.ok effected
    have alone : working.callStack = [] := by
      obtain ⟨accessList, rfl⟩ := context_eq_some context
      exact stays.callStack
    rw [alone]
    exact ⟨initial, code, input, value, callee, caller, args, readOnly, working, context,
      effected, stays, alone, rfl⟩
  · obtain ⟨args, ret, err, working, effected, run⟩ := settled
    obtain ⟨-, final, addr, processed, -, -, rfl⟩ := txEnd_ok run
    contradiction
  · obtain ⟨err, working, raised, rfl⟩ := failed
    contradiction

/-- A transaction that enters the loop with suspended frames is running. -/
theorem Enters.running {entered : TxExecContext S} (enters : tx.Enters entered)
    (suspended : entered.callStack ≠ []) : entered.status = .running := by
  obtain ⟨initial, context, pushed | settled | failed⟩ := enters.cases
  all_goals obtain ⟨accessList, rfl⟩ := context_eq_some context
  · obtain ⟨_, _, _, _, _, _, _, working, effected, rfl⟩ := pushed
    have stays : Stays _ working := Procedure.Moves.ok effected
    exact stays.status
  · obtain ⟨args, ret, err, working, effected, run⟩ := settled
    have leaves : working.Leaves entered := Procedure.Moves.ok run
    exact absurd (leaves.callStack.trans (txEnd_ok run).1) suspended
  · obtain ⟨err, working, raised, rfl⟩ := failed
    have stays : Stays _ working := Procedure.Moves.error raised
    exact absurd stays.callStack suspended

/-- A transaction that enters the loop running is above its top-level frame. -/
theorem Enters.inTransaction {entered : TxExecContext S} (enters : tx.Enters entered)
    (running : entered.status = .running) : entered.InTransaction := by
  obtain ⟨initial, code, input, value, callee, caller, args, readOnly, working, -, -, -, -,
    rfl⟩ := enters.pushed running
  exact ⟨args, CallFrame.new code input value callee caller (.tx args) tx.executionGas
    (working.curCall.readOnly || readOnly) working.env.block.fork, working.curCall, rfl,
    Rooted.executing _⟩

/-- The next iteration reaches another context. -/
theorem Reaches.step {reached next : TxExecContext S}
    (reaches : tx.Reaches reached) (step : Step reached next) : tx.Reaches next := by
  obtain ⟨entered, enters, run⟩ := reaches
  exact ⟨entered, enters, run.tail step⟩

/-- What holds of a running transaction when it enters the loop, and what every iteration
keeps as long as the transaction runs, holds of every running transaction. -/
@[elab_as_elim]
theorem Reaches.while_running
    {property : TxExecContext S → Prop}
    (enters : ∀ entered, tx.Enters entered → entered.status = .running →
      property entered)
    (keeps : ∀ before after, tx.Reaches before → property before → Step before after →
      after.status = .running → property after)
    {reached : TxExecContext S} (reaches : tx.Reaches reached)
    (running : reached.status = .running) : property reached := by
  obtain ⟨entered, start, run⟩ := reaches
  induction run with
  | refl => exact enters entered start running
  | @tail before after earlier step inductionHypothesis =>
      exact keeps before after ⟨entered, start, earlier⟩ (inductionHypothesis step.1) step
        running

/-- A running transaction is above its top-level frame. -/
theorem Reaches.inside {reached : TxExecContext S}
    (reaches : tx.Reaches reached) (running : reached.status = .running) :
    reached.InTransaction := by
  refine reaches.while_running (fun _ => Enters.inTransaction) ?_ running
  intro before after _ inside step running
  obtain inside | ⟨args, data, err, ending, bottom, finishes⟩ := step.inTransaction inside
  · exact inside
  · exact absurd running finishes.not_running

/-- A transaction that goes on is running above its top-level frame. -/
theorem Reaches.inTransaction {reached next : TxExecContext S}
    (reaches : tx.Reaches reached) (step : Step reached next) :
    reached.InTransaction :=
  reaches.inside step.1

end Transaction

end Qevm
