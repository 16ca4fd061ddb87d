import Qevm.Laws.Costs

/-!
# Termination

Every iteration of the loop takes gas from the frames or words from their stacks: an
instruction that opens a frame pops three words at least, and the end of a frame pushes
one.  Hence a run is not longer than the gas it starts with, apart from two words that the
first frame is counted for.
-/

set_option synthInstance.maxSize 100000

namespace Qevm

open Params WorldState Exec TxExecContext Procedure

variable {S : Type}

/-! ### Words of all frames -/

/-- The words on the stacks of the frames above the last one, with two more for each of
them. -/
def realWords (frames : List (CallFrame S)) : Nat :=
  (frames.dropLast.map fun frame => frame.stack.top + 2).sum

@[simp] theorem realWords_singleton (frame : CallFrame S) :
    realWords [frame] = 0 := rfl

@[simp] theorem realWords_cons_cons
    (top next : CallFrame S) (rest : List (CallFrame S)) :
    realWords (top :: next :: rest) = top.stack.top + 2 + realWords (next :: rest) := rfl

/-- The words of the executing frame and of all suspended frames but the one at the
bottom. -/
def TxExecContext.totalWords (context : TxExecContext S) : Nat :=
  realWords context.frames

/-- The words of the suspended frames but the one at the bottom. -/
def TxExecContext.suspendedWords (context : TxExecContext S) : Nat :=
  realWords context.callStack

variable {before after : TxExecContext S}

/-- The words of the executing frame come on top of those of the suspended ones. -/
theorem totalWords_of_suspended (suspended : before.callStack ≠ []) :
    before.totalWords = before.height + 2 + before.suspendedWords := by
  obtain ⟨next, rest, stack⟩ := List.exists_cons_of_ne_nil suspended
  rw [totalWords, suspendedWords, frames, stack, realWords_cons_cons, height]

/-- So does its gas. -/
theorem totalGas_of_suspended (suspended : before.callStack ≠ []) :
    before.totalGas = before.frameGas + realGas before.callStack := by
  obtain ⟨next, rest, stack⟩ := List.exists_cons_of_ne_nil suspended
  rw [totalGas, frames, stack, realGas_cons_cons, frameGas]

namespace Exec

instance gains_height (word : U256) : Gains height 1 (push word : Exec S Unit) := by
  refine ⟨fun run => ?_⟩
  obtain ⟨stack, pushes, rfl⟩ := onStack_ok run
  exact Nat.le_of_eq (Stack.push_ok pushes).2

instance keepsStack_addGas (gas : Gas) :
    Moves KeepsStack (onCall (Procedure.update fun call =>
      { call with unusedGas := call.unusedGas + gas }) : Exec S Unit) :=
  ⟨fun _ => rfl⟩

instance keepsStack_returned (data : CallFrame S → Bytes) :
    Moves KeepsStack (onCall (Procedure.update fun call =>
      { call with lastReturned := data call }) : Exec S Unit) :=
  ⟨fun _ => rfl⟩

instance keepsStack_callReturn
    (args : CallArgs S) (data : Bytes) (gas : Gas) (ret : Result) :
    Moves KeepsStack (callReturn args data gas ret) := by
  unfold callReturn
  obtain err | _ := ret
  · cases err <;> infer_instance
  · infer_instance

variable [WorldState S] [Keccak256]

omit [Keccak256] in
instance keepsStack_createPostProcessing
    (contractAddr : Addr) (data : Bytes) (ret : Result) :
    Moves KeepsStack (createPostProcessing contractAddr data ret : Exec S Unit) :=
  moves_createPostProcessing contractAddr data ret

omit [Keccak256] in
/-- Settling the end of a call pushes a word. -/
instance gains_callEnd (args : CallArgs S) (data : Bytes) (gas : Gas) (ret : Result) :
    Gains height 1 (callEnd args data gas ret) := by
  unfold callEnd
  infer_instance

omit [Keccak256] in
/-- So does settling the end of a creation. -/
instance gains_createEnd
    (args : CreateArgs S) (data : Bytes) (gas : Gas) (ret : Result) :
    Gains height 1 (createEnd args data gas ret) := by
  unfold createEnd
  infer_instance

variable {ending : TxExecContext S}

/-- Settling the end of a frame pushes at most a word, if a frame is suspended below the
resumed one. -/
theorem settleEnd_height
    {callType : CallType S} {data : Bytes} {gas : Gas} {err : Result}
    (run : settleEnd callType data gas err before = .ok () after)
    (suspended : before.callStack ≠ []) : after.height ≤ before.height + 1 := by
  cases callType with
  | tx args => exact absurd (txEnd_ok run).1 suspended
  | create args => exact (gains_createEnd args data gas err).holds run
  | call args => exact (gains_callEnd args data gas err).holds run

/-- The words of all frames after the end of a frame. -/
theorem finishCall_words
    {data : Bytes} {err : Result} (run : finishCall data err ending = .ok () after) :
    after.totalWords ≤ ending.suspendedWords + 1 := by
  obtain ⟨frame, callStack, suspended, leaves⟩ := finishCall_ok run
  have stack : after.callStack = callStack := leaves.callStack
  rw [finishCall_cons data err suspended] at run
  by_cases bottom : callStack = []
  · rw [totalWords, frames, stack, bottom]
    exact Nat.zero_le _
  · have height := settleEnd_height run bottom
    have words := totalWords_of_suspended (stack ▸ bottom)
    obtain ⟨next, rest, below⟩ := List.exists_cons_of_ne_nil bottom
    rw [suspendedWords, suspended, below, realWords_cons_cons, ← below]
    rw [suspendedWords, stack] at words
    simp only [TxExecContext.height] at height words
    omega

/-- A frame that cannot be settled leaves fewer frames suspended. -/
theorem finishCall_error_words
    {data : Bytes} {err : Result} {raised : ExecError}
    (run : finishCall data err before = .error raised after) :
    after.suspendedWords ≤ before.suspendedWords := by
  obtain ⟨frame, callStack, suspended, leaves⟩ := finishCall_error run
  have stack : after.callStack = callStack := leaves.callStack
  rw [suspendedWords, suspendedWords, suspended, stack]
  cases callStack with
  | nil => exact Nat.le_refl _
  | cons next rest =>
      rw [realWords_cons_cons]
      exact Nat.le_add_left _ _

/-- Up to the end of a frame an iteration leaves the suspended frames alone, or ends some
of them. -/
theorem Ends.words
    {data : Bytes} {err : Result} (ends : Ends before ending data err) :
    ending.suspendedWords ≤ before.suspendedWords := by
  induction ends with
  | instruction fetches effected =>
      have works : before.Works _ := Moves.ok effected
      exact Nat.le_of_eq (congrArg realWords works.callStack)
  | raised fetches raises =>
      obtain raises | ⟨args, ret, gas, result, working, moved, effected, ended,
        rfl⟩ | ⟨working, data, result, effected, raises⟩ := dispatch_error raises
      · have works : before.Works _ := Moves.error raises
        exact Nat.le_of_eq (congrArg realWords works.callStack)
      · have works : before.Works working := Moves.ok effected
        have settles : working.Settles moved := Moves.error ended
        exact Nat.le_of_eq
          (congrArg realWords (settles.callStack.trans works.callStack))
      · have works : before.Works working := Moves.ok effected
        have fewer := finishCall_error_words raises
        rwa [suspendedWords, suspendedWords, works.callStack] at fewer
  | unwound ends raises inductionHypothesis =>
      exact Nat.le_trans (finishCall_error_words raises) inductionHypothesis

end Exec

/-! ### Iterations -/

section Loop

variable [WorldState S] [Keccak256]

omit [WorldState S] [Keccak256] in
@[simp] theorem height_advanced (inst : Inst) (context : TxExecContext S) :
    (advanced inst context).height = context.height := by
  unfold height advanced
  split <;> rfl

omit [WorldState S] [Keccak256] in
@[simp] theorem totalWords_advanced (inst : Inst) (context : TxExecContext S) :
    (advanced inst context).totalWords = context.totalWords := by
  unfold totalWords frames advanced
  cases context.callStack with
  | nil => rfl
  | cons next rest => split <;> rfl

/-- An iteration of a running transaction takes gas or words, as long as it covers its
stipend. -/
theorem Step.falls
    (step : Step before after) (inside : before.InTransaction)
    (covered : StipendCovered before) :
    after.totalGas + after.totalWords + 1 ≤ before.totalGas + before.totalWords := by
  have gas := step.gas inside covered
  have suspended := inside.suspended
  have words := totalWords_of_suspended suspended
  obtain ⟨inst, fetches, continues | enters | settled | ended⟩ := step.cases
  · obtain ⟨working, effected, rfl⟩ := continues
    have works : before.Works working := Moves.ok effected
    have fuel := fuel_falls ((nested_effect inst).holds effected) effected
    have still : working.callStack ≠ [] := by rwa [works.callStack]
    have wordsAfter := totalWords_of_suspended still
    have gasBefore := totalGas_of_suspended suspended
    have gasAfter := totalGas_of_suspended still
    rw [suspendedWords, works.callStack, ← suspendedWords] at wordsAfter
    rw [works.callStack] at gasAfter
    rw [totalGas_advanced, totalWords_advanced]
    omega
  · obtain ⟨code, input, value, callee, caller, callType, quota, readOnly, working,
      effected, run⟩ := enters
    have works : before.Works working := Moves.ok effected
    have pops := opener_pops effected rfl
    obtain ⟨next, rest, stack⟩ := List.exists_cons_of_ne_nil suspended
    have pushed : after.totalWords = 2 + (working.height + 2 + before.suspendedWords) := by
      have fresh : Stack.new.top = 0 := rfl
      rw [callPush_ok run]
      simp [totalWords, frames, works.callStack, stack, CallFrame.new, suspendedWords,
        height, fresh]
    omega
  · obtain ⟨args, ret, quota, err, working, moved, effected, ended, rfl⟩ := settled
    have works : before.Works working := Moves.ok effected
    have settles : working.Settles moved := Moves.ok ended
    have pops := opener_pops effected rfl
    have push := (gains_callEnd args ret quota err).holds ended
    have stack := settles.callStack.trans works.callStack
    have still : moved.callStack ≠ [] := by rwa [stack]
    have wordsAfter := totalWords_of_suspended still
    rw [suspendedWords, stack, ← suspendedWords] at wordsAfter
    have same : TxExecContext.totalWords { moved with
        curCall := { moved.curCall with pc := moved.curCall.pc + 1 } } =
          moved.totalWords := by
      obtain ⟨next, rest, stack⟩ := List.exists_cons_of_ne_nil still
      simp [totalWords, frames, stack]
    omega
  · obtain ⟨ending, data, err, settled, ends, finished, rfl⟩ := ended
    have left := ends.words
    have push := finishCall_words finished
    rw [totalWords_advanced]
    omega

/-! ### Runs -/

/-- An iteration that executes an instruction other than those that open frames, and
leaves the frame running. -/
def RunsOn (before after : TxExecContext S) : Prop :=
  Step before after ∧ after.callStack.length = before.callStack.length ∧
    ∃ inst, Fetches before inst ∧ inst.opcode.entersCall = false

/-- Such an iteration is an instruction that asks for the next one. -/
theorem RunsOn.effect (runs : RunsOn before after) :
    ∃ inst working, Fetches before inst ∧ inst.opcode.entersCall = false ∧
      effect inst before = .ok .next working ∧ after = advanced inst working := by
  obtain ⟨step, depth, inst, fetches, closed⟩ := runs
  obtain ⟨found, foundFetches, continues | enters | settled | ended⟩ := step.cases
  all_goals obtain rfl := Option.some.inj (fetches.symm.trans foundFetches)
  · obtain ⟨working, effected, rfl⟩ := continues
    exact ⟨inst, working, fetches, closed, effected, rfl⟩
  · obtain ⟨code, input, value, callee, caller, callType, quota, readOnly, working,
      effected, -⟩ := enters
    have opens := enters_of_callType effected rfl
    rw [closed] at opens
    contradiction
  · obtain ⟨args, ret, quota, err, working, moved, effected, -, -⟩ := settled
    have opens := enters_of_callType effected rfl
    rw [closed] at opens
    contradiction
  · obtain ⟨ending, data, err, settled, ends, finished, rfl⟩ := ended
    have shorter := ends.shorter finished
    have same : settled.callStack.length = before.callStack.length := depth
    omega

/-- Such an iteration takes gas or words from its frame. -/
theorem RunsOn.falls (runs : RunsOn before after) :
    after.frameGas + after.height + 1 ≤ before.frameGas + before.height := by
  obtain ⟨inst, working, fetches, closed, effected, rfl⟩ := runs.effect
  rw [frameGas_advanced, height_advanced]
  exact fuel_falls closed effected

/-- A run of a frame that opens no other one is not longer than its gas and its words. -/
theorem frame_bounded
    {count : Nat} {start last : TxExecContext S} (run : Steps RunsOn count start last) :
    count + (last.frameGas + last.height) ≤ start.frameGas + start.height :=
  run.bounded (fun context => context.frameGas + context.height) fun _ step => step.falls

omit [WorldState S] [Keccak256] in
/-- An instruction that opens no frame needs no stipend. -/
theorem covered_of_closed
    {inst : Inst} (fetches : Fetches before inst)
    (closed : inst.opcode.entersCall = false) : StipendCovered before := by
  intro found foundFetches calls
  obtain rfl := Option.some.inj (fetches.symm.trans foundFetches)
  obtain call | callCode := calls
  · simp [call, Opcode.entersCall] at closed
  · simp [callCode, Opcode.entersCall] at closed

namespace Transaction

variable {tx : Transaction S} {entered reached : TxExecContext S}

/-- A transaction enters the loop with empty stacks. -/
theorem Enters.words (enters : tx.Enters entered) : entered.totalWords ≤ 2 := by
  obtain ⟨initial, context, pushed | settled | failed⟩ := enters.cases
  · obtain ⟨code, input, value, callee, caller, args, readOnly, working, effected,
      rfl⟩ := pushed
    obtain ⟨accessList, rfl⟩ := context_eq_some context
    have stays : Stays _ working := Moves.ok effected
    have fresh : Stack.new.top = 0 := rfl
    simp [totalWords, frames, stays.callStack, CallFrame.new, fresh]
  · obtain ⟨args, ret, err, working, effected, run⟩ := settled
    have leaves : working.Leaves entered := Moves.ok run
    rw [totalWords, frames, leaves.callStack, (txEnd_ok run).1]
    exact Nat.zero_le _
  · obtain ⟨err, working, raised, rfl⟩ := failed
    obtain ⟨accessList, rfl⟩ := context_eq_some context
    have stays : Stays _ working := Moves.error raised
    simp [totalWords, frames, stays.callStack]

/-- A run that covers its stipends is not longer than the execution gas and two. -/
theorem bounded
    {count : Nat} (enters : tx.Enters entered)
    (run : Steps (fun before after => StipendCovered before ∧ Step before after)
      count entered reached) :
    count ≤ tx.executionGas.toNat + 2 := by
  have spends {middle next : TxExecContext S} (covered : CoveredRun entered middle)
      (step : StipendCovered middle ∧ Step middle next) :
      next.totalGas + next.totalWords + 1 ≤ middle.totalGas + middle.totalWords :=
    step.2.falls ((covered.reaches enters).inTransaction step.2) step.1
  have bound := run.bounded (fun context => context.totalGas + context.totalWords)
    fun covered step => spends covered step
  have gas := enters.gas.1
  have words := enters.words
  omega

end Transaction

/-- An instruction that opens no frame and leaves its frame running takes gas, unless it is
an `EXP` with the exponent zero or an `SSTORE` before Constantinople.  A frame that opens
no other one executes at most as many instructions that leave it running as the gas it
starts with, and the loop is not longer than the execution gas and two when every call
without value covers its stipend. -/
theorem instructions_cost_iff :
    (∀ {inst : Inst} {before after : TxExecContext S}, inst.opcode.entersCall = false →
      effect inst before = .ok .next after →
        (after.frameGas < before.frameGas ↔ Pays inst before)) ∧
      (∀ {count : Nat} {start last : TxExecContext S}, Steps RunsOn count start last →
        start.height = 0 → count + last.frameGas ≤ start.frameGas) ∧
      ∀ {tx : Transaction S} {count : Nat} {entered reached : TxExecContext S},
        tx.Enters entered →
        Steps (fun before after => StipendCovered before ∧ Step before after)
          count entered reached →
        count ≤ tx.executionGas.toNat + 2 := by
  refine ⟨gas_falls_iff, fun run fresh => ?_,
    fun enters run => Transaction.bounded enters run⟩
  have bound := frame_bounded run
  omega

end Loop

namespace Sample

/-- Raises two to a power, and stops. -/
def powerCode (exponent : UInt8) : Bytes := [0x60, exponent, 0x60, 0x02, 0x0a, 0x00]

/-- Writes a slot, and stops. -/
def writingCode : Bytes := [0x60, 0x01, 0x60, 0x00, 0x55, 0x00]

/-- The digests that the transactions of this module look at. -/
@[reducible] def costKeccak : Keccak256 := keccak
  [([], 0xc5d2460186f7233c927e7db2dcc703c0e500b653ca82273b7bfad8045d85a470),
    (powerCode 0, 0x971e370b8aacf9803e2dbf5f0596495c4b4bb3c9cd784637f2d94c3988dfc566),
    (powerCode 1, 0x8c083b6881c7189e04664d2484c47fa6637f8521d914711fe8c285016b025947),
    (writingCode,
      0x0dd9fc23b9e0972b48f0c93ebb805660239a90ba27a337a9f24333a8703975cd)]

/-- A transaction to an account with a code. -/
def costTx (fork : Fork) (code : Bytes) : Transaction DummyStateStore :=
  letI := costKeccak
  let state := DummyStateStore.new.setCode 0xaa code
  { sender := 1
    recipient := some 0xaa
    value := 0
    gas := 121000
    gasPrice := 0
    input := []
    accessList := none
    state := state
    committedState := state
    env := env fork }

end Sample

/-- Raising to the first power takes gas, and the run to it is short. -/
theorem first_power_costs :
    letI := Sample.costKeccak
    (∃ (inst : Inst) (before after : TxExecContext DummyStateStore),
      (Sample.costTx .london (Sample.powerCode 1)).Reaches before ∧
        inst.opcode = .exp ∧ effect inst before = .ok .next after ∧
        after.frameGas < before.frameGas) ∧
      ∃ entered reached : TxExecContext DummyStateStore,
        (Sample.costTx .london (Sample.powerCode 1)).Enters entered ∧
          Step entered reached ∧ 1 + reached.frameGas ≤ entered.frameGas ∧
          1 ≤ (Sample.costTx .london (Sample.powerCode 1)).executionGas.toNat + 2 := by
  let := Sample.costKeccak
  constructor
  · obtain ⟨before, after, reached, step, fetches, exponent, depth⟩ :=
      (Sample.costTx .london (Sample.powerCode 1)).exists_step 2
        (fun before after => Fetches before ⟨.exp, none, 0⟩ ∧ operand before 1 = 1 ∧
          after.callStack.length = before.callStack.length) (by decide +kernel)
    have runsOn : RunsOn before after := ⟨step, depth, _, fetches, rfl⟩
    obtain ⟨inst, working, found, closed, effected, -⟩ := runsOn.effect
    obtain rfl := Option.some.inj (fetches.symm.trans found)
    refine ⟨_, before, working, reached, rfl, effected,
      (instructions_cost_iff.1 closed effected).mpr ⟨fun _ => ?_, nofun⟩⟩
    rw [exponent]
    decide
  · obtain ⟨entered, enters, fetches, empty, runs⟩ :=
      (Sample.costTx .london (Sample.powerCode 1)).exists_entered
        (fun entered => Fetches entered ⟨.push, some [0x01], 0⟩ ∧ entered.height = 0 ∧
          (stepOnce entered).any (fun reached : TxExecContext DummyStateStore =>
            reached.callStack.length = entered.callStack.length) = true)
        (by decide +kernel)
    obtain ⟨reached, steps, depth⟩ := (Option.any_eq_true _ _).mp runs
    have step := stepOnce_eq_some.mp steps
    have runsOn : RunsOn entered reached :=
      ⟨step, of_decide_eq_true depth, _, fetches, rfl⟩
    exact ⟨entered, reached, enters, step,
      instructions_cost_iff.2.1 (.tail (.refl _) runsOn) empty,
      instructions_cost_iff.2.2 enters
        (.tail (.refl _) ⟨covered_of_closed fetches rfl, step⟩)⟩

/-- Raising to the power zero is free, and so is writing a slot before Constantinople. -/
theorem free_instructions :
    letI := Sample.costKeccak
    (∃ before after : TxExecContext DummyStateStore,
      (Sample.costTx .london (Sample.powerCode 0)).Reaches before ∧
        Fetches before ⟨.exp, none, 0⟩ ∧ Step before after ∧
        after.callStack.length = before.callStack.length ∧
        after.frameGas = before.frameGas) ∧
      ∃ before after : TxExecContext DummyStateStore,
        (Sample.costTx .byzantium Sample.writingCode).Reaches before ∧
          Fetches before ⟨.sstore, none, 0⟩ ∧ Step before after ∧
          after.callStack.length = before.callStack.length ∧
          after.frameGas = before.frameGas := by
  let := Sample.costKeccak
  constructor
  · obtain ⟨before, after, reached, step, fetches, same⟩ :=
      (Sample.costTx .london (Sample.powerCode 0)).exists_step 2
        (fun before after => Fetches before ⟨.exp, none, 0⟩ ∧
          after.callStack.length = before.callStack.length ∧
          after.frameGas = before.frameGas) (by decide +kernel)
    exact ⟨before, after, reached, fetches, step, same⟩
  · obtain ⟨before, after, reached, step, fetches, same⟩ :=
      (Sample.costTx .byzantium Sample.writingCode).exists_step 2
        (fun before after => Fetches before ⟨.sstore, none, 0⟩ ∧
          after.callStack.length = before.callStack.length ∧
          after.frameGas = before.frameGas) (by decide +kernel)
    exact ⟨before, after, reached, fetches, step, same⟩

end Qevm
