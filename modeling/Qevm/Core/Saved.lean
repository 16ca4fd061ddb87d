import Qevm.Core.Creations

/-!
# The live world state and the saved ones

A failing frame goes back to the world state that was saved when it was pushed.
So a property of what can be read lasts through a run when it holds of the live
world state and of every saved one, and when instructions and the installation of
code preserve it.
-/

namespace Qevm

open WorldState Exec TxExecContext

variable {S : Type} [WorldState S] [Keccak256] [LawfulWorldState S]

/-- A property of what can be read from the live world state and from every
snapshot that a frame keeps. -/
structure TxExecContext.Holds
    (good : View → Prop) (context : TxExecContext S) : Prop where
  live : good (view context.state)
  saved : ∀ frame ∈ context.frames, ∀ state,
    frame.callType.snapshot = some state → good (view state)

/-- Before the last action of an instruction the property lasts. -/
def Exec.Preserves
    (good : View → Prop) (inst : Inst) (context : TxExecContext S) : Prop :=
  Procedure.wp (effect inst) (fun _ after => good (view after.state))
    (fun _ after => good (view after.state)) context

/-- Code may be installed without losing the property. -/
def View.AdmitsCode (good : View → Prop) : Prop :=
  ∀ seen account code, good seen → good (seen.setCode account code)

namespace Exec

variable {good : View → Prop} {before after : TxExecContext S} {tail : Tail S}

/-- What an instruction keeps for the end of a frame is what can be read before
it. -/
theorem opened_saved
    {inst : Inst} {callType : CallType S} {saved : S}
    (run : effect inst before = .ok tail after)
    (opens : tail.callType = some callType)
    (keeps : callType.snapshot = some saved) : view saved = view before.state := by
  obtain call | creation := opener_of_callType run opens
  · obtain ⟨args, callType, same, -⟩ := messageCall_snapshot call run
    rw [opens] at callType
    obtain rfl := Option.some.inj callType
    exact same saved keeps
  · obtain ⟨code, value, gas, kept, contract, rfl, same, -⟩ :=
      creation_effect creation run
    obtain rfl := Option.some.inj opens
    obtain rfl := Option.some.inj keeps
    exact same

omit [Keccak256] [LawfulWorldState S] in
/-- The end of a creation goes back to a saved state, or installs code. -/
theorem createEnd_state
    (args : CreateArgs S) (data : Bytes) (gas : Gas) (ret : Result)
    (before : TxExecContext S) :
    let reached (state : S) : Prop :=
      state = (if ret.isErr then rollback before.state args.snapshot
        else before.state) ∨
      state = setCode before.state args.contractAddr data
    Procedure.wp (createEnd args data gas ret)
      (fun _ after => reached after.state) (fun _ after => reached after.state)
      before := by
  intro reached
  unfold createEnd
  rw [Procedure.wp_bind]
  refine Procedure.wp_of_run (fun _ rolled rolls => ?_)
    (fun err final raises => absurd raises rollBack_error)
  obtain rfl := rollBack_ok rolls
  obtain ⟨outcome, final, processing, done⟩ :=
    processed args.contractAddr data ret
      { before with
        state := if ret.isErr then rollback before.state args.snapshot
          else before.state }
  have settled : reached final.state := by
    by_cases accepted : ret = .ok () ∧ before.curCall.Accepts data
    · refine .inr (done.state.trans ?_)
      simp only [accepted, and_self, if_true, Result.isErr, Bool.false_eq_true,
        if_false]
    · exact .inl (done.state.trans (if_neg accepted))
  rw [Procedure.wp_bind]
  refine Procedure.wp_of_run (fun value ended run => ?_) (fun err ended run => ?_)
  · rw [processing] at run
    obtain ⟨rfl, rfl⟩ := Outcome.ok.inj run
    have later (last : TxExecContext S) (kept : KeepsState final last) :
        reached last.state := by
      rw [show last.state = final.state from kept]
      exact settled
    have moves : Procedure.Moves KeepsState (do
        onCall (Procedure.update fun call =>
          { call with unusedGas := call.unusedGas + gas })
        push (if Result.isErr outcome then 0 else args.contractAddr.toU256)
        onCall (Procedure.update fun call =>
          { call with
            lastReturned := if outcome = .error .reverted then data else [] }) :
        Exec S Unit) := inferInstance
    exact Procedure.wp_mono (moves.holds final) (fun _ => later)
      (fun _ => later)
  · rw [processing] at run
    contradiction

end Exec

namespace TxExecContext.Holds

variable {good : View → Prop} {before after : TxExecContext S}

/-- Work of the executing frame keeps the saved states. -/
theorem remains
    (holds : before.Holds good) (remains : before.Remains after)
    (live : good (view after.state)) : after.Holds good := by
  refine ⟨live, fun frame member => ?_⟩
  rw [frames, remains.callStack] at member
  obtain rfl | member := List.mem_cons.mp member
  · rw [remains.curCall.callType]
    exact holds.saved before.curCall List.mem_cons_self
  · exact holds.saved frame (List.mem_cons_of_mem _ member)

/-- A pushed frame adds what it keeps. -/
theorem pushed
    (holds : before.Holds good) {top : CallFrame S}
    (saved : ∀ state, top.callType.snapshot = some state → good (view state)) :
    Holds good
      { before with
        callStack := before.curCall :: before.callStack, curCall := top } := by
  refine ⟨holds.live, fun frame member => ?_⟩
  obtain rfl | member := List.mem_cons.mp member
  · exact saved
  · exact holds.saved frame member

/-- A frame that gives way takes nothing from the others. -/
theorem popped
    (holds : before.Holds good) {next : CallFrame S}
    {callStack : List (CallFrame S)}
    (suspended : before.callStack = next :: callStack) :
    Holds good { before with callStack := callStack, curCall := next } := by
  refine ⟨holds.live, fun frame member => ?_⟩
  refine holds.saved frame (List.mem_cons_of_mem _ ?_)
  rw [suspended]
  exact member

/-- Going back to a saved state keeps the property. -/
theorem returned
    (holds : before.Holds good) {saved : Option S} {ret : Result}
    (keeps : ∀ state, saved = some state → good (view state)) :
    good (view (returnedState saved ret before.state)) := by
  unfold returnedState
  split
  · cases snapshot : saved with
    | none => exact holds.live
    | some state =>
        rw [Option.elim_some, LawfulWorldState.view_rollback]
        exact keeps state snapshot
  · exact holds.live

/-- The property lasts through the end of a call or a creation. -/
theorem finished
    (codes : View.AdmitsCode good) {data : Bytes} {err : Result}
    (holds : before.Holds good)
    (nested : ∀ args, before.curCall.callType ≠ .tx args)
    (run : finishCall data err before = .ok () after ∨
      ∃ raised, finishCall data err before = .error raised after) :
    after.Holds good := by
  have own := holds.saved before.curCall List.mem_cons_self
  cases suspended : before.callStack with
  | nil => simp [finishCall_nil data err suspended] at run
  | cons next callStack =>
      have popped := holds.popped suspended
      rw [finishCall_cons data err suspended] at run
      cases callType : before.curCall.callType with
      | tx args => exact absurd callType (nested args)
      | call args =>
          rw [callType] at run own
          have ends : callEnd args data before.curCall.unusedGas err
                { before with callStack := callStack, curCall := next } = .ok () after ∨
              ∃ raised, callEnd args data before.curCall.unusedGas err
                { before with callStack := callStack, curCall := next } =
                  .error raised after := run
          have settles : Settles _ after := Procedure.Moves.ended ends
          refine popped.remains settles.toLeaves.remains ?_
          rw [callEnd_ended_state ends]
          exact popped.returned own
      | create args =>
          rw [callType] at run own
          have reached (state : S)
              (reaches : state = (if err.isErr then
                  rollback before.state args.snapshot else before.state) ∨
                state = setCode before.state args.contractAddr data) :
              good (view state) := by
            obtain rfl | rfl := reaches
            · split
              · rw [LawfulWorldState.view_rollback]
                exact own _ rfl
              · exact holds.live
            · rw [LawfulWorldState.view_setCode]
              exact codes _ _ _ holds.live
          have states := createEnd_state args data before.curCall.unusedGas err
            { before with callStack := callStack, curCall := next }
          have ends : createEnd args data before.curCall.unusedGas err
                { before with callStack := callStack, curCall := next } = .ok () after ∨
              ∃ raised, createEnd args data before.curCall.unusedGas err
                { before with callStack := callStack, curCall := next } =
                  .error raised after := run
          have settles : Settles _ after := Procedure.Moves.ended ends
          have reaches := Procedure.wp_ended states ends
          exact popped.remains settles.toLeaves.remains (reached after.state reaches)

/-- An end that cannot be settled below is not that of a transaction. -/
theorem finish_error
    (codes : View.AdmitsCode good) {data : Bytes} {err : Result}
    {raised : ExecError} (holds : before.Holds good)
    (run : finishCall data err before = .error raised after) :
    after.Holds good := by
  refine holds.finished codes (fun args callType => ?_) (.inr ⟨raised, run⟩)
  obtain ⟨next, callStack, suspended, -⟩ := finishCall_error run
  rw [finishCall_cons data err suspended, callType] at run
  exact txEnd_error run

/-- The property lasts through the ends of frames. -/
theorem ended
    (codes : View.AdmitsCode good) {data : Bytes} {err : Result}
    (holds : before.Holds good)
    (works : ∀ inst, Fetches before inst → Preserves good inst before)
    (ends : Ends before after data err) : after.Holds good := by
  induction ends with
  | instruction fetches runs =>
      have work : before.Works _ := Procedure.Moves.ok runs
      exact holds.remains work.remains (Procedure.wp_ok (works _ fetches) runs)
  | raised fetches raises =>
      obtain raises | ⟨args, ret, gas, result, working, moved, runs, settles,
        rfl⟩ | ⟨working, data, result, runs, raises⟩ := dispatch_error raises
      · have work : before.Works _ := Procedure.Moves.error raises
        exact holds.remains work.remains
          (Procedure.wp_error (works _ fetches) raises)
      · have work : before.Works working := Procedure.Moves.ok runs
        have middle := holds.remains work.remains
          (Procedure.wp_ok (works _ fetches) runs)
        have settled : Settles _ moved := Procedure.Moves.error settles
        refine middle.remains
          (settled.toLeaves.remains.trans (remains_pc moved _)) ?_
        change good (view moved.state)
        rw [callEnd_error_state settles]
        refine middle.returned fun state keeps => ?_
        rw [opened_saved runs rfl keeps]
        exact holds.live
      · have work : before.Works working := Procedure.Moves.ok runs
        have middle := holds.remains work.remains
          (Procedure.wp_ok (works _ fetches) runs)
        exact middle.finish_error codes raises
  | unwound ends raises inductionHypothesis =>
      exact inductionHypothesis.finish_error codes raises

end TxExecContext.Holds

/-- The property lasts through an iteration, unless that ends the transaction. -/
theorem Step.holds
    {good : View → Prop} {before after : TxExecContext S}
    (step : Step before after) (codes : View.AdmitsCode good)
    (holds : before.Holds good)
    (works : ∀ inst, Fetches before inst → Preserves good inst before) :
    after.Holds good ∨
      ∃ args data err ending bottom,
        Finishes before after args data err ending bottom ∧
        ending.Holds good := by
  obtain ⟨inst, fetches, continues | enters | settled | ended⟩ := step.cases
  · obtain ⟨working, effected, rfl⟩ := continues
    have work : before.Works working := Procedure.Moves.ok effected
    have live := Procedure.wp_ok (works inst fetches) effected
    exact .inl (holds.remains (work.remains.trans (remains_advanced working inst))
      live)
  · obtain ⟨code, input, value, callee, caller, callType, gas, readOnly, working,
      effected, run⟩ := enters
    have work : before.Works working := Procedure.Moves.ok effected
    have middle := holds.remains work.remains
      (Procedure.wp_ok (works inst fetches) effected)
    rw [callPush_ok run]
    refine .inl (middle.pushed fun state keeps => ?_)
    rw [opened_saved effected rfl keeps]
    exact holds.live
  · obtain ⟨args, ret, gas, err, working, moved, effected, ends, rfl⟩ := settled
    have work : before.Works working := Procedure.Moves.ok effected
    have middle := holds.remains work.remains
      (Procedure.wp_ok (works inst fetches) effected)
    have settled : Settles _ moved := Procedure.Moves.ok ends
    refine .inl (middle.remains
      (settled.toLeaves.remains.trans (remains_pc moved _)) ?_)
    change good (view moved.state)
    rw [callEnd_state ends]
    refine middle.returned fun state keeps => ?_
    rw [opened_saved effected rfl keeps]
    exact holds.live
  · obtain ⟨ending, data, err, settled, ends, finished, rfl⟩ := ended
    have last := holds.ended codes works ends
    by_cases top : ∃ args, ending.curCall.callType = .tx args
    · obtain ⟨args, callType⟩ := top
      obtain ⟨bottom, callStack, suspended, -⟩ := finishCall_ok finished
      rw [finishCall_cons data err suspended, callType] at finished
      have empty : callStack = [] := (txEnd_ok finished).1
      subst empty
      exact .inr ⟨args, data, err, ending, bottom,
        ⟨ends, suspended, callType, inst, settled, fetches, finished, rfl⟩, last⟩
    · have settledHolds := last.finished codes
        (fun args callType => top ⟨args, callType⟩) (.inl finished)
      exact .inl (settledHolds.remains (remains_advanced settled inst)
        settledHolds.live)

end Qevm
