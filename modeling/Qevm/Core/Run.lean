import Qevm.Core.Nesting

/-!
# Running the loop

The interpreter can be run for a number of iterations.  A run that succeeds is a
run of the step relation, so a concrete transaction can be followed by
evaluation.
-/

namespace Qevm

open Exec

variable {S : Type} [WorldState S] [Keccak256]

/-- The context after one iteration of a running transaction. -/
def stepOnce (context : TxExecContext S) : Option (TxExecContext S) :=
  match context.status with
  | .running =>
      match iterate context with
      | .ok _ next => some next
      | _ => none
  | .finished _ => none

theorem stepOnce_eq_some {before after : TxExecContext S} :
    stepOnce before = some after ↔ Step before after := by
  unfold stepOnce Step
  cases before.status with
  | finished result => simp
  | running =>
      cases iterate before with
      | ok value next => simp
      | error err next => simp
      | panic reason => simp

/-- The context after a number of iterations that all end in an allowed
context. -/
def runFor (allowed : TxExecContext S → Bool) :
    Nat → TxExecContext S → Option (TxExecContext S)
  | 0, context => some context
  | count + 1, context =>
      (stepOnce context).bind fun next =>
        if allowed next then runFor allowed count next else none

/-- A run by evaluation is a run of the step relation. -/
theorem runFor_run
    {allowed : TxExecContext S → Bool} {count : Nat}
    {before after : TxExecContext S}
    (run : runFor allowed count before = some after) :
    Relation.ReflTransGen (fun before after => Step before after ∧ allowed after)
      before after := by
  induction count generalizing before with
  | zero =>
      obtain rfl : before = after := by simpa [runFor] using run
      exact .refl
  | succ count inductionHypothesis =>
      obtain ⟨next, step, rest⟩ := Option.bind_eq_some_iff.mp run
      by_cases permitted : allowed next
      · rw [if_pos permitted] at rest
        exact .head ⟨stepOnce_eq_some.mp step, permitted⟩
          (inductionHypothesis rest)
      · rw [if_neg permitted] at rest
        contradiction

/-- A run above a depth by evaluation. -/
theorem runFor_inside
    {depth count : Nat} {before after : TxExecContext S}
    (run : runFor (fun context => decide (depth < context.callStack.length)) count
      before = some after) :
    Inside depth before after := by
  refine Relation.ReflTransGen.mono ?_ _ _ (runFor_run run)
  intro first last step
  exact ⟨step.1, of_decide_eq_true step.2⟩

/-- A run that keeps a property by evaluation. -/
theorem runFor_keeps
    {property : TxExecContext S → Prop} [DecidablePred property] {count : Nat}
    {before after : TxExecContext S} (initially : property before)
    (run : runFor (fun context => decide (property context)) count before =
      some after) :
    Relation.ReflTransGen
      (fun before after => Step before after ∧ property before ∧ property after)
      before after := by
  have runs : Relation.ReflTransGen
      (fun before after => Step before after ∧ property before ∧ property after)
      before after ∧ property after := by
    have steps := runFor_run run
    clear run
    induction steps with
    | refl => exact ⟨.refl, initially⟩
    | tail _ step inductionHypothesis =>
        have next := of_decide_eq_true step.2
        exact ⟨inductionHypothesis.1.tail ⟨step.1, inductionHypothesis.2, next⟩, next⟩
  exact runs.1

/-- A run that neither pushes nor ends a frame by evaluation. -/
theorem runFor_level
    {depth count : Nat} {before after : TxExecContext S}
    (level : before.callStack.length = depth)
    (run : runFor (fun context => decide (context.callStack.length = depth)) count
      before = some after) :
    Relation.ReflTransGen
      (fun before after => Step before after ∧
        after.callStack.length = before.callStack.length) before after := by
  refine Relation.ReflTransGen.mono ?_ _ _ (runFor_keeps level run)
  rintro first last ⟨step, was, is⟩
  exact ⟨step, is.trans was.symm⟩

/-- The gas that a finished transaction leaves. -/
def TxExecStatus.leftGas : TxExecStatus → Option Gas
  | .running => none
  | .finished result => some result.unusedGas

omit [Keccak256] in
theorem TxExecStatus.leftGas_eq_none {status : TxExecStatus} :
    status.leftGas = none ↔ status = .running := by
  cases status <;> simp [leftGas]

namespace Transaction

/-- The context with which a transaction enters the loop, if it does. -/
def entry (tx : Transaction S) : Option (TxExecContext S) :=
  tx.context.bind fun initial =>
    match tx.begin initial with
    | .ok _ entered => some entered
    | _ => none

theorem entry_eq_some {tx : Transaction S} {entered : TxExecContext S} :
    tx.entry = some entered ↔ tx.Enters entered := by
  unfold entry Enters
  cases tx.context with
  | none => simp
  | some initial =>
      cases run : tx.begin initial with
      | ok value next => simp [run]
      | error err next => simp [run]
      | panic reason => simp [run]

/-- The context that a transaction reaches after a number of iterations. -/
def after (tx : Transaction S) (count : Nat) : Option (TxExecContext S) :=
  tx.entry.bind (runFor (fun _ => true) count)

/-- Running a transaction reaches a context. -/
theorem reaches_of_after
    {tx : Transaction S} {count : Nat} {reached : TxExecContext S}
    (run : tx.after count = some reached) : tx.Reaches reached := by
  obtain ⟨entered, enters, runs⟩ := Option.bind_eq_some_iff.mp run
  exact ⟨entered, entry_eq_some.mp enters,
    Relation.ReflTransGen.mono (fun _ _ step => step.1) _ _
      (runFor_run runs)⟩

/-- A context with a property can be found by running the transaction. -/
theorem exists_reached
    (tx : Transaction S) (count : Nat) (property : TxExecContext S → Prop)
    [DecidablePred property]
    (found : (tx.after count).any (fun reached => decide (property reached)) =
      true) :
    ∃ reached, tx.Reaches reached ∧ property reached := by
  obtain ⟨reached, run, holds⟩ := (Option.any_eq_true _ _).mp found
  exact ⟨reached, reaches_of_after run, of_decide_eq_true holds⟩

/-- A start with a property can be found by starting the transaction. -/
theorem exists_entered
    (tx : Transaction S) (property : TxExecContext S → Prop) [DecidablePred property]
    (found : tx.entry.any (fun entered => decide (property entered)) = true) :
    ∃ entered, tx.Enters entered ∧ property entered := by
  obtain ⟨entered, entry, holds⟩ := (Option.any_eq_true _ _).mp found
  exact ⟨entered, entry_eq_some.mp entry, of_decide_eq_true holds⟩

/-- An iteration with a property can be found by running the transaction up to it. -/
theorem exists_step
    (tx : Transaction S) (count : Nat)
    (property : TxExecContext S → TxExecContext S → Prop)
    [∀ before after, Decidable (property before after)]
    (found : (tx.after count).any (fun before =>
      (stepOnce before).any fun after => decide (property before after)) = true) :
    ∃ before after, tx.Reaches before ∧ Step before after ∧ property before after := by
  obtain ⟨before, run, found⟩ := (Option.any_eq_true _ _).mp found
  obtain ⟨after, step, holds⟩ := (Option.any_eq_true _ _).mp found
  exact ⟨before, after, reaches_of_after run, stepOnce_eq_some.mp step,
    of_decide_eq_true holds⟩

/-- The contexts around a frame: before the iteration that pushes it, after that
iteration, before the iteration that ends it, and after that iteration. -/
structure FrameRun (S : Type) where
  calling : TxExecContext S
  pushed : TxExecContext S
  ending : TxExecContext S
  resumed : TxExecContext S

/-- Follow the frame that a transaction pushes after a number of iterations, and
that ends after a further number of them. -/
def follow (tx : Transaction S) (calls runs : Nat) : Option (FrameRun S) := do
  let calling ← tx.after calls
  let pushed ← stepOnce calling
  let ending ← runFor
    (fun context => decide (calling.callStack.length < context.callStack.length))
    runs pushed
  let resumed ← stepOnce ending
  if pushed.callStack.length = calling.callStack.length + 1 ∧
      resumed.callStack.length = calling.callStack.length then
    some ⟨calling, pushed, ending, resumed⟩
  else
    none

/-- A frame that is followed is reached, and its caller is resumed. -/
theorem follow_eq_some
    {tx : Transaction S} {calls runs : Nat} {run : FrameRun S}
    (follows : tx.follow calls runs = some run) :
    tx.Reaches run.calling ∧
      Resumption run.calling run.pushed run.ending run.resumed := by
  simp only [follow, Option.bind_eq_bind, Option.bind_eq_some_iff] at follows
  obtain ⟨calling, reached, pushed, opens, ending, inside, resumed, step, found⟩ :=
    follows
  split at found
  · rename_i depths
    obtain rfl := Option.some.inj found
    exact ⟨reaches_of_after reached,
      ⟨stepOnce_eq_some.mp opens, depths.1⟩, runFor_inside inside,
      stepOnce_eq_some.mp step, depths.2⟩
  · contradiction

/-- A frame with a property can be found by following it. -/
theorem exists_resumption
    (tx : Transaction S) (calls runs : Nat) (property : FrameRun S → Prop)
    [DecidablePred property]
    (found : (tx.follow calls runs).any (fun run => decide (property run)) = true) :
    ∃ run : FrameRun S, tx.Reaches run.calling ∧
      Resumption run.calling run.pushed run.ending run.resumed ∧
      property run := by
  obtain ⟨run, follows, holds⟩ := (Option.any_eq_true _ _).mp found
  obtain ⟨reached, resumption⟩ := follow_eq_some follows
  exact ⟨run, reached, resumption, of_decide_eq_true holds⟩

end Transaction

/-! ### Data for concrete transactions -/

namespace Sample

/-- The digests of a table.  Programs that hash nothing else see them. -/
@[reducible] def keccak (table : List (Bytes × Hash)) : Keccak256 where
  digest bytes := (table.lookup bytes).getD 0

/-- The environment of a block of a fork, without precompiled contracts. -/
def env (fork : Fork) : TxExecEnv where
  chainId := 1
  block :=
    { coinbase := 0
      timestamp := 0
      number := 1
      difficulty := 0
      gasLimit := 30000000
      baseFee := 0
      fork := fork }
  precompiledContracts := ∅
  blockHashGetter _ := 0

end Sample
end Qevm
