import Qevm.Core.Transaction

/-!
# The self-destructed accounts

The set of self-destructed accounts only changes when `SELFDESTRUCT` is executed
by a frame that may write: the executing contract is added to it.  Ending frames
leaves the set alone, whether or not their effects are undone.
-/

set_option synthInstance.maxSize 100000

namespace Qevm

open Params WorldState TxExecContext

variable {S : Type}

/-- The set of self-destructed accounts is kept. -/
def TxExecContext.KeepsDestroyed (before after : TxExecContext S) : Prop :=
  after.destroyed = before.destroyed

/-- An instruction of a frame that may write marks the executing contract. -/
def TxExecContext.Destroys (inst : Inst) (before after : TxExecContext S) : Prop :=
  inst.opcode = .selfDestruct ∧ before.curCall.readOnly = false ∧
    after.destroyed = before.destroyed.insert before.curCall.callee

namespace Exec

instance : IsPreorder (TxExecContext S) KeepsDestroyed where
  refl _ := rfl
  trans _ _ _ left right := Eq.trans right left

instance (priority := low) keepsDestroyed_of_stays
    (program : Exec S α) [stays : Procedure.Moves Stays program] :
    Procedure.Moves KeepsDestroyed program :=
  stays.mono fun _ _ work => work.destroyed

instance (priority := low) keepsDestroyed_of_continues
    (program : Exec S α) [continues : Procedure.Moves Continues program] :
    Procedure.Moves KeepsDestroyed program :=
  continues.mono fun _ _ work => work.destroyed

variable [WorldState S] [Keccak256] {before after : TxExecContext S}

/-- Only `SELFDESTRUCT` marks an account. -/
theorem keepsDestroyed_effect {inst : Inst}
    (other : inst.opcode ≠ .selfDestruct) :
    Procedure.Moves KeepsDestroyed (effect inst : Exec S (Tail S)) := by
  by_cases plain : inst.opcode.isPlain
  · have quiet : Procedure.Moves Quiet (effect inst : Exec S (Tail S)) :=
      quiet_effect plain
    infer_instance
  · obtain ⟨opcode, data, pos⟩ := inst
    cases opcode <;> simp only [Opcode.isPlain, not_true_eq_false] at plain <;>
      simp only [ne_eq, not_true_eq_false] at other <;>
      simp only [effect, dispatch, createBeginEffect, create2BeginEffect,
        callBeginEffect, callCodeBeginEffect, delegateCallBeginEffect,
        staticCallBeginEffect] <;>
      infer_instance

/-- Everything that `SELFDESTRUCT` does before it marks accounts. -/
def destroyUnmarked : Exec S (Addr × Addr) := do
  let call ← call
  Procedure.raiseIf call.readOnly .writeProtection
  let beneficiary := U256.toAddr (← consume1)
  let self ← Procedure.read
  Procedure.when
    (call.fork ≥ .berlin ∧ !self.accessList.containsAddr beneficiary) do
      addAddr beneficiary
      useGas gasColdAccountAccessCostBerlin
  Procedure.when (call.fork ≥ .tangerineWhistle)
    (useGasSelfDestruct call beneficiary)
  sweep call.callee beneficiary
  pure (call.callee, beneficiary)

/-- Mark the destroyed account, and that both accounts have changed. -/
def markDestruction (callee beneficiary : Addr) : Exec S Unit := do
  markDestroyed callee
  markDirty callee
  markDirty beneficiary

/-- The accounts are marked at the end. -/
theorem destroy_eq :
    (destroy : Exec S Unit) =
      destroyUnmarked >>= fun accounts =>
        markDestruction accounts.1 accounts.2 := by
  simp only [destroy, destroyUnmarked, markDestruction, Procedure.bind_assoc,
    Procedure.pure_bind]

instance stays_destroyUnmarked :
    Procedure.Moves Stays (destroyUnmarked : Exec S (Addr × Addr)) := by
  unfold destroyUnmarked useGasSelfDestruct sweep
  infer_instance

/-- A frame that is read-only destroys nothing, and another one its own
contract. -/
theorem destroyUnmarked_ok {accounts : Addr × Addr}
    (run : destroyUnmarked before = .ok accounts after) :
    before.curCall.readOnly = false ∧ accounts.1 = before.curCall.callee := by
  unfold destroyUnmarked at run
  replace run := Procedure.reads_bind_ok.mp run
  obtain ⟨_, _, checks, run⟩ := Procedure.bind_ok.mp run
  obtain ⟨writable, rfl⟩ := Procedure.raiseIf_ok.mp checks
  obtain ⟨_, popped, -, run⟩ := Procedure.bind_ok.mp run
  obtain ⟨_, _, -, run⟩ := Procedure.bind_ok.mp run
  obtain ⟨_, warm, -, run⟩ := Procedure.bind_ok.mp run
  obtain ⟨_, paid, -, run⟩ := Procedure.bind_ok.mp run
  obtain ⟨_, swept, -, run⟩ := Procedure.bind_ok.mp run
  obtain ⟨rfl, -⟩ := Outcome.ok.inj run
  exact ⟨by simpa using writable, rfl⟩

/-- What an instruction does to the set of self-destructed accounts. -/
theorem effect_destroyed (inst : Inst) (before : TxExecContext S) :
    Procedure.wp (effect inst)
      (fun _ after => before.KeepsDestroyed after ∨ before.Destroys inst after)
      (fun _ after => before.KeepsDestroyed after) before := by
  by_cases destroys : inst.opcode = .selfDestruct
  · obtain ⟨opcode, data, pos⟩ := inst
    obtain rfl : opcode = .selfDestruct := destroys
    simp only [effect, destroy_eq, Procedure.bind_assoc]
    refine Procedure.wp_of_run (fun tail after run => .inr ?_)
      (fun err after run => ?_)
    · obtain ⟨accounts, swept, unmarked, run⟩ := Procedure.bind_ok.mp run
      obtain ⟨-, rfl⟩ := Outcome.ok.inj run
      obtain ⟨writable, callee⟩ := destroyUnmarked_ok unmarked
      have stays : before.Stays swept := Procedure.Moves.ok unmarked
      refine ⟨rfl, writable, ?_⟩
      rw [← callee, ← stays.destroyed]
    · obtain raised | ⟨accounts, swept, unmarked, run⟩ :=
        Procedure.bind_error.mp run
      · have stays : before.Stays after := Procedure.Moves.error raised
        exact stays.destroyed
      · contradiction
  · have keeps : Procedure.Moves KeepsDestroyed (effect inst : Exec S _) :=
      keepsDestroyed_effect destroys
    exact Procedure.wp_mono (keeps.holds before) (fun _ _ => .inl)
      (fun _ _ kept => kept)

theorem effect_ok_destroyed {inst : Inst} {tail : Tail S}
    (run : effect inst before = .ok tail after) :
    before.KeepsDestroyed after ∨ before.Destroys inst after := by
  have marks := effect_destroyed inst before
  unfold Procedure.wp at marks
  rwa [run] at marks

theorem effect_error_destroyed {inst : Inst} {err : ExecError}
    (run : (effect inst : Exec S (Tail S)) before = .error err after) :
    before.KeepsDestroyed after := by
  have marks := effect_destroyed inst before
  unfold Procedure.wp at marks
  rwa [run] at marks

/-- Only the part of an instruction before its last action marks accounts. -/
def Marked (inst : Inst) (before after : TxExecContext S) : Prop :=
  ∃ working : TxExecContext S, after.destroyed = working.destroyed ∧
    ((∃ tail, effect inst before = .ok tail working) ∨
      ∃ err, effect inst before = .error err working)

theorem Marked.trans {inst : Inst} {last : TxExecContext S}
    (marked : Marked inst before after) (kept : last.destroyed = after.destroyed) :
    Marked inst before last := by
  obtain ⟨working, same, runs⟩ := marked
  exact ⟨working, kept.trans same, runs⟩

/-- A marking instruction marks at most the executing contract. -/
theorem Marked.cases {inst : Inst} (marked : Marked inst before after) :
    before.KeepsDestroyed after ∨ before.Destroys inst after := by
  obtain ⟨working, same, ⟨tail, run⟩ | ⟨err, run⟩⟩ := marked
  · obtain kept | ⟨destroys, writable, added⟩ := effect_ok_destroyed run
    · exact .inl (same.trans kept)
    · exact .inr ⟨destroys, writable, same.trans added⟩
  · exact .inl (same.trans (effect_error_destroyed run))

/-- Nothing is marked unless `SELFDESTRUCT` is carried out. -/
theorem Marked.keeps {inst : Inst} (marked : Marked inst before after)
    (idle : inst.opcode = .selfDestruct →
      ∀ tail working, effect inst before ≠ .ok tail working) :
    before.KeepsDestroyed after := by
  obtain ⟨working, same, ⟨tail, run⟩ | ⟨err, run⟩⟩ := marked
  · have other : inst.opcode ≠ .selfDestruct := fun destroys =>
      idle destroys tail working run
    have keeps : Procedure.Moves KeepsDestroyed (effect inst : Exec S _) :=
      keepsDestroyed_effect other
    have kept : before.KeepsDestroyed working := keeps.ok run
    exact same.trans kept
  · exact same.trans (effect_error_destroyed run)

/-- Ending frames marks no account but the one that the instruction does. -/
theorem Ends.marked
    {data : Bytes} {err : Result} {inst : Inst} (fetches : Fetches before inst)
    (ends : Ends before after data err) : Marked inst before after := by
  induction ends with
  | instruction found runs =>
      obtain rfl := Option.some.inj (fetches.symm.trans found)
      exact ⟨_, rfl, .inl ⟨_, runs⟩⟩
  | raised found raises =>
      obtain rfl := Option.some.inj (fetches.symm.trans found)
      obtain raises | ⟨args, ret, gas, result, working, moved, runs, ended, rfl⟩ |
        ⟨working, data, result, runs, raises⟩ := dispatch_error raises
      · exact ⟨_, rfl, .inr ⟨_, raises⟩⟩
      · have settles : working.Settles moved := Procedure.Moves.error ended
        exact ⟨working, settles.destroyed, .inl ⟨_, runs⟩⟩
      · obtain ⟨frame, callStack, -, settles⟩ := finishCall_error_settles raises
        exact ⟨working, settles.destroyed, .inl ⟨_, runs⟩⟩
  | unwound ends raises inductionHypothesis =>
      obtain ⟨frame, callStack, -, settles⟩ := finishCall_error_settles raises
      exact inductionHypothesis.trans settles.destroyed

theorem Ends.destroyed
    {data : Bytes} {err : Result} {inst : Inst} (fetches : Fetches before inst)
    (ends : Ends before after data err) :
    before.KeepsDestroyed after ∨ before.Destroys inst after :=
  (ends.marked fetches).cases

end Exec

open Exec

variable [WorldState S] [Keccak256] {before after : TxExecContext S}

/-- An iteration that does not finish the transaction marks accounts only before
the last action of its instruction. -/
theorem Step.marked
    {inst : Inst} (step : Step before after) (fetches : Fetches before inst)
    (suspended : after.callStack ≠ []) : Marked inst before after := by
  obtain ⟨found, foundFetches, continues | enters | settled | ended⟩ := step.cases
  all_goals obtain rfl := Option.some.inj (fetches.symm.trans foundFetches)
  · obtain ⟨working, effected, rfl⟩ := continues
    exact ⟨working, rfl, .inl ⟨_, effected⟩⟩
  · obtain ⟨code, input, value, callee, caller, callType, gas, readOnly, working,
      effected, run⟩ := enters
    rw [callPush_ok run]
    exact ⟨working, rfl, .inl ⟨_, effected⟩⟩
  · obtain ⟨args, ret, gas, err, working, moved, effected, ended, rfl⟩ := settled
    have settles : working.Settles moved := Procedure.Moves.ok ended
    exact ⟨working, settles.destroyed, .inl ⟨_, effected⟩⟩
  · obtain ⟨ending, data, err, settled, ends, finished, rfl⟩ := ended
    obtain ⟨frame, callStack, -, settles⟩ :=
      finishCall_ok_settles finished suspended
    exact (ends.marked fetches).trans settles.destroyed

/-- An iteration that does not finish the transaction marks at most the executing
contract, by `SELFDESTRUCT`. -/
theorem Step.destroyed
    {inst : Inst} (step : Step before after) (fetches : Fetches before inst)
    (suspended : after.callStack ≠ []) :
    before.KeepsDestroyed after ∨ before.Destroys inst after :=
  (step.marked fetches suspended).cases

/-- An iteration of a read-only frame marks no account. -/
theorem Step.keepsDestroyed
    (step : Step before after) (frozen : before.curCall.readOnly = true)
    (suspended : after.callStack ≠ []) : after.destroyed = before.destroyed := by
  obtain ⟨inst, fetches, -⟩ := step.cases
  obtain kept | ⟨-, writable, -⟩ := step.destroyed fetches suspended
  · exact kept
  · rw [frozen] at writable
    contradiction

end Qevm
