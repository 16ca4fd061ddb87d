import Qevm.Core.Destroyed
import Qevm.Laws.FailedCall

/-!
# Read-only execution changes nothing

A frame that `STATICCALL` pushes is read-only, and so is every frame above it.
None of them writes what can be read from the world state or marks an account as
destroyed, and none goes back to another world state.
-/

namespace Qevm

open WorldState Exec TxExecContext

section Law

variable {S : Type} [WorldState S] [Keccak256]

namespace Exec

/-- `STATICCALL` takes no snapshot. -/
theorem staticCall_unsaved
    {inst : Inst} {tail : Tail S} {before after : TxExecContext S}
    (static : inst.opcode = .staticCall)
    (run : effect inst before = .ok tail after) :
    ∃ args, tail.callType = some (.call args) ∧ args.snapshot = none := by
  obtain ⟨opcode, data, pos⟩ := inst
  obtain rfl : opcode = .staticCall := static
  simp only [effect, staticCallBeginEffect] at run
  obtain ⟨request, paid, -, run⟩ := Procedure.bind_ok.mp run
  replace run := Procedure.reads_bind_ok.mp run
  obtain ⟨rfl, callType, -⟩ := enterEffect_ok run
  exact ⟨_, callType, rfl⟩

end Exec

variable [LawfulWorldState S]

/-- A run above frozen frames marks no account as destroyed. -/
theorem Inside.keepsDestroyed
    {seen : View} {depth : Nat} {before after : TxExecContext S}
    (inside : Inside depth before after)
    (frozen : before.Frozen seen (depth + 1))
    (deep : depth + 1 ≤ before.callStack.length) :
    after.destroyed = before.destroyed := by
  induction inside with
  | refl => rfl
  | tail inside step inductionHypothesis =>
      obtain ⟨middle, deepMiddle⟩ := Inside.frozen inside frozen deep
      have suspended : _ ≠ [] :=
        List.ne_nil_of_length_pos (Nat.zero_lt_of_lt step.2)
      rw [← inductionHypothesis]
      exact step.1.keepsDestroyed (middle.frames.executing deepMiddle).1 suspended

/-- From the moment `STATICCALL` pushes a frame until that frame has ended, nothing
that can be read from the world state changes, and no account is marked as
destroyed. -/
theorem static_call_changes_nothing
    {calling pushed running : TxExecContext S} {inst : Inst}
    (fetches : Fetches calling inst) (static : inst.opcode = .staticCall)
    (opens : Opens calling pushed)
    (inside : Inside calling.callStack.length pushed running) :
    (view running.state = view pushed.state ∧
        running.destroyed = pushed.destroyed) ∧
      ∀ resumed, Step running resumed →
        resumed.callStack.length = calling.callStack.length →
        view resumed.state = view pushed.state ∧
          resumed.destroyed = pushed.destroyed := by
  obtain ⟨args, callType, unsaved⟩ : ∃ args,
      pushed.curCall.callType = .call args ∧ args.snapshot = none := by
    obtain ⟨found, _, _, _, _, _, _, _, _, _, foundFetches, -, effected, -, rfl⟩ :=
      opens.cases
    obtain rfl : found = inst := Option.some.inj (foundFetches.symm.trans fetches)
    obtain ⟨args, opened, unsaved⟩ := staticCall_unsaved static effected
    exact ⟨args, Option.some.inj opened, unsaved⟩
  have call : inst.opcode.isMessageCall = true := by rw [static]; rfl
  have deep : calling.callStack.length + 1 ≤ pushed.callStack.length :=
    Nat.le_of_eq opens.2.symm
  have frozen := opens.frozen fetches call callType unsaved
  obtain ⟨runningFrozen, runningDeep⟩ := inside.frozen frozen deep
  have kept : view running.state = view pushed.state :=
    runningFrozen.view.trans frozen.view.symm
  have marks : running.destroyed = pushed.destroyed :=
    inside.keepsDestroyed frozen deep
  refine ⟨⟨kept, marks⟩, fun resumed step depth => ?_⟩
  have resumption : Resumption calling pushed running resumed :=
    ⟨opens, inside, step, depth⟩
  obtain ⟨final, data, err, completion⟩ := resumption.completion
  obtain ⟨last, waiting, settled, ended, -, settles, rfl⟩ := completion.settled
  rw [callType] at settles
  have settles : callEnd args data final.curCall.unusedGas err
      { final with callStack := calling.callStack, curCall := waiting } =
        .ok () settled := settles
  have finalDeep : calling.callStack.length + 1 ≤ final.callStack.length := by
    rw [completion.callStack]
    exact deep
  constructor
  · have ending : view final.state = view calling.state :=
      (runningFrozen.ended completion.ends runningDeep finalDeep).view
    change view settled.state = _
    rw [callEnd_state settles, unsaved, frozen.view, ← ending]
    unfold returnedState
    split <;> rfl
  · have moved : Settles _ settled := Procedure.Moves.ok settles
    change settled.destroyed = _
    obtain same | ⟨-, writable, -⟩ := completion.ends.destroyed ended
    · exact moved.destroyed.trans (same.trans marks)
    · rw [(runningFrozen.frames.executing runningDeep).1] at writable
      contradiction

end Law

namespace Sample

/-- Calls the account `0xbb` without permission to write. -/
def staticCallingCode : Bytes :=
  [0x60, 0x00, 0x60, 0x00, 0x60, 0x00, 0x60, 0x00, 0x60, 0xbb, 0x61, 0xff, 0xff,
    0xfa, 0x00]

/-- Writes a word to its storage. -/
def storingCode : Bytes := [0x60, 0x01, 0x60, 0x00, 0x55]

/-- The digests that the transaction of this module looks at. -/
@[reducible] def staticKeccak : Keccak256 := keccak
  [([], 0xc5d2460186f7233c927e7db2dcc703c0e500b653ca82273b7bfad8045d85a470),
    (staticCallingCode,
      0xf31a123558d875ab6fbe3ecf99b7d4f81f3b458338760e252e7a213a0f491dac),
    (storingCode,
      0x7efcce47028dabcb0d42f3a7eda8820bf6f7f4e618398c2547d52f703cafb073)]

/-- A transaction to an account that calls one that wants to write. -/
def staticCallingTx : Transaction DummyStateStore :=
  letI := staticKeccak
  { callingTx [] with
    state := (DummyStateStore.new.setCode 0xaa staticCallingCode).setCode 0xbb
      storingCode }

end Sample

/-- A read-only frame that comes to its `SSTORE` has not written. -/
theorem static_call_stops_a_write :
    letI := Sample.staticKeccak
    ∃ calling pushed running resumed : TxExecContext DummyStateStore,
      Sample.staticCallingTx.Reaches calling ∧
        Resumption calling pushed running resumed ∧
        Fetches running ⟨.sstore, none, 0⟩ ∧
        view resumed.state = view pushed.state ∧
        resumed.destroyed = pushed.destroyed := by
  let := Sample.staticKeccak
  obtain ⟨run, reached, resumption, fetches, stores⟩ :=
    Sample.staticCallingTx.exists_resumption 6 2
      (fun run => Fetches run.calling ⟨.staticCall, none, 0⟩ ∧
        Fetches run.ending ⟨.sstore, none, 0⟩)
      (by decide +kernel)
  obtain ⟨kept, marks⟩ := (static_call_changes_nothing fetches rfl
    resumption.opens resumption.inside).2 _ resumption.step resumption.depth
  exact ⟨run.calling, run.pushed, run.ending, run.resumed, reached, resumption,
    stores, kept, marks⟩

end Qevm
