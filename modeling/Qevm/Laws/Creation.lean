import Qevm.Core.Creations
import Qevm.Core.Run
import Qevm.State.Dummy

/-!
# The outcome of a contract creation

A creation that ends in accepted code installs it and pushes its address.  Every
other end should push zero and leave nothing but the nonce of the creator; the
interpreter takes its snapshot before it counts the nonce up, loses the failure
of the initialization code on the way to the stack, and does not go back when
the code is rejected.
-/

namespace Qevm

open Params WorldState Exec TxExecContext

section Law

variable {S : Type} [WorldState S] [Keccak256] [LawfulWorldState S]

/-- What a creation is to leave when it ends in `data` and `err`, given whether
the code is accepted. -/
structure CreationOutcome
    (calling resumed : TxExecContext S) (contract : Addr)
    (data : Bytes) (err : Result) (accepted : Prop) : Prop where
  /-- Accepted code is installed at the address that is pushed. -/
  installed : err = .ok () → accepted →
    resumed.curCall.stack.peek = some contract.toU256 ∧
      (view resumed.state).code contract = data ∧
      resumed.curCall.lastReturned = []
  /-- Otherwise only the nonce of the creator is left. -/
  failed : ¬(err = .ok () ∧ accepted) →
    resumed.curCall.stack.peek = some 0 ∧
      view resumed.state =
        (view calling.state).setNonce calling.curCall.callee
          ((view calling.state).nonce calling.curCall.callee + 1) ∧
      resumed.curCall.lastReturned =
        if err = .error .reverted then data else []

/-- An initialization that ends is settled in the frame of its creator. -/
theorem creation_completes
    {calling pushed ending final : TxExecContext S} {inst : Inst}
    {creator : CallFrame S} {data : Bytes} {err : Result}
    (fetches : Fetches calling inst) (creation : inst.opcode.isCreation)
    (opens : Opens calling pushed)
    (waiting : pushed.callStack = creator :: calling.callStack)
    (inside : Inside calling.callStack.length pushed ending)
    (ends : Ends ending final data err)
    (depth : final.callStack.length = pushed.callStack.length) :
    ∃ saved resumed, view saved = view calling.state ∧
      pushed.curCall.callType = .create ⟨saved, pushed.curCall.callee⟩ ∧
      Completion calling pushed ending resumed final data err ∧
      resumed.curCall.stack.peek =
        some (createdWord ⟨saved, pushed.curCall.callee⟩ data err creator) ∧
      resumed.curCall.lastReturned = [] ∧
      resumed.state = createdState ⟨saved, pushed.curCall.callee⟩ data err
        creator final.state := by
  obtain ⟨found, code, input, value, callee, caller, callType, gas, readOnly,
    working, foundFetches, -, effected, stays, rfl⟩ := opens.cases
  obtain rfl : found = inst := Option.some.inj (foundFetches.symm.trans fetches)
  obtain ⟨_, _, _, saved, contract, enters, same, room⟩ :=
    creation_effect creation effected
  obtain ⟨rfl, rfl, rfl, rfl, rfl, rfl, rfl, rfl⟩ := Tail.enter.inj enters
  obtain ⟨rfl, -⟩ := List.cons.inj waiting
  obtain ⟨settled, settles, word, returned, state⟩ :=
    createEnd_total ⟨saved, callee⟩ data final.curCall.unusedGas err
      { final with
        callStack := calling.callStack, curCall := working.curCall } room
  obtain ⟨last, completion⟩ := opens.completes inside ends depth waiting settles
  refine ⟨saved, advanced last settled, same, rfl, completion, ?_, ?_, state⟩
  · rw [advanced_stack]
    exact word
  · rw [advanced_lastReturned]
    exact returned

/-- A creation that fails does not leave what it is to leave: going back to its
snapshot forgets the nonce. -/
theorem CreationOutcome.not_error
    {calling resumed : TxExecContext S} {contract : Addr} {data : Bytes}
    {err : ExecError} {accepted : Prop}
    (same : view resumed.state = view calling.state) :
    ¬CreationOutcome calling resumed contract data (.error err) accepted := by
  intro outcome
  have left := (outcome.failed (by simp)).2.1
  rw [same] at left
  exact View.setNonce_succ_ne _ _ left

/-- An initialization that ends leaves what it is to leave exactly when it ends
without an error and its code is accepted, or there is nothing but the nonce of
the creator to be left. -/
theorem creation_outcome_iff
    {calling pushed ending final : TxExecContext S} {inst : Inst}
    {creator : CallFrame S} {data : Bytes} {err : Result}
    (fetches : Fetches calling inst) (creation : inst.opcode.isCreation)
    (opens : Opens calling pushed)
    (waiting : pushed.callStack = creator :: calling.callStack)
    (inside : Inside calling.callStack.length pushed ending)
    (ends : Ends ending final data err)
    (depth : final.callStack.length = pushed.callStack.length) :
    ∃ resumed, Completion calling pushed ending resumed final data err ∧
      (CreationOutcome calling resumed pushed.curCall.callee data err
          (creator.Accepts data) ↔
        err = .ok () ∧
          (creator.Accepts data ∨
            view final.state =
              (view calling.state).setNonce calling.curCall.callee
                ((view calling.state).nonce calling.curCall.callee + 1))) := by
  obtain ⟨saved, resumed, same, -, completion, word, returned, state⟩ :=
    creation_completes fetches creation opens waiting inside ends depth
  refine ⟨resumed, completion, ?_⟩
  simp only [createdWord, createdState] at word state
  cases err with
  | error err =>
      simp only [reduceCtorEq, false_and, iff_false]
      apply CreationOutcome.not_error
      rw [state, LawfulWorldState.view_rollback, same]
  | ok _ =>
      simp only [true_and]
      by_cases accepts : creator.Accepts data
      · simp only [accepts, true_or, iff_true]
        simp only [accepts, if_true, not_true_eq_false, and_false, if_false]
          at word state
        refine ⟨fun _ _ => ⟨word, ?_, returned⟩,
          fun failed => absurd ⟨rfl, trivial⟩ failed⟩
        rw [state, LawfulWorldState.view_setCode]
        exact Function.update_self _ _ _
      · simp only [accepts, false_or]
        simp only [accepts, if_false, not_false_eq_true, and_self, if_true]
          at word state
        constructor
        · intro outcome
          have left := (outcome.failed (by simp)).2.1
          rwa [state] at left
        · intro left
          refine ⟨fun _ impossible => impossible.elim,
            fun _ => ⟨word, by rwa [state], ?_⟩⟩
          rw [returned]
          simp

end Law
namespace Sample

/-- Creates a contract whose initialization code is one byte. -/
def creatingCode (init : UInt8) : Bytes :=
  [0x60, init, 0x60, 0x00, 0x53, 0x60, 0x01, 0x60, 0x00, 0x60, 0x00, 0xf0, 0x00]

/-- The digests that the transactions of this module look at. -/
@[reducible] def creationKeccak : Keccak256 := keccak
  [([], 0xc5d2460186f7233c927e7db2dcc703c0e500b653ca82273b7bfad8045d85a470),
    (creatingCode 0x00,
      0xbcd039f53b6b4cf3f8c81f90d292ec5168ba9a2be4aaa4f6dd3b55d411b1b9d6),
    (creatingCode 0xfe,
      0x7c1f500f31eb5eb47126465b656083ff740940bc7d6887daf34edf22cc8f5d4b),
    ([0x00], 0xbc36789e7a1e281436464229828f817d6612f7b477d66591ff96a9e064bcc98a),
    ([0xfe], 0xbcc90f2d6dada5b18e155c17a1c0a55920aae94f39857d39d0d8ed07ae8f228b),
    (Rlp.encodeList [Rlp.encodeBytes (Addr.asBytes 0xaa), Rlp.encodeNat 0],
      0xd68d495fb2fa5bb7374a515845eb6484d76cfe3f45708b91f5af8ce495134fac)]

/-- A transaction to an account that creates a contract. -/
def creatingTx (init : UInt8) : Transaction DummyStateStore :=
  letI := creationKeccak
  let state := DummyStateStore.new.setCode 0xaa (creatingCode init)
  { sender := 1
    recipient := some 0xaa
    value := 0
    gas := 1000000
    gasPrice := 0
    input := []
    accessList := none
    state := state
    committedState := state
    env := env .london }

end Sample

/-- The contract of the sample is initialized, by a code of one instruction. -/
theorem creatingTx_initializes
    (init : UInt8) (last : Inst)
    (property : CallFrame DummyStateStore → TxExecContext DummyStateStore → Prop)
    [∀ creator ending, Decidable (property creator ending)]
    (found : letI := Sample.creationKeccak
      ((Sample.creatingTx init).follow 6 0).any (fun run => decide
        (Fetches run.calling ⟨.create, none, 0⟩ ∧ Fetches run.ending last ∧
          run.ending.callStack.length = run.pushed.callStack.length ∧
          run.pushed.callStack.head?.any (fun creator =>
            decide (property creator run.ending)) = true)) = true) :
    letI := Sample.creationKeccak
    ∃ (run : Transaction.FrameRun DummyStateStore) (creator : CallFrame DummyStateStore),
      (Sample.creatingTx init).Reaches run.calling ∧
        Resumption run.calling run.pushed run.ending run.resumed ∧
        Fetches run.calling ⟨.create, none, 0⟩ ∧ Fetches run.ending last ∧
        run.ending.callStack.length = run.pushed.callStack.length ∧
        run.pushed.callStack = creator :: run.calling.callStack ∧
        property creator run.ending := by
  let := Sample.creationKeccak
  obtain ⟨run, reached, resumption, fetches, ends, depth, holds⟩ :=
    (Sample.creatingTx init).exists_resumption 6 0 _ found
  obtain ⟨creator, waiting, -⟩ := resumption.opens.waits
  refine ⟨run, creator, reached, resumption, fetches, ends, depth, waiting, ?_⟩
  simpa [waiting] using holds

/-- An initialization that stops installs the empty code. -/
theorem stopped_creation_is_installed :
    letI := Sample.creationKeccak
    ∃ calling pushed resumed : TxExecContext DummyStateStore,
      (Sample.creatingTx 0x00).Reaches calling ∧
        Fetches calling ⟨.create, none, 0⟩ ∧ Opens calling pushed ∧
        CreationOutcome calling resumed pushed.curCall.callee [] (.ok ())
          True := by
  let := Sample.creationKeccak
  obtain ⟨run, creator, reached, resumption, fetches, stops, depth, waiting, accepted⟩ :=
    creatingTx_initializes 0x00 ⟨.stop, none, 0⟩ (fun creator _ => creator.Accepts [])
      (by decide +kernel)
  obtain ⟨resumed, -, outcome⟩ := creation_outcome_iff fetches rfl
    resumption.opens waiting resumption.inside (.instruction stops rfl) depth
  refine ⟨run.calling, run.pushed, resumed, reached, fetches, resumption.opens, ?_⟩
  have holds := outcome.mpr ⟨rfl, .inl accepted⟩
  rwa [eq_true accepted] at holds

/-- An initialization that fails leaves the address of the contract on the
stack and takes the nonce of its creator back. -/
theorem failed_creation_pushes_the_address :
    letI := Sample.creationKeccak
    ∃ (calling pushed ending resumed final : TxExecContext DummyStateStore)
      (creator : CallFrame DummyStateStore),
      (Sample.creatingTx 0xfe).Reaches calling ∧
        Fetches calling ⟨.create, none, 0⟩ ∧
        pushed.callStack = creator :: calling.callStack ∧
        Completion calling pushed ending resumed final []
          (.error .invalidOpcode) ∧
        ¬CreationOutcome calling resumed pushed.curCall.callee []
          (.error .invalidOpcode) (creator.Accepts []) := by
  let := Sample.creationKeccak
  obtain ⟨run, creator, reached, resumption, fetches, fails, depth, waiting, -⟩ :=
    creatingTx_initializes 0xfe ⟨.invalid, none, 0⟩ (fun _ _ => True) (by decide +kernel)
  obtain ⟨saved, resumed, same, -, completion, word, returned, state⟩ :=
    creation_completes fetches rfl resumption.opens waiting resumption.inside
      (.raised fails rfl) depth
  refine ⟨run.calling, run.pushed, run.ending, resumed, _, creator, reached,
    fetches, waiting, completion, ?_⟩
  apply CreationOutcome.not_error
  rw [state, createdState, LawfulWorldState.view_rollback, same]

end Qevm
