import Qevm.Core.Creations
import Qevm.Core.Run
import Qevm.State.Dummy

/-!
# Transactions take place or do not

A transaction whose top-level frame fails should leave nothing but the nonce of
its sender.  A message call does.  A contract creation takes its snapshot before
the nonce is counted up, and forgets the failure of its initialization code.
-/

namespace Qevm

open Params WorldState Exec TxExecContext

section Law

variable {S : Type} [WorldState S] [Keccak256] [LawfulWorldState S]

/-! ### What the top-level frame keeps -/

/-- A message call keeps the world state after the nonce has been counted up, a
creation the one before. -/
def Transaction.Keeps (tx : Transaction S) (args : TxArgs S) : Prop :=
  match tx.recipient with
  | some _ =>
      args.aux = .sender tx.sender ∧
        view args.snapshot = (view tx.state).setNonce tx.sender
          ((view tx.state).nonce tx.sender + 1)
  | none =>
      (∃ addr, args.aux = .contract addr) ∧ view args.snapshot = view tx.state

namespace Transaction

variable {tx : Transaction S}

/-- The start of a transaction keeps it in its top-level frame. -/
theorem startEffect_keeps
    {initial working : TxExecContext S} {tail : Tail S} {args : TxArgs S}
    (state : initial.state = tx.state)
    (run : tx.startEffect initial = .ok tail working)
    (opens : tail.callType = some (.tx args)) : tx.Keeps args := by
  unfold startEffect at run
  unfold Keeps
  cases recipient : tx.recipient with
  | some recipient =>
      simp only [recipient, startCallEffect] at run
      replace run := Procedure.reads_bind_ok.mp run
      obtain ⟨_, counted, writes, run⟩ := Procedure.bind_ok.mp run
      obtain ⟨-, rfl⟩ := Outcome.ok.inj writes
      obtain ⟨saved, snapped, snaps, run⟩ := Procedure.bind_ok.mp run
      have kept := (callType_callEffect _ _ _ _ _ _).holds run
      rw [opens] at kept
      obtain ⟨⟩ := kept
      refine ⟨rfl, ?_⟩
      rw [(takeSnapshot_ok snaps).1]
      simp only [LawfulWorldState.view_setNonce, state,
        LawfulWorldState.nonce_view]
  | none =>
      simp only [recipient, startCreateEffect] at run
      obtain ⟨saved, snapped, snaps, run⟩ := Procedure.bind_ok.mp run
      replace run := Procedure.reads_bind_ok.mp run
      have kept := (callType_createEffect _ _ _ _ _ _).holds run
      rw [opens] at kept
      obtain ⟨⟩ := kept
      refine ⟨⟨_, rfl⟩, ?_⟩
      rw [(takeSnapshot_ok snaps).1, state]

/-- A running transaction carries its top-level frame. -/
theorem Reaches.carries {reached : TxExecContext S}
    (reaches : tx.Reaches reached) (running : reached.status = .running) :
    ∃ args, tx.Keeps args ∧ reached.Carries args := by
  refine reaches.while_running ?_ ?_ running
  · intro entered enters running
    obtain ⟨initial, code, input, value, callee, caller, args, readOnly, working, context,
      effected, -, -, rfl⟩ := enters.pushed running
    obtain ⟨accessList, rfl⟩ := context_eq_some context
    exact ⟨args, startEffect_keeps rfl effected rfl, CallFrame.new code input value callee
      caller (.tx args) tx.executionGas (working.curCall.readOnly || readOnly)
      working.env.block.fork, working.curCall, rfl, Rooted.executing _⟩
  · intro before after _ carried step running
    obtain ⟨args, keeps, inside⟩ := carried
    obtain inside | ⟨data, err, ending, bottom, finishes⟩ := step.carries inside
    · exact ⟨args, keeps, inside⟩
    · exact absurd running finishes.not_running

end Transaction

/-! ### The law -/

/-- What a transaction is to leave when its top-level frame ends in `data` and
`err`, given whether code that it returns is accepted. -/
structure Atomic
    (tx : Transaction S) (after : TxExecContext S) (data : Bytes) (err : Result)
    (accepted : Prop) : Prop where
  /-- Only the nonce of the sender is left by a failure. -/
  failed : err ≠ .ok () ∨ tx.recipient = none ∧ ¬accepted →
    (∃ returned gas raised,
      after.status = .finished (.reverted returned gas raised)) ∧
      view after.state =
        (view tx.state).setNonce tx.sender ((view tx.state).nonce tx.sender + 1)
  /-- A transaction succeeds only when its frame does, and a creation only when
  the code is installed at the address that it reports. -/
  succeeded : ∀ {returned gas contract},
    after.status = .finished (.succeeded returned gas contract) →
    err = .ok () ∧
      (tx.recipient = none → ∃ addr installed, contract = some addr ∧
        (view installed.state).code addr = data ∧
        after.state = (cleaned installed).state)

omit [Keccak256] [LawfulWorldState S] in
/-- The processing of the end of the top-level frame of a transaction. -/
theorem txResult_ok
    (args : TxArgs S) (data : Bytes) (err : Result) (before : TxExecContext S) :
    ∃ ret addr processed,
      txResult args data err before = .ok (ret, addr) processed ∧
      processed.status = before.status ∧
      match args.aux with
      | .sender _ => ret = err ∧ addr = none ∧ processed.state = before.state
      | .contract contract => addr = some contract ∧
          Processed contract data err before ret processed := by
  cases aux : args.aux with
  | sender addr =>
      refine ⟨err, none, { before with dirty := before.dirty.insert addr }, ?_, rfl,
        rfl, rfl, rfl⟩
      simp only [txResult, aux]
      rfl
  | contract contract =>
      obtain ⟨ret, after, run, done⟩ := processed contract data err before
      refine ⟨ret, some contract, after, ?_, done.settles.status, rfl, done⟩
      simp only [txResult, aux, bind, Procedure.bind, run]
      rfl

/-- What the iteration in which the top-level frame ends really leaves. -/
inductive TxOutcome
    (tx : Transaction S) (after : TxExecContext S) (data : Bytes) (err : Result)
    (accepted : Prop) : Prop
  /-- A message call succeeds or is rolled back. -/
  | called (calls : tx.recipient ≠ none) (gas : Gas)
      (status : after.status = .finished (finalResult data gas err none))
      (left : err ≠ .ok () → view after.state =
        (view tx.state).setNonce tx.sender
          ((view tx.state).nonce tx.sender + 1))
  /-- A creation succeeds, with its code or in spite of an error. -/
  | created (creates : tx.recipient = none) (gas : Gas) (contract : Addr)
      (installed : TxExecContext S) (accepts : err = .ok () → accepted)
      (status : after.status =
        .finished (.succeeded data gas (some contract)))
      (code : err = .ok () → (view installed.state).code contract = data)
      (left : after.state = (cleaned installed).state)
  /-- Code that is rejected takes everything back. -/
  | rejected (creates : tx.recipient = none) (ends : err = .ok ())
      (rejects : ¬accepted) (left : view after.state = view tx.state)

/-- The iteration in which the top-level frame ends settles it. -/
theorem Transaction.settles
    {tx : Transaction S} {before ending : TxExecContext S} {data : Bytes}
    {err : Result} (reaches : tx.Reaches before) (running : before.status = .running)
    (ends : Ends before ending data err) (depth : ending.callStack.length = 1) :
    ∃ args bottom ret addr processed after, tx.Keeps args ∧
      ending.callStack = [bottom] ∧ Step before after ∧
      txResult args data err { ending with callStack := [], curCall := bottom } =
        .ok (ret, addr) processed ∧
      after.state = finalState args ret (cleaned processed).state ∧
      after.status =
        .finished (finalResult data ending.curCall.unusedGas ret addr) := by
  obtain ⟨args, keeps, top, bottom, callType, rooted⟩ := reaches.carries running
  obtain ⟨below, same⟩ :=
    (ends.rooted rooted (Nat.le_of_eq depth.symm)).on_top depth
  obtain ⟨ret, addr, processed, result, status, -⟩ := txResult_ok args data err
    { ending with callStack := [], curCall := bottom }
  have settles := txEnd_processed ending.curCall.unusedGas rfl result
    (status.trans (ends.lasts.status.trans running))
  have finished := finishCall_cons data err below
  rw [same.callType, callType] at finished
  obtain ⟨inst, fetches, runs⟩ := ends.iterate (finished.trans settles)
  exact ⟨args, bottom, ret, addr, processed, _, keeps, below, ⟨running, runs⟩, result,
    rfl, rfl⟩

/-- The iteration in which the top-level frame ends finishes the transaction. -/
theorem Transaction.finishes
    {tx : Transaction S} {before ending : TxExecContext S} {data : Bytes}
    {err : Result} (reaches : tx.Reaches before) (running : before.status = .running)
    (ends : Ends before ending data err) (depth : ending.callStack.length = 1) :
    ∃ bottom after, ending.callStack = [bottom] ∧ Step before after ∧
      TxOutcome tx after data err (bottom.Accepts data) := by
  obtain ⟨args, bottom, ret, addr, processed, after, keeps, below, step, result,
    left, status⟩ := Transaction.settles reaches running ends depth
  obtain ⟨found, reported, reached, again, -, kind⟩ := txResult_ok args data err
    { ending with callStack := [], curCall := bottom }
  obtain ⟨same, rfl⟩ := Outcome.ok.inj (result.symm.trans again)
  obtain ⟨rfl, rfl⟩ := Prod.mk.inj same
  refine ⟨bottom, after, below, step, ?_⟩
  unfold Keeps at keeps
  cases recipient : tx.recipient with
  | some callee =>
      simp only [recipient] at keeps
      obtain ⟨aux, kept⟩ := keeps
      simp only [aux] at kind
      obtain ⟨rfl, rfl, -⟩ := kind
      refine .called (by simp [recipient]) _ status fun failed => ?_
      cases ret with
      | ok _ => exact absurd rfl failed
      | error err =>
          rw [left]
          exact (LawfulWorldState.view_rollback _ _).trans kept
  | none =>
      simp only [recipient] at keeps
      obtain ⟨⟨contract, aux⟩, kept⟩ := keeps
      simp only [aux] at kind
      obtain ⟨rfl, done⟩ := kind
      have isErr := done.isErr
      have state := done.state
      cases ret with
      | ok _ =>
          have accepts : err = .ok () → bottom.Accepts data := by
            intro ends
            by_contra rejects
            have failed := isErr.mpr ⟨ends, rejects⟩
            contradiction
          refine .created recipient _ contract processed accepts status ?_ left
          intro ends
          rw [state, if_pos ⟨ends, accepts ends⟩, LawfulWorldState.view_setCode]
          exact Function.update_self _ _ _
      | error raised =>
          obtain ⟨ends, rejects⟩ := isErr.mp rfl
          refine .rejected recipient ends rejects ?_
          rw [left]
          exact (LawfulWorldState.view_rollback _ _).trans kept

/-- A creation whose initialization fails does not leave what it is to leave. -/
theorem Atomic.not_error
    {tx : Transaction S} {after : TxExecContext S} {data : Bytes}
    {err : ExecError} {accepted : Prop} (creates : tx.recipient = none)
    (outcome : TxOutcome tx after data (.error err) accepted) :
    ¬Atomic tx after data (.error err) accepted := by
  intro atomic
  cases outcome with
  | called calls => exact calls creates
  | created _ gas contract installed accepts status code left =>
      have ends := (atomic.succeeded status).1
      contradiction
  | rejected _ ends rejects left => contradiction

end Law
namespace Sample

/-- The digests that the transactions of this module look at. -/
@[reducible] def atomicityKeccak : Keccak256 := keccak
  [([], 0xc5d2460186f7233c927e7db2dcc703c0e500b653ca82273b7bfad8045d85a470),
    ([0xfe], 0xbcc90f2d6dada5b18e155c17a1c0a55920aae94f39857d39d0d8ed07ae8f228b),
    (Rlp.encodeList [Rlp.encodeBytes (Addr.asBytes 1), Rlp.encodeNat 0],
      0x73b7d424508f37b9af400a5d522b3294e6d06aa25ad0f1b8891242e335d3b459)]

/-- A transaction that executes an invalid instruction: it calls the account
`0xaa`, or creates a contract. -/
def failingTx (recipient : Option Addr) : Transaction DummyStateStore :=
  letI := atomicityKeccak
  let state := DummyStateStore.new.setCode 0xaa [0xfe]
  { sender := 1
    recipient := recipient
    value := 0
    gas := 1000000
    gasPrice := 0
    input := [0xfe]
    accessList := none
    state := state
    committedState := state
    env := env .london }

end Sample

end Qevm
