import Qevm.Core.Run
import Qevm.Core.Saved
import Qevm.Core.Seen
import Qevm.Laws.ReadOnly

/-!
# Who may change what

As long as no frame ends, a storage slot only changes by `SSTORE` in a frame of the
contract that owns it, a nonce is only counted up by a creator, and everything else
that belongs to an account but its balance only changes when a contract is created
at its address.
-/

namespace Qevm

open WorldState Exec TxExecContext

section Law

variable {S : Type} [WorldState S] [Keccak256]

/-- An instruction writes to a slot of the executing contract. -/
def Stores (inst : Inst) (before : TxExecContext S) (account : Addr) (key : Hash) :
    Prop :=
  inst.opcode = .sstore ∧ before.curCall.callee = account ∧ operand before 0 = key

/-- An iteration pushes the frame of the creation of a contract. -/
def CreatesAt (inst : Inst) (before after : TxExecContext S) (account : Addr) :
    Prop :=
  inst.opcode.isCreation = true ∧
    after.callStack.length = before.callStack.length + 1 ∧
    after.curCall.callee = account ∧
    ∃ saved, after.curCall.callType = .create ⟨saved, account⟩

variable {before after : TxExecContext S} {inst : Inst} {tail : Tail S}

/-- `SSTORE` goes on with the next instruction. -/
theorem sstore_effect
    (store : inst.opcode = .sstore) (run : effect inst before = .ok tail after) :
    tail = .next ∧ sstore before = .ok () after := by
  obtain ⟨opcode, data, pos⟩ := inst
  obtain rfl : opcode = .sstore := store
  obtain ⟨_, stored, stores, last⟩ := Procedure.bind_ok.mp run
  obtain ⟨rfl, rfl⟩ := Outcome.ok.inj last
  exact ⟨rfl, stores⟩

variable [LawfulWorldState S]

/-- An instruction other than `SSTORE` and the creations changes only balances and
the log. -/
theorem own_effect
    (noStore : inst.opcode ≠ .sstore) (noCreation : inst.opcode.isCreation = false)
    (run : effect inst before = .ok tail after) (account : Addr) :
    View.own account (view after.state) = View.own account (view before.state) := by
  have keeps : Procedure.Moves (KeepsPart (View.own account))
      (effect inst : Exec S (Tail S)) := keepsPart_effect noStore noCreation
  have kept := keeps.ok run
  exact kept

/-- As long as no frame ends, an iteration changes nothing but balances and the log,
or one slot of the executing contract, or it creates a contract. -/
theorem Step.own
    (step : Step before after) (fetches : Fetches before inst)
    (noEnd : before.callStack.length ≤ after.callStack.length) :
    (∀ account, View.own account (view after.state) =
        View.own account (view before.state)) ∨
      (inst.opcode = .sstore ∧
        view after.state = (view before.state).setState before.curCall.callee
          (operand before 0) (operand before 1)) ∨
      ∃ contract nonce, CreatesAt inst before after contract ∧
        checkedAddU64 ((view before.state).nonce before.curCall.callee) 1 =
          some nonce ∧
        ∀ account, account ≠ contract →
          View.own account (view after.state) = View.own account
            ((view before.state).setNonce before.curCall.callee nonce) := by
  obtain ⟨found, foundFetches, continues | enters | settled | ended⟩ := step.cases
  all_goals obtain rfl := Option.some.inj (fetches.symm.trans foundFetches)
  · obtain ⟨working, effected, rfl⟩ := continues
    by_cases store : inst.opcode = .sstore
    · have seen := sstore_view (sstore_effect store effected).2
      exact .inr (.inl ⟨store, seen⟩)
    · cases creation : inst.opcode.isCreation with
      | false =>
          have kept := own_effect store creation effected
          exact .inl kept
      | true =>
          obtain ⟨_, _, _, _, _, _, enters, -⟩ := creation_own creation effected
          contradiction
  · obtain ⟨code, input, value, callee, caller, callType, gas, readOnly, working,
      effected, run⟩ := enters
    have works : before.Works working := Procedure.Moves.ok effected
    rw [callPush_ok run]
    by_cases store : inst.opcode = .sstore
    · have next := (sstore_effect store effected).1
      contradiction
    · cases creation : inst.opcode.isCreation with
      | false =>
          have kept := own_effect store creation effected
          exact .inl kept
      | true =>
          obtain ⟨_, _, _, saved, contract, nonce, enters, counted, others⟩ :=
            creation_own creation effected
          obtain ⟨⟩ := enters
          refine .inr (.inr ⟨callee, nonce, ⟨creation, ?_, rfl, saved, rfl⟩,
            counted, others⟩)
          rw [List.length_cons, works.callStack]
  · obtain ⟨args, ret, gas, err, working, moved, effected, ends, rfl⟩ := settled
    by_cases store : inst.opcode = .sstore
    · have next := (sstore_effect store effected).1
      contradiction
    · cases creation : inst.opcode.isCreation with
      | true =>
          obtain ⟨_, _, _, _, _, _, enters, -⟩ := creation_own creation effected
          contradiction
      | false =>
          refine .inl fun account => ?_
          change View.own account (view moved.state) = _
          rw [callEnd_state ends]
          unfold returnedState
          split
          · cases snapshot : args.snapshot with
            | none => exact own_effect store creation effected account
            | some saved =>
                rw [Option.elim_some, LawfulWorldState.view_rollback,
                  opened_saved effected rfl snapshot]
          · exact own_effect store creation effected account
  · obtain ⟨ending, data, err, settled, ends, finished, rfl⟩ := ended
    have shorter := ends.shorter finished
    exact absurd noEnd (Nat.not_le.mpr shorter)

/-! ### Delegation -/

omit [Keccak256] [LawfulWorldState S] in
/-- Code that runs for another account runs at the address it is given. -/
theorem enterEffect_callee
    {codeAddr : Addr} {input data : Bytes} {value wei : Wei}
    {callee caller found sender : Addr} {args : CallArgs S} {gas quota : Gas}
    {readOnly frozen : Bool} {code : Code} {callType : CallType S}
    (run : enterEffect codeAddr input value callee caller args gas readOnly before =
      .ok (.enter code data wei found sender callType quota frozen) after) :
    found = callee := by
  unfold enterEffect at run
  have enters := Procedure.reads_bind_ok.mp run
  have entered := (Outcome.ok.inj enters).1
  split at entered
  · obtain ⟨⟩ := entered
    rfl
  · contradiction

/-- The instructions that run the code of another account for the executing
contract. -/
def Opcode.isDelegation : Opcode → Bool
  | delegateCall | callCode => true
  | _ => false

omit [LawfulWorldState S] in
/-- Delegated code runs for the contract that delegates. -/
theorem delegation_callee
    {code : Code} {input : Bytes} {value : Wei} {callee caller : Addr}
    {callType : CallType S} {gas : Gas} {readOnly : Bool}
    (delegates : inst.opcode.isDelegation = true)
    (run : effect inst before =
      .ok (.enter code input value callee caller callType gas readOnly) after) :
    callee = before.curCall.callee := by
  obtain ⟨opcode, data, pos⟩ := inst
  cases opcode <;> simp only [Opcode.isDelegation, Bool.false_eq_true] at delegates <;>
    simp only [effect] at run
  case callCode =>
    unfold callCodeBeginEffect at run
    obtain ⟨request, paid, charges, run⟩ := Procedure.bind_ok.mp run
    replace run := Procedure.reads_bind_ok.mp run
    obtain ⟨saved, snapped, snaps, run⟩ := Procedure.bind_ok.mp run
    obtain ⟨balance, looked, _, run⟩ := Procedure.bind_ok.mp run
    obtain ⟨_, funded, _, run⟩ := Procedure.bind_ok.mp run
    have quiet : before.Quiet paid := Procedure.Moves.ok charges
    exact (enterEffect_callee run).trans quiet.curCall.callee
  case delegateCall =>
    unfold delegateCallBeginEffect at run
    obtain ⟨request, paid, charges, run⟩ := Procedure.bind_ok.mp run
    replace run := Procedure.reads_bind_ok.mp run
    obtain ⟨saved, snapped, snaps, run⟩ := Procedure.bind_ok.mp run
    have quiet : before.Quiet paid := Procedure.Moves.ok charges
    exact (enterEffect_callee run).trans quiet.curCall.callee

omit [LawfulWorldState S] in
/-- A frame that delegated code runs in belongs to the contract that delegates. -/
theorem delegated_callee
    {calling pushed running : TxExecContext S} (fetches : Fetches calling inst)
    (delegates : inst.opcode.isDelegation = true) (opens : Opens calling pushed)
    (inside : Inside calling.callStack.length pushed running)
    (executing : running.callStack.length = pushed.callStack.length) :
    running.curCall.callee = calling.curCall.callee := by
  have rooted : Rooted pushed.curCall pushed.callStack running :=
    inside.rooted (Rooted.executing pushed) (Nat.le_of_eq opens.2)
  rw [(rooted.on_top executing).2.callee]
  obtain ⟨found, _, _, _, callee, _, _, _, _, _, foundFetches, -, effected, -, rfl⟩ :=
    opens.cases
  obtain rfl := Option.some.inj (foundFetches.symm.trans fetches)
  exact delegation_callee delegates effected

/-! ### The law -/

/-- In an iteration that ends no frame, a storage slot only changes by an `SSTORE` of
the contract that owns it, a code only when a contract is created at its address,
and a nonce also by one when its owner creates a contract; creating a contract may
change everything at the new address.  So delegated code writes no storage but that
of the contract that delegates. -/
theorem who_may_change_what
    (step : Step before after) (fetches : Fetches before inst)
    (noEnd : before.callStack.length ≤ after.callStack.length) :
    (∀ account key,
      (view after.state).storage account key ≠
        (view before.state).storage account key →
      Stores inst before account key ∨ CreatesAt inst before after account) ∧
    (∀ account, (view after.state).code account ≠ (view before.state).code account →
      CreatesAt inst before after account) ∧
    (∀ account,
      (view after.state).nonce account ≠ (view before.state).nonce account →
      inst.opcode.isCreation = true ∧ before.curCall.callee = account ∧
          ((view after.state).nonce account).toNat =
            ((view before.state).nonce account).toNat + 1 ∨
        CreatesAt inst before after account) ∧
    ∀ (calling pushed : TxExecContext S) (opener : Inst), Fetches calling opener →
      opener.opcode.isDelegation = true → Opens calling pushed →
      Inside calling.callStack.length pushed before →
      before.callStack.length = pushed.callStack.length →
      ∀ account key,
        (view after.state).storage account key ≠
          (view before.state).storage account key →
        account = calling.curCall.callee ∨ CreatesAt inst before after account := by
  have changed := step.own fetches noEnd
  have storage (account : Addr) (key : Hash)
      (changes : (view after.state).storage account key ≠
        (view before.state).storage account key) :
      Stores inst before account key ∨ CreatesAt inst before after account := by
    obtain own | ⟨store, seen⟩ | ⟨contract, nonce, creates, -, others⟩ := changed
    · exact absurd (congrFun (congrArg Prod.fst (own account)) key) changes
    · refine .inl ⟨store, ?_⟩
      by_contra other
      apply changes
      rw [seen]
      by_cases executing : account = before.curCall.callee
      · subst executing
        have otherKey : key ≠ operand before 0 := fun same => other ⟨rfl, same.symm⟩
        simp only [View.setState, Function.update_self,
          Function.update_of_ne otherKey]
      · simp only [View.setState, Function.update_of_ne executing]
    · by_cases new : account = contract
      · exact .inr (new ▸ creates)
      · exact absurd (congrFun (congrArg Prod.fst (others account new)) key) changes
  refine ⟨storage, fun account changes => ?_, fun account changes => ?_, ?_⟩
  · obtain own | ⟨store, seen⟩ | ⟨contract, nonce, creates, -, others⟩ := changed
    · exact absurd (congrArg (fun own => own.2.2) (own account)) changes
    · exact absurd (congrFun (congrArg View.code seen) account) changes
    · by_cases new : account = contract
      · exact new ▸ creates
      · exact absurd (congrArg (fun own => own.2.2) (others account new)) changes
  · obtain own | ⟨store, seen⟩ | ⟨contract, nonce, creates, counted, others⟩ := changed
    · exact absurd (congrArg (fun own => own.2.1) (own account)) changes
    · exact absurd (congrFun (congrArg View.nonce seen) account) changes
    · by_cases new : account = contract
      · exact .inr (new ▸ creates)
      · have seen : (view after.state).nonce account =
            ((view before.state).setNonce before.curCall.callee nonce).nonce account :=
          congrArg (fun own => own.2.1) (others account new)
        by_cases creator : account = before.curCall.callee
        · subst creator
          refine .inl ⟨creates.1, rfl, ?_⟩
          rw [seen]
          simp only [View.setNonce, Function.update_self]
          exact toNat_checkedAddU64 counted
        · refine absurd ?_ changes
          rw [seen]
          simp only [View.setNonce, Function.update_of_ne creator]
  · intro calling pushed opener openerFetches delegates opens inside executing
      account key changes
    have callee :=
      delegated_callee openerFetches delegates opens inside executing
    refine (storage account key changes).imp_left fun stores => ?_
    rw [← callee]
    exact stores.2.1.symm

end Law

namespace Sample

/-- Runs the code of the account `0xbb` on its own storage. -/
def delegatingCode : Bytes :=
  [0x60, 0x00, 0x60, 0x00, 0x60, 0x00, 0x60, 0x00, 0x60, 0xbb, 0x61, 0xff, 0xff,
    0xf4, 0x00]

/-- The digests that the transaction of this module looks at. -/
@[reducible] def delegatingKeccak : Keccak256 := keccak
  [([], 0xc5d2460186f7233c927e7db2dcc703c0e500b653ca82273b7bfad8045d85a470),
    (delegatingCode,
      0x527f4845afc722b0421b0aa04029220e354462f43807bd1c0be2abcc57a80af6),
    (storingCode,
      0x7efcce47028dabcb0d42f3a7eda8820bf6f7f4e618398c2547d52f703cafb073)]

/-- A transaction to an account that runs code that writes. -/
def delegatingTx : Transaction DummyStateStore :=
  letI := delegatingKeccak
  { callingTx [] with
    state := (DummyStateStore.new.setCode 0xaa delegatingCode).setCode 0xbb
      storingCode }

end Sample

/-- Delegated code writes the storage of the account `0xaa` and not that of its own
account `0xbb`. -/
theorem delegated_code_writes_elsewhere :
    letI := Sample.delegatingKeccak
    ∃ calling pushed before after : TxExecContext DummyStateStore,
      Sample.delegatingTx.Reaches calling ∧ Opens calling pushed ∧
        Inside calling.callStack.length pushed before ∧ Step before after ∧
        getState after.state 0xaa 0 = 1 ∧ getState before.state 0xaa 0 = 0 ∧
        ∀ key, (view after.state).storage 0xbb key =
          (view before.state).storage 0xbb key := by
  let := Sample.delegatingKeccak
  obtain ⟨calling, reached, found⟩ := (Option.any_eq_true
    (fun calling => decide (Fetches calling ⟨.delegateCall, none, 0⟩ ∧
        calling.curCall.callee = 0xaa) && (stepOnce calling).any fun pushed =>
        decide (pushed.callStack.length = calling.callStack.length + 1) &&
        (runFor (fun context => decide
            (calling.callStack.length < context.callStack.length)) 2 pushed).any
          fun before => decide (Fetches before ⟨.sstore, none, 0⟩ ∧
              before.callStack.length = pushed.callStack.length) &&
            (stepOnce before).any fun after =>
              decide (before.callStack.length ≤ after.callStack.length ∧
                getState after.state 0xaa 0 = 1 ∧ getState before.state 0xaa 0 = 0))
    (Sample.delegatingTx.after 6)).mp (by decide +kernel)
  simp only [Bool.and_eq_true, Option.any_eq_true, decide_eq_true_eq] at found
  obtain ⟨⟨delegates, callee⟩, pushed, pushes, depth, before, inside, ⟨stores, executing⟩, after,
    step, noEnd, written, blank⟩ := found
  have opens : Opens calling pushed := ⟨stepOnce_eq_some.mp pushes, depth⟩
  have within := runFor_inside inside
  have iterates := stepOnce_eq_some.mp step
  refine ⟨calling, pushed, before, after, Transaction.reaches_of_after reached, opens,
    within, iterates, written, blank, fun key => ?_⟩
  by_contra changes
  obtain ⟨-, -, -, law⟩ := who_may_change_what iterates stores noEnd
  obtain owner | ⟨creation, -⟩ :=
    law calling pushed _ delegates rfl opens within executing 0xbb key changes
  · rw [callee] at owner
    exact absurd owner (by decide)
  · exact absurd creation (by decide)

end Qevm
