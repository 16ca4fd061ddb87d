import Qevm.Laws.Atomicity
import Qevm.Laws.Destruction
import Qevm.Laws.Unstartable

/-!
# The admission of a transaction

A transaction runs with its gas limit less 21000, and counts the nonce of its sender up.
Neither the subtraction nor the counting of a message call is checked: both wrap around.
A creation checks its counting.
-/

namespace Qevm

open Params WorldState Exec TxExecContext Procedure

/-! ### The arithmetic -/

/-- What is taken from a gas limit is found again exactly when the limit covers it. -/
theorem toNat_intrinsic (gas : Gas) :
    (gas - 21000).toNat + 21000 = gas.toNat ↔ 21000 ≤ gas.toNat := by
  have small := gas.toNat_lt
  have price : (21000 : Gas).toNat = 21000 := rfl
  rw [UInt64.toNat_sub, price]
  omega

/-- A limit that does not cover it leaves more gas than the limit. -/
theorem intrinsic_le (gas : Gas) : (gas - 21000).toNat ≤ gas.toNat ↔ 21000 ≤ gas.toNat := by
  have small := gas.toNat_lt
  have price : (21000 : Gas).toNat = 21000 := rfl
  rw [UInt64.toNat_sub, price]
  omega

/-- A nonce that is counted up is one more exactly when it does not wrap. -/
theorem toNat_counted (nonce : UInt64) :
    (nonce + 1).toNat = nonce.toNat + 1 ↔ nonce.toNat + 1 < 2 ^ 64 := by
  have small := (nonce + 1).toNat_lt
  have one : (1 : UInt64).toNat = 1 := rfl
  constructor
  · omega
  · intro fits
    rw [UInt64.toNat_add, one, Nat.mod_eq_of_lt fits]

/-- A nonce that wraps is smaller than before. -/
theorem le_counted (nonce : UInt64) :
    nonce.toNat ≤ (nonce + 1).toNat ↔ nonce.toNat + 1 < 2 ^ 64 := by
  have small := nonce.toNat_lt
  have one : (1 : UInt64).toNat = 1 := rfl
  rw [UInt64.toNat_add, one]
  omega

section Law

variable {S : Type} [WorldState S] [Keccak256]

/-- A contract can be set up by its creator. -/
def CanCreate (state : S) (contract creator : Addr) (value : Wei) : Prop :=
  ¬getBalance state creator < value ∧
    checkedAddU64 (getNonce state creator) 1 ≠ none ∧ ¬Taken state contract

/-- The gas that a transaction has when it enters the loop: that of its first frame, or
what it reports when it is settled before. -/
def TxExecContext.admittedGas (context : TxExecContext S) : Gas :=
  context.status.leftGas.getD context.curCall.unusedGas

namespace Transaction

/-- The transaction fails before anything is called or created. -/
def Refused (tx : Transaction S) : Prop :=
  ∃ initial err working, tx.context = some initial ∧
    tx.startFrame initial = .error err working

/-- The nonce of the sender. -/
def nonce (tx : Transaction S) (state : S) : Nat := (getNonce state tx.sender).toNat

/-- The address of the contract that a creation creates. -/
def contractAddr (tx : Transaction S) : Addr :=
  createAddr tx.sender (getNonce tx.state tx.sender)

/-- A transaction is admitted with exact arithmetic: it runs with its gas limit less 21000
and counts the nonce up by one, or fails at once, and then neither wraps. -/
inductive AdmitsExactly (tx : Transaction S) (entered : TxExecContext S) : Prop
  | runs :
      entered.admittedGas.toNat + 21000 = tx.gas.toNat →
      tx.nonce entered.state = tx.nonce tx.state + 1 → AdmitsExactly tx entered
  | fails :
      tx.Refused → entered.admittedGas.toNat ≤ tx.gas.toNat →
      tx.nonce tx.state ≤ tx.nonce entered.state → AdmitsExactly tx entered

/-- The contract of a creation can be set up: it is paid for, the nonce is counted, and the
address is free. -/
def Creatable (tx : Transaction S) : Prop :=
  CanCreate (snapshot tx.state).1 tx.contractAddr tx.sender tx.value

/-- What the arithmetic of the admission relies on. -/
structure Admissible (tx : Transaction S) : Prop where
  /-- The gas limit covers the intrinsic gas. -/
  gas : 21000 ≤ tx.gas.toNat
  /-- The nonce of a message call can be counted up. -/
  nonce : tx.recipient ≠ none → tx.nonce tx.state + 1 < 2 ^ 64
  /-- Before Spurious Dragon, a contract is not set up in the account of its sender. -/
  address : tx.recipient = none → tx.contractAddr = tx.sender →
    tx.Creatable → tx.env.block.fork ≥ .spuriousDragon

variable {tx : Transaction S} {entered : TxExecContext S}

/-- A transaction enters the loop with its execution gas. -/
theorem Enters.admittedGas (enters : tx.Enters entered) :
    entered.admittedGas = tx.executionGas := by
  obtain ⟨initial, context, pushed | settled | failed⟩ := enters.cases
  · obtain ⟨code, input, value, callee, caller, args, readOnly, working, effected,
      rfl⟩ := pushed
    obtain ⟨accessList, rfl⟩ := context_eq_some context
    have stays : Stays _ working := Moves.ok effected
    have running : working.status = .running := stays.status
    simp [TxExecContext.admittedGas, running, TxExecStatus.leftGas, CallFrame.new]
  · obtain ⟨args, ret, err, working, effected, run⟩ := settled
    obtain ⟨empty, final, addr, processed, -, -, rfl⟩ := txEnd_ok run
    simp [TxExecContext.admittedGas, TxExecStatus.leftGas, unusedGas_finalResult]
  · obtain ⟨err, working, raised, rfl⟩ := failed
    rfl

end Transaction

/-! ### The nonce of the sender -/

variable [LawfulWorldState S]

instance (account : Addr) : View.IgnoresLogs fun view => view.nonce account :=
  ⟨fun _ _ => rfl⟩

instance (account : Addr) : View.IgnoresBalance fun view => view.nonce account :=
  ⟨fun _ _ => rfl⟩

namespace Exec

variable {before after : TxExecContext S}

/-- A contract that is not set up cannot be, and the nonce of its creator is not smaller
than before. -/
theorem openCreate_refused
    {contract caller : Addr} {value : Wei} {err : ExecError}
    (run : openCreate contract caller value before = .error err after) :
    ¬CanCreate before.state contract caller value ∧
      (getNonce before.state caller).toNat ≤ (getNonce after.state caller).toNat := by
  have counted (found : UInt64)
      (counts : checkedAddU64 (getNonce before.state caller) 1 = some found) :
      (getNonce before.state caller).toNat ≤
        (getNonce (setNonce before.state caller found) caller).toNat := by
    have seen : getNonce (setNonce before.state caller found) caller = found := by
      rw [← LawfulWorldState.nonce_view, LawfulWorldState.view_setNonce]
      exact Function.update_self _ _ _
    rw [seen, toNat_checkedAddU64 counts]
    exact Nat.le_add_right _ _
  have spec : wp (openCreate contract caller value) (fun _ _ => True)
      (fun _ final => ¬CanCreate before.state contract caller value ∧
        (getNonce before.state caller).toNat ≤ (getNonce final.state caller).toNat)
      before := by
    simp only [openCreate, wp_bind, readState, wp_reads, wp_raiseIf, wp_okOr, writeState,
      wp_update, Exec.fork, wp_when, addAddr, markDirty, wp_transfer, implies_true,
      and_true]
    have used (nonce : getNonce before.state contract ≠ 0) :
        ¬CanCreate before.state contract caller value := fun can => can.2.2 (.inl nonce)
    have coded (code : (getCode before.state contract).getHash ≠ 0 ∧
          (getCode before.state contract).getHash ≠ Hash.emptyBytesHash) :
        ¬CanCreate before.state contract caller value := fun can => can.2.2 (.inr code)
    refine ⟨fun poor => ⟨fun can => can.1 poor, Nat.le_refl _⟩, fun _ => ⟨?_,
      fun last => ⟨fun can => can.2.1 last, Nat.le_refl _⟩⟩⟩
    intro found counts
    exact ⟨fun _ => ⟨fun nonce => ⟨used nonce, counted found counts⟩,
        fun _ code => ⟨coded code, counted found counts⟩⟩,
      fun _ => ⟨fun nonce => ⟨used nonce, counted found counts⟩,
        fun _ code => ⟨coded code, counted found counts⟩⟩⟩
  have refused := wp_error spec run
  exact refused

/-- The nonce of an account that sets a contract up: it is counted up, unless the contract
is set up in its own account before Spurious Dragon. -/
theorem openCreate_nonce
    {contract caller : Addr} {value : Wei}
    (run : openCreate contract caller value before = .ok () after) :
    (getNonce after.state caller).toNat = (getNonce before.state caller).toNat + 1 ↔
      (contract = caller → before.curCall.fork ≥ .spuriousDragon) := by
  obtain ⟨-, -, free⟩ := openCreate_permitted run
  rw [openCreate_eq] at run
  obtain ⟨_, prepared, prepares, rest⟩ := bind_ok.mp run
  obtain ⟨nonce, counts, seen⟩ := wp_ok (prepareCreate_view contract caller value before)
    prepares
  have kept : KeepsPart (fun view => view.nonce caller) prepared after := Moves.ok rest
  have one : (1 : UInt64).toNat = 1 := rfl
  rw [LawfulWorldState.nonce_view] at counts
  have counted := toNat_checkedAddU64 counts
  have left : getNonce after.state caller = (view prepared.state).nonce caller := by
    rw [← LawfulWorldState.nonce_view]
    exact kept
  rw [left, seen]
  by_cases own : contract = caller
  · subst own
    have blank : getNonce before.state contract = 0 := by
      by_contra nonce
      exact free (.inl nonce)
    by_cases dragon : before.curCall.fork ≥ .spuriousDragon
    · simp [dragon, View.setNonce, blank]
    · simp [dragon, View.setNonce, View.createAccount, blank]
  · have other : caller ≠ contract := fun same => own same.symm
    rw [iff_true_right (fun same => absurd same own), ← one, ← counted]
    split <;> simp [View.setNonce, View.createAccount, Function.update_of_ne other]

end Exec

namespace Transaction

variable {tx : Transaction S} {entered : TxExecContext S}

/-- The start of a message call counts the nonce up without a check, also when it fails. -/
theorem wp_startCall (tx : Transaction S) (recipient : Addr) (initial : TxExecContext S) :
    wp (tx.startCallEffect recipient)
      (fun _ final => getNonce final.state tx.sender = getNonce initial.state tx.sender + 1)
      (fun _ final => getNonce final.state tx.sender = getNonce initial.state tx.sender + 1)
      initial := by
  simp only [startCallEffect]
  rw [wp_bind, readState, wp_reads, wp_bind, writeState, wp_update]
  have rest : Moves (KeepsPart fun view => view.nonce tx.sender) (do
      let snapshot ← Exec.takeSnapshot
      callEffect recipient tx.sender tx.input tx.executionGas tx.value
        (.tx ⟨snapshot, .sender tx.sender⟩) : Exec S (Tail S)) := inferInstance
  have counted (final : TxExecContext S)
      (kept : KeepsPart (fun view => view.nonce tx.sender) { initial with
        state := setNonce initial.state tx.sender (getNonce initial.state tx.sender + 1) }
        final) :
      getNonce final.state tx.sender = getNonce initial.state tx.sender + 1 := by
    rw [← LawfulWorldState.nonce_view]
    refine Eq.trans kept ?_
    simp [View.setNonce]
  exact wp_mono (rest.holds _) (fun _ => counted) (fun _ => counted)

omit [LawfulWorldState S] in
/-- A transaction whose start fails enters the loop with the failure. -/
theorem Refused.leaves (refused : tx.Refused) (enters : tx.Enters entered) :
    ∃ initial err working, initial.state = tx.state ∧
      tx.startEffect initial = .error err working ∧
      entered = { working with
        status := .finished (.reverted [] tx.executionGas err) } := by
  obtain ⟨initial, err, working, context, fails⟩ := refused
  obtain ⟨found, foundContext, run⟩ := enters
  obtain rfl := Option.some.inj (context.symm.trans foundContext)
  refine ⟨initial, err, working, ?_, startFrame_error.mp fails, ?_⟩
  · obtain ⟨accessList, rfl⟩ := context_eq_some context
    rfl
  · unfold begin Procedure.handle at run
    rw [fails] at run
    exact (Outcome.ok.inj run).2.symm

omit [LawfulWorldState S] in
/-- A transaction that is refused does not run. -/
theorem Refused.not_running
    (refused : tx.Refused) (enters : tx.Enters entered) : entered.status ≠ .running := by
  obtain ⟨initial, err, working, state, fails, rfl⟩ := refused.leaves enters
  exact TxExecStatus.noConfusion

/-- A message call that is refused has counted its nonce up all the same. -/
theorem Refused.call_nonce
    {recipient : Addr} (refused : tx.Refused) (enters : tx.Enters entered)
    (calls : tx.recipient = some recipient) :
    getNonce entered.state tx.sender = getNonce tx.state tx.sender + 1 := by
  obtain ⟨initial, err, working, state, fails, rfl⟩ := refused.leaves enters
  simp only [startEffect, calls] at fails
  have counted := wp_error (wp_startCall tx recipient initial) fails
  rw [state] at counted
  exact counted

/-- The start of a creation sets the contract up in the state that a snapshot has been taken
of. -/
theorem startCreateEffect_eq
    {initial : TxExecContext S} (state : initial.state = tx.state) :
    tx.startCreateEffect initial =
      createEffect tx.contractAddr tx.sender tx.input tx.value tx.executionGas
        (.tx ⟨(snapshot tx.state).2, .contract tx.contractAddr⟩)
        { initial with state := (snapshot tx.state).1 } := by
  have same : getNonce (snapshot tx.state).1 tx.sender = getNonce tx.state tx.sender := by
    rw [← LawfulWorldState.nonce_view, LawfulWorldState.view_left,
      LawfulWorldState.nonce_view]
  simp only [startCreateEffect, bind, Procedure.bind, takeSnapshot, readState,
    Procedure.reads, state, same, contractAddr]

/-- A snapshot keeps the nonce of the sender. -/
theorem nonce_snapshot (tx : Transaction S) :
    tx.nonce (snapshot tx.state).1 = tx.nonce tx.state := by
  rw [Transaction.nonce, Transaction.nonce, ← LawfulWorldState.nonce_view,
    LawfulWorldState.view_left, LawfulWorldState.nonce_view]

/-- A creation that is refused cannot be set up, and its nonce is not smaller than
before. -/
theorem Refused.create_nonce
    (refused : tx.Refused) (enters : tx.Enters entered) (creates : tx.recipient = none) :
    ¬tx.Creatable ∧ tx.nonce tx.state ≤ tx.nonce entered.state := by
  obtain ⟨initial, err, working, state, fails, rfl⟩ := refused.leaves enters
  simp only [startEffect, creates, startCreateEffect_eq state] at fails
  rw [← nonce_snapshot]
  obtain fails | ⟨_, _, -, returns⟩ := bind_error.mp fails
  · exact openCreate_refused fails
  · contradiction

/-- A creation that is not refused can be set up, and counts its nonce up unless the
contract is set up in the account of its sender before Spurious Dragon. -/
theorem Enters.create_nonce
    (enters : tx.Enters entered) (accepted : ¬tx.Refused) (creates : tx.recipient = none) :
    tx.Creatable ∧ (tx.nonce entered.state = tx.nonce tx.state + 1 ↔
      (tx.contractAddr = tx.sender → tx.env.block.fork ≥ .spuriousDragon)) := by
  obtain ⟨initial, context, pushed | settled | failed⟩ := enters.cases
  · obtain ⟨code, input, value, callee, caller, args, readOnly, working, effected,
      rfl⟩ := pushed
    obtain ⟨accessList, rfl⟩ := context_eq_some context
    simp only [startEffect, creates] at effected
    rw [startCreateEffect_eq rfl] at effected
    have opens := (createEffect_ok effected).2
    rw [← nonce_snapshot]
    exact ⟨openCreate_permitted opens, openCreate_nonce opens⟩
  · obtain ⟨args, ret, err, working, effected, -⟩ := settled
    obtain ⟨accessList, rfl⟩ := context_eq_some context
    simp only [startEffect, creates] at effected
    rw [startCreateEffect_eq rfl] at effected
    exact nomatch (createEffect_ok effected).1
  · obtain ⟨err, working, fails, -⟩ := failed
    exact absurd ⟨initial, err, working, context, startFrame_error.mpr fails⟩ accepted

/-- A call that is settled before the loop leaves the nonce that it has counted up. -/
theorem settled_nonce
    {args : TxArgs S} {ret : Bytes} {err : Result} {gas : Gas} {working : TxExecContext S}
    (aux : args.aux = .sender tx.sender)
    (saved : view args.snapshot =
      (view tx.state).setNonce tx.sender ((view tx.state).nonce tx.sender + 1))
    (counted : getNonce working.state tx.sender = getNonce tx.state tx.sender + 1)
    (unmarked : working.destroyed = HashSet.empty) (fits : tx.nonce tx.state + 1 < 2 ^ 64)
    (run : txEnd args ret gas err working = .ok () entered) :
    getNonce entered.state tx.sender = getNonce tx.state tx.sender + 1 := by
  obtain ⟨empty, outcome, addr, processed, result, running, rfl⟩ := txEnd_ok run
  simp only [txResult, aux] at result
  obtain ⟨_, marked, marks, returns⟩ := bind_ok.mp result
  obtain ⟨same, rfl⟩ := Outcome.ok.inj returns
  obtain ⟨rfl, rfl⟩ := Prod.mk.inj same
  have marking := (Outcome.ok.inj marks).2
  have state : marked.state = working.state := by rw [← marking]
  have destroyed : marked.destroyed = working.destroyed := by rw [← marking]
  rw [← LawfulWorldState.nonce_view]
  cases err with
  | error err =>
      simp only [finalState, LawfulWorldState.view_rollback, saved, View.setNonce,
        Function.update_self, LawfulWorldState.nonce_view]
  | ok _ =>
      have positive : getNonce working.state tx.sender ≠ 0 := by
        intro zero
        have exact := (toNat_counted (getNonce tx.state tx.sender)).mpr fits
        rw [← counted, zero] at exact
        contradiction
      have present : isEmpty marked.state tx.sender = false := by
        simp [isEmpty, state, positive]
      have unlisted : tx.sender ∉ marked.destroyed := by simp [destroyed, unmarked]
      simp only [finalState]
      rw [(Spared.cleaned present unlisted).agrees.nonce, LawfulWorldState.nonce_view, state]
      exact counted

/-- A message call counts its nonce up, if it does not wrap. -/
theorem Enters.call_nonce
    {recipient : Addr} (enters : tx.Enters entered)
    (calls : tx.recipient = some recipient) (fits : tx.nonce tx.state + 1 < 2 ^ 64) :
    getNonce entered.state tx.sender = getNonce tx.state tx.sender + 1 := by
  obtain ⟨initial, context, pushed | settled | failed⟩ := enters.cases
  · obtain ⟨code, input, value, callee, caller, args, readOnly, working, effected,
      rfl⟩ := pushed
    obtain ⟨accessList, rfl⟩ := context_eq_some context
    simp only [startEffect, calls] at effected
    have counted := wp_ok (wp_startCall tx recipient _) effected
    exact counted
  · obtain ⟨args, ret, err, working, effected, run⟩ := settled
    obtain ⟨accessList, rfl⟩ := context_eq_some context
    have keeps := startEffect_keeps rfl effected rfl
    have stays : Stays _ working := Moves.ok effected
    simp only [startEffect, calls] at effected
    have counted := wp_ok (wp_startCall tx recipient _) effected
    simp only [Keeps, calls] at keeps
    exact settled_nonce keeps.1 keeps.2 counted stays.destroyed fits run
  · obtain ⟨err, working, fails, rfl⟩ := failed
    have refused : tx.Refused :=
      ⟨initial, err, working, context, startFrame_error.mpr fails⟩
    exact refused.call_nonce enters calls

/-- The arithmetic of the admission is exact when the gas limit covers the intrinsic gas and
the nonce of a message call can be counted up, and only then. -/
theorem admission_exact_iff (enters : tx.Enters entered) :
    tx.AdmitsExactly entered ↔ tx.Admissible := by
  have gas : entered.admittedGas = tx.gas - 21000 := enters.admittedGas
  constructor
  · intro exactly
    cases exactly with
    | runs paid counted =>
        rw [gas, toNat_intrinsic] at paid
        refine ⟨paid, fun _ => ?_, fun creates own creatable => ?_⟩
        · rw [← counted]
          exact UInt64.toNat_lt _
        · have accepted : ¬tx.Refused := fun refused =>
            (refused.create_nonce enters creates).1 creatable
          exact (enters.create_nonce accepted creates).2.mp counted own
    | fails refused less grows =>
        rw [gas, intrinsic_le] at less
        refine ⟨less, fun calls => ?_, fun creates own creatable => ?_⟩
        · obtain ⟨recipient, calls⟩ := Option.ne_none_iff_exists'.mp calls
          have counted := refused.call_nonce enters calls
          rw [Transaction.nonce, Transaction.nonce, counted, le_counted] at grows
          exact grows
        · exact absurd creatable (refused.create_nonce enters creates).1
  · intro admissible
    have paid : entered.admittedGas.toNat + 21000 = tx.gas.toNat := by
      rw [gas]
      exact (toNat_intrinsic tx.gas).mpr admissible.gas
    cases creates : tx.recipient with
    | some recipient =>
        have fits := admissible.nonce (by simp [creates])
        refine .runs paid ?_
        rw [Transaction.nonce, enters.call_nonce creates fits]
        exact (toNat_counted _).mpr fits
    | none =>
        by_cases refused : tx.Refused
        · exact .fails refused (by omega) (refused.create_nonce enters creates).2
        · obtain ⟨creatable, counted⟩ := enters.create_nonce refused creates
          exact .runs paid (counted.mpr fun own => admissible.address creates own creatable)

end Transaction
end Law

namespace Sample

/-- The digests that the transactions of this module look at. -/
@[reducible] def admissionKeccak : Keccak256 := keccak
  [([], 0xc5d2460186f7233c927e7db2dcc703c0e500b653ca82273b7bfad8045d85a470),
    ([0x00], 0xbc36789e7a1e281436464229828f817d6612f7b477d66591ff96a9e064bcc98a),
    (Rlp.encodeList [Rlp.encodeBytes (Addr.asBytes 1), Rlp.encodeNat 5],
      0xa4b70a64edc30e7fbab1cc5700efd0d4639191c49908a7bddbb9a11a994a8527)]

/-- A transaction of an account with a nonce: a call of a code that stops, or a creation by
such a code. -/
def admittedTx (recipient : Option Addr) (gas : Gas) (nonce : UInt64) :
    Transaction DummyStateStore :=
  letI := admissionKeccak
  let state := (DummyStateStore.new.setCode 0xaa [0x00]).setNonce 1 nonce
  { sender := 1
    recipient := recipient
    value := 0
    gas := gas
    gasPrice := 0
    input := [0x00]
    accessList := none
    state := state
    committedState := state
    env := env .london }

end Sample

/-- A call and a creation with enough gas and a small nonce are admitted exactly. -/
theorem small_numbers_are_admitted :
    letI := Sample.admissionKeccak
    (∃ entered, (Sample.admittedTx (some 0xaa) 121000 5).Enters entered ∧
      (Sample.admittedTx (some 0xaa) 121000 5).AdmitsExactly entered) ∧
      ∃ entered, (Sample.admittedTx none 121000 5).Enters entered ∧
        (Sample.admittedTx none 121000 5).AdmitsExactly entered := by
  let := Sample.admissionKeccak
  have fits : (Sample.admittedTx (some 0xaa) 121000 5).nonce
      (Sample.admittedTx (some 0xaa) 121000 5).state + 1 < 2 ^ 64 := by decide +kernel
  have apart : (Sample.admittedTx none 121000 5).contractAddr ≠ 1 := by decide +kernel
  constructor
  · obtain ⟨entered, enters, -⟩ :=
      (Sample.admittedTx (some 0xaa) 121000 5).exists_entered (fun _ => True)
        (by decide +kernel)
    exact ⟨entered, enters, (Transaction.admission_exact_iff enters).mpr
      ⟨by decide, fun _ => fits, nofun⟩⟩
  · obtain ⟨entered, enters, -⟩ :=
      (Sample.admittedTx none 121000 5).exists_entered (fun _ => True) (by decide +kernel)
    exact ⟨entered, enters, (Transaction.admission_exact_iff enters).mpr
      ⟨by decide, fun calls => absurd rfl calls, fun _ own => absurd own apart⟩⟩

/-- A call without gas runs with almost all gas there is, and a call with the last nonce
runs with the first one. -/
theorem wrapped_numbers_are_admitted :
    letI := Sample.admissionKeccak
    (∃ entered, (Sample.admittedTx (some 0xaa) 0 5).Enters entered ∧
      entered.status = .running ∧ entered.curCall.unusedGas = 18446744073709530616 ∧
      ¬(Sample.admittedTx (some 0xaa) 0 5).AdmitsExactly entered) ∧
      ∃ entered,
        (Sample.admittedTx (some 0xaa) 121000 18446744073709551615).Enters entered ∧
        entered.status = .running ∧ getNonce entered.state 1 = 0 ∧
        ¬(Sample.admittedTx (some 0xaa) 121000 18446744073709551615).AdmitsExactly
          entered := by
  let := Sample.admissionKeccak
  constructor
  · obtain ⟨entered, enters, left, gas⟩ :=
      (Sample.admittedTx (some 0xaa) 0 5).exists_entered
        (fun entered => entered.status.leftGas = none ∧
          entered.curCall.unusedGas = 18446744073709530616) (by decide +kernel)
    have running := TxExecStatus.leftGas_eq_none.mp left
    refine ⟨entered, enters, running, gas, fun exactly => ?_⟩
    cases exactly with
    | runs paid => exact absurd paid (Nat.succ_ne_zero _)
    | fails refused => exact refused.not_running enters running
  · obtain ⟨entered, enters, left, nonce⟩ :=
      (Sample.admittedTx (some 0xaa) 121000 18446744073709551615).exists_entered
        (fun entered => entered.status.leftGas = none ∧ getNonce entered.state 1 = 0)
        (by decide +kernel)
    have running := TxExecStatus.leftGas_eq_none.mp left
    refine ⟨entered, enters, running, nonce, fun exactly => ?_⟩
    cases exactly with
    | runs _ counted =>
        have zero : getNonce entered.state (Sample.admittedTx (some 0xaa) 121000
            18446744073709551615).sender = 0 := nonce
        rw [Transaction.nonce, zero] at counted
        exact absurd counted.symm (Nat.succ_ne_zero _)
    | fails refused => exact refused.not_running enters running

end Qevm
