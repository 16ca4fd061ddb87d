import Qevm.Core.Creations

/-!
# What instructions leave as it was

A part of what can be read from the world state is kept by everything that writes
another part: the log, the balances, the storage, the nonces and the codes are
each written by few primitives.
-/

set_option synthInstance.maxSize 100000

namespace Qevm

open Params WorldState TxExecContext

variable {S γ : Type} [WorldState S] [Keccak256] [LawfulWorldState S]

/-- A part of what can be read that does not depend on the log. -/
class View.IgnoresLogs (part : View → γ) : Prop where
  same : ∀ (view : View) logs, part { view with logs := logs } = part view

/-- A part of what can be read that does not depend on the balances. -/
class View.IgnoresBalance (part : View → γ) : Prop where
  same : ∀ (view : View) balance, part { view with balance := balance } = part view

/-- A part of what can be read is kept. -/
def TxExecContext.KeepsPart
    (part : View → γ) (before after : TxExecContext S) : Prop :=
  part (view after.state) = part (view before.state)

instance (part : View → γ) : IsPreorder (TxExecContext S) (KeepsPart part) where
  refl _ := rfl
  trans _ _ _ left right := Eq.trans right left

namespace Exec

variable {part : View → γ}

/-- A write that keeps the part. -/
theorem keepsPart_writeState {change : S → S}
    (keeps : ∀ state, part (view (change state)) = part (view state)) :
    Procedure.Moves (KeepsPart part) (writeState change) :=
  Procedure.Moves.update fun context => keeps context.state

/-! ### Work that writes nothing -/

instance (priority := low) keepsPart_of_continues
    (program : Exec S α) [continues : Procedure.Moves Continues program] :
    Procedure.Moves (KeepsPart part) program :=
  continues.mono fun _ _ work => by rw [KeepsPart, work.state]

instance keepsPart_markDirty (addr : Addr) :
    Procedure.Moves (KeepsPart part) (markDirty addr : Exec S Unit) :=
  Procedure.Moves.update fun _ => rfl

instance keepsPart_markDestroyed (addr : Addr) :
    Procedure.Moves (KeepsPart part) (markDestroyed addr : Exec S Unit) :=
  Procedure.Moves.update fun _ => rfl

instance keepsPart_addRefund (gas : UInt64) :
    Procedure.Moves (KeepsPart part) (addRefund gas : Exec S Unit) :=
  Procedure.Moves.update fun _ => rfl

instance keepsPart_subRefund (gas : UInt64) :
    Procedure.Moves (KeepsPart part) (subRefund gas : Exec S Unit) := by
  refine ⟨fun context => ?_⟩
  unfold Procedure.wp subRefund
  by_cases less : gas > context.refund
  · simp only [less, if_true]
  · simp only [less, if_false]
    rfl

instance keepsPart_takeSnapshot :
    Procedure.Moves (KeepsPart part) (takeSnapshot : Exec S S) :=
  ⟨fun _ => congrArg part (LawfulWorldState.view_left _)⟩

instance keepsPart_sstoreGas (key : Hash) (val : U256) :
    Procedure.Moves (KeepsPart part) (sstoreGas key val : Exec S Unit) := by
  unfold sstoreGas sstoreBerlinLondonGas sstoreIstanbulGas
    sstoreConstantinopleGas
  infer_instance

instance keepsPart_enterEffect
    (codeAddr : Addr) (input : Bytes) (value : Wei) (callee caller : Addr)
    (args : CallArgs S) (gas : Gas) (readOnly : Bool) :
    Procedure.Moves (KeepsPart part)
      (enterEffect codeAddr input value callee caller args gas readOnly) := by
  unfold enterEffect
  infer_instance

/-- Creating a missing account changes nothing that can be read. -/
instance keepsPart_createMissing (callee : Addr) :
    Procedure.Moves (KeepsPart part)
      (createMissing callee : Exec S Unit) := by
  refine ⟨fun context => ?_⟩
  unfold createMissing readState
  rw [Procedure.wp_bind, Procedure.wp_reads, Procedure.wp_when]
  refine ⟨fun missing => ?_, fun _ => rfl⟩
  have blank : (view context.state).Blank callee :=
    LawfulWorldState.blank (by simpa using missing)
  change part (view (createAccount context.state callee)) = _
  rw [LawfulWorldState.view_createAccount, View.createAccount_of_blank blank]

/-! ### Work that writes the log or the balances -/

instance keepsPart_log [ignores : View.IgnoresLogs part] (num : Nat) :
    Procedure.Moves (KeepsPart part) (log num : Exec S Unit) := by
  have appends (topics : List Hash) (data : Bytes) :
      Procedure.Moves (KeepsPart part) (appendLog topics data : Exec S Unit) := by
    refine ⟨fun context => ?_⟩
    unfold appendLog writeState
    rw [Procedure.wp_bind, Procedure.wp_read, Procedure.wp_bind,
      Procedure.wp_unwrap]
    intro state added
    obtain ⟨logs, seen⟩ := LawfulWorldState.view_addLog added
    rw [Procedure.wp_update]
    change part (view state) = _
    rw [seen, ignores.same]
  unfold log
  infer_instance

section Balance

variable [ignores : View.IgnoresBalance part]

instance keepsPart_setBalance (account : Addr) (balance : S → Wei) :
    Procedure.Moves (KeepsPart part)
      (writeState fun state => setBalance state account (balance state)) := by
  apply keepsPart_writeState
  intro state
  rw [LawfulWorldState.view_setBalance]
  exact ignores.same _ _

instance keepsPart_sweep (callee beneficiary : Addr) :
    Procedure.Moves (KeepsPart part) (sweep callee beneficiary : Exec S Unit) := by
  apply keepsPart_writeState
  intro state
  rw [LawfulWorldState.view_setBalance, View.setBalance, ignores.same]
  unfold addBalance
  split
  · rw [LawfulWorldState.view_setBalance]
    exact ignores.same _ _
  · rfl

instance keepsPart_transfer (sender recipient : Addr) (value : Wei) :
    Procedure.Moves (KeepsPart part)
      (transfer sender recipient value : Exec S Unit) := by
  refine ⟨fun context => (wp_transfer sender recipient value).mpr fun _ => ?_⟩
  obtain ⟨balance, seen⟩ :=
    view_transferBalance context.state sender recipient value
  change part (view _) = _
  rw [seen, ignores.same]

instance keepsPart_destroy :
    Procedure.Moves (KeepsPart part) (destroy : Exec S Unit) := by
  unfold destroy useGasSelfDestruct
  infer_instance

instance keepsPart_callEffect
    (callee caller : Addr) (input : Bytes) (gas : Gas) (value : Wei)
    (args : CallType S) :
    Procedure.Moves (KeepsPart part)
      (callEffect callee caller input gas value args) := by
  refine moves_callEffect ?_ ?_ ?_
  · unfold admitCall
    infer_instance
  · rw [fundCall_eq]
    infer_instance
  · unfold runCodeEffect
    infer_instance

end Balance

/-- Only `SSTORE` and creations write the storage, the nonces and the codes. -/
theorem keepsPart_effect
    [View.IgnoresLogs part] [View.IgnoresBalance part] {inst : Inst}
    (plainStore : inst.opcode ≠ .sstore) (noCreation : inst.opcode.isCreation = false) :
    Procedure.Moves (KeepsPart part) (effect inst : Exec S (Tail S)) := by
  by_cases plain : inst.opcode.isPlain
  · have quiet : Procedure.Moves Quiet (effect inst : Exec S (Tail S)) :=
      quiet_effect plain
    infer_instance
  · obtain ⟨opcode, data, pos⟩ := inst
    cases opcode <;> simp only [Opcode.isPlain, not_true_eq_false] at plain <;>
      simp only [ne_eq, not_true_eq_false] at plainStore <;>
      simp only [Opcode.isCreation, Bool.true_eq_false] at noCreation <;>
      simp only [effect, dispatch, callBeginEffect, callCodeBeginEffect,
        delegateCallBeginEffect, staticCallBeginEffect] <;>
      infer_instance

/-- `SSTORE` writes one slot of the executing contract. -/
theorem sstore_view {before after : TxExecContext S}
    (run : sstore before = .ok () after) :
    view after.state = (view before.state).setState before.curCall.callee
      (operand before 0) (operand before 1) := by
  unfold sstore at run
  have writable := Procedure.reads_bind_ok.mp run
  obtain ⟨_, _, checks, pops⟩ := Procedure.bind_ok.mp writable
  obtain ⟨-, rfl⟩ := Procedure.raiseIf_ok.mp checks
  obtain ⟨⟨key, val⟩, _, operands, pays⟩ := Procedure.bind_ok.mp pops
  obtain ⟨rfl, rfl, rfl⟩ := consume2_ok operands
  obtain ⟨_, paid, charged, writes⟩ := Procedure.bind_ok.mp pays
  have kept : KeepsPart id (popped _ 2) paid := Procedure.Moves.ok charged
  obtain ⟨-, rfl⟩ := Outcome.ok.inj writes
  change view (setState paid.state _ _ _) = _
  rw [LawfulWorldState.view_setState, show view paid.state = _ from kept]
  rfl

/-- Setting up a contract counts up the nonce of its creator, clears the account
of the contract and sets its nonce from Spurious Dragon on. -/
theorem prepareCreate_view
    (contractAddr caller : Addr) (value : Wei) (before : TxExecContext S) :
    Procedure.wp (prepareCreate contractAddr caller value)
      (fun _ after =>
        ∃ nonce, checkedAddU64 ((view before.state).nonce caller) 1 = some nonce ∧
          view after.state =
            if before.curCall.fork ≥ .spuriousDragon then
              (((view before.state).setNonce caller
                nonce).createAccount contractAddr).setNonce contractAddr 1
            else
              ((view before.state).setNonce caller nonce).createAccount contractAddr)
      (fun _ _ => True) before := by
  simp only [prepareCreate, Procedure.wp_bind, readState, Procedure.wp_reads,
    Procedure.wp_raiseIf, Procedure.wp_okOr, writeState,
    Procedure.wp_update, Exec.fork, Procedure.wp_when, addAddr, implies_true,
    true_and, and_true, LawfulWorldState.view_setNonce,
    LawfulWorldState.view_createAccount, ← LawfulWorldState.nonce_view]
  intro _ nonce counted
  refine ⟨fun _ _ _ => ⟨fun dragon => ?_, fun early => ?_⟩,
    fun _ _ _ => ⟨fun dragon => ?_, fun early => ?_⟩⟩
  · exact ⟨nonce, counted, (if_pos dragon).symm⟩
  · exact ⟨nonce, counted, (if_neg early).symm⟩
  · exact ⟨nonce, counted, (if_pos dragon).symm⟩
  · exact ⟨nonce, counted, (if_neg early).symm⟩

/-- Everything that belongs to an account but its balance. -/
def View.own (account : Addr) (view : View) : (Hash → U256) × UInt64 × Bytes :=
  (view.storage account, view.nonce account, view.code account)

instance (account : Addr) : View.IgnoresLogs (View.own account) :=
  ⟨fun _ _ => rfl⟩

instance (account : Addr) : View.IgnoresBalance (View.own account) :=
  ⟨fun _ _ => rfl⟩

/-- A creation changes nothing but the new contract, the nonce of the creator and
balances. -/
theorem creation_own
    {inst : Inst} {tail : Tail S} {before after : TxExecContext S}
    (creation : inst.opcode.isCreation) (run : effect inst before = .ok tail after) :
    ∃ code value gas saved contract nonce,
      tail = .enter code [] value contract before.curCall.callee
        (.create ⟨saved, contract⟩) gas false ∧
      checkedAddU64 ((view before.state).nonce before.curCall.callee) 1 =
        some nonce ∧
      ∀ account, account ≠ contract →
        View.own account (view after.state) = View.own account
          ((view before.state).setNonce before.curCall.callee nonce) := by
  obtain ⟨code, value, gas, saved, contract, snapped, rfl, -, same, -, opens⟩ :=
    creation_opens creation run
  rw [openCreate_eq] at opens
  obtain ⟨_, prepared, prepares, rest⟩ := Procedure.bind_ok.mp opens
  have seen := Procedure.wp_ok
    (prepareCreate_view contract before.curCall.callee value snapped) prepares
  rw [same] at seen
  obtain ⟨nonce, counted, seen⟩ := seen
  refine ⟨code, value, gas, saved, contract, nonce, rfl, counted,
    fun account other => ?_⟩
  have kept : KeepsPart (View.own account) prepared after :=
    Procedure.Moves.ok rest
  refine Eq.trans kept ?_
  rw [seen]
  split
  · simp only [View.own, View.createAccount, View.setNonce,
      Function.update_of_ne other]
  · simp only [View.own, View.createAccount, Function.update_of_ne other]

end Exec
end Qevm
