import Qevm.Core.Funds
import Qevm.Core.Panics
import Qevm.Core.Seen

/-!
# What instructions do to the funds

Transfers and account creations keep the sum of all balances, and a transfer is
only made when its sender can pay, so it succeeds as long as the sum is a word.
`SELFDESTRUCT` may lose money, because a contract may name itself.
-/

set_option synthInstance.maxSize 100000

namespace Qevm

open Params WorldState Exec TxExecContext
open Procedure (Permits Panics)

variable {S : Type} [WorldState S] [Keccak256] [LawfulWorldState S]

/-- The sum of all balances of the live world state. -/
noncomputable def TxExecContext.funds (context : TxExecContext S) : Nat :=
  (view context.state).total

instance : View.IgnoresLogs View.balance := ⟨fun _ _ => rfl⟩

/-- All balances are kept. -/
abbrev TxExecContext.KeepsBalance :
    TxExecContext S → TxExecContext S → Prop := KeepsPart View.balance

/-- The panics other than that of a transfer. -/
def OffTransfer (reason : Panic) : Prop := reason ≠ .transferFailed

namespace Exec

omit [WorldState S] [Keccak256] [LawfulWorldState S] in
instance : PermitsLocal OffTransfer := by
  constructor <;> simp [OffTransfer]

instance : Permits OffTransfer .callStackEmpty := ⟨by simp [OffTransfer]⟩
instance : Permits OffTransfer .callStackNotEmpty := ⟨by simp [OffTransfer]⟩
instance : Permits OffTransfer .unreachable := ⟨by simp [OffTransfer]⟩

/-! ### Work that keeps all balances -/

instance keepsBalance_setNonce (account : Addr) (nonce : UInt64) :
    Procedure.Moves KeepsBalance
      (writeState (setNonce · account nonce) : Exec S Unit) := by
  apply keepsPart_writeState
  intro state
  rw [LawfulWorldState.view_setNonce]
  rfl

instance keepsBalance_setState (account : Addr) (key : Hash) (val : U256) :
    Procedure.Moves KeepsBalance
      (writeState (setState · account key val) : Exec S Unit) := by
  apply keepsPart_writeState
  intro state
  rw [LawfulWorldState.view_setState]
  rfl

instance keepsBalance_setCode (account : Addr) (code : Bytes) :
    Procedure.Moves KeepsBalance
      (writeState (setCode · account code) : Exec S Unit) := by
  apply keepsPart_writeState
  intro state
  rw [LawfulWorldState.view_setCode]
  rfl

instance keepsBalance_createAccount (account : Addr) :
    Procedure.Moves KeepsBalance
      (writeState (createAccount · account) : Exec S Unit) := by
  apply keepsPart_writeState
  intro state
  rw [LawfulWorldState.view_createAccount]
  rfl

instance keepsBalance_sstore :
    Procedure.Moves KeepsBalance (sstore : Exec S Unit) := by
  unfold sstore
  infer_instance

/-! ### Work that keeps the sum of all balances -/

/-- Started in a context, a procedure keeps the sum of all balances and makes no
transfer that fails. -/
structure ConservesAt (program : Exec S α) (context : TxExecContext S) : Prop where
  keeps : Procedure.wp program (fun _ after => after.funds = context.funds)
    (fun _ after => after.funds = context.funds) context
  covered : ∀ reason, program context = .panic reason → OffTransfer reason

/-- A procedure keeps the sum of all balances as long as it is a word. -/
class Conserves (program : Exec S α) : Prop where
  holds : ∀ context : TxExecContext S, context.funds < 2 ^ 256 →
    ConservesAt program context

/-- A part of a composition starts where the parts before it end. -/
theorem ConservesAt.bind
    {first : Exec S α} {next : α → Exec S β} {context : TxExecContext S}
    (conserves : ConservesAt first context)
    (rest : ∀ value middle, first context = .ok value middle →
      middle.funds = context.funds → ConservesAt (next value) middle) :
    ConservesAt (first >>= next) context := by
  constructor
  · rw [Procedure.wp_bind]
    refine Procedure.wp_of_run (fun value middle run => ?_) (fun err after run => ?_)
    · have kept := Procedure.wp_ok conserves.keeps run
      refine Procedure.wp_mono (rest value middle run kept).keeps ?_ ?_
      · exact fun _ after same => Eq.trans same kept
      · exact fun _ after same => Eq.trans same kept
    · have kept := Procedure.wp_error conserves.keeps run
      exact kept
  · intro reason run
    obtain failed | ⟨value, middle, returns, failed⟩ :=
      Procedure.bind_panic.mp run
    · exact conserves.covered reason failed
    · have kept := Procedure.wp_ok conserves.keeps returns
      exact (rest value middle returns kept).covered reason failed

instance (priority := low) conserves_of_keepsBalance
    (program : Exec S α) [keeps : Procedure.Moves KeepsBalance program]
    [panics : Panics OffTransfer program] : Conserves program where
  holds context _ :=
    { keeps := Procedure.wp_mono (keeps.holds context)
        (fun _ _ kept => View.total_congr kept)
        (fun _ _ kept => View.total_congr kept)
      covered := fun _ run => panics.holds run }

instance conserves_bind
    (first : Exec S α) (next : α → Exec S β) [conserves : Conserves first]
    [nextConserves : ∀ value, Conserves (next value)] :
    Conserves (first >>= next) := by
  refine ⟨fun context bounded => ?_⟩
  refine (conserves.holds context bounded).bind fun value middle _ kept => ?_
  exact (nextConserves value).holds middle (kept ▸ bounded)

/-- A transfer that its sender can pay succeeds and keeps the sum. -/
theorem conservesAt_transfer
    {context : TxExecContext S} {sender : Addr} (recipient : Addr) {value : Wei}
    (covered : value ≤ getBalance context.state sender)
    (bounded : context.funds < 2 ^ 256) :
    ConservesAt (transfer sender recipient value) context := by
  obtain ⟨succeeds, kept⟩ := total_transferBalance recipient covered bounded
  have run : transfer sender recipient value context = .ok ()
      { context with
        state := (transferBalance context.state sender recipient value).1 } := by
    unfold transfer
    rw [← Prod.eta (transferBalance context.state sender recipient value), succeeds]
  constructor
  · rw [Procedure.wp, run]
    exact kept
  · intro reason panics
    rw [run] at panics
    contradiction

/-- Who can pay still can when all balances are kept. -/
theorem covered_of_keepsBalance
    {before after : TxExecContext S} {sender : Addr} {value : Wei}
    (kept : before.KeepsBalance after)
    (covered : value ≤ getBalance before.state sender) :
    value ≤ getBalance after.state sender := by
  rw [← LawfulWorldState.balance_view] at covered ⊢
  rw [show (view after.state).balance = _ from kept]
  exact covered

omit [LawfulWorldState S] in
/-- A creation is prepared, paid and recorded. -/
theorem createEffect_eq
    (contractAddr caller : Addr) (code : Bytes) (value : Wei) (gas : Gas)
    (args : CallType S) :
    createEffect contractAddr caller code value gas args = (do
      (do
        prepareCreate contractAddr caller value
        transfer caller contractAddr value)
      markDirty contractAddr
      markDirty caller
      markDirty contractAddr
      pure (.enter (PlainCode.new code).toCode [] value contractAddr caller args
        gas false)) := by
  simp only [createEffect, openCreate_eq, Procedure.bind_assoc]

omit [LawfulWorldState S] in
/-- A creation that is prepared can be paid. -/
theorem prepareCreate_ok
    {contractAddr caller : Addr} {value : Wei} {before after : TxExecContext S}
    (run : prepareCreate contractAddr caller value before = .ok () after) :
    value ≤ getBalance before.state caller := by
  unfold prepareCreate at run
  have checks := Procedure.reads_bind_ok.mp run
  obtain ⟨_, _, paid, -⟩ := Procedure.bind_ok.mp checks
  exact BitVec.not_lt.mp (Procedure.raiseIf_ok.mp paid).1

omit [Keccak256] [LawfulWorldState S] in
/-- A call that is admitted can be paid. -/
theorem admitCall_ok
    {callee caller : Addr} {value : Wei} {before after : TxExecContext S}
    (run : admitCall callee caller value before = .ok () after) :
    value ≤ getBalance before.state caller := by
  unfold admitCall at run
  have bounds := Procedure.reads_bind_ok.mp run
  obtain ⟨_, _, shallow, funds⟩ := Procedure.bind_ok.mp bounds
  obtain ⟨-, rfl⟩ := Procedure.raiseIf_ok.mp shallow
  have checks := Procedure.reads_bind_ok.mp funds
  obtain ⟨_, _, paid, -⟩ := Procedure.bind_ok.mp checks
  exact BitVec.not_lt.mp (Procedure.raiseIf_ok.mp paid).1

/-- A transfer after work that leaves all balances alone. -/
theorem ConservesAt.transfer_after
    {α : Type} {prepare : Exec S α} [keeps : Procedure.Moves KeepsBalance prepare]
    [Panics OffTransfer prepare] {sender : Addr} (recipient : Addr) {value : Wei}
    {context : TxExecContext S} (bounded : context.funds < 2 ^ 256)
    (covered : ∀ found after, prepare context = .ok found after →
      value ≤ getBalance context.state sender) :
    ConservesAt (prepare >>= fun _ => transfer sender recipient value) context := by
  have prepares : Conserves prepare := inferInstance
  refine (prepares.holds context bounded).bind fun found after run kept => ?_
  have balances : context.KeepsBalance after := keeps.ok run
  apply conservesAt_transfer
  · exact covered_of_keepsBalance balances (covered found after run)
  · rw [kept]
    exact bounded

instance conserves_createEffect
    (contractAddr caller : Addr) (code : Bytes) (value : Wei) (gas : Gas)
    (args : CallType S) :
    Conserves (createEffect contractAddr caller code value gas args) := by
  refine ⟨fun context bounded => ?_⟩
  have prepares : Procedure.Moves KeepsBalance
      (prepareCreate contractAddr caller value : Exec S Unit) := by
    unfold prepareCreate
    infer_instance
  have panics : Panics OffTransfer
      (prepareCreate contractAddr caller value : Exec S Unit) := by
    unfold prepareCreate
    infer_instance
  rw [createEffect_eq]
  refine ConservesAt.bind (ConservesAt.transfer_after contractAddr bounded
    fun _ _ run => prepareCreate_ok run) fun _ middle _ kept => ?_
  apply Conserves.holds
  rw [kept]
  exact bounded

/-- The funds of an admitted call are moved. -/
theorem conservesAt_fundCall
    {context : TxExecContext S} (callee : Addr) {caller : Addr} {value : Wei}
    (covered : value ≤ getBalance context.state caller)
    (bounded : context.funds < 2 ^ 256) :
    ConservesAt (fundCall callee caller value) context := by
  have panics : Panics OffTransfer (createMissing callee : Exec S Unit) := by
    unfold createMissing
    infer_instance
  rw [fundCall_eq]
  exact ConservesAt.transfer_after callee bounded fun _ _ _ => covered

instance conserves_callEffect
    (callee caller : Addr) (input : Bytes) (gas : Gas) (value : Wei)
    (args : CallType S) :
    Conserves (callEffect callee caller input gas value args) := by
  refine ⟨fun context bounded => ?_⟩
  have admits : Procedure.Moves KeepsBalance
      (admitCall callee caller value : Exec S Unit) := by
    unfold admitCall
    infer_instance
  have panics : Panics OffTransfer
      (admitCall callee caller value : Exec S Unit) := by
    unfold admitCall
    infer_instance
  have conserves : Conserves (admitCall callee caller value : Exec S Unit) :=
    inferInstance
  have reads : Conserves (Procedure.read : Exec S (TxExecContext S)) :=
    inferInstance
  have settles (ret : Bytes) (err : Result) :
      Conserves (pure (.settle args ret gas err) : Exec S (Tail S)) :=
    inferInstance
  have runs : Conserves (runCodeEffect callee caller input gas value args) := by
    unfold runCodeEffect
    infer_instance
  unfold callEffect
  refine (conserves.holds context bounded).bind fun _ admitted run kept => ?_
  have balances : context.KeepsBalance admitted := admits.ok run
  have covered := covered_of_keepsBalance balances (admitCall_ok run)
  have still : admitted.funds < 2 ^ 256 := kept ▸ bounded
  refine (reads.holds admitted still).bind fun self _ found _ => ?_
  obtain ⟨rfl, rfl⟩ := Outcome.ok.inj found
  dsimp only
  split
  · exact (settles _ _).holds admitted still
  · refine (conservesAt_fundCall callee covered still).bind
      fun _ funded _ same => ?_
    have last : funded.funds < 2 ^ 256 := same ▸ still
    split
    · exact runs.holds funded last
    · exact (settles _ _).holds funded last

/-- An instruction other than `SELFDESTRUCT` conserves funds. -/
theorem conserves_effect {inst : Inst} (other : inst.opcode ≠ .selfDestruct) :
    Conserves (effect inst : Exec S (Tail S)) := by
  by_cases plain : inst.opcode.isPlain
  · have quiet : Procedure.Moves Quiet (dispatch inst : Exec S Unit) :=
      quiet_dispatch plain
    have panics : Panics OffTransfer (dispatch inst : Exec S Unit) :=
      panics_dispatch plain
    rw [effect_plain plain]
    infer_instance
  · obtain ⟨opcode, data, pos⟩ := inst
    cases opcode <;> simp only [Opcode.isPlain, not_true_eq_false] at plain <;>
      simp only [ne_eq, not_true_eq_false] at other <;>
      simp only [effect, dispatch, createBeginEffect, create2BeginEffect,
        callBeginEffect, callCodeBeginEffect, delegateCallBeginEffect,
        staticCallBeginEffect] <;>
      infer_instance

/-! ### Self-destruction -/

/-- Everything that `SELFDESTRUCT` does before it moves the funds. -/
def chargeDestroy : Exec S (Addr × Addr) := do
  let call ← call
  Procedure.raiseIf call.readOnly .writeProtection
  let beneficiary := U256.toAddr (← consume1)
  let self ← Procedure.read
  Procedure.when
    (call.fork ≥ .berlin ∧ !self.accessList.containsAddr beneficiary) do
      addAddr beneficiary
      useGas gasColdAccountAccessCostBerlin
  Procedure.when (call.fork ≥ .tangerineWhistle)
    (useGasSelfDestruct call beneficiary)
  pure (call.callee, beneficiary)

omit [LawfulWorldState S] in
/-- The funds are moved once everything is paid. -/
theorem destroy_paid :
    (destroy : Exec S Unit) = (do
      let accounts ← chargeDestroy
      sweep accounts.1 accounts.2
      markDestroyed accounts.1
      markDirty accounts.1
      markDirty accounts.2) := by
  simp only [destroy, chargeDestroy, Procedure.bind_assoc,
    Procedure.pure_bind]

/-- An instruction does not increase the sum of all balances, and keeps it unless
`SELFDESTRUCT` is carried out. -/
theorem effect_funds
    (inst : Inst) (context : TxExecContext S) (bounded : context.funds < 2 ^ 256) :
    Procedure.wp (effect inst)
      (fun _ after => after.funds ≤ context.funds ∧
        (inst.opcode ≠ .selfDestruct → after.funds = context.funds))
      (fun _ after => after.funds = context.funds) context := by
  by_cases destroys : inst.opcode = .selfDestruct
  · obtain ⟨opcode, data, pos⟩ := inst
    obtain rfl : opcode = .selfDestruct := destroys
    have charges : Procedure.Moves KeepsBalance
        (chargeDestroy : Exec S (Addr × Addr)) := by
      unfold chargeDestroy useGasSelfDestruct
      infer_instance
    simp only [effect, destroy_paid, Procedure.bind_assoc]
    refine Procedure.wp_of_run (fun tail after run => ?_) (fun err after run => ?_)
    · obtain ⟨accounts, paid, charged, run⟩ := Procedure.bind_ok.mp run
      have kept : context.KeepsBalance paid := charges.ok charged
      have same : paid.funds = context.funds := View.total_congr kept
      obtain ⟨-, rfl⟩ := Outcome.ok.inj run
      refine ⟨?_, fun other => absurd rfl other⟩
      rw [← same]
      exact total_sweep paid.state accounts.1 accounts.2
    · obtain raised | ⟨accounts, paid, charged, run⟩ :=
        Procedure.bind_error.mp run
      · have kept : context.KeepsBalance after := charges.error raised
        exact View.total_congr kept
      · contradiction
  · refine Procedure.wp_mono ((conserves_effect destroys).holds context bounded).keeps
      ?_ (fun _ _ kept => kept)
    exact fun _ after kept => ⟨Nat.le_of_eq kept, fun _ => kept⟩

/-- The transfers of an instruction do not fail. -/
theorem effect_covered
    {inst : Inst} {context : TxExecContext S} {reason : Panic}
    (bounded : context.funds < 2 ^ 256)
    (run : (effect inst : Exec S (Tail S)) context = .panic reason) :
    OffTransfer reason := by
  by_cases destroys : inst.opcode = .selfDestruct
  · obtain ⟨opcode, data, pos⟩ := inst
    obtain rfl : opcode = .selfDestruct := destroys
    have panics : Panics OffTransfer (do
        destroy
        pure (.finish [] (.ok ())) : Exec S (Tail S)) := inferInstance
    exact panics.holds run
  · exact ((conserves_effect destroys).holds context bounded).covered reason run

end Exec
end Qevm
