import Qevm.Core.Refund
import Qevm.Core.Run
import Qevm.Core.Saved
import Qevm.Laws.Ownership
import Qevm.State.Dummy

/-!
# The refund counter and the cleared slots

The refund counter belongs to the transaction: it is not rolled back with the world
state, and starts at zero although earlier transactions of the block may have cleared
slots.  As long as it covers the cleared slots it does not panic.
-/

namespace Qevm

open WorldState Exec TxExecContext

/-- The slots that were set at the start of the block and are clear. -/
def View.cleared (committed seen : View) : Set (Addr × Hash) :=
  {slot | committed.storage slot.1 slot.2 ≠ 0 ∧ seen.storage slot.1 slot.2 = 0}

section Law

variable {S : Type}

/-- All frames execute by the rules of the fork of the block. -/
def TxExecContext.OnFork (fork : Fork) (context : TxExecContext S) : Prop :=
  context.env.block.fork = fork ∧ ∀ frame ∈ context.frames, frame.fork = fork

/-! ### All frames are on one fork -/

namespace TxExecContext.OnFork

variable {fork : Fork} {before after : TxExecContext S}

theorem curCall (onFork : before.OnFork fork) : before.curCall.fork = fork :=
  onFork.2 before.curCall List.mem_cons_self

/-- Work of the executing frame changes no fork. -/
theorem remains
    (onFork : before.OnFork fork) (remains : before.Remains after) :
    after.OnFork fork := by
  refine ⟨(congrArg (fun env => env.block.fork) remains.env).trans onFork.1,
    fun frame member => ?_⟩
  rw [frames, remains.callStack] at member
  obtain rfl | member := List.mem_cons.mp member
  · exact remains.curCall.fork.trans onFork.curCall
  · exact onFork.2 frame (List.mem_cons_of_mem _ member)

/-- A frame is pushed on the fork of the block. -/
theorem pushed
    (onFork : before.OnFork fork) {top : CallFrame S} (same : top.fork = fork) :
    OnFork fork
      { before with
        callStack := before.curCall :: before.callStack, curCall := top } := by
  refine ⟨onFork.1, fun frame member => ?_⟩
  obtain rfl | member := List.mem_cons.mp member
  · exact same
  · exact onFork.2 frame member

/-- A frame that gives way takes nothing from the others. -/
theorem popped
    (onFork : before.OnFork fork) {next : CallFrame S}
    {callStack : List (CallFrame S)}
    (suspended : before.callStack = next :: callStack) :
    OnFork fork { before with callStack := callStack, curCall := next } := by
  refine ⟨onFork.1, fun frame member => onFork.2 frame ?_⟩
  rw [frames, suspended]
  exact List.mem_cons_of_mem _ member

variable [WorldState S] [Keccak256]

/-- Ending frames changes no fork. -/
theorem ended
    {data : Bytes} {err : Result} (onFork : before.OnFork fork)
    (ends : Ends before after data err) : after.OnFork fork := by
  induction ends with
  | instruction fetches runs =>
      have works : before.Works _ := Procedure.Moves.ok runs
      exact onFork.remains works.remains
  | raised fetches raises =>
      obtain remains | ⟨working, data, result, runs, raises⟩ :=
        dispatch_error_remains raises
      · exact onFork.remains remains
      · have works : before.Works working := Procedure.Moves.ok runs
        obtain ⟨next, callStack, suspended, leaves⟩ := finishCall_error raises
        exact ((onFork.remains works.remains).popped suspended).remains leaves.remains
  | unwound ends raises inductionHypothesis =>
      obtain ⟨next, callStack, suspended, leaves⟩ := finishCall_error raises
      exact (inductionHypothesis.popped suspended).remains leaves.remains

end TxExecContext.OnFork

variable [WorldState S] [Keccak256]

/-- An iteration changes no fork. -/
theorem Step.onFork
    {fork : Fork} {before after : TxExecContext S} (step : Step before after)
    (onFork : before.OnFork fork) : after.OnFork fork := by
  obtain ⟨inst, -, continues | enters | settled | ended⟩ := step.cases
  · obtain ⟨working, effected, rfl⟩ := continues
    have works : before.Works working := Procedure.Moves.ok effected
    exact onFork.remains (works.remains.trans (remains_advanced working inst))
  · obtain ⟨_, _, _, _, _, _, _, _, working, effected, run⟩ := enters
    have works : before.Works working := Procedure.Moves.ok effected
    have working := onFork.remains works.remains
    rw [callPush_ok run]
    exact working.pushed working.1
  · obtain ⟨args, ret, gas, err, working, moved, effected, ends, rfl⟩ := settled
    have works : before.Works working := Procedure.Moves.ok effected
    have settles : working.Settles moved := Procedure.Moves.ok ends
    exact onFork.remains (works.remains.trans
      (settles.toLeaves.remains.trans (remains_pc moved _)))
  · obtain ⟨ending, data, err, settled, ends, finished, rfl⟩ := ended
    obtain ⟨next, callStack, suspended, leaves⟩ := finishCall_ok finished
    exact ((onFork.ended ends).popped suspended).remains
      (leaves.remains.trans (remains_advanced settled inst))

/-- A transaction enters the loop on the fork of its block. -/
theorem Transaction.Enters.onFork
    {tx : Transaction S} {entered : TxExecContext S} (enters : tx.Enters entered)
    (running : entered.status = .running) : entered.OnFork tx.env.block.fork := by
  obtain ⟨initial, _, _, _, _, _, _, _, working, context, -, stays, alone, rfl⟩ :=
    enters.pushed running
  have initially : initial.OnFork tx.env.block.fork := by
    obtain ⟨accessList, rfl⟩ := context_eq_some context
    refine ⟨rfl, fun frame member => ?_⟩
    obtain rfl := List.mem_singleton.mp member
    rfl
  have working := initially.remains stays.toWorks.remains
  rw [← alone]
  exact working.pushed working.1

/-! ### A covered counter -/

variable [LawfulWorldState S]

/-- The refund counter holds the refund for clearing a slot for every slot that was
set at the start of the block and is clear. -/
def TxExecContext.Covered (context : TxExecContext S) : Prop :=
  Covers (clearingRefund context.env.block.fork).toNat
    (View.cleared (view context.committedState) (view context.state))
    context.refund.toNat

/-- The counter stays covered when the storage is the same and nothing is taken. -/
theorem TxExecContext.Covered.same
    {before after : TxExecContext S} (covered : before.Covered)
    (storage : (view after.state).storage = (view before.state).storage)
    (committed : after.committedState = before.committedState)
    (env : after.env = before.env)
    (refund : before.refund.toNat ≤ after.refund.toNat) : after.Covered := by
  unfold Covered
  rw [committed, env]
  apply covered.mono _ refund
  rintro slot ⟨was, clear⟩
  exact ⟨was, by rw [← storage]; exact clear⟩

instance : View.IgnoresLogs View.storage := ⟨fun _ _ => rfl⟩

instance : View.IgnoresBalance View.storage := ⟨fun _ _ => rfl⟩

namespace Exec

instance keepsStorage_setCode (account : Addr) (code : Bytes) :
    Procedure.Moves (KeepsPart View.storage)
      (writeState (setCode · account code) : Exec S Unit) := by
  apply keepsPart_writeState
  intro state
  rw [LawfulWorldState.view_setCode]
  rfl

variable {before after : TxExecContext S}

/-- `SSTORE` keeps the counter covered. -/
theorem sstore_keepsCovered
    (onFork : before.OnFork before.env.block.fork)
    (forked : before.env.block.fork ≥ .istanbul) (room : before.HasRoom)
    (covered : before.Covered) (run : sstore before = .ok () after) :
    after.Covered := by
  have works : before.Works after := Procedure.Moves.ok run
  have fork := onFork.curCall
  have metered := sstore_metered (fork ▸ forked) room run
  rw [fork] at metered
  unfold Covered
  rw [works.committedState, works.env, sstore_view run]
  apply covered.change (a := (before.curCall.callee, operand before 0))
  · rintro ⟨account, key⟩ other
    have same : ((view before.state).setState before.curCall.callee (operand before 0)
        (operand before 1)).storage account key =
          (view before.state).storage account key := by
      by_cases owner : account = before.curCall.callee
      · subst owner
        have different : key ≠ operand before 0 := fun same => other (same ▸ rfl)
        simp only [View.setState, Function.update_self,
          Function.update_of_ne different]
      · simp only [View.setState, Function.update_of_ne owner]
    simp only [View.cleared, Set.mem_ofPred_eq, same]
  · have new : ((view before.state).setState before.curCall.callee (operand before 0)
        (operand before 1)).storage before.curCall.callee (operand before 0) =
          operand before 1 := by
      simp only [View.setState, Function.update_self]
    simp only [View.cleared, Set.mem_ofPred_eq, new, LawfulWorldState.storage_view]
    exact metered

/-- An instruction that creates no contract keeps the counter covered. -/
theorem effect_keepsCovered
    {inst : Inst} {tail : Tail S} (onFork : before.OnFork before.env.block.fork)
    (forked : before.env.block.fork ≥ .istanbul) (room : before.HasRoom)
    (covered : before.Covered) (noCreation : inst.opcode.isCreation = false)
    (run : effect inst before = .ok tail after) : after.Covered := by
  by_cases store : inst.opcode = .sstore
  · exact sstore_keepsCovered onFork forked room covered (sstore_effect store run).2
  · have works : before.Works after := Procedure.Moves.ok run
    have keeps : Procedure.Moves (KeepsPart View.storage)
        (effect inst : Exec S (Tail S)) := keepsPart_effect store noCreation
    exact covered.same (keeps.ok run) works.committedState works.env
      (effect_refund store room run)

/-! ### The end of a frame -/

/-- The context in which the end of a frame is settled, with the world state that is
left to the frame below. -/
def leaving (ending : TxExecContext S) (err : Result) : TxExecContext S :=
  { ending with
    state := returnedState ending.curCall.callType.snapshot err ending.state }

/-- The end of a call or a creation leaves the storage of the world state that it goes
back to. -/
theorem settleEnd_storage
    {callType : CallType S} {data : Bytes} {gas : Gas} {err : Result}
    (nested : ∀ args, callType ≠ .tx args)
    (run : settleEnd callType data gas err before = .ok () after) :
    (view after.state).storage =
      (view (returnedState callType.snapshot err before.state)).storage := by
  cases callType with
  | tx args => exact absurd rfl (nested args)
  | call args =>
      have settled : callEnd args data gas err before = .ok () after := run
      rw [callEnd_state settled]
      rfl
  | create args =>
      have settled : createEnd args data gas err before = .ok () after := run
      obtain ⟨outcome, final, stack, processes, -, rfl⟩ := createEnd_ok settled
      have processing : Procedure.Moves (KeepsPart View.storage)
          (createPostProcessing args.contractAddr data err : Exec S Unit) :=
        moves_createPostProcessing args.contractAddr data err
      have kept : KeepsPart View.storage _ final := Procedure.Moves.ok processes
      exact kept

/-- The end of a frame that leaves the transaction running. -/
theorem finishCall_storage
    {data : Bytes} {err : Result} (suspended : after.callStack ≠ [])
    (run : finishCall data err before = .ok () after) :
    (view after.state).storage = (view (leaving before err).state).storage := by
  obtain ⟨frame, callStack, stack, settles⟩ := finishCall_ok_settles run suspended
  rw [finishCall_cons data err stack] at run
  have nested : ∀ args, before.curCall.callType ≠ .tx args := by
    intro args callType
    rw [callType] at run
    have empty : callStack = [] := (txEnd_ok run).1
    exact suspended (settles.callStack.trans empty)
  have stored := settleEnd_storage nested run
  exact stored

end Exec

/-- What keeps the counter covered where slots are written other than by `SSTORE`, and
where refunds are given. -/
structure TxExecContext.Keeping (context : TxExecContext S) : Prop where
  /-- The counter does not overflow. -/
  room : context.HasRoom
  /-- A frame that fails leaves no more clear slots than the counter is good for. -/
  fails : ∀ {ending data err settled}, Ends context ending data (.error err) →
    finishCall data (.error err) ending = .ok () settled →
    (leaving ending (.error err)).Covered
  /-- Neither does the creation of a contract. -/
  creates : ∀ {inst tail working}, Fetches context inst →
    inst.opcode.isCreation = true → effect inst context = .ok tail working →
    working.Covered

/-- An iteration after which the transaction is running keeps the counter covered. -/
theorem Step.covered
    {before after : TxExecContext S} (step : Step before after)
    (onFork : before.OnFork before.env.block.fork)
    (forked : before.env.block.fork ≥ .istanbul) (suspended : after.callStack ≠ [])
    (keeping : before.Keeping) (covered : before.Covered) : after.Covered := by
  have works {inst : Inst} {tail : Tail S} {working : TxExecContext S}
      (fetches : Fetches before inst) (run : effect inst before = .ok tail working) :
      working.Covered := by
    cases creation : inst.opcode.isCreation with
    | true => exact keeping.creates fetches creation run
    | false =>
        exact effect_keepsCovered onFork forked keeping.room covered creation run
  obtain ⟨inst, fetches, continues | enters | settled | ended⟩ := step.cases
  · obtain ⟨working, effected, rfl⟩ := continues
    have worked := works fetches effected
    exact worked
  · obtain ⟨_, _, _, _, _, _, _, _, working, effected, run⟩ := enters
    rw [callPush_ok run]
    have worked := works fetches effected
    exact worked
  · obtain ⟨args, ret, gas, err, working, moved, effected, ends, rfl⟩ := settled
    have work : before.Works working := Procedure.Moves.ok effected
    have settles : working.Settles moved := Procedure.Moves.ok ends
    have noStore : inst.opcode ≠ .sstore := by
      intro store
      have next := (sstore_effect store effected).1
      contradiction
    have noCreation : inst.opcode.isCreation = false := by
      by_contra creation
      obtain ⟨_, _, _, _, _, _, enters, -⟩ :=
        creation_own (Bool.not_eq_false _ ▸ creation) effected
      contradiction
    have keeps : Procedure.Moves (KeepsPart View.storage)
        (effect inst : Exec S (Tail S)) := keepsPart_effect noStore noCreation
    have kept : before.KeepsPart View.storage working := keeps.ok effected
    have storage : (view moved.state).storage = (view before.state).storage := by
      rw [callEnd_state ends]
      unfold returnedState
      split
      · cases saved : args.snapshot with
        | none => exact kept
        | some state =>
            rw [Option.elim_some, LawfulWorldState.view_rollback,
              opened_saved effected rfl saved]
      · exact kept
    have refund := effect_refund noStore keeping.room effected
    rw [← settles.refund] at refund
    exact covered.same storage (settles.committedState.trans work.committedState)
      (settles.env.trans work.env) refund
  · obtain ⟨ending, data, err, settled, ends, finished, rfl⟩ := ended
    have below : settled.callStack ≠ [] := suspended
    obtain ⟨frame, callStack, -, settles⟩ := finishCall_ok_settles finished below
    have left : (leaving ending err).Covered := by
      cases err with
      | error err => exact keeping.fails ends finished
      | ok _ =>
          cases ends with
          | instruction found effected =>
              have worked := works found effected
              exact worked
    have storage := finishCall_storage below finished
    exact left.same storage settles.committedState settles.env
      (Nat.le_of_eq (congrArg UInt64.toNat settles.refund.symm))

/-- A run of a transaction that keeps the counter covered where it must be asked
for. -/
inductive Transaction.Covering (tx : Transaction S) : TxExecContext S → Prop
  /-- No slot that was set at the start of the block is clear when the transaction
  enters the loop with its empty counter. -/
  | enters {entered : TxExecContext S} :
      tx.Enters entered → entered.Covered → tx.Covering entered
  | step {before after : TxExecContext S} :
      tx.Covering before → before.Keeping → Step before after → tx.Covering after

variable {tx : Transaction S} {context : TxExecContext S}

omit [LawfulWorldState S] in
/-- A running transaction is on the fork of its block. -/
theorem Transaction.Reaches.onFork
    (reaches : tx.Reaches context) (running : context.status = .running) :
    context.OnFork tx.env.block.fork := by
  refine reaches.while_running (fun _ => Enters.onFork) ?_ running
  intro before after _ onFork step _
  exact step.onFork onFork

theorem Transaction.Covering.reaches (covering : tx.Covering context) :
    tx.Reaches context := by
  induction covering with
  | enters enters => exact ⟨_, enters, .refl⟩
  | step _ _ step inductionHypothesis => exact inductionHypothesis.step step

/-- As long as the transaction runs the counter is covered. -/
theorem Transaction.Covering.covered
    (covering : tx.Covering context) (forked : tx.env.block.fork ≥ .istanbul)
    (running : context.status = .running) : context.Covered := by
  induction covering with
  | enters _ covered => exact covered
  | @step before after earlier keeping step inductionHypothesis =>
      have onFork := earlier.reaches.onFork step.1
      have suspended : after.callStack ≠ [] := by
        have inside := earlier.reaches.inTransaction step
        obtain inside | ⟨args, data, err, ending, bottom, finishes⟩ :=
          step.inTransaction inside
        · exact inside.suspended
        · exact absurd running finishes.not_running
      have same := onFork.1
      exact step.covered (same ▸ onFork) (same ▸ forked) suspended keeping
        (inductionHypothesis step.1)

/-! ### Runs that keep the counter covered -/

/-- A counter covers what it has to as long as nothing is clear that was set. -/
theorem TxExecContext.covered_of_storage
    (storage : (view context.state).storage =
      (view context.committedState).storage) : context.Covered := by
  apply Covers.of_empty
  rintro slot ⟨was, clear⟩
  rw [storage] at clear
  exact was clear

instance keepsStorage_setNonce (account : Addr) (nonce : UInt64) :
    Procedure.Moves (KeepsPart View.storage)
      (writeState (setNonce · account nonce) : Exec S Unit) := by
  apply keepsPart_writeState
  intro state
  rw [LawfulWorldState.view_setNonce]
  rfl

/-- A message call on the storage of the start of the block enters the loop
covered. -/
theorem Transaction.Enters.covered
    {entered : TxExecContext S} (enters : tx.Enters entered)
    (running : entered.status = .running) (calls : tx.recipient ≠ none)
    (storage : (view tx.state).storage = (view tx.committedState).storage) :
    entered.Covered := by
  obtain ⟨recipient, recipients⟩ := Option.ne_none_iff_exists'.mp calls
  obtain ⟨initial, _, _, _, _, _, _, _, working, context, effected, stays, -, rfl⟩ :=
    enters.pushed running
  rw [startEffect, recipients] at effected
  have keeps : Procedure.Moves (KeepsPart View.storage)
      (tx.startCallEffect recipient : Exec S (Tail S)) := by
    unfold startCallEffect
    infer_instance
  have kept : initial.KeepsPart View.storage working := keeps.ok effected
  obtain ⟨accessList, rfl⟩ := context_eq_some context
  apply covered_of_storage
  change (view working.state).storage = (view working.committedState).storage
  rw [stays.committedState]
  exact Eq.trans kept storage

/-- An iteration that neither pushes nor ends a frame asks only for room. -/
theorem Step.keeping
    {before after : TxExecContext S} (step : Step before after)
    (level : after.callStack.length = before.callStack.length)
    (room : before.HasRoom) : before.Keeping where
  room := room
  fails := by
    intro ending data err settled ends finished
    obtain ⟨inst, -, run⟩ := ends.iterate finished
    obtain ⟨-, same⟩ := Outcome.ok.inj (step.2.symm.trans run)
    have shorter := ends.shorter finished
    rw [same] at level
    exact absurd level (Nat.ne_of_lt shorter)
  creates := by
    intro inst tail working fetches creation run
    obtain ⟨_, _, _, _, _, _, rfl, -⟩ := creation_own creation run
    obtain ⟨found, foundFetches, continues | enters | settled | ended⟩ := step.cases
    all_goals obtain rfl := Option.some.inj (fetches.symm.trans foundFetches)
    · obtain ⟨_, effected, -⟩ := continues
      cases run.symm.trans effected
    · obtain ⟨_, _, _, _, _, _, _, _, opened, effected, pushes⟩ := enters
      have work : before.Works opened := Procedure.Moves.ok effected
      rw [callPush_ok pushes, List.length_cons, work.callStack] at level
      exact absurd level (Nat.succ_ne_self _)
    · obtain ⟨_, _, _, _, _, _, effected, -⟩ := settled
      cases run.symm.trans effected
    · obtain ⟨ending, data, err, settled, ends, finished, rfl⟩ := ended
      have shorter := ends.shorter finished
      exact absurd level (Nat.ne_of_lt shorter)

/-- A run in which no frame is pushed or ended keeps the counter covered as long as
there is room. -/
theorem Transaction.Covering.level
    {depth count : Nat} {before after : TxExecContext S} (covering : tx.Covering before)
    (level : before.callStack.length = depth ∧ before.HasRoom)
    (run : runFor (fun context => decide (context.callStack.length = depth ∧
      context.HasRoom)) count before = some after) : tx.Covering after := by
  have runs : tx.Covering after ∧ after.callStack.length = depth ∧ after.HasRoom := by
    have steps := runFor_run run
    clear run
    induction steps with
    | refl => exact ⟨covering, level⟩
    | tail _ step inductionHypothesis =>
        obtain ⟨covering, was, room⟩ := inductionHypothesis
        have next := of_decide_eq_true step.2
        have same := next.1.trans was.symm
        exact ⟨covering.step (step.1.keeping same room) step.1, next⟩
  exact runs.1

/-! ### When the counter panics -/

omit [LawfulWorldState S] in
/-- Only `SSTORE` makes the counter panic. -/
theorem iterate_offRefund
    {before : TxExecContext S} {reason : Panic}
    (run : iterate before = .panic reason) :
    OffRefund reason ∨
      ∃ inst, Fetches before inst ∧ inst.opcode = .sstore ∧
        sstore before = .panic reason :=
  iterate_panic_cases inferInstance inferInstance run

/-- A covered counter does not panic. -/
theorem TxExecContext.Covered.offRefund
    (covered : context.Covered) (onFork : context.OnFork context.env.block.fork)
    (forked : context.env.block.fork ≥ .istanbul) {reason : Panic}
    (run : iterate context = .panic reason) : OffRefund reason := by
  obtain other | ⟨inst, -, -, run⟩ := iterate_offRefund run
  · exact other
  have fork := onFork.curCall
  refine sstore_panic (fork ▸ forked) (fun was clear => ?_) run
  rw [fork]
  apply UInt64.le_iff_toNat_le.mpr
  apply covered.le_of_mem (a := (context.curCall.callee, operand context 0))
  simp only [View.cleared, Set.mem_ofPred_eq, LawfulWorldState.storage_view]
  exact ⟨was, clear⟩

/-- In a transaction of a block from Istanbul on, the refund counter is never asked
for more than it holds, when it covers the cleared slots where the transaction starts,
where a frame fails and where a contract is created, and does not overflow.  The
world state of the transaction may be what any transactions of the block have left. -/
theorem refund_stays_above_zero
    (forked : tx.env.block.fork ≥ .istanbul) (covering : tx.Covering context)
    (running : context.status = .running) :
    iterate context ≠ .panic .refundBelowZero := by
  intro run
  have onFork := covering.reaches.onFork running
  have covered := covering.covered forked running
  have same := onFork.1
  exact covered.offRefund (same ▸ onFork) (same ▸ forked) run rfl

/-- The next iteration makes the counter panic. -/
def refundPanics (context : TxExecContext S) : Bool :=
  match iterate context with
  | .panic reason => reason = .refundBelowZero
  | _ => false

omit [LawfulWorldState S] in
theorem iterate_of_refundPanics (panics : refundPanics context = true) :
    iterate context = .panic .refundBelowZero := by
  unfold refundPanics at panics
  split at panics
  · rename_i reason run
    rw [run, of_decide_eq_true panics]
  · contradiction

end Law
namespace Sample

/-- Clears the slot `0` and sets it again. -/
def resettingCode : Bytes := [0x60, 0, 0x60, 0, 0x55, 0x60, 1, 0x60, 0, 0x55]

/-- Clears the slot `0`, lets the account `0xbb` set it again in a frame that fails,
and sets it again itself. -/
def delegatingReset : Bytes :=
  [0x60, 0, 0x60, 0, 0x55, 0x60, 0, 0x60, 0, 0x60, 0, 0x60, 0, 0x60, 0xbb, 0x5a, 0xf4,
    0x60, 1, 0x60, 0, 0x55]

/-- Sets the slot `0` and reverts. -/
def revertingReset : Bytes := [0x60, 1, 0x60, 0, 0x55, 0x60, 0, 0x60, 0, 0xfd]

/-- The digests of these codes. -/
@[reducible] def refundKeccak : Keccak256 := keccak
  [([], 0xc5d2460186f7233c927e7db2dcc703c0e500b653ca82273b7bfad8045d85a470),
    (resettingCode, 0x2afd5916fd398647ada97039811004dea871ae930e63202fd3beb21a751f188c),
    (delegatingReset, 0x3aa565be0ec032ec67a2150b6622b64458589b7d66c69c9e9c321df59927b07a),
    (revertingReset, 0x2d131ad16f1b225292fd6d7b38d449ee8071b46c3dc4400551041562f41f0fd7)]

/-- The first transaction of a block calls the account `0xaa`, which runs a code and has
the word `1` in the slot `0`. -/
def refundTx (code : Bytes) : Transaction DummyStateStore :=
  letI := refundKeccak
  let state := ((DummyStateStore.new.setCode 0xaa code).setCode 0xbb
    revertingReset).setState 0xaa 0 1
  { sender := 1
    recipient := some 0xaa
    value := 0
    gas := 1000000
    gasPrice := 0
    input := []
    accessList := none
    state := state
    committedState := state
    env := env .istanbul }

end Sample

/-- The counter does not panic when a slot that has just been cleared is set again. -/
theorem cleared_slot_is_set_again :
    letI := Sample.refundKeccak
    ∃ context : TxExecContext DummyStateStore,
      (Sample.refundTx Sample.resettingCode).Covering context ∧
        Fetches context ⟨.sstore, none, 0⟩ ∧ getState context.state 0xaa 0 = 0 ∧
        iterate context ≠ .panic .refundBelowZero := by
  let := Sample.refundKeccak
  obtain ⟨entered, entry, found⟩ := (Option.any_eq_true
    (fun entered : TxExecContext DummyStateStore =>
      decide (entered.callStack.length = 1 ∧ entered.HasRoom ∧
      entered.status.leftGas = none) &&
        (runFor (fun context => decide (context.callStack.length = 1 ∧
          context.HasRoom)) 5 entered).any fun context =>
            decide (Fetches context ⟨.sstore, none, 0⟩ ∧
              getState context.state 0xaa 0 = 0 ∧ context.status.leftGas = none))
    (Sample.refundTx Sample.resettingCode).entry).mp (by decide +kernel)
  simp only [Bool.and_eq_true, Option.any_eq_true, decide_eq_true_eq] at found
  obtain ⟨⟨depth, room, started⟩, context, run, fetches, clear, running⟩ := found
  have enters := Transaction.entry_eq_some.mp entry
  have covered := enters.covered (TxExecStatus.leftGas_eq_none.mp started)
    (Option.some_ne_none _) rfl
  have covering := Transaction.Covering.level (.enters enters covered) ⟨depth, room⟩ run
  exact ⟨context, covering, fetches, clear,
    refund_stays_above_zero (by decide) covering
      (TxExecStatus.leftGas_eq_none.mp running)⟩

/-- A slot that was cleared in the frame of a transaction and set again in one that
fails makes the counter panic when it is set again. -/
theorem refund_falls_below_zero :
    letI := Sample.refundKeccak
    ∃ context : TxExecContext DummyStateStore,
      (Sample.refundTx Sample.delegatingReset).state =
          (Sample.refundTx Sample.delegatingReset).committedState ∧
        (Sample.refundTx Sample.delegatingReset).env.block.fork ≥ .istanbul ∧
        (Sample.refundTx Sample.delegatingReset).Reaches context ∧
        context.status = .running ∧ iterate context = .panic .refundBelowZero := by
  let := Sample.refundKeccak
  obtain ⟨context, reached, running, panics⟩ :=
    (Sample.refundTx Sample.delegatingReset).exists_reached 18
      (fun context => context.status.leftGas = none ∧ refundPanics context = true)
      (by decide +kernel)
  exact ⟨context, rfl, by decide, reached, TxExecStatus.leftGas_eq_none.mp running,
    iterate_of_refundPanics panics⟩

end Qevm
