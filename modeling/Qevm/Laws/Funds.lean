import Qevm.Core.Destroyed
import Qevm.Core.Saved
import Qevm.Core.Transfers
import Qevm.Laws.Atomicity
import Qevm.State.Dummy

/-!
# No money is created

The sum of all balances of the live world state and of every saved one is never
more than at the start of the transaction, and it stays the same as long as no
`SELFDESTRUCT` is carried out.
-/

namespace Qevm

open WorldState Exec TxExecContext
open Procedure (Panics)

section Law

variable {S : Type} [WorldState S] [Keccak256]

/-- The next instruction is a `SELFDESTRUCT` that is carried out. -/
def TxExecContext.SelfDestructs (context : TxExecContext S) : Prop :=
  ∃ inst, Fetches context inst ∧ inst.opcode = .selfDestruct ∧
    ∃ final, destroy context = .ok () final

/-- An instruction that is not carried out does not return. -/
theorem TxExecContext.not_selfDestructs
    {context final : TxExecContext S} {inst : Inst} {tail : Tail S}
    (fetches : Fetches context inst) (idle : ¬context.SelfDestructs)
    (run : effect inst context = .ok tail final) :
    inst.opcode ≠ .selfDestruct := by
  intro destroys
  apply idle
  refine ⟨inst, fetches, destroys, ?_⟩
  obtain ⟨opcode, data, pos⟩ := inst
  obtain rfl : opcode = .selfDestruct := destroys
  obtain ⟨_, destroyed, carriedOut, -⟩ := Procedure.bind_ok.mp run
  exact ⟨destroyed, carriedOut⟩

/-- An iteration that, if the sum of all balances is to be kept, carries out no
`SELFDESTRUCT`. -/
def Spends (exact : Prop) (before after : TxExecContext S) : Prop :=
  Step before after ∧ (exact → ¬before.SelfDestructs)

variable [FlatWorldState S]

/-- The sum of all balances is at most, or exactly, a given one. -/
def View.Sums (exact : Prop) (sum : Nat) (view : View) : Prop :=
  view.total ≤ sum ∧ (exact → view.total = sum)

/-- What instructions preserve of the sum of all balances. -/
theorem preserves_sums
    {exact : Prop} {sum : Nat} {before : TxExecContext S} {inst : Inst}
    (bounded : sum < 2 ^ 256) (fetches : Fetches before inst)
    (idle : exact → ¬before.SelfDestructs)
    (live : (view before.state).Sums exact sum) :
    Preserves (View.Sums exact sum) inst before := by
  have effects := effect_funds inst before (Nat.lt_of_le_of_lt live.1 bounded)
  refine Procedure.wp_of_run (fun tail after run => ?_) (fun err after run => ?_)
  · obtain ⟨less, same⟩ := Procedure.wp_ok effects run
    refine ⟨less.trans live.1, fun isExact => ?_⟩
    have other := TxExecContext.not_selfDestructs fetches (idle isExact) run
    exact (same other).trans (live.2 isExact)
  · have same := Procedure.wp_error effects run
    exact ⟨same.trans_le live.1, fun isExact => same.trans (live.2 isExact)⟩

omit [Keccak256] in
/-- Installing code moves no funds. -/
theorem admitsCode_sums (exact : Prop) (sum : Nat) :
    View.AdmitsCode (View.Sums exact sum) := fun _ _ _ sums => sums

/-! ### The end of a transaction -/

instance keepsBalance_txResult (args : TxArgs S) (data : Bytes) (err : Result) :
    Procedure.Moves KeepsBalance (txResult args data err) := by
  have processes (addr : Addr) :
      Procedure.Moves KeepsBalance
        (createPostProcessing addr data err : Exec S Unit) :=
    moves_createPostProcessing addr data err
  exact moves_txResult args data err

instance keepsDestroyed_txResult (args : TxArgs S) (data : Bytes) (err : Result) :
    Procedure.Moves KeepsDestroyed (txResult args data err) := by
  have processes (addr : Addr) :
      Procedure.Moves KeepsDestroyed
        (createPostProcessing addr data err : Exec S Unit) :=
    moves_createPostProcessing addr data err
  exact moves_txResult args data err

/-- Deleting empty accounts keeps the sum. -/
theorem total_deleteEmpty (state : S) (accounts : List Addr) :
    (view (deleteEmpty state accounts)).total = (view state).total := by
  induction accounts generalizing state with
  | nil => rfl
  | cons account accounts inductionHypothesis =>
      have lost := total_deleteAccount state account
      rw [deleteEmpty, List.foldl_cons]
      refine (inductionHypothesis _).trans ?_
      split
      · rename_i isEmpty
        have balance : getBalance state account = 0 := by
          simp only [WorldState.isEmpty, decide_eq_true_eq] at isEmpty
          exact isEmpty.2.1
        rw [balance] at lost
        exact lost
      · rfl

/-- Deleting accounts does not increase the sum. -/
theorem total_deleteAll (state : S) (accounts : List Addr) :
    (view (deleteAll state accounts)).total ≤ (view state).total := by
  induction accounts generalizing state with
  | nil => exact Nat.le_refl _
  | cons account accounts inductionHypothesis =>
      have lost := total_deleteAccount state account
      refine (inductionHypothesis _).trans ?_
      omega

/-- Cleaning up does not increase the sum, and keeps it when nothing has been
destroyed. -/
theorem cleaned_funds (context : TxExecContext S) :
    (cleaned context).funds ≤ context.funds ∧
      (context.destroyed = HashSet.empty →
        (cleaned context).funds = context.funds) := by
  have emptied : ∃ state, (view state).total = context.funds ∧
      (cleaned context).state = deleteAll state context.destroyed.toList := by
    unfold cleaned
    dsimp only
    split
    · exact ⟨_, total_deleteEmpty _ _, rfl⟩
    · exact ⟨_, rfl, rfl⟩
  obtain ⟨state, same, last⟩ := emptied
  constructor
  · rw [← same, funds, last]
    exact total_deleteAll _ _
  · intro none
    rw [← same, funds, last, none]
    rfl

/-- The end of a transaction does not increase the sum, and keeps it when nothing
has been destroyed. -/
theorem txEnd_sums
    {exact : Prop} {sum : Nat} {args : TxArgs S} {data : Bytes} {gas : Gas}
    {err : Result} {context final : TxExecContext S}
    (run : txEnd args data gas err context = .ok () final)
    (live : (view context.state).Sums exact sum)
    (saved : (view args.snapshot).Sums exact sum)
    (unmarked : exact → context.destroyed = HashSet.empty) :
    (view final.state).Sums exact sum := by
  obtain ⟨-, ret, addr, processed, result, -, rfl⟩ := txEnd_ok run
  have balances : context.KeepsBalance processed := Procedure.Moves.ok result
  have marks : context.KeepsDestroyed processed := Procedure.Moves.ok result
  have same : processed.funds = context.funds := View.total_congr balances
  obtain ⟨less, kept⟩ := cleaned_funds processed
  have swept : (view (cleaned processed).state).Sums exact sum := by
    refine ⟨(less.trans_eq same).trans live.1, fun isExact => ?_⟩
    have none : processed.destroyed = HashSet.empty :=
      Eq.trans marks (unmarked isExact)
    exact ((kept none).trans same).trans (live.2 isExact)
  cases ret with
  | ok _ => exact swept
  | error _ =>
      change (view (rollback _ args.snapshot)).Sums exact sum
      rw [LawfulWorldState.view_rollback]
      exact saved

/-! ### Whole runs -/

/-- The live world state and the saved ones hold the sum, and the top-level frame
is still there. -/
structure TxExecContext.Solvent
    (exact : Prop) (sum : Nat) (context : TxExecContext S) : Prop where
  holds : context.Holds (View.Sums exact sum)
  unmarked : exact → context.destroyed = HashSet.empty
  inside : context.InTransaction

/-- The transaction is finished, and its world state holds the sum. -/
def TxExecContext.PaidOut
    (exact : Prop) (sum : Nat) (context : TxExecContext S) : Prop :=
  (view context.state).Sums exact sum ∧
    ∃ result, context.status = .finished result

variable {exact : Prop} {sum : Nat} {before after : TxExecContext S}

/-- An iteration keeps the sum, or finishes the transaction with it. -/
theorem Spends.solvent
    (spends : Spends exact before after) (bounded : sum < 2 ^ 256)
    (solvent : before.Solvent exact sum) :
    after.Solvent exact sum ∨ after.PaidOut exact sum := by
  obtain ⟨step, idle⟩ := spends
  have codes := admitsCode_sums exact sum
  have works (inst : Inst) (fetches : Fetches before inst) :
      Preserves (View.Sums exact sum) inst before :=
    preserves_sums bounded fetches idle solvent.holds.live
  have marked {final : TxExecContext S} {inst : Inst}
      (fetches : Fetches before inst) (marked : Marked inst before final)
      (isExact : exact) : final.destroyed = HashSet.empty := by
    refine Eq.trans (marked.keeps fun destroys tail working run => ?_)
      (solvent.unmarked isExact)
    exact TxExecContext.not_selfDestructs fetches (idle isExact) run destroys
  obtain inside | ⟨args, data, err, ending, bottom, finishes⟩ :=
    step.inTransaction solvent.inside
  · refine .inl ⟨?_, ?_, inside⟩
    · obtain holds | ⟨_, _, _, _, _, finishes, -⟩ :=
        step.holds codes solvent.holds works
      · exact holds
      · have running := (step.lasts inside.suspended).status.trans step.1
        exact absurd running finishes.not_running
    · obtain ⟨inst, fetches, -⟩ := step.cases
      exact marked fetches (step.marked fetches inside.suspended)
  · have last := solvent.holds.ended codes works finishes.ends
    obtain ⟨_, _, status⟩ := finishes.status
    refine .inr ⟨?_, _, status⟩
    obtain ⟨inst, settled, fetches, run, rfl⟩ := finishes.settled
    have none := marked fetches (finishes.ends.marked fetches)
    change (view settled.state).Sums exact sum
    refine txEnd_sums run last.live ?_ none
    apply last.saved ending.curCall List.mem_cons_self
    rw [finishes.callType]
    rfl

namespace Transaction

variable {tx : Transaction S}

instance conserves_startEffect (tx : Transaction S) :
    Conserves (tx.startEffect : Exec S (Tail S)) := by
  unfold startEffect startCallEffect startCreateEffect
  cases tx.recipient <;> infer_instance

/-- What the top-level frame keeps holds the sum of the start. -/
theorem Keeps.sums {args : TxArgs S} (keeps : tx.Keeps args) :
    (view args.snapshot).Sums exact (view tx.state).total := by
  have same : (view args.snapshot).total = (view tx.state).total := by
    unfold Keeps at keeps
    split at keeps
    · rw [keeps.2]
      exact View.total_congr rfl
    · rw [keeps.2]
  exact ⟨Nat.le_of_eq same, fun _ => same⟩

/-- The start of a transaction keeps the sum and changes no set or frame. -/
theorem startEffect_sums
    (exact : Prop) {initial : TxExecContext S} (context : tx.context = some initial)
    (bounded : (view tx.state).total < 2 ^ 256) :
    let funded (working : TxExecContext S) : Prop :=
      (view working.state).Sums exact (view tx.state).total ∧ initial.Stays working
    Procedure.wp (tx.startEffect : Exec S (Tail S)) (fun _ => funded)
      (fun _ => funded) initial := by
  have moves : Procedure.Moves Stays (tx.startEffect : Exec S (Tail S)) :=
    inferInstance
  have start : initial.funds = (view tx.state).total := by
    obtain ⟨accessList, rfl⟩ := context_eq_some context
    rfl
  have keeps := (conserves_startEffect tx).holds initial (start ▸ bounded)
  refine Procedure.wp_mono (Procedure.wp_and keeps.keeps (moves.holds initial))
    ?_ ?_
  all_goals
    rintro _ working ⟨kept, stays⟩
    have same : (view working.state).total = (view tx.state).total :=
      Eq.trans kept start
    exact ⟨⟨Nat.le_of_eq same, fun _ => same⟩, stays⟩

/-- A transaction enters the loop with the sum of the start. -/
theorem Enters.solvent
    {entered : TxExecContext S} (enters : tx.Enters entered)
    (bounded : (view tx.state).total < 2 ^ 256) :
    entered.Solvent exact (view tx.state).total ∨
      entered.PaidOut exact (view tx.state).total := by
  obtain ⟨initial, context, ends⟩ := enters.cases
  have starts := startEffect_sums exact context bounded
  obtain ⟨accessList, rfl⟩ := context_eq_some context
  obtain pushed | settled | failed := ends
  · obtain ⟨code, input, value, callee, caller, args, readOnly, working, effected,
      rfl⟩ := pushed
    obtain ⟨live, stays⟩ := Procedure.wp_ok starts effected
    have keeps : tx.Keeps args := startEffect_keeps rfl effected rfl
    have running : working.status = .running := stays.status
    refine .inl ⟨⟨live, fun frame member state kept => ?_⟩,
      fun _ => stays.destroyed, ?_⟩
    · rw [frames, show working.callStack = [] from stays.callStack] at member
      obtain rfl | member := List.mem_cons.mp member
      · obtain rfl := Option.some.inj kept
        exact keeps.sums
      · obtain rfl := List.mem_singleton.mp member
        rw [stays.curCall.callType] at kept
        contradiction
    · exact enters.inTransaction running
  · obtain ⟨args, ret, err, working, effected, ends⟩ := settled
    obtain ⟨live, stays⟩ := Procedure.wp_ok starts effected
    have keeps : tx.Keeps args := startEffect_keeps rfl effected rfl
    refine .inr ⟨txEnd_sums ends live keeps.sums fun _ => stays.destroyed, ?_⟩
    obtain ⟨-, final, addr, processed, -, -, rfl⟩ := txEnd_ok ends
    exact ⟨_, rfl⟩
  · obtain ⟨err, working, raised, rfl⟩ := failed
    obtain ⟨live, -⟩ := Procedure.wp_error starts raised
    exact .inr ⟨live, _, rfl⟩

/-- A run from the start holds the sum of the start. -/
theorem Enters.run_solvent
    {entered reached : TxExecContext S} (enters : tx.Enters entered)
    (bounded : (view tx.state).total < 2 ^ 256)
    (run : Relation.ReflTransGen (Spends exact) entered reached) :
    reached.Solvent exact (view tx.state).total ∨
      reached.PaidOut exact (view tx.state).total := by
  induction run with
  | refl => exact enters.solvent bounded
  | tail _ spends inductionHypothesis =>
      obtain solvent | ⟨-, result, finished⟩ := inductionHypothesis
      · exact spends.solvent bounded solvent
      · rw [spends.1.1] at finished
        contradiction

theorem Enters.run_sums
    {entered reached : TxExecContext S} (enters : tx.Enters entered)
    (bounded : (view tx.state).total < 2 ^ 256)
    (run : Relation.ReflTransGen (Spends exact) entered reached) :
    (view reached.state).Sums exact (view tx.state).total := by
  obtain solvent | paidOut := enters.run_solvent bounded run
  · exact solvent.holds.live
  · exact paidOut.1

end Transaction

/-! ### Transfers -/

/-- The transfers of an iteration do not fail. -/
theorem iterate_covered
    {context : TxExecContext S} {reason : Panic}
    (bounded : context.funds < 2 ^ 256)
    (run : iterate context = .panic reason) : OffTransfer reason := by
  unfold iterate at run
  obtain failed | ⟨inst, _, fetched, rest⟩ := Procedure.bind_panic.mp run
  · have panics : Panics OffTransfer (fetch : Exec S Inst) := inferInstance
    exact panics.holds failed
  obtain ⟨rfl, -⟩ := fetch_ok.mp fetched
  obtain failed | ⟨_, moved, -, failed⟩ := Procedure.bind_panic.mp rest
  · unfold Procedure.handle at failed
    split at failed
    · contradiction
    · have panics (err : ExecError) : Panics OffTransfer (fail err : Exec S Unit) :=
        inferInstance
      exact (panics _).holds failed
    · rename_i found dispatched
      obtain rfl := Outcome.panic.inj failed
      rw [dispatch_eq] at dispatched
      obtain failed | ⟨tail, working, -, failed⟩ :=
        Procedure.bind_panic.mp dispatched
      · exact effect_covered bounded failed
      · have panics : Panics OffTransfer (runTail tail) := inferInstance
        exact panics.holds failed
  · have panics : Panics OffTransfer
        (advancePc inst.skip inst.opcode.entersCall : Exec S Unit) := inferInstance
    exact panics.holds failed

/-- The transfer at the start of a transaction does not fail. -/
theorem begin_covered
    {tx : Transaction S} {initial : TxExecContext S} {reason : Panic}
    (context : tx.context = some initial)
    (bounded : (view tx.state).total < 2 ^ 256)
    (run : tx.begin initial = .panic reason) : OffTransfer reason := by
  unfold Transaction.begin Procedure.handle at run
  split at run
  · contradiction
  · contradiction
  · rename_i found started
    obtain rfl := Outcome.panic.inj run
    rw [Transaction.startFrame_eq] at started
    obtain failed | ⟨tail, working, -, failed⟩ :=
      Procedure.bind_panic.mp started
    · have start : initial.funds < 2 ^ 256 := by
        obtain ⟨accessList, rfl⟩ := Transaction.context_eq_some context
        exact bounded
      exact ((Transaction.conserves_startEffect tx).holds initial start).covered _ failed
    · have panics : Panics OffTransfer (runTail tail) := inferInstance
      exact panics.holds failed

/-- When the sum of all balances is a word, it is never more than at the start of
the transaction, it stays the same as long as no `SELFDESTRUCT` is carried out, and
no transfer fails. -/
theorem no_money_is_created
    (tx : Transaction S) (bounded : (view tx.state).total < 2 ^ 256) :
    (∀ reached, tx.Reaches reached → reached.funds ≤ (view tx.state).total) ∧
    (∀ entered reached, tx.Enters entered →
      Relation.ReflTransGen
        (fun before after => Step before after ∧ ¬before.SelfDestructs)
        entered reached →
      reached.funds = (view tx.state).total) ∧
    (∀ reached, tx.Reaches reached →
      iterate reached ≠ .panic .transferFailed) ∧
    ∀ initial, tx.context = some initial →
      tx.begin initial ≠ .panic .transferFailed := by
  have atMost {reached : TxExecContext S} (reaches : tx.Reaches reached) :
      reached.funds ≤ (view tx.state).total := by
    obtain ⟨entered, enters, run⟩ := reaches
    have spends : Relation.ReflTransGen (Spends False) entered reached :=
      Relation.ReflTransGen.mono (fun _ _ step => ⟨step, False.elim⟩) _ _ run
    exact (enters.run_sums bounded spends).1
  refine ⟨fun _ => atMost, fun entered reached enters run => ?_,
    fun reached reaches run => ?_, fun initial context run => ?_⟩
  · have spends : Relation.ReflTransGen (Spends True) entered reached :=
      Relation.ReflTransGen.mono (fun _ _ step => ⟨step.1, fun _ => step.2⟩) _ _ run
    exact (enters.run_sums bounded spends).2 trivial
  · exact iterate_covered (Nat.lt_of_le_of_lt (atMost reaches) bounded) run rfl
  · exact begin_covered context bounded run rfl

end Law

namespace Sample

/-- The digests that the transaction of this module looks at. -/
@[reducible] def payingKeccak : Keccak256 := keccak
  [([], 0xc5d2460186f7233c927e7db2dcc703c0e500b653ca82273b7bfad8045d85a470)]

/-- A transaction that pays three units of five to an account without code. -/
def payingTx : Transaction DummyStateStore :=
  letI := payingKeccak
  let state := DummyStateStore.new.setBalance 1 5
  { sender := 1
    recipient := some 0xbb
    value := 3
    gas := 1000000
    gasPrice := 0
    input := []
    accessList := none
    state := state
    committedState := state
    env := env .london }

/-- All of the money is that of the sender. -/
theorem payingTx_total :
    letI := payingKeccak
    (view payingTx.state).total = 5 := by
  let := payingKeccak
  have none : (view DummyStateStore.new).total = 0 := by
    unfold View.total Holdings.total
    exact Finset.sum_eq_zero fun _ _ => rfl
  have more := View.total_setBalance (view DummyStateStore.new) 1 5
  rw [none, ← LawfulWorldState.view_setBalance] at more
  exact more

end Sample

/-- A payment keeps the sum of all balances. -/
theorem payment_keeps_the_sum :
    letI := Sample.payingKeccak
    ∃ reached, Sample.payingTx.Reaches reached ∧
      getBalance reached.state 0xbb = 3 ∧ reached.funds = 5 := by
  let := Sample.payingKeccak
  have bounded : (view Sample.payingTx.state).total < 2 ^ 256 := by
    rw [Sample.payingTx_total]
    decide
  obtain ⟨entered, enters, paid⟩ := Sample.payingTx.exists_entered
    (fun entered => getBalance entered.state 0xbb = 3) (by decide +kernel)
  refine ⟨entered, ⟨entered, enters, .refl⟩, paid, ?_⟩
  rw [← Sample.payingTx_total]
  exact (no_money_is_created Sample.payingTx bounded).2.1 entered entered enters
    .refl

end Qevm
