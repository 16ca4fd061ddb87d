import Qevm.Laws.BlockExecution
import Qevm.Laws.Commit
import Qevm.Laws.Representation
import Qevm.Node.Persistence
import Qevm.State.Unmarked

/-!
# The states of blocks over the history of a database

Every block is executed on the state of its parent as it is read from the database, and the
state that it leaves is written there under a root of its own.  The states of all blocks stay
there, on whatever parents others are executed later.
-/

namespace Qevm

open WorldState TrieStore

/-! ## The source of a revision -/

namespace MemStateAuto

/-- Where the reads of a state end. -/
def source (state : MemStateAuto) : WorldStateR := state.convertRef.source

theorem source_ofParent (parent : StateSource) (delta other : StateDelta) :
    (MemStateRev.ofParent parent delta).source = (MemStateRev.ofParent parent other).source := by
  cases parent <;> rfl

theorem source_update (rev : MemStateRev) (change : StateDelta → StateDelta) :
    (rev.update change).source = rev.source := by
  conv_rhs => rw [← MemStateRev.ofParent_parent_delta rev]
  exact source_ofParent _ _ _

theorem source_convertMut (state : MemStateAuto) : state.convertMut.source = state.source := by
  cases state <;> rfl

theorem source_mutable (rev : MemStateRev) :
    (MemStateAuto.mutable ⟨rev⟩).source = rev.source := rfl

variable {source : WorldStateR}

/-- A write of a state that ends in a source. -/
theorem same_write {left right : MemStateAuto} (same : left = right ∧ left.source = source)
    {change : MemStateRev → MemStateRev} (keeps : ∀ rev, (change rev).source = rev.source) :
    (True → True) ∧ left.write change = right.write change ∧
      (left.write change).source = source :=
  ⟨id, by rw [same.1], (keeps _).trans (left.source_convertMut.trans same.2)⟩

variable [Keccak256]

/-- No operation changes the source. -/
theorem source_simulation :
    Simulation (fun _ : MemStateAuto => True)
      (fun left right => left = right ∧ left.source = source) where
  invalid invalid := absurd trivial invalid
  reader same _ := by rw [same.1]
  setState same _ _ _ := same_write same fun _ => source_update _ _
  setBalance same _ _ := same_write same fun _ => source_update _ _
  setCode same _ _ := same_write same fun _ => source_update _ _
  setNonce same _ _ := same_write same fun _ => source_update _ _
  createAccount same addr := same_write same fun rev => by
    unfold MemStateRev.createAccount
    exact source_update _ _
  deleteAccount same _ := same_write same fun _ => source_update _ _
  addLog_some := by
    rintro left right ⟨rfl, ends⟩ account topics data number after added -
    refine ⟨trivial, after, added, rfl, ?_⟩
    obtain ⟨rev, adds, rfl⟩ := Option.map_eq_some_iff.mp added
    obtain ⟨-, rfl⟩ := MemStateRev.addLog_eq_some.mp adds
    rw [source_mutable, source_update, source_convertMut, ends]
  addLog_none := by
    rintro left right ⟨rfl, -⟩ account topics data number missing
    exact missing
  snapshot := by
    rintro left right ⟨rfl, ends⟩
    have shared : (snapshot left).1.source = source ∧ (snapshot left).2.source = source := by
      cases left <;> exact ⟨ends, ends⟩
    exact ⟨id, ⟨rfl, shared.1⟩, rfl, shared.2⟩
  rollback := by
    rintro left right ⟨rfl, ends⟩ saved savedRight ⟨rfl, savedEnds⟩
    exact ⟨id, rfl, savedEnds⟩


theorem source_setBalance (state : MemStateAuto) (addr : Addr) (balance : Wei) :
    (setBalance state addr balance).source = state.source :=
  (source_simulation.setBalance ⟨rfl, rfl⟩ addr balance).2.2

theorem source_transferBalance (state : MemStateAuto) (sender recipient : Addr) (val : Wei) :
    (transferBalance state sender recipient val).1.source = state.source := by
  have added (state : MemStateAuto) : (addBalance state recipient val).1.source = state.source := by
    unfold addBalance
    split
    · exact source_setBalance _ _ _
    · rfl
  have taken : (subBalance state sender val).1.source = state.source := by
    unfold subBalance
    split
    · exact source_setBalance _ _ _
    · rfl
  unfold transferBalance
  cases sub : subBalance state sender val with
  | mk charged pays =>
      rw [sub] at taken
      cases pays with
      | none => exact taken
      | some => exact (added charged).trans taken

/-- A transaction leaves a state with the same source. -/
theorem source_of_ends
    {tx : Transaction MemStateAuto} {result : TxExecResult} {state : MemStateAuto}
    (ends : tx.Ends (fun _ => True) result state) (starts : tx.state.source = source)
    (committed : tx.committedState.source = source) : state.source = source := by
  obtain ⟨entered, reached, enters, run, -, rfl⟩ := ends
  have reaches : tx.Reaches reached :=
    ⟨entered, enters, Relation.ReflTransGen.mono (fun _ _ step => step.1) _ _ run⟩
  obtain ⟨matched, -, alike⟩ :=
    reaches.over source_simulation ⟨rfl, starts⟩ ⟨rfl, committed⟩ ⟨trivial, trivial⟩
  exact alike.state.2

/-- The transactions of a block leave a state with the same source. -/
theorem source_of_executes
    {prevState state last : MemStateAuto} {env : TxExecEnv} {txs : List Tx}
    {results : List (Option TxExecResult)}
    (executes : BlockExec.Executes (fun _ => True) prevState env state txs results last)
    (starts : state.source = source) (committed : prevState.source = source) :
    last.source = source := by
  induction executes with
  | done => exact starts
  | @skipped state kept _ tx _ _ paid _ short _ inductionHypothesis =>
      have charged := source_transferBalance state tx.from_ 0 paid
      rw [short] at charged
      exact inductionHypothesis (charged.trans starts)
  | @executed state charged _ _ tx _ _ paid _ _ pays ends _ inductionHypothesis =>
      have less := source_transferBalance state tx.from_ 0 paid
      rw [pays] at less
      exact inductionHypothesis (source_of_ends ends (less.trans starts) committed)

end MemStateAuto

end Qevm
