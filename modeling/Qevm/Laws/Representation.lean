import Qevm.Core.ImageRuns
import Qevm.Core.Run
import Qevm.State.Maps

/-!
# Independence of the representation

A transaction is executed over any type of world states.  A simulation relates the states of
two such types so that related states answer alike and every operation keeps them related.
Transactions that differ only in related states then run in lockstep.

The proof runs the transaction a third time, over pairs of related states: both components
are images of the pairs that every operation respects.
-/

namespace Qevm

open WorldState

variable {S T : Type} [WorldState S] [WorldState T]

/-- Related states answer alike as long as the left one is valid, and every operation keeps
states related.  An operation may make a state invalid, but no invalid one valid; an invalid
state is related to every other. -/
structure WorldState.Simulation (valid : S → Prop) (related : S → T → Prop) : Prop where
  invalid : ∀ {left}, ¬valid left → ∀ right, related left right
  reader : ∀ {left right}, related left right → valid left → reader left = reader right
  setState : ∀ {left right}, related left right → ∀ account key val,
    (valid (setState left account key val) → valid left) ∧
      related (setState left account key val) (setState right account key val)
  setBalance : ∀ {left right}, related left right → ∀ account balance,
    (valid (setBalance left account balance) → valid left) ∧
      related (setBalance left account balance) (setBalance right account balance)
  setCode : ∀ {left right}, related left right → ∀ account code,
    (valid (setCode left account code) → valid left) ∧
      related (setCode left account code) (setCode right account code)
  setNonce : ∀ {left right}, related left right → ∀ account nonce,
    (valid (setNonce left account nonce) → valid left) ∧
      related (setNonce left account nonce) (setNonce right account nonce)
  createAccount : ∀ {left right}, related left right → ∀ account,
    (valid (createAccount left account) → valid left) ∧
      related (createAccount left account) (createAccount right account)
  deleteAccount : ∀ {left right}, related left right → ∀ account,
    (valid (deleteAccount left account) → valid left) ∧
      related (deleteAccount left account) (deleteAccount right account)
  addLog_some : ∀ {left right}, related left right → ∀ {account topics data number after},
    addLog left account topics data number = some after → valid after →
      valid left ∧ ∃ matched, addLog right account topics data number = some matched ∧
        related after matched
  addLog_none : ∀ {left right}, related left right → ∀ {account topics data number},
    addLog left account topics data number = none →
      addLog right account topics data number = none
  snapshot : ∀ {left right}, related left right →
    (valid (snapshot left).1 → valid left) ∧
      related (snapshot left).1 (snapshot right).1 ∧
      related (snapshot left).2 (snapshot right).2
  rollback : ∀ {left right}, related left right → ∀ {saved savedRight},
    related saved savedRight → (valid (rollback left saved) → valid left) ∧
      related (rollback left saved) (rollback right savedRight)

/-- The pairs of related states. -/
def RelatedPair (related : S → T → Prop) := {pair : S × T // related pair.1 pair.2}

namespace RelatedPair

variable {related : S → T → Prop}

/-- The left component. -/
@[reducible] def left (self : RelatedPair related) : S := self.1.1

/-- The right component. -/
@[reducible] def right (self : RelatedPair related) : T := self.1.2

end RelatedPair

namespace WorldState.Simulation

variable {valid : S → Prop} {related : S → T → Prop}

open Classical in
/-- A record is added to both components, or to none; it need not be added to the right one
when the left one becomes invalid. -/
noncomputable def addLogs (valid : S → Prop) (related : S → T → Prop)
    (self : RelatedPair related)
    (account : Addr) (topics : List Hash) (data : Bytes) (number : U256) :
    Option (RelatedPair related) :=
  if added : ∃ next : RelatedPair related,
      WorldState.addLog self.left account topics data number = some next.left ∧
        (valid next.left →
          WorldState.addLog self.right account topics data number = some next.right) then
    some added.choose
  else none

theorem addLogs_some
    {self next : RelatedPair related}
    {account : Addr} {topics : List Hash} {data : Bytes} {number : U256}
    (added : addLogs valid related self account topics data number = some next) :
    WorldState.addLog self.left account topics data number = some next.left ∧
      (valid next.left →
        WorldState.addLog self.right account topics data number = some next.right) := by
  unfold addLogs at added
  split at added
  · rename_i found
    obtain rfl := Option.some.inj added
    exact found.choose_spec
  · cases added

theorem addLogs_none (simulation : Simulation valid related)
    {self : RelatedPair related}
    {account : Addr} {topics : List Hash} {data : Bytes} {number : U256}
    (missing : addLogs valid related self account topics data number = none) :
    WorldState.addLog self.left account topics data number = none := by
  unfold addLogs at missing
  split at missing
  · cases missing
  · rename_i never
    cases added : WorldState.addLog self.left account topics data number with
    | none => rfl
    | some after =>
        refine absurd ?_ never
        by_cases kept : valid after
        · obtain ⟨-, matched, addedRight, alike⟩ :=
            simulation.addLog_some self.2 added kept
          exact ⟨⟨(after, matched), alike⟩, added, fun _ => addedRight⟩
        · exact ⟨⟨(after, self.right), simulation.invalid kept _⟩, added,
            fun holds => absurd holds kept⟩

/-- The world states that are pairs of related states. -/
@[reducible] noncomputable def pairs (simulation : Simulation valid related) :
    WorldState (RelatedPair related) where
  reader self := WorldState.reader self.left
  setState self account key val :=
    ⟨(_, _), (simulation.setState self.2 account key val).2⟩
  setBalance self account balance :=
    ⟨(_, _), (simulation.setBalance self.2 account balance).2⟩
  setCode self account code := ⟨(_, _), (simulation.setCode self.2 account code).2⟩
  setNonce self account nonce := ⟨(_, _), (simulation.setNonce self.2 account nonce).2⟩
  createAccount self account := ⟨(_, _), (simulation.createAccount self.2 account).2⟩
  deleteAccount self account := ⟨(_, _), (simulation.deleteAccount self.2 account).2⟩
  addLog := addLogs valid related
  snapshot self :=
    (⟨(_, _), (simulation.snapshot self.2).2.1⟩,
      ⟨(_, _), (simulation.snapshot self.2).2.2⟩)
  rollback self saved := ⟨(_, _), (simulation.rollback self.2 saved.2).2⟩

/-- The left components do what the pairs do. -/
theorem left_homomorphism (simulation : Simulation valid related) :
    @Homomorphism _ _ simulation.pairs _ (fun _ => True)
      (RelatedPair.left : RelatedPair related → S) :=
  letI := simulation.pairs
  { reader_image := fun _ _ => rfl
    setState := fun _ _ _ => .total fun _ => rfl
    setBalance := fun _ _ => .total fun _ => rfl
    setCode := fun _ _ => .total fun _ => rfl
    setNonce := fun _ _ => .total fun _ => rfl
    createAccount := fun _ => .total fun _ => rfl
    deleteAccount := fun _ => .total fun _ => rfl
    addLog_some := fun added _ => ⟨trivial, (addLogs_some added).1⟩
    addLog_none := fun missing _ => simulation.addLogs_none missing
    snapshot_left := fun _ _ => trivial
    snapshot_image := fun _ => rfl
    rollback := fun _ => .total fun _ => rfl }

/-- The right components do what the pairs do as long as the left ones are valid. -/
theorem right_homomorphism (simulation : Simulation valid related) :
    @Homomorphism _ _ simulation.pairs _ (fun pair => valid pair.left)
      (RelatedPair.right : RelatedPair related → T) :=
  letI := simulation.pairs
  { reader_image := fun pair kept => (simulation.reader pair.2 kept).symm
    setState := fun _ _ _ =>
      ⟨fun pair => (simulation.setState pair.2 _ _ _).1, fun _ _ => rfl⟩
    setBalance := fun _ _ =>
      ⟨fun pair => (simulation.setBalance pair.2 _ _).1, fun _ _ => rfl⟩
    setCode := fun _ _ =>
      ⟨fun pair => (simulation.setCode pair.2 _ _).1, fun _ _ => rfl⟩
    setNonce := fun _ _ =>
      ⟨fun pair => (simulation.setNonce pair.2 _ _).1, fun _ _ => rfl⟩
    createAccount := fun _ =>
      ⟨fun pair => (simulation.createAccount pair.2 _).1, fun _ _ => rfl⟩
    deleteAccount := fun _ =>
      ⟨fun pair => (simulation.deleteAccount pair.2 _).1, fun _ _ => rfl⟩
    addLog_some := fun {pair _ _ _ _ _} added kept => by
      obtain ⟨left, right⟩ := addLogs_some added
      exact ⟨(simulation.addLog_some pair.2 left kept).1, right kept⟩
    addLog_none := fun {pair _ _ _ _} missing _ =>
      simulation.addLog_none pair.2 (simulation.addLogs_none missing)
    snapshot_left := fun pair => (simulation.snapshot pair.2).1
    snapshot_image := fun _ => rfl
    rollback := fun saved =>
      ⟨fun pair => (simulation.rollback pair.2 saved.2).1, fun _ _ => rfl⟩ }

end WorldState.Simulation

/-- Two contexts differ in related states only: both are images of a context over pairs of
related states. -/
def TxExecContext.Alike (related : S → T → Prop)
    (left : TxExecContext S) (right : TxExecContext T) : Prop :=
  ∃ pair : TxExecContext (RelatedPair related),
    pair.map RelatedPair.left = left ∧ pair.map RelatedPair.right = right

/-- The same transaction over other states. -/
def Transaction.over (tx : Transaction S) (state committedState : T) : Transaction T where
  sender := tx.sender
  recipient := tx.recipient
  value := tx.value
  gas := tx.gas
  gasPrice := tx.gasPrice
  input := tx.input
  accessList := tx.accessList
  state := state
  committedState := committedState
  env := tx.env

namespace TxExecContext.Alike

variable {related : S → T → Prop} {left : TxExecContext S} {right : TxExecContext T}

omit [WorldState S] [WorldState T] in
theorem status (alike : left.Alike related right) : right.status = left.status := by
  obtain ⟨pair, rfl, rfl⟩ := alike
  rfl

omit [WorldState S] [WorldState T] in
theorem state (alike : left.Alike related right) : related left.state right.state := by
  obtain ⟨pair, rfl, rfl⟩ := alike
  exact pair.state.2

end TxExecContext.Alike

section Runs

variable [Keccak256] {valid : S → Prop} {related : S → T → Prop}

/-- A run through valid states is repeated over the related states. -/
theorem Transaction.Reaches.over
    (simulation : Simulation valid related) {tx : Transaction S} {state committed : T}
    (alike : related tx.state state) (alikeCommitted : related tx.committedState committed)
    {reached : TxExecContext S} (reaches : tx.Reaches reached)
    (kept : reached.Valid valid) :
    ∃ matched, (tx.over state committed).Reaches matched ∧
      reached.Alike related matched := by
  let _ := simulation.pairs
  have _ := simulation.left_homomorphism
  have _ := simulation.right_homomorphism
  let pair : Transaction (RelatedPair related) :=
    tx.over ⟨(tx.state, state), alike⟩ ⟨(tx.committedState, committed), alikeCommitted⟩
  have original : tx = pair.map RelatedPair.left := rfl
  rw [original] at reaches
  obtain ⟨context, run, rfl⟩ := reaches.of_map
  have keeps : context.Valid fun pair => valid pair.left := kept
  have repeated : (pair.map RelatedPair.right).Reaches (context.map RelatedPair.right) :=
    run.map keeps
  exact ⟨context.map RelatedPair.right, repeated, context, rfl, rfl⟩

/-- Transactions that differ in related states run in lockstep when all states are valid:
each of them repeats the runs of the other, with the same status, in related states, and
from there the next iteration of both succeeds or panics for the same reason. -/
theorem transactions_run_in_lockstep
    (simulation : Simulation (fun _ => True) related)
    {tx : Transaction S} {state committed : T}
    (alike : related tx.state state) (alikeCommitted : related tx.committedState committed) :
    (∀ reached, tx.Reaches reached → ∃ matched,
      (tx.over state committed).Reaches matched ∧ reached.Alike related matched) ∧
    (∀ matched, (tx.over state committed).Reaches matched → ∃ reached,
      tx.Reaches reached ∧ reached.Alike related matched) ∧
    (∀ reached matched, reached.Alike related matched →
      matched.status = reached.status ∧ related reached.state matched.state ∧
        ∀ reason, Exec.iterate matched = .panic reason ↔
          Exec.iterate reached = .panic reason) := by
  refine ⟨fun reached reaches => reaches.over simulation alike alikeCommitted
    ⟨trivial, trivial⟩, fun matched reaches => ?_, fun reached matched both =>
    ⟨both.status, both.state, fun reason => ?_⟩⟩
  · let _ := simulation.pairs
    have _ := simulation.left_homomorphism
    have _ := simulation.right_homomorphism
    let pair : Transaction (RelatedPair related) :=
      tx.over ⟨(tx.state, state), alike⟩ ⟨(tx.committedState, committed), alikeCommitted⟩
    have original : tx.over state committed = pair.map RelatedPair.right := rfl
    rw [original] at reaches
    obtain ⟨context, run, rfl⟩ := reaches.of_map
    have keeps : context.Valid fun _ => True := ⟨trivial, trivial⟩
    have repeated : (pair.map RelatedPair.left).Reaches (context.map RelatedPair.left) :=
      run.map keeps
    exact ⟨context.map RelatedPair.left, repeated, context, rfl, rfl⟩
  · let _ := simulation.pairs
    have _ := simulation.left_homomorphism
    have _ := simulation.right_homomorphism
    obtain ⟨context, rfl, rfl⟩ := both
    rw [iterate_map, iterate_map, Outcome.map_eq_panic, Outcome.map_eq_panic]

end Runs

/-! ## The flat store stands for a map -/

/-- Every operation of the flat store does to its map what the map does. -/
theorem DummyStateStore.simulation [Keccak256] :
    Simulation (fun _ : DummyStateStore => True)
      fun store map => store.denotes = map where
  invalid {store} kept := absurd trivial kept
  reader := by
    rintro store _ rfl -
    exact store.reader_denotes.symm
  setState := by
    rintro store _ rfl addr key val
    refine ⟨fun _ => trivial, (store.denotes_modifyAccount addr _).trans ?_⟩
    change _ = store.denotes.set addr _
    rw [store.account_denotes]
    refine congrArg (store.denotes.set addr) ?_
    unfold DummyAccountState.denotes
    congr 1
    funext slot
    rw [HashMap.lookup_insert_eq_ite, Function.update_apply]
    split <;> rfl
  setBalance := by
    rintro store _ rfl addr balance
    refine ⟨fun _ => trivial, (store.denotes_modifyAccount addr _).trans ?_⟩
    change _ = store.denotes.set addr _
    rw [store.account_denotes]
    rfl
  setCode := by
    rintro store _ rfl addr code
    refine ⟨fun _ => trivial, (store.denotes_modifyAccount addr _).trans ?_⟩
    change _ = store.denotes.set addr _
    rw [store.account_denotes]
    rfl
  setNonce := by
    rintro store _ rfl addr nonce
    refine ⟨fun _ => trivial, (store.denotes_modifyAccount addr _).trans ?_⟩
    change _ = store.denotes.set addr _
    rw [store.account_denotes]
    rfl
  createAccount := by
    rintro store _ rfl addr
    refine ⟨fun _ => trivial, (store.denotes_createAccount addr).trans ?_⟩
    change _ = store.denotes.set addr _
    rw [store.account_denotes]
    rfl
  deleteAccount := by
    rintro store _ rfl addr
    refine ⟨fun _ => trivial, congrArg AccountMap.mk ?_⟩
    funext other
    rw [Function.update_apply]
    change (AList.lookup other (AList.erase addr store.accounts)).map _ = _
    rw [HashMap.lookup_erase_eq_ite]
    split <;> rfl
  addLog_some := by
    rintro store _ rfl addr topics data number _ ⟨⟩ -
    exact ⟨trivial, _, rfl, rfl⟩
  addLog_none := by
    rintro store _ rfl addr topics data number missing
    cases missing
  snapshot := by
    rintro store _ rfl
    exact ⟨fun _ => trivial, rfl, rfl⟩
  rollback := by
    rintro store _ rfl saved _ rfl
    exact ⟨fun _ => trivial, rfl⟩

namespace Sample

/-- Writes a word to its storage and logs 32 bytes. -/
def noteCode : Bytes :=
  [0x60, 0x01, 0x60, 0x00, 0x55, 0x60, 0x20, 0x60, 0x00, 0xa0, 0x00]

/-- The digests that the transaction looks at. -/
@[reducible] def noteKeccak : Keccak256 := keccak
  [([], 0xc5d2460186f7233c927e7db2dcc703c0e500b653ca82273b7bfad8045d85a470),
    (noteCode,
      0x5e47c13066fc2a0715181e0923937ac0ccc3a87e39045e2444468c8a08e8d66d)]

/-- A transaction to an account that runs the code. -/
def noteTx : Transaction DummyStateStore :=
  letI := noteKeccak
  let state := DummyStateStore.new.setCode 0xaa noteCode
  { sender := 1
    recipient := some 0xaa
    value := 0
    gas := 1000000
    gasPrice := 0
    input := []
    accessList := none
    state := state
    committedState := state
    env := env .london }

end Sample

/-- The word that a transaction writes is in the map that the flat store stands for. -/
theorem note_is_kept_in_the_map :
    letI := Sample.noteKeccak
    ∃ matched, (Sample.noteTx.over Sample.noteTx.state.denotes
        Sample.noteTx.committedState.denotes).Reaches matched ∧
      matched.status.leftGas.isSome ∧ (matched.state.account 0xaa).storage 0 = 1 := by
  let := Sample.noteKeccak
  obtain ⟨reached, run, finished, word⟩ := Sample.noteTx.exists_reached 7
    (fun reached => reached.status.leftGas.isSome ∧ getState reached.state 0xaa 0 = 1)
    (by decide +kernel)
  obtain ⟨forward, -, agree⟩ := transactions_run_in_lockstep DummyStateStore.simulation rfl rfl
  obtain ⟨matched, runs, alike⟩ := forward reached run
  obtain ⟨status, same, -⟩ := agree reached matched alike
  refine ⟨matched, runs, by rw [status]; exact finished, ?_⟩
  rw [← same, reached.state.account_denotes]
  exact (reached.state.getState_eq 0xaa 0).symm.trans word

end Qevm
