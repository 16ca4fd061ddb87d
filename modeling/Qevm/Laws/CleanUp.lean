import Qevm.Laws.Destruction

/-!
# The accounts that the end of a transaction deletes

Two loops delete accounts from the state that the first of them is still reading, in the
order in which two hash sets happen to be listed.  On a state that is a map from addresses
to accounts each loop removes a set of accounts, and that set can be told from the state
before the loop.
-/

namespace Qevm

open WorldState Exec TxExecContext

section Law

variable {S : Type} [WorldState S] [Keccak256] [MapWorldState S]

/-- Two states have the same accounts, and the same can be read from them. -/
structure SameState (left right : S) : Prop where
  find : find left = find right
  view : view left = view right

/-- A state is another one with some accounts removed. -/
structure Removes (gone : Addr → Prop) (before after : S) : Prop where
  removed : ∀ {account}, gone account → find after account = none
  kept : ∀ {account}, ¬ gone account → find after account = find before account
  logs : (view after).logs = (view before).logs

namespace Removes

variable {gone other : Addr → Prop} {first second third : S} {account : Addr}

/-- A removed account does not exist. -/
theorem missing (removes : Removes gone first second) (member : gone account) :
    exist second account = false := by
  rw [MapWorldState.exist_find, removes.removed member]
  rfl

/-- The other accounts are there as before. -/
theorem spared (removes : Removes gone first second) (absent : ¬ gone account) :
    Spared account first second := by
  have kept := removes.kept absent
  obtain ⟨agrees, code⟩ := MapWorldState.reads_find kept
  refine ⟨?_, code, agrees⟩
  rw [MapWorldState.exist_find, MapWorldState.exist_find, kept]

theorem none (state : S) : Removes (fun _ => False) state state :=
  ⟨fun member => member.elim, fun _ => rfl, rfl⟩

theorem trans (left : Removes gone first second) (right : Removes other second third) :
    Removes (fun account => gone account ∨ other account) first third where
  removed {account} member := by
    by_cases later : other account
    · exact right.removed later
    · rw [right.kept later]
      exact left.removed (member.resolve_right later)
  kept absent := by
    rw [not_or] at absent
    rw [right.kept absent.2, left.kept absent.1]
  logs := right.logs.trans left.logs

theorem congr
    (removes : Removes gone first second) (same : ∀ account, gone account ↔ other account) :
    Removes other first second := by
  obtain rfl : gone = other := funext fun account => propext (same account)
  exact removes

/-- What remains does not depend on how the accounts were removed. -/
theorem unique (left : Removes gone first second) (right : Removes gone first third) :
    SameState second third := by
  have found : find second = find third := by
    funext account
    by_cases member : gone account
    · rw [left.removed member, right.removed member]
    · rw [left.kept member, right.kept member]
  have agrees (account : Addr) : (view second).Agrees account (view third) :=
    (MapWorldState.reads_find (congrFun found account)).1
  exact ⟨found, View.eq_of_agrees agrees (left.logs.trans right.logs.symm)⟩

theorem deleteAccount (state : S) (account : Addr) :
    Removes (· = account) state (WorldState.deleteAccount state account) where
  removed member := by
    rw [MapWorldState.find_deleteAccount, member, Function.update_self]
  kept absent := by
    rw [MapWorldState.find_deleteAccount, Function.update_of_ne absent]
  logs := MapWorldState.logs_deleteAccount state account

/-- Deleting a list of accounts removes them. -/
theorem deleteAll (state : S) (accounts : List Addr) :
    Removes (· ∈ accounts) state (Exec.deleteAll state accounts) := by
  induction accounts generalizing state with
  | nil => exact (none state).congr fun _ => by simp
  | cons head accounts inductionHypothesis =>
      have deleted := (deleteAccount state head).trans (inductionHypothesis _)
      exact deleted.congr fun _ => List.mem_cons.symm

/-- The loop over the touched accounts removes those that were empty before it: what it
has deleted by then changes no other account. -/
theorem deleteEmpty (state : S) (accounts : List Addr) :
    Removes (fun account => account ∈ accounts ∧ isEmpty state account) state
      (Exec.deleteEmpty state accounts) := by
  induction accounts generalizing state with
  | nil => exact (none state).congr fun _ => by simp
  | cons head accounts inductionHypothesis =>
      rw [Exec.deleteEmpty, List.foldl_cons]
      split
      · rename_i empty
        have deleted := deleteAccount state head
        refine (deleted.trans (inductionHypothesis _)).congr fun account => ?_
        by_cases same : account = head
        · simp [same, empty]
        · rw [(deleted.spared same).isEmpty]
          simp [same]
      · rename_i present
        refine (inductionHypothesis state).congr fun account => ?_
        rw [List.mem_cons]
        constructor
        · rintro ⟨member, empty⟩
          exact ⟨.inr member, empty⟩
        · rintro ⟨rfl | member, empty⟩
          · exact absurd empty present
          · exact ⟨member, empty⟩

/-- From Spurious Dragon on, the end of a transaction removes the touched accounts that
are empty and the self-destructed ones. -/
theorem cleaned {context : TxExecContext S} (fork : context.curCall.fork ≥ .spuriousDragon) :
    Removes
      (fun account => account ∈ context.dirty ∧ isEmpty context.state account ∨
        account ∈ context.destroyed)
      context.state (Exec.cleaned context).state := by
  unfold Exec.cleaned
  rw [if_pos fork]
  exact (deleteEmpty _ _).trans (deleteAll _ _)

end Removes

/-- The accounts that the end of a call transaction deletes: the self-destructed ones,
and those that are empty among the touched ones and the sender. -/
def Doomed (context : TxExecContext S) (sender account : Addr) : Prop :=
  account ∈ context.destroyed ∨
    (account ∈ context.dirty ∨ account = sender) ∧ isEmpty context.state account

/-- A context with the sender touched, whose two sets are listed in any order. -/
structure Lists (context : TxExecContext S) (sender : Addr) (listed : TxExecContext S) :
    Prop where
  dirty : ∀ account, account ∈ listed.dirty ↔ account ∈ context.dirty ∨ account = sender
  destroyed : ∀ account, account ∈ listed.destroyed ↔ account ∈ context.destroyed
  same : listed =
    { context with dirty := listed.dirty, destroyed := listed.destroyed }

namespace Lists

variable {context listed : TxExecContext S} {sender : Addr}

omit [WorldState S] [Keccak256] [MapWorldState S] in
/-- Touching the sender lists it somewhere. -/
theorem insert (context : TxExecContext S) (sender : Addr) :
    Lists context sender { context with dirty := context.dirty.insert sender } where
  dirty account := by
    rw [HashSet.mem_insert]
    exact or_comm
  destroyed _ := Iff.rfl
  same := rfl

/-- In every order, the doomed accounts are removed. -/
theorem removes
    (lists : Lists context sender listed) (fork : context.curCall.fork ≥ .spuriousDragon) :
    Removes (Doomed context sender) context.state (cleaned listed).state := by
  obtain ⟨dirty, destroyed, same⟩ := lists
  have state : listed.state = context.state := (congrArg TxExecContext.state same).trans rfl
  have call : listed.curCall = context.curCall := (congrArg TxExecContext.curCall same).trans rfl
  rw [← call] at fork
  have cleans := Removes.cleaned fork
  rw [state] at cleans
  refine cleans.congr fun account => ?_
  rw [dirty, destroyed]
  exact or_comm

end Lists

/-- The end of a call transaction from Spurious Dragon on: after a success exactly the
doomed accounts are removed, after an error the state is the snapshot, and no order in
which the touched and the destroyed accounts may be listed makes a difference. -/
theorem txEnd_removes_doomed
    {context : TxExecContext S} {args : TxArgs S} {sender : Addr}
    (empty : context.callStack = []) (running : context.status = .running)
    (fork : context.curCall.fork ≥ .spuriousDragon) (called : args.aux = .sender sender)
    (data : Bytes) (gas : Gas) (err : Result) :
    ∃ final, txEnd args data gas err context = .ok () final ∧
      (err = .ok () → Removes (Doomed context sender) context.state final.state) ∧
      (∀ raised, err = .error raised → SameState final.state args.snapshot) ∧
      ∀ listed, Lists context sender listed →
        SameState (finalState args err (cleaned listed).state) final.state := by
  have result : txResult args data err context =
      .ok (err, none) { context with dirty := context.dirty.insert sender } := by
    simp only [txResult, called]
    rfl
  have inserted := Lists.insert context sender
  refine ⟨_, txEnd_processed gas empty result running, ?_, ?_, ?_⟩
  · rintro rfl
    exact inserted.removes fork
  · rintro raised rfl
    exact ⟨MapWorldState.find_rollback _ _, LawfulWorldState.view_rollback _ _⟩
  · intro listed lists
    cases err with
    | ok _ => exact (lists.removes fork).unique (inserted.removes fork)
    | error raised =>
        refine ⟨?_, ?_⟩
        · exact (MapWorldState.find_rollback _ _).trans (MapWorldState.find_rollback _ _).symm
        · exact (LawfulWorldState.view_rollback _ _).trans
            (LawfulWorldState.view_rollback _ _).symm

end Law

/-- A transaction that has touched the empty account `0xaa` and the funded `0xbb`. -/
def Sample.touching : TxExecContext DummyStateStore :=
  letI := Sample.destructionKeccak
  let state := (DummyStateStore.new.setBalance 0xaa 0).setBalance 0xbb 5
  { callStack := []
    curCall := Sample.revertedDestruction.dummyFrame
    state := state
    committedState := state
    refund := 0
    accessList := ⟨∅, []⟩
    destroyed := HashSet.empty
    dirty := ⟨[0xaa, 0xbb], by decide⟩
    status := .running
    origin := 1
    gasPrice := 0
    env := Sample.env .london }

/-- When it ends, the empty account is removed and the other one is not. -/
theorem touched_empty_account_is_removed :
    letI := Sample.destructionKeccak
    ∃ final, txEnd ⟨Sample.touching.state, .sender 1⟩ [] 0 (.ok ()) Sample.touching =
        .ok () final ∧
      exist Sample.touching.state 0xaa = true ∧ exist final.state 0xaa = false ∧
      Spared 0xbb Sample.touching.state final.state := by
  let := Sample.destructionKeccak
  obtain ⟨final, ends, removes, -, -⟩ :
      ∃ final, txEnd ⟨Sample.touching.state, .sender 1⟩ [] 0 (.ok ()) Sample.touching =
        .ok () final ∧ _ :=
    txEnd_removes_doomed rfl rfl (by decide) rfl [] 0 (.ok ())
  have empty : isEmpty Sample.touching.state 0xaa = true := by decide +kernel
  have funded : isEmpty Sample.touching.state 0xbb = false := by decide +kernel
  refine ⟨final, ends, by decide +kernel, ?_, ?_⟩
  · exact (removes rfl).missing (.inr ⟨.inl (by decide), empty⟩)
  · refine (removes rfl).spared ?_
    rintro (destroyed | ⟨-, gone⟩)
    · exact absurd destroyed (HashSet.not_mem_empty _)
    · rw [funded] at gone
      contradiction

end Qevm
