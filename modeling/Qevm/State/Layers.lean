import Qevm.State.Rev

/-!
# Revisions as layers

An account is an object with named fields, and a chain of revisions a list of
layers that record some of them.  The reads of a revision are those of the
layers, and consolidation squashes layers.
-/

namespace Qevm

open Overlay

/-- The fields of an account. -/
inductive AccountField
  | slot (key : Hash)
  | balance
  | nonce
  | code
  deriving DecidableEq

/-- What a field holds. -/
@[reducible] def AccountField.Value : AccountField → Type
  | .slot _ => U256
  | .balance => Wei
  | .nonce => UInt64
  | .code => Code

open AccountField (Value)

/-- The fields that have changed. -/
def AccountStateDelta.recorded (self : AccountStateDelta) :
    ∀ field, Option (Value field)
  | .slot key => self.state.lookup key
  | .balance => self.balance
  | .nonce => self.nonce
  | .code => self.code

/-- What a delta knows about an account. -/
def StateDelta.layer (self : StateDelta) (account : Addr) : Layer Value where
  entry := (self.accounts.lookup account).map AccountStateDelta.recorded
  deleted := account ∈ self.deletedAccounts

theorem StateDelta.layer_recorded
    (self : StateDelta) (account : Addr) (field : AccountField) :
    (self.layer account).recorded field =
      (self.accounts.lookup account).bind fun acc => acc.recorded field := by
  unfold layer Layer.recorded
  cases self.accounts.lookup account <;> rfl

/-- What a source answers about an account. -/
def WorldStateR.reads (self : WorldStateR) (account : Addr) : Reads Value where
  value
    | .slot key => self.getState account key
    | .balance => self.getBalance account
    | .nonce => self.getNonce account
    | .code => self.getCode account
  exist := self.exist account

/-- What is read of an account that is deleted. -/
def deletedReads [Keccak256] : Reads Value where
  value
    | .slot _ => 0
    | .balance => 0
    | .nonce => 0
    | .code => emptyCode
  exist := false

namespace MemStateRev

/-- What a revision answers about an account. -/
def reads [Keccak256] (self : MemStateRev) (account : Addr) : Reads Value where
  value
    | .slot key => self.getState account key
    | .balance => self.getBalance account
    | .nonce => self.getNonce account
    | .code => self.getCode account
  exist := self.exist account

/-- The changes along the chain, the newest ones first. -/
def deltas : MemStateRev → List StateDelta
  | external _ delta => [delta]
  | internal parent delta => delta :: parent.deltas

/-- The external source at the end of the chain. -/
def source : MemStateRev → WorldStateR
  | external source _ => source
  | internal parent _ => parent.source

/-- What the chain knows about an account. -/
def layers (self : MemStateRev) (account : Addr) : List (Layer Value) :=
  self.deltas.map fun delta => delta.layer account

theorem deltas_ofParent (delta : StateDelta) (parent : StateSource) :
    (ofParent parent delta).deltas =
      delta :: (match parent with
        | .external _ => []
        | .internal rev => rev.deltas) := by
  cases parent <;> rfl

/-- Walking the chain for a field finds what the newest layer records. -/
theorem revWalk_recorded
    (self : MemStateRev) (account : Addr) (field : AccountField)
    {func : StateDelta → Option (Value field)} {exit : WorldStateR → Value field}
    (finds : ∀ delta, func delta = (delta.layer account).recorded field) :
    self.revWalk func exit =
      (recorded (self.layers account) field).getD (exit self.source) := by
  induction self with
  | external source delta =>
      simp only [revWalk, finds, layers, deltas, List.map_cons, List.map_nil,
        recorded_cons, recorded_nil, Option.or_none]
      rfl
  | internal parent delta inductionHypothesis =>
      simp only [revWalk, finds, inductionHypothesis]
      change _ = (recorded (delta.layer account :: parent.layers account)
        field).getD _
      rw [recorded_cons]
      cases (delta.layer account).recorded field <;> rfl

/-- Walking the chain for an entry finds whether there is one. -/
theorem revWalk_present (self : MemStateRev) (account : Addr) :
    self.revWalk
        (fun delta =>
          if (delta.accounts.lookup account).isSome then some true else none)
        (fun source => source.exist account) =
      (present (self.layers account) || self.source.exist account) := by
  induction self with
  | external source delta =>
      simp only [revWalk, layers, deltas, List.map_cons, List.map_nil, present,
        List.any_cons, List.any_nil, StateDelta.layer, Option.isSome_map]
      cases (delta.accounts.lookup account).isSome <;> rfl
  | internal parent delta inductionHypothesis =>
      simp only [revWalk, inductionHypothesis]
      change _ = (present (delta.layer account :: parent.layers account) || _)
      simp only [present, List.any_cons, StateDelta.layer, Option.isSome_map]
      cases (delta.accounts.lookup account).isSome <;> rfl

theorem marked_layers (self : MemStateRev) (account : Addr) :
    marked (self.layers account) = self.isDeleted account := by
  cases self <;> rfl

/-- The chain has no entry for an account. -/
theorem present_layers_eq_false (self : MemStateRev) (account : Addr) :
    present (self.layers account) = false ↔
      ∀ delta ∈ self.deltas, delta.accounts.lookup account = none := by
  unfold present layers
  rw [List.any_eq_false]
  simp [StateDelta.layer]

/-- The reads of a revision are those of its layers. -/
theorem reads_eq [Keccak256] (self : MemStateRev) (account : Addr) :
    self.reads account =
      top deletedReads (self.layers account) (self.source.reads account) := by
  unfold top
  rw [marked_layers]
  by_cases deleted : self.isDeleted account = true
  · rw [if_pos deleted]
    ext1
    · funext field
      cases field <;>
        simp only [reads, getState, getBalance, getNonce, getCode, deleted,
          if_true] <;> rfl
    · simp only [reads, exist, deleted, if_true]
      rfl
  · rw [if_neg deleted]
    ext1
    · funext field
      have walk {func : StateDelta → Option (Value field)}
          {exit : WorldStateR → Value field}
          (finds : ∀ delta, func delta =
            (delta.accounts.lookup account).bind fun acc => acc.recorded field)
          (ends : exit self.source = (self.source.reads account).value field) :
          self.revWalk func exit =
            (below (self.layers account) (self.source.reads account)).value
              field := by
        rw [self.revWalk_recorded account field fun delta =>
          (finds delta).trans (delta.layer_recorded account field).symm, ends]
        rfl
      cases field <;>
        simp only [reads, getState, getBalance, getNonce, getCode, deleted,
          Bool.false_eq_true, if_false] <;>
        exact walk (fun _ => rfl) rfl
    · simp only [reads, exist, deleted, Bool.false_eq_true, if_false]
      exact revWalk_present self account

/-! ### Consolidation squashes layers -/

/-- Overlaying changes prefers the newer ones, field by field. -/
theorem recorded_overlay
    (older newer : AccountStateDelta) (field : AccountField) :
    (older.overlay newer).recorded field =
      (newer.recorded field).or (older.recorded field) := by
  cases field with
  | slot key =>
      refine (HashMap.forEach_at newer.state older.state key
        (fun state => state.lookup key) (fun _ val => some val) ?_ ?_).trans ?_
      · intro state other val different
        rw [HashMap.lookup_insert_eq_ite, if_neg (Ne.symm different)]
      · intro state val
        exact AList.lookup_insert state
      · change _ = (newer.state.lookup key).or (older.state.lookup key)
        cases newer.state.lookup key <;> rfl
  | balance =>
      change (if newer.balance.isSome then newer.balance else older.balance) =
        newer.balance.or older.balance
      cases newer.balance <;> rfl
  | nonce =>
      change (if newer.nonce.isSome then newer.nonce else older.nonce) =
        newer.nonce.or older.nonce
      cases newer.nonce <;> rfl
  | code =>
      change (if newer.code.isSome then newer.code else older.code) =
        newer.code.or older.code
      cases newer.code <;> rfl

/-- The loop over the changed accounts, seen at one account. -/
theorem forEach_account
    (rev : StateDelta) (merged : StateDelta) (account : Addr) :
    let looped := HashMap.forEach rev.accounts
      (fun (accounts, deleted) addr racc =>
        (HashMap.modify accounts addr AccountStateDelta.default
            fun acc => acc.overlay racc,
          HashSet.remove deleted addr))
      (merged.accounts, merged.deletedAccounts)
    (looped.1.lookup account, decide (account ∈ looped.2)) =
      match rev.accounts.lookup account with
      | some racc =>
          (some (((merged.accounts.lookup account).getD
            AccountStateDelta.default).overlay racc), false)
      | none =>
          (merged.accounts.lookup account,
            decide (account ∈ merged.deletedAccounts)) := by
  refine (HashMap.forEach_at rev.accounts (merged.accounts, merged.deletedAccounts)
    account
    (fun looped => (looped.1.lookup account, decide (account ∈ looped.2)))
    (fun seen racc =>
      (some ((seen.1.getD AccountStateDelta.default).overlay racc), false))
    ?_ ?_).trans ?_
  · intro looped other racc different
    simp only [HashMap.lookup_modify_ne (Ne.symm different), HashSet.mem_remove,
      ne_eq, Ne.symm different, not_false_eq_true, true_and]
  · intro looped racc
    simp only [HashMap.lookup_modify, HashSet.mem_remove, ne_eq, not_true_eq_false,
      false_and, decide_false]
  · cases rev.accounts.lookup account <;> rfl

/-- What is left of an account once the marked ones are dropped. -/
theorem layer_eraseAll
    (accounts : HashMap Addr AccountStateDelta) (logs : List LogItem)
    (deleted : HashSet Addr) (account : Addr) :
    (StateDelta.mk (HashMap.eraseAll accounts deleted.toList) logs
        deleted).layer account =
      if account ∈ deleted then ⟨none, true⟩
      else ⟨(accounts.lookup account).map AccountStateDelta.recorded, false⟩ := by
  simp only [StateDelta.layer, HashMap.lookup_eraseAll, ← HashSet.mem_def]
  by_cases gone : account ∈ deleted
  · simp only [gone, if_true, Option.map_none, decide_true]
  · simp only [gone, if_false, decide_false]

/-- Applying a revision applies its layer of every account. -/
theorem layer_applyRev
    (merged : StateDelta) (rev : MemStateRev) (account : Addr) :
    (applyRev merged rev).layer account =
      apply (rev.delta.layer account) (merged.layer account) := by
  have looped := forEach_account rev.delta merged account
  simp only at looped
  unfold applyRev
  generalize HashMap.forEach rev.delta.accounts _ _ = found at looped ⊢
  obtain ⟨accounts, deleted⟩ := found
  rw [layer_eraseAll]
  simp only [HashSet.mem_extend]
  by_cases marked : account ∈ rev.delta.deletedAccounts
  · have dropped : (rev.delta.layer account).deleted = true := by
      simpa only [StateDelta.layer, decide_eq_true_eq] using marked
    rw [apply_deleted dropped, if_pos (.inr marked)]
  have clear : (rev.delta.layer account).deleted = false := by
    simpa only [StateDelta.layer, decide_eq_false_iff_not] using marked
  simp only [marked, or_false]
  cases own : rev.delta.accounts.lookup account with
  | none =>
      have missing : (rev.delta.layer account).entry = none := by
        rw [StateDelta.layer, own]
        rfl
      rw [own] at looped
      obtain ⟨entry, mark⟩ := Prod.mk.inj looped
      have same : account ∈ deleted ↔ account ∈ merged.deletedAccounts := by
        simpa using mark
      rw [apply_none missing clear]
      simp only [same, entry, StateDelta.layer]
      by_cases gone : account ∈ merged.deletedAccounts
      · simp only [gone, if_true, decide_true]
      · simp only [gone, if_false, decide_false, Bool.false_eq_true]
  | some racc =>
      have here : (rev.delta.layer account).entry = some racc.recorded := by
        rw [StateDelta.layer, own]
        rfl
      rw [own] at looped
      obtain ⟨entry, mark⟩ := Prod.mk.inj looped
      have kept : account ∉ deleted := by simpa using mark
      have older (field : AccountField) :
          (merged.layer account).recorded field =
          ((merged.accounts.lookup account).getD
            AccountStateDelta.default).recorded field := by
        rw [StateDelta.layer_recorded]
        cases merged.accounts.lookup account with
        | none => cases field <;> rfl
        | some acc => rfl
      rw [apply_some here clear, if_neg kept, entry, Option.map_some]
      congr 2
      funext field
      rw [recorded_overlay, older]

/-- Applying revisions squashes their layers. -/
theorem layer_foldl_applyRev (revs : List MemStateRev) (account : Addr) :
    (revs.reverse.foldl applyRev StateDelta.empty).layer account =
      squash (revs.map fun rev => rev.delta.layer account) := by
  rw [List.foldl_reverse]
  unfold squash
  induction revs with
  | nil => rfl
  | cons rev revs inductionHypothesis =>
      rw [List.foldr_cons, List.map_cons, List.foldr_cons, layer_applyRev,
        inductionHypothesis]

end MemStateRev

/-- What is read of an account through a parent, whatever it marks. -/
def StateSource.reads (self : StateSource) (account : Addr) : Reads Value :=
  match self with
  | .external source => source.reads account
  | .internal rev => below (rev.layers account) (rev.source.reads account)

namespace MemStateRev

/-- A revision is a layer upon its parent. -/
theorem below_layers (self : MemStateRev) (account : Addr) :
    below (self.layers account) (self.source.reads account) =
      below [self.delta.layer account] (self.parent.reads account) := by
  cases self with
  | external source delta => rfl
  | internal parent delta =>
      change below ([delta.layer account] ++ parent.layers account) _ = _
      rw [below_append]
      rfl

/-- The collected revisions are layers upon the parent of the last one. -/
theorem below_backSteps
    (maxBackSteps inc count : Nat) (self : MemStateRev) (account : Addr) :
    let older := self.backSteps maxBackSteps inc count
    below (self.layers account) (self.source.reads account) =
      below ((self :: older).map fun rev => rev.delta.layer account)
        ((older.getLastD self).parent.reads account) := by
  induction self generalizing count with
  | external source delta => rfl
  | internal parent delta inductionHypothesis =>
      simp only [backSteps]
      split_ifs with more
      · have rest := inductionHypothesis (count + inc)
        simp only at rest
        change below ([delta.layer account] ++ parent.layers account) _ = _
        rw [below_append]
        change below [delta.layer account]
          (below (parent.layers account) (parent.source.reads account)) = _
        rw [rest, ← below_append, List.getLastD_cons]
        rfl
      · exact below_layers _ account

/-- The layers that are squashed. -/
def squashed
    (self : MemStateRev) (maxBackSteps : Option Nat) (account : Addr) :
    List (Layer Value) :=
  (self.consolidatedRevs maxBackSteps).map fun rev => rev.delta.layer account

/-- What the squashed revisions are built upon. -/
def foundation (self : MemStateRev) (maxBackSteps : Option Nat) : StateSource :=
  self.lastParent (self.consolidatedRevs maxBackSteps)

/-- The reads of a revision are those of the layers to be squashed. -/
theorem reads_squashed [Keccak256]
    (self : MemStateRev) (maxBackSteps : Option Nat) (account : Addr) :
    self.reads account =
      top deletedReads (self.squashed maxBackSteps account)
        ((self.foundation maxBackSteps).reads account) := by
  have newest : marked (self.layers account) =
      marked (self.squashed maxBackSteps account) := by
    cases self <;> rfl
  obtain ⟨limit, inc, collected⟩ : ∃ limit inc,
      self.consolidatedRevs maxBackSteps = self :: self.backSteps limit inc 0 :=
    ⟨_, _, rfl⟩
  rw [reads_eq, top, top, newest, foundation, lastParent, squashed, collected,
    List.getLastD_cons, below_backSteps limit inc 0 self account]

/-- The reads of a revision are those of its own layer upon its parent. -/
theorem reads_ofParent [Keccak256]
    (parent : StateSource) (delta : StateDelta) (account : Addr) :
    (ofParent parent delta).reads account =
      top deletedReads [delta.layer account] (parent.reads account) := by
  rw [reads_eq]
  cases parent with
  | external source => rfl
  | internal rev =>
      change top _ ([delta.layer account] ++ rev.layers account) _ = _
      exact top_append deletedReads _ _ (List.cons_ne_nil _ _)

/-- A consolidated revision reads through one squashed layer. -/
theorem reads_consolidate [Keccak256]
    (self : MemStateRev) (maxBackSteps : Option Nat) (account : Addr) :
    (self.consolidate maxBackSteps).reads account =
      top deletedReads [squash (self.squashed maxBackSteps account)]
        ((self.foundation maxBackSteps).reads account) := by
  unfold consolidate
  rw [reads_ofParent, layer_foldl_applyRev]
  rfl

/-- An empty revision reads through everything below it. -/
theorem reads_fromShared [Keccak256] (shared : MemStateRev) (account : Addr) :
    (fromShared shared).reads account =
      top deletedReads (Layer.empty :: shared.layers account)
        (shared.source.reads account) :=
  reads_eq (fromShared shared) account

end MemStateRev

end Qevm

