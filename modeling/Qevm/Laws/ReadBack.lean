import Qevm.Laws.FlatStore
import Qevm.Laws.Revisions

/-!
# What is read after a write

A write to a revision lands in its own delta, while a read looks at the deletion marks of
the revision first and then walks the chain past all the older ones.  So a write to an
account that the revision has deleted is not seen, and an account that is created again
shows the storage that older revisions hold.
-/

namespace Qevm

open Overlay (Reads below top top_unmarked recorded_cons recorded_nil)
open AccountField (Value)

/-- The writes of a field of an account. -/
inductive FieldWrite
  | setState (key : Hash) (val : U256)
  | setBalance (balance : Wei)
  | setNonce (nonce : UInt64)
  | setCode (code : Bytes)

namespace FieldWrite

/-- The written field. -/
def field : FieldWrite → AccountField
  | setState key _ => .slot key
  | setBalance _ => .balance
  | setNonce _ => .nonce
  | setCode _ => .code

/-- Write to an account of a revision. -/
def on [Keccak256] (self : FieldWrite) (rev : MemStateRev) (account : Addr) :
    MemStateRev :=
  match self with
  | setState key val => rev.setState account key val
  | setBalance balance => rev.setBalance account balance
  | setNonce nonce => rev.setNonce account nonce
  | setCode code => rev.setCode account code

/-- What the getter of the field returns for the written value. -/
def value [Keccak256] : (self : FieldWrite) → Value self.field
  | setState _ val => val
  | setBalance balance => balance
  | setNonce nonce => nonce
  | setCode code => (PlainCode.new code).toCode

/-- The change of the delta of the account. -/
def change [Keccak256] (self : FieldWrite) (acc : AccountStateDelta) : AccountStateDelta :=
  match self with
  | setState key val => { acc with state := acc.state.insert key val }
  | setBalance balance => { acc with balance := some balance }
  | setNonce nonce => { acc with nonce := some nonce }
  | setCode code => { acc with code := some (PlainCode.new code).toCode }

variable [Keccak256]

theorem on_eq (self : FieldWrite) (rev : MemStateRev) (account : Addr) :
    self.on rev account =
      rev.update fun delta => delta.modifyAccount account self.change := by
  cases self <;> rfl

/-- A write records the value of its field and keeps the other fields. -/
theorem recorded_change (self : FieldWrite) (acc : AccountStateDelta) :
    (self.change acc).recorded =
      Function.update acc.recorded self.field (some self.value) := by
  cases self with
  | setState key val => exact MemStateAuto.recorded_setState acc key val
  | setBalance | setNonce | setCode =>
      funext other
      cases other <;> rfl

end FieldWrite

/-- The revisions that a sequence of operations leads to. -/
inductive MemStateRev.Reachable [Keccak256] : MemStateRev → Prop
  | new (source : WorldStateR) : Reachable (new source)
  | fromShared {shared : MemStateRev} : Reachable shared → Reachable (fromShared shared)
  | consolidate {rev : MemStateRev} (maxBackSteps : Option Nat) :
      Reachable rev → Reachable (rev.consolidate maxBackSteps)
  | write {rev : MemStateRev} (op : FieldWrite) (account : Addr) :
      Reachable rev → Reachable (op.on rev account)
  | createAccount {rev : MemStateRev} (addr : Addr) :
      Reachable rev → Reachable (rev.createAccount addr)
  | deleteAccount {rev : MemStateRev} (addr : Addr) :
      Reachable rev → Reachable (rev.deleteAccount addr)
  | addLog {rev after : MemStateRev} {contract : Addr} {topics : List Hash}
      {data : Bytes} {blockNumber : U256} :
      Reachable rev → rev.addLog contract topics data blockNumber = some after →
      Reachable after

/-- An account is created: it exists without storage, nonce and code, it keeps its
balance, and no other account changes. -/
structure StartsBlank (before after : Addr → Reads Value) (account : Addr) : Prop where
  storage : ∀ key, (after account).value (.slot key) = 0
  nonce : (after account).value .nonce = 0
  code : Code.asBytes ((after account).value .code) = []
  exist : (after account).exist = true
  balance : (after account).value .balance = (before account).value .balance
  others : ∀ other, other ≠ account → after other = before other

/-- In the flat store a created account starts blank. -/
theorem DummyStateStore.createAccount_startsBlank [Keccak256]
    (self : DummyStateStore) (addr : Addr) :
    StartsBlank self.reader.reads (self.createAccount addr).reader.reads addr := by
  have found (account : Addr) : (self.createAccount addr).accounts.lookup account =
      if account = addr then
        some { DummyAccountState.default with balance := self.reader.getBalance addr }
      else self.accounts.lookup account := by
    unfold createAccount
    by_cases poor : self.reader.getBalance addr = 0
    · simp only [poor, ne_eq, not_true_eq_false, if_false, HashMap.lookup_insert_eq_ite]
      rfl
    · simp only [poor, ne_eq, not_false_eq_true, if_true]
      by_cases same : account = addr
      · subst same
        rw [if_pos rfl, HashMap.lookup_modify, AList.lookup_insert, Option.getD_some]
      · rw [if_neg same, HashMap.lookup_modify_ne same, AList.lookup_insert_ne same]
  have own : (self.createAccount addr).reader.reads addr = _ := reads_eq _ addr
  rw [found, if_pos rfl, Option.elim_some] at own
  refine ⟨fun key => ?_, ?_, ?_, ?_, ?_, fun other different => ?_⟩
  · rw [own]
    rfl
  · rw [own]
    rfl
  · rw [own]
    rfl
  · rw [own]
  · rw [own]
    rfl
  · rw [reads_eq, reads_eq, found, if_neg different]

namespace MemStateRev

section Law

theorem delta_update (self : MemStateRev) (change : StateDelta → StateDelta) :
    (self.update change).delta = change self.delta := by
  cases self <;> rfl

variable [Keccak256]

/-! ### Writes of a field -/

/-- A write is read back, and nothing else changes but that the account exists, exactly
when the revision has not marked the account as deleted. -/
theorem write_is_read_back_iff (self : MemStateRev) (op : FieldWrite) (account : Addr) :
    (op.on self account).reads = written self.reads account op.field op.value ↔
      self.isDeleted account = false := by
  rw [op.on_eq]
  constructor
  · intro same
    by_contra deleted
    have marked : isDeleted (self.update fun delta =>
        delta.modifyAccount account op.change) account = true := by
      rw [Bool.not_eq_false] at deleted
      rw [isDeleted, delta_update]
      exact deleted
    have gone : exist (self.update fun delta =>
        delta.modifyAccount account op.change) account = false := by
      rw [exist, if_pos marked]
    have exists_ := congrArg Reads.exist (congrFun same account)
    rw [written, Function.update_self] at exists_
    exact Bool.false_ne_true (gone.symm.trans exists_)
  · intro alive
    have unmarked : account ∉ self.delta.deletedAccounts := of_decide_eq_false alive
    have seen := reads_modifyAccount self.parent unmarked op.recorded_change
    rw [ofParent_parent_delta] at seen
    exact seen

/-! ### Created accounts -/

/-- The word in a slot that is found from the parent of a revision on. -/
def slotBelow (self : MemStateRev) (contract : Addr) (key : Hash) : U256 :=
  match self.parent with
  | .external source => source.getState contract key
  | .internal parent =>
      parent.revWalk
        (fun delta => (delta.accounts.lookup contract).bind fun acc => acc.state.lookup key)
        (fun source => source.getState contract key)

omit [Keccak256] in
theorem slotBelow_eq (self : MemStateRev) (contract : Addr) (key : Hash) :
    self.slotBelow contract key = (self.parent.reads contract).value (.slot key) := by
  cases self with
  | external source delta => rfl
  | internal parent delta =>
      exact parent.revWalk_recorded contract (.slot key) fun delta =>
        (delta.layer_recorded contract (.slot key)).symm

/-- The account that is recorded for a new one. -/
def created (self : MemStateRev) (addr : Addr) : AccountStateDelta :=
  ⟨∅, some (self.getBalance addr), some 0, some emptyCode⟩

/-- What is known of the accounts once one of them is created. -/
theorem layer_createAccount (self : MemStateRev) (addr account : Addr) :
    (self.createAccount addr).delta.layer account =
      if account = addr then ⟨some (self.created addr).recorded, false⟩
      else self.delta.layer account := by
  have balance : (if self.getBalance addr ≠ 0 then
      { (⟨∅, some 0, some 0, some emptyCode⟩ : AccountStateDelta) with
        balance := some (self.getBalance addr) }
      else ⟨∅, some 0, some 0, some emptyCode⟩) = self.created addr := by
    unfold created
    by_cases poor : self.getBalance addr = 0
    · rw [if_neg (not_not.mpr poor), poor]
    · rw [if_pos poor]
  unfold createAccount
  simp only [balance]
  rw [delta_update]
  unfold StateDelta.layer
  by_cases same : account = addr
  · subst same
    simp [HashSet.mem_remove]
  · simp [same, AList.lookup_insert_ne same, HashSet.mem_remove]

/-- What is read once an account is created: it is blank where its delta says so, and the
other fields are found from the parent on. -/
theorem reads_createAccount (self : MemStateRev) (addr account : Addr) :
    (self.createAccount addr).reads account =
      if account = addr then
        ⟨fun field => ((self.created addr).recorded field).getD
          ((self.parent.reads addr).value field), true⟩
      else self.reads account := by
  have parent : (self.createAccount addr).parent = self.parent := by cases self <;> rfl
  rw [← ofParent_parent_delta (self.createAccount addr), reads_ofParent,
    layer_createAccount, parent]
  by_cases same : account = addr
  · subst same
    rw [if_pos rfl, if_pos rfl, Overlay.top_entry]
  · rw [if_neg same, if_neg same, ← reads_ofParent, ofParent_parent_delta]

/-- A created account starts blank exactly when no word is found in its slots from the
parent of the revision on. -/
theorem create_account_starts_blank_iff (self : MemStateRev) (addr : Addr) :
    StartsBlank self.reads (self.createAccount addr).reads addr ↔
      ∀ key, self.slotBelow addr key = 0 := by
  have own := self.reads_createAccount addr addr
  rw [if_pos rfl] at own
  constructor
  · intro blank key
    have word := blank.storage key
    rw [own] at word
    rw [slotBelow_eq]
    exact word
  · intro clear
    refine ⟨fun key => ?_, ?_, ?_, ?_, ?_, fun other different => ?_⟩
    · rw [own]
      exact (self.slotBelow_eq addr key).symm.trans (clear key)
    · rw [own]
      rfl
    · rw [own]
      rfl
    · rw [own]
    · rw [own]
      rfl
    · rw [reads_createAccount, if_neg different]

end Law

namespace Sample

/-- An account has a word in the slot `0`, and is deleted by a later revision. -/
def storing : MemStateRev :=
  letI := noCodeKeccak
  (fromShared ((new emptyState).setState 1 0 7)).deleteAccount 1

end Sample

/-- The word of the deleted account is back when the account is created again. -/
theorem created_account_has_old_storage :
    letI := Sample.noCodeKeccak
    ¬ ∀ rev : MemStateRev, rev.Reachable → ∀ addr,
      StartsBlank rev.reads (rev.createAccount addr).reads addr := by
  let := Sample.noCodeKeccak
  intro law
  have reached : Sample.storing.Reachable :=
    .deleteAccount 1 (.fromShared (.write (.setState 0 7) 1 (.new emptyState)))
  have word : (Sample.storing.createAccount 1).getState 1 0 = 0 :=
    (law Sample.storing reached 1).storage 0
  revert word
  decide +kernel

/-- The balance of a deleted account stays zero. -/
theorem deleted_account_is_not_funded :
    letI := Sample.noCodeKeccak
    ¬ ∀ rev : MemStateRev, rev.Reachable → ∀ (op : FieldWrite) (account : Addr),
      (op.on rev account).reads = written rev.reads account op.field op.value := by
  let := Sample.noCodeKeccak
  intro law
  have reached : Sample.deleting.Reachable :=
    .deleteAccount 1 (.fromShared (.write (.setBalance 5) 1 (.new emptyState)))
  have seen := congrFun (law Sample.deleting reached (.setBalance 7) 1) 1
  have balance : (Sample.deleting.setBalance 1 7).getBalance 1 = 7 := by
    have value := congrFun (congrArg Reads.value seen) .balance
    rw [written, Function.update_self] at value
    exact value
  revert balance
  decide +kernel

end MemStateRev
end Qevm
