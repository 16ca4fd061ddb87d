import Qevm.Collections.HashMap
import Qevm.Core.Lawful

/-!
# The flat store

A world state that is one map from addresses to accounts, cloned at snapshots.
Log entries are only printed.
-/

namespace Qevm

/-- An account of the flat store. -/
structure DummyAccountState where
  state : HashMap Hash U256
  balance : Wei
  nonce : UInt64
  code : Code

namespace DummyAccountState

/-- The account without storage, balance, nonce and code. -/
def default [Keccak256] : DummyAccountState :=
  ⟨∅, 0, 0, (PlainCode.new []).toCode⟩

end DummyAccountState

/-- The flat store. -/
structure DummyStateStore where
  accounts : HashMap Addr DummyAccountState

namespace DummyStateStore

/-- The store without accounts. -/
def new : DummyStateStore := ⟨∅⟩

variable [Keccak256]

/-- Change an account, which is created when it is missing. -/
def modifyAccount
    (self : DummyStateStore) (contract : Addr)
    (change : DummyAccountState → DummyAccountState) : DummyStateStore :=
  ⟨HashMap.modify self.accounts contract DummyAccountState.default change⟩

/-- The reads of the store. -/
def reader (self : DummyStateStore) : WorldStateR where
  getState contract key :=
    ((self.accounts.lookup contract).bind fun acc => acc.state.lookup key).getD 0
  getBalance account :=
    ((self.accounts.lookup account).map DummyAccountState.balance).getD 0
  getCode contract :=
    ((self.accounts.lookup contract).map DummyAccountState.code).getD emptyCode
  getNonce contract :=
    ((self.accounts.lookup contract).map DummyAccountState.nonce).getD 0
  exist contract := (self.accounts.lookup contract).isSome

def setState
    (self : DummyStateStore) (contract : Addr) (key : Hash) (val : U256) :
    DummyStateStore :=
  self.modifyAccount contract fun acc =>
    { acc with state := acc.state.insert key val }

def setBalance (self : DummyStateStore) (contract : Addr) (balance : Wei) :
    DummyStateStore :=
  self.modifyAccount contract fun acc => { acc with balance := balance }

def setCode (self : DummyStateStore) (contract : Addr) (code : Bytes) :
    DummyStateStore :=
  self.modifyAccount contract fun acc =>
    { acc with code := (PlainCode.new code).toCode }

def setNonce (self : DummyStateStore) (contract : Addr) (nonce : UInt64) :
    DummyStateStore :=
  self.modifyAccount contract fun acc => { acc with nonce := nonce }

/-- Replace an account by a fresh one that keeps the balance. -/
def createAccount (self : DummyStateStore) (addr : Addr) : DummyStateStore :=
  let oldBalance := self.reader.getBalance addr
  let accounts := self.accounts.insert addr DummyAccountState.default
  if oldBalance ≠ 0 then
    ⟨HashMap.modify accounts addr DummyAccountState.default fun acc =>
      { acc with balance := oldBalance }⟩
  else
    ⟨accounts⟩

def deleteAccount (self : DummyStateStore) (addr : Addr) : DummyStateStore :=
  ⟨self.accounts.erase addr⟩

instance : WorldState DummyStateStore where
  reader := reader
  setState := setState
  setBalance := setBalance
  setCode := setCode
  setNonce := setNonce
  createAccount := createAccount
  deleteAccount := deleteAccount
  addLog self _ _ _ _ := some self
  snapshot self := (self, self)
  rollback _ state := state

/-! ### The flat store is lawful -/

/-- The account at an address, or a fresh one. -/
def account (self : DummyStateStore) (addr : Addr) : DummyAccountState :=
  (self.accounts.lookup addr).getD DummyAccountState.default

/-- What can be read from the store; the log cannot. -/
def read (self : DummyStateStore) : View where
  storage addr key := ((self.account addr).state.lookup key).getD 0
  balance addr := (self.account addr).balance
  nonce addr := (self.account addr).nonce
  code addr := (self.account addr).code.asBytes
  logs := []

theorem getState_eq (self : DummyStateStore) (addr : Addr) (key : Hash) :
    WorldState.getState self addr key =
      ((self.account addr).state.lookup key).getD 0 := by
  simp only [WorldState.getState, WorldState.reader, reader, account]
  cases self.accounts.lookup addr <;> rfl

theorem getBalance_eq (self : DummyStateStore) (addr : Addr) :
    WorldState.getBalance self addr = (self.account addr).balance := by
  simp only [WorldState.getBalance, WorldState.reader, reader, account]
  cases self.accounts.lookup addr <;> rfl

theorem getNonce_eq (self : DummyStateStore) (addr : Addr) :
    WorldState.getNonce self addr = (self.account addr).nonce := by
  simp only [WorldState.getNonce, WorldState.reader, reader, account]
  cases self.accounts.lookup addr <;> rfl

theorem getCode_eq (self : DummyStateStore) (addr : Addr) :
    WorldState.getCode self addr = (self.account addr).code := by
  simp only [WorldState.getCode, WorldState.reader, reader, account]
  cases self.accounts.lookup addr <;> rfl

/-- Changing an account changes no other one. -/
theorem account_modifyAccount
    (self : DummyStateStore) (addr : Addr)
    (change : DummyAccountState → DummyAccountState) :
    (self.modifyAccount addr change).account =
      Function.update self.account addr (change (self.account addr)) := by
  funext other
  unfold account modifyAccount
  by_cases same : other = addr
  · subst same
    rw [HashMap.lookup_modify, Function.update_self]
    rfl
  · rw [HashMap.lookup_modify_ne same, Function.update_of_ne same]

/-- A created account keeps nothing but the balance. -/
theorem account_createAccount (self : DummyStateStore) (addr : Addr) :
    (self.createAccount addr).account =
      Function.update self.account addr
        { DummyAccountState.default with
          balance := (self.account addr).balance } := by
  have balance : self.reader.getBalance addr = (self.account addr).balance :=
    getBalance_eq self addr
  have inserted : account ⟨self.accounts.insert addr DummyAccountState.default⟩ =
      Function.update self.account addr DummyAccountState.default := by
    funext other
    unfold account
    rw [HashMap.lookup_insert_eq_ite, Function.update_apply]
    split <;> rfl
  unfold createAccount
  rw [balance]
  by_cases funded : (self.account addr).balance = 0
  · simp only [funded, ne_eq, not_true_eq_false, if_false, inserted]
    rfl
  · simp only [funded, ne_eq, not_false_eq_true, if_true]
    have changed := account_modifyAccount
      ⟨self.accounts.insert addr DummyAccountState.default⟩ addr
      fun acc => { acc with balance := (self.account addr).balance }
    rw [inserted, Function.update_self, Function.update_idem] at changed
    exact changed

/-- A deleted account is gone, and no other one changes. -/
theorem account_deleteAccount (self : DummyStateStore) {addr other : Addr}
    (different : other ≠ addr) :
    (self.deleteAccount addr).account other = self.account other := by
  simp only [account, deleteAccount, HashMap.lookup_erase_eq_ite, different,
    if_false]

instance lawfulWorldState : LawfulWorldState DummyStateStore where
  view := read
  storage_view self addr key := (getState_eq self addr key).symm
  balance_view self addr := (getBalance_eq self addr).symm
  nonce_view self addr := (getNonce_eq self addr).symm
  code_view self addr := by rw [getCode_eq]; rfl
  blank {self addr} missing := by
    have fresh : self.account addr = DummyAccountState.default := by
      have absent : self.accounts.lookup addr = none := by
        simpa [WorldState.exist, WorldState.reader, reader] using missing
      rw [account, absent, Option.getD_none]
    refine ⟨fun key => ?_, ?_, ?_, ?_⟩ <;> simp only [read, fresh] <;> rfl
  view_left _ := rfl
  view_snapshot _ := rfl
  view_rollback _ _ := rfl
  view_setState self addr key val := by
    have changed : (setState self addr key val).account = _ :=
      account_modifyAccount _ _ _
    refine View.eq_of_agrees (fun other => ?_) rfl
    by_cases same : other = addr
    · subst same
      refine ⟨fun slot => ?_, ?_, ?_, ?_⟩ <;>
        simp only [WorldState.setState, read, View.setState, changed,
          Function.update_self, HashMap.lookup_insert_eq_ite]
      rw [Function.update_apply]
      split <;> rfl
    · refine ⟨fun slot => ?_, ?_, ?_, ?_⟩ <;>
        simp only [WorldState.setState, read, View.setState, changed,
          Function.update_of_ne same]
  view_setBalance self addr balance := by
    have changed : (setBalance self addr balance).account = _ :=
      account_modifyAccount _ _ _
    ext other <;> by_cases same : other = addr <;>
      simp [WorldState.setBalance, read, View.setBalance, changed, same]
  view_setNonce self addr nonce := by
    have changed : (setNonce self addr nonce).account = _ :=
      account_modifyAccount _ _ _
    ext other <;> by_cases same : other = addr <;>
      simp [WorldState.setNonce, read, View.setNonce, changed, same]
  view_setCode self addr code := by
    have changed : (setCode self addr code).account = _ :=
      account_modifyAccount _ _ _
    ext other <;> by_cases same : other = addr <;>
      simp [WorldState.setCode, read, View.setCode, changed, same]
  view_createAccount self addr := by
    have changed : (createAccount self addr).account = _ :=
      account_createAccount _ _
    ext other <;> by_cases same : other = addr <;>
      simp [WorldState.createAccount, read, View.createAccount, changed, same,
        DummyAccountState.default]
  view_addLog added := by
    obtain rfl := Option.some.inj added
    exact ⟨[], rfl⟩
  view_deleteAccount {self addr other} different := by
    have kept : (deleteAccount self addr).account other = self.account other :=
      account_deleteAccount self different
    refine ⟨⟨fun key => ?_, ?_, ?_, ?_⟩, ?_, ?_⟩
    · simp only [WorldState.deleteAccount, read, kept]
    · simp only [WorldState.deleteAccount, read, kept]
    · simp only [WorldState.deleteAccount, read, kept]
    · simp only [WorldState.deleteAccount, read, kept]
    · rw [getCode_eq, getCode_eq]
      simp only [WorldState.deleteAccount, kept]
    · simp [WorldState.exist, WorldState.reader, reader,
        WorldState.deleteAccount, deleteAccount, HashMap.lookup_erase_eq_ite,
        different]

instance : FlatWorldState DummyStateStore where
  toLawfulWorldState := lawfulWorldState
  view_deleted self addr := by
    have fresh : (self.deleteAccount addr).account addr =
        DummyAccountState.default := by
      simp [account, deleteAccount]
    refine ⟨fun key => ?_, ?_, ?_, ?_⟩ <;>
      simp only [view, WorldState.deleteAccount, read, fresh] <;> rfl

instance : MapWorldState DummyStateStore where
  toLawfulWorldState := lawfulWorldState
  Account := DummyAccountState
  find self addr := self.accounts.lookup addr
  exist_find _ _ := rfl
  reads_find {left right addr} found := by
    have same : left.account addr = right.account addr := by
      rw [account, account, found]
    refine ⟨⟨fun key => ?_, ?_, ?_, ?_⟩, ?_⟩
    · simp only [view, read, same]
    · simp only [view, read, same]
    · simp only [view, read, same]
    · simp only [view, read, same]
    · rw [getCode_eq, getCode_eq, same]
  find_rollback _ _ := rfl
  find_deleteAccount self addr := by
    funext other
    rw [Function.update_apply]
    exact HashMap.lookup_erase_eq_ite self.accounts addr other
  logs_deleteAccount _ _ := rfl

end DummyStateStore
end Qevm
