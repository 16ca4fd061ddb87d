import Qevm.State.Dummy

/-!
# Accounts as a map

What the flat store is for: a partial map from addresses to accounts, whose storage is a
total map from slots to words.  A hash table stands for such a map, whatever the order of
its entries and whether or not it has an entry for a word that is zero.
-/

namespace Qevm

/-- An account of the map. -/
structure MapAccount where
  storage : Hash → U256
  balance : Wei
  nonce : UInt64
  code : Code

/-- A map from addresses to accounts. -/
structure AccountMap where
  find : Addr → Option MapAccount

namespace AccountMap

variable [Keccak256]

/-- The account without storage, balance, nonce and code. -/
def blank : MapAccount := ⟨fun _ => 0, 0, 0, emptyCode⟩

/-- The account at an address, or a blank one. -/
def account (self : AccountMap) (addr : Addr) : MapAccount := (self.find addr).getD blank

/-- Set the account at an address. -/
def set (self : AccountMap) (addr : Addr) (account : MapAccount) : AccountMap :=
  ⟨Function.update self.find addr (some account)⟩

instance : WorldState AccountMap where
  reader self :=
    { getState := fun addr key => (self.account addr).storage key
      getBalance := fun addr => (self.account addr).balance
      getCode := fun addr => (self.account addr).code
      getNonce := fun addr => (self.account addr).nonce
      exist := fun addr => (self.find addr).isSome }
  setState self addr key val :=
    let account := self.account addr
    self.set addr { account with storage := Function.update account.storage key val }
  setBalance self addr balance := self.set addr { self.account addr with balance := balance }
  setCode self addr code :=
    self.set addr { self.account addr with code := (PlainCode.new code).toCode }
  setNonce self addr nonce := self.set addr { self.account addr with nonce := nonce }
  createAccount self addr :=
    self.set addr { blank with balance := (self.account addr).balance }
  deleteAccount self addr := ⟨Function.update self.find addr none⟩
  addLog self _ _ _ _ := some self
  snapshot self := (self, self)
  rollback _ state := state

end AccountMap

/-- The map account that an account of the flat store stands for. -/
def DummyAccountState.denotes (self : DummyAccountState) : MapAccount :=
  ⟨fun key => (self.state.lookup key).getD 0, self.balance, self.nonce, self.code⟩

namespace DummyStateStore

/-- The map that a flat store stands for. -/
def denotes (self : DummyStateStore) : AccountMap :=
  ⟨fun addr => (self.accounts.lookup addr).map DummyAccountState.denotes⟩

variable [Keccak256]

theorem account_denotes (self : DummyStateStore) (addr : Addr) :
    self.denotes.account addr = (self.account addr).denotes := by
  change ((self.accounts.lookup addr).map DummyAccountState.denotes).getD _ =
    DummyAccountState.denotes ((self.accounts.lookup addr).getD _)
  cases self.accounts.lookup addr <;> rfl

theorem reader_denotes (self : DummyStateStore) :
    WorldState.reader self.denotes = self.reader := by
  have seen := self.account_denotes
  simp only [WorldState.reader, seen]
  unfold reader
  congr 1
  · funext addr key
    exact (self.getState_eq addr key).symm
  · funext addr
    exact (self.getBalance_eq addr).symm
  · funext addr
    exact (self.getCode_eq addr).symm
  · funext addr
    exact (self.getNonce_eq addr).symm
  · funext addr
    exact Option.isSome_map

/-- A changed account is set in the map. -/
theorem denotes_modifyAccount
    (self : DummyStateStore) (addr : Addr)
    (change : DummyAccountState → DummyAccountState) :
    (self.modifyAccount addr change).denotes =
      self.denotes.set addr (change (self.account addr)).denotes := by
  unfold AccountMap.set denotes modifyAccount
  congr 1
  funext other
  rw [Function.update_apply]
  by_cases same : other = addr
  · subst same
    rw [if_pos rfl, HashMap.lookup_modify]
    rfl
  · rw [if_neg same, HashMap.lookup_modify_ne same]

theorem denotes_createAccount (self : DummyStateStore) (addr : Addr) :
    (self.createAccount addr).denotes =
      self.denotes.set addr
        { AccountMap.blank with balance := (self.account addr).balance } := by
  have inserted : denotes ⟨self.accounts.insert addr DummyAccountState.default⟩ =
      self.denotes.set addr AccountMap.blank := by
    unfold AccountMap.set denotes
    congr 1
    funext other
    rw [HashMap.lookup_insert_eq_ite, Function.update_apply]
    split <;> rfl
  have balance : self.reader.getBalance addr = (self.account addr).balance :=
    getBalance_eq self addr
  unfold createAccount
  rw [balance]
  by_cases funded : (self.account addr).balance = 0
  · simp only [funded, ne_eq, not_true_eq_false, if_false, inserted]
    rfl
  · simp only [funded, ne_eq, not_false_eq_true, if_true]
    have changed := denotes_modifyAccount
      ⟨self.accounts.insert addr DummyAccountState.default⟩ addr
      fun acc => { acc with balance := (self.account addr).balance }
    have fresh : account ⟨self.accounts.insert addr DummyAccountState.default⟩ addr =
        DummyAccountState.default := by
      rw [account, AList.lookup_insert, Option.getD_some]
    rw [inserted, fresh] at changed
    refine changed.trans ?_
    unfold AccountMap.set
    rw [Function.update_idem]
    rfl

end DummyStateStore
end Qevm
