import Mathlib.Logic.Function.Basic
import Qevm.Core.World

/-!
# What a world state stands for

A view is what can be read from a world state: the storage, the balances, the
nonces, the codes and the log.  A world state is lawful when every write changes
the view at the place it names, a snapshot keeps the view, a rollback goes back
to it, and an account that does not exist is blank.
-/

namespace Qevm

open WorldState

/-- A record of the log. -/
structure LogItem where
  contract : Addr
  topics : List Hash
  data : Hash
  blockNumber : U256
  deriving DecidableEq

/-- What can be read from a world state. -/
@[ext] structure View where
  storage : Addr → Hash → U256
  balance : Addr → Wei
  nonce : Addr → UInt64
  code : Addr → Bytes
  logs : List LogItem

namespace View

/-- An account has no nonce, no balance, no storage and no code. -/
structure Blank (view : View) (account : Addr) : Prop where
  storage : ∀ key, view.storage account key = 0
  balance : view.balance account = 0
  nonce : view.nonce account = 0
  code : view.code account = []

/-- Two views have the same account at an address. -/
structure Agrees (account : Addr) (left right : View) : Prop where
  storage : ∀ key, left.storage account key = right.storage account key
  balance : left.balance account = right.balance account
  nonce : left.nonce account = right.nonce account
  code : left.code account = right.code account

theorem Agrees.refl (account : Addr) (view : View) :
    view.Agrees account view := ⟨fun _ => rfl, rfl, rfl, rfl⟩

theorem Agrees.trans {account : Addr} {first second third : View}
    (left : Agrees account first second)
    (right : Agrees account second third) : Agrees account first third where
  storage key := (left.storage key).trans (right.storage key)
  balance := left.balance.trans right.balance
  nonce := left.nonce.trans right.nonce
  code := left.code.trans right.code

/-- Views with the same accounts and the same log are equal. -/
theorem eq_of_agrees {left right : View}
    (accounts : ∀ account, Agrees account left right)
    (logs : left.logs = right.logs) : left = right := by
  ext1
  · funext account key
    exact (accounts account).storage key
  · funext account
    exact (accounts account).balance
  · funext account
    exact (accounts account).nonce
  · funext account
    exact (accounts account).code
  · exact logs

/-- The view with another word in a storage slot. -/
def setState (view : View) (account : Addr) (key : Hash) (val : U256) : View :=
  { view with
    storage := Function.update view.storage account
      (Function.update (view.storage account) key val) }

/-- The view with another balance. -/
def setBalance (view : View) (account : Addr) (balance : Wei) : View :=
  { view with balance := Function.update view.balance account balance }

/-- The view with another nonce. -/
def setNonce (view : View) (account : Addr) (nonce : UInt64) : View :=
  { view with nonce := Function.update view.nonce account nonce }

/-- The view with another code. -/
def setCode (view : View) (account : Addr) (code : Bytes) : View :=
  { view with code := Function.update view.code account code }

/-- The view with a fresh account that keeps the balance. -/
def createAccount (view : View) (account : Addr) : View :=
  { view with
    storage := Function.update view.storage account fun _ => 0
    nonce := Function.update view.nonce account 0
    code := Function.update view.code account [] }

/-- Setting a balance to what it is changes nothing. -/
theorem setBalance_self (view : View) (account : Addr) :
    view.setBalance account (view.balance account) = view := by
  rw [setBalance, Function.update_eq_self]

/-- Creating an account where there is none changes nothing. -/
theorem createAccount_of_blank {view : View} {account : Addr}
    (blank : view.Blank account) : view.createAccount account = view := by
  have storage : (fun _ => 0) = view.storage account :=
    funext fun key => (blank.storage key).symm
  rw [createAccount, storage, ← blank.nonce, ← blank.code,
    Function.update_eq_self, Function.update_eq_self, Function.update_eq_self]

/-- A nonce that is counted up is seen to have changed. -/
theorem setNonce_succ_ne (view : View) (account : Addr) :
    view ≠ view.setNonce account (view.nonce account + 1) := by
  intro same
  have seen : view.nonce account + 0 =
      Function.update view.nonce account (view.nonce account + 1) account := by
    rw [UInt64.add_zero]
    exact congrFun (congrArg View.nonce same) account
  rw [Function.update_self, UInt64.add_right_inj] at seen
  contradiction

end View

/-- A world state whose operations act on a view as they should. -/
class LawfulWorldState (S : Type) [WorldState S] [Keccak256] where
  /-- What can be read from a state. -/
  view : S → View
  storage_view : ∀ state account key,
    (view state).storage account key = getState state account key
  balance_view : ∀ state account,
    (view state).balance account = getBalance state account
  nonce_view : ∀ state account,
    (view state).nonce account = getNonce state account
  code_view : ∀ state account,
    (view state).code account = (getCode state account).asBytes
  /-- An account that does not exist is blank. -/
  blank : ∀ {state account}, exist state account = false →
    (view state).Blank account
  view_left : ∀ state, view (snapshot state).1 = view state
  view_snapshot : ∀ state, view (snapshot state).2 = view state
  /-- A rollback restores what could be read at the snapshot. -/
  view_rollback : ∀ state saved, view (rollback state saved) = view saved
  view_setState : ∀ state account key val,
    view (setState state account key val) =
      (view state).setState account key val
  view_setBalance : ∀ state account balance,
    view (setBalance state account balance) =
      (view state).setBalance account balance
  view_setNonce : ∀ state account nonce,
    view (setNonce state account nonce) = (view state).setNonce account nonce
  view_setCode : ∀ state account code,
    view (setCode state account code) = (view state).setCode account code
  view_createAccount : ∀ state account,
    view (createAccount state account) = (view state).createAccount account
  /-- Adding to the log changes nothing but the log. -/
  view_addLog : ∀ {state account topics data number final},
    addLog state account topics data number = some final →
    ∃ logs, view final = { view state with logs := logs }
  /-- Deleting an account changes no other account. -/
  view_deleteAccount : ∀ {state account other}, other ≠ account →
    (view (deleteAccount state account)).Agrees other (view state) ∧
      getCode (deleteAccount state account) other = getCode state other ∧
      exist (deleteAccount state account) other = exist state other

/-- A lawful world state in which a deleted account is blank. -/
class FlatWorldState (S : Type) [WorldState S] [Keccak256]
    extends LawfulWorldState S where
  view_deleted : ∀ state account,
    (view (deleteAccount state account)).Blank account

/-- A lawful world state that is one map from addresses to accounts, next to a log. -/
class MapWorldState (S : Type) [WorldState S] [Keccak256]
    extends LawfulWorldState S where
  /-- What is kept at an address. -/
  Account : Type
  /-- The account at an address. -/
  find : S → Addr → Option Account
  exist_find : ∀ state account, exist state account = (find state account).isSome
  /-- What is read of an account is read from its entry. -/
  reads_find : ∀ {left right account}, find left account = find right account →
    (view left).Agrees account (view right) ∧
      getCode left account = getCode right account
  find_rollback : ∀ state saved, find (rollback state saved) = find saved
  /-- Deleting an account erases its entry. -/
  find_deleteAccount : ∀ state account,
    find (deleteAccount state account) = Function.update (find state) account none
  logs_deleteAccount : ∀ state account,
    (view (deleteAccount state account)).logs = (view state).logs

export LawfulWorldState (view)
export MapWorldState (find)

attribute [simp] LawfulWorldState.view_left LawfulWorldState.view_snapshot
  LawfulWorldState.view_rollback LawfulWorldState.view_setState
  LawfulWorldState.view_setBalance LawfulWorldState.view_setNonce
  LawfulWorldState.view_setCode LawfulWorldState.view_createAccount

section Balance

variable {S : Type} [WorldState S] {state : S} {account : Addr} {val : Wei}

/-- What an account has can be taken from it. -/
theorem subBalance_covered (covered : val ≤ getBalance state account) :
    subBalance state account val =
      (setBalance state account (getBalance state account - val), some ()) := by
  have enough : val.toNat ≤ (getBalance state account).toNat := covered
  simp only [subBalance, U256.checkedSub, enough, if_true]

/-- More than it has cannot be taken. -/
theorem subBalance_short (short : getBalance state account < val) :
    subBalance state account val = (state, none) := by
  have less : (getBalance state account).toNat < val.toNat := short
  simp only [subBalance, U256.checkedSub, Nat.not_le.mpr less, if_false]

/-- A balance can grow as long as it is a word. -/
theorem addBalance_fits (fits : (getBalance state account).toNat + val.toNat < 2 ^ 256) :
    addBalance state account val =
      (setBalance state account (getBalance state account + val), some ()) := by
  simp only [addBalance, U256.checkedAdd, fits, if_true]

/-- It cannot grow beyond. -/
theorem addBalance_overflows
    (large : 2 ^ 256 ≤ (getBalance state account).toNat + val.toNat) :
    addBalance state account val = (state, none) := by
  simp only [addBalance, U256.checkedAdd, Nat.not_lt.mpr large, if_false]

end Balance

section Lawful

variable {S : Type} [WorldState S] [Keccak256] [LawfulWorldState S]

/-- A balance that has been set is read back, and the other ones stay. -/
theorem getBalance_setBalance (state : S) (account other : Addr) (balance : Wei) :
    getBalance (setBalance state account balance) other =
      if other = account then balance else getBalance state other := by
  rw [← LawfulWorldState.balance_view, LawfulWorldState.view_setBalance,
    ← LawfulWorldState.balance_view]
  exact Function.update_apply _ _ _ _

/-- Moving funds changes only balances. -/
theorem view_transferBalance (state : S) (sender recipient : Addr) (val : Wei) :
    ∃ balance, view (transferBalance state sender recipient val).1 =
      { view state with balance := balance } := by
  unfold transferBalance subBalance
  cases U256.checkedSub (getBalance state sender) val with
  | none => exact ⟨_, rfl⟩
  | some less =>
      simp only [addBalance]
      split
      · simp only [LawfulWorldState.view_setBalance]
        exact ⟨_, rfl⟩
      · simp only [LawfulWorldState.view_setBalance]
        exact ⟨_, rfl⟩

/-- Moving nothing changes nothing. -/
theorem view_transferBalance_zero (state : S) (sender recipient : Addr) :
    view (transferBalance state sender recipient 0).1 = view state := by
  have sub : subBalance state sender 0 =
      (setBalance state sender (getBalance state sender), some ()) := by
    simp [subBalance, U256.checkedSub]
  have credit (state : S) :
      view (addBalance state recipient 0).1 = view state := by
    unfold addBalance
    split
    · rename_i balance sum
      obtain rfl : getBalance state recipient = balance := by
        unfold U256.checkedAdd at sum
        split at sum
        · simpa using sum
        · contradiction
      simp only [LawfulWorldState.view_setBalance]
      rw [← LawfulWorldState.balance_view, View.setBalance_self]
    · rfl
  unfold transferBalance
  rw [sub]
  simp only [credit, LawfulWorldState.view_setBalance]
  rw [← LawfulWorldState.balance_view, View.setBalance_self]

end Lawful

end Qevm
