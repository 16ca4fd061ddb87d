import Qevm.Collections.HashMap
import Qevm.Collections.Overlay
import Qevm.Core.Lawful

/-!
# In-memory revisions of the world state

A revision is a delta upon a parent, which is another revision or an external
source.  Reads walk the chain of revisions; consolidation squashes the newest
revisions of the chain into one.
-/

namespace Qevm

/-- The changes made to an account; an absent field has not changed. -/
structure AccountStateDelta where
  state : HashMap Hash U256
  balance : Option Wei
  nonce : Option UInt64
  code : Option Code

namespace AccountStateDelta

/-- No changes. -/
def default : AccountStateDelta := ⟨∅, none, none, none⟩

/-- The changes with newer ones on top. -/
def overlay (self newer : AccountStateDelta) : AccountStateDelta where
  state := HashMap.forEach newer.state (fun state key val => state.insert key val)
    self.state
  balance := if newer.balance.isSome then newer.balance else self.balance
  nonce := if newer.nonce.isSome then newer.nonce else self.nonce
  code := if newer.code.isSome then newer.code else self.code

end AccountStateDelta

/-- The changes made to the world state. -/
structure StateDelta where
  accounts : HashMap Addr AccountStateDelta
  /-- The log records, the oldest one first. -/
  logs : List LogItem
  deletedAccounts : HashSet Addr

namespace StateDelta

/-- No changes. -/
def empty : StateDelta := ⟨∅, [], HashSet.empty⟩

/-- Change the delta of an account, which is added when it is missing. -/
def modifyAccount
    (self : StateDelta) (contract : Addr)
    (change : AccountStateDelta → AccountStateDelta) : StateDelta :=
  { self with
    accounts := HashMap.modify self.accounts contract AccountStateDelta.default
      change }

end StateDelta

/-- A revision of the world state. -/
inductive MemStateRev
  /-- A delta upon an external source. -/
  | external (source : WorldStateR) (delta : StateDelta)
  /-- A delta upon another revision. -/
  | internal (parent : MemStateRev) (delta : StateDelta)

/-- What a revision is built upon. -/
inductive StateSource
  | external (source : WorldStateR)
  | internal (parent : MemStateRev)

/-- The source in which nothing exists. -/
def emptyState [Keccak256] : WorldStateR where
  getState _ _ := 0
  getBalance _ := 0
  getCode _ := emptyCode
  getNonce _ := 0
  exist _ := false

namespace MemStateRev

/-- The changes made by a revision itself. -/
def delta : MemStateRev → StateDelta
  | external _ delta => delta
  | internal _ delta => delta

/-- What a revision is built upon. -/
def parent : MemStateRev → StateSource
  | external source _ => .external source
  | internal parent _ => .internal parent

/-- A revision with the given parent and changes. -/
def ofParent : StateSource → StateDelta → MemStateRev
  | .external source, delta => external source delta
  | .internal parent, delta => internal parent delta

/-- A revision without changes upon an external source. -/
def new (source : WorldStateR) : MemStateRev := external source StateDelta.empty

/-- An empty revision upon a shared one. -/
def fromShared (shared : MemStateRev) : MemStateRev :=
  internal shared StateDelta.empty

/-- Change the delta of a revision. -/
def update (self : MemStateRev) (change : StateDelta → StateDelta) :
    MemStateRev :=
  ofParent self.parent (change self.delta)

/-- Walk the chain until a revision answers; the external source answers in the
end. -/
def revWalk (func : StateDelta → Option α) (exit : WorldStateR → α) :
    MemStateRev → α
  | external source delta => (func delta).getD (exit source)
  | internal parent delta => (func delta).getD (revWalk func exit parent)

/-- Whether an account is marked as deleted by the revision itself. -/
def isDeleted (self : MemStateRev) (account : Addr) : Bool :=
  account ∈ self.delta.deletedAccounts

def getState (self : MemStateRev) (contract : Addr) (key : Hash) : U256 :=
  if self.isDeleted contract then 0
  else
    self.revWalk
      (fun delta => (delta.accounts.lookup contract).bind fun acc =>
        acc.state.lookup key)
      (fun source => source.getState contract key)

def getBalance (self : MemStateRev) (account : Addr) : Wei :=
  if self.isDeleted account then 0
  else
    self.revWalk
      (fun delta => (delta.accounts.lookup account).bind
        AccountStateDelta.balance)
      (fun source => source.getBalance account)

def getNonce (self : MemStateRev) (contract : Addr) : UInt64 :=
  if self.isDeleted contract then 0
  else
    self.revWalk
      (fun delta => (delta.accounts.lookup contract).bind
        AccountStateDelta.nonce)
      (fun source => source.getNonce contract)

def exist (self : MemStateRev) (contract : Addr) : Bool :=
  if self.isDeleted contract then false
  else
    self.revWalk
      (fun delta =>
        if (delta.accounts.lookup contract).isSome then some true else none)
      (fun source => source.exist contract)

section Code

variable [Keccak256]

def getCode (self : MemStateRev) (contract : Addr) : Code :=
  if self.isDeleted contract then (PlainCode.new []).toCode
  else
    self.revWalk
      (fun delta => (delta.accounts.lookup contract).bind
        AccountStateDelta.code)
      (fun source => source.getCode contract)

def setCode (self : MemStateRev) (contract : Addr) (code : Bytes) :
    MemStateRev :=
  self.update fun delta => delta.modifyAccount contract fun acc =>
    { acc with code := some (PlainCode.new code).toCode }

/-- Record an account with nothing but the balance it has. -/
def createAccount (self : MemStateRev) (addr : Addr) : MemStateRev :=
  let oldBalance := self.getBalance addr
  let created : AccountStateDelta := ⟨∅, some 0, some 0, some emptyCode⟩
  let created :=
    if oldBalance ≠ 0 then { created with balance := some oldBalance }
    else created
  self.update fun delta =>
    { delta with
      accounts := delta.accounts.insert addr created
      deletedAccounts := delta.deletedAccounts.remove addr }

end Code

def setState (self : MemStateRev) (contract : Addr) (key : Hash) (val : U256) :
    MemStateRev :=
  self.update fun delta => delta.modifyAccount contract fun acc =>
    { acc with state := acc.state.insert key val }

def setBalance (self : MemStateRev) (contract : Addr) (balance : Wei) :
    MemStateRev :=
  self.update fun delta => delta.modifyAccount contract fun acc =>
    { acc with balance := some balance }

def setNonce (self : MemStateRev) (contract : Addr) (nonce : UInt64) :
    MemStateRev :=
  self.update fun delta => delta.modifyAccount contract fun acc =>
    { acc with nonce := some nonce }

/-- Mark an account as deleted and forget its changes. -/
def deleteAccount (self : MemStateRev) (addr : Addr) : MemStateRev :=
  self.update fun delta =>
    { delta with
      deletedAccounts := delta.deletedAccounts.insert addr
      accounts := delta.accounts.erase addr }

/-- Add a log record; its data has to have the length of a hash. -/
def addLog
    (self : MemStateRev) (contract : Addr) (topics : List Hash) (data : Bytes)
    (blockNumber : U256) : Option MemStateRev :=
  if data.length = 32 then
    some (self.update fun delta =>
      { delta with
        logs := delta.logs ++
          [⟨contract, topics, U256.fromBigEndian data, blockNumber⟩] })
  else
    none

/-! ### Consolidation -/

/-- The loop that collects the revisions to be consolidated; it goes on while the
counter is below the limit and there is a parent revision. -/
def backSteps (maxBackSteps inc : Nat) : Nat → MemStateRev → List MemStateRev
  | _, external _ _ => []
  | count, internal parent _ =>
      if count < maxBackSteps then
        parent :: backSteps maxBackSteps inc (count + inc) parent
      else
        []

/-- The revisions to be consolidated, the newest one first.  Without a limit the
counter stands still. -/
def consolidatedRevs (self : MemStateRev) (maxBackSteps : Option Nat) :
    List MemStateRev :=
  self :: self.backSteps (maxBackSteps.getD 1)
    (match maxBackSteps with
      | some _ => 1
      | none => 0) 0

/-- Apply a newer revision to the changes of the older ones. -/
def applyRev (merged : StateDelta) (rev : MemStateRev) : StateDelta :=
  let (accounts, deleted) := HashMap.forEach rev.delta.accounts
    (fun (accounts, deleted) addr racc =>
      (HashMap.modify accounts addr AccountStateDelta.default
          fun acc => acc.overlay racc,
        deleted.remove addr))
    (merged.accounts, merged.deletedAccounts)
  let deleted := deleted.extend rev.delta.deletedAccounts
  { accounts := HashMap.eraseAll accounts deleted.toList
    logs := merged.logs ++ rev.delta.logs
    deletedAccounts := deleted }

/-- The parent of the oldest of some revisions. -/
def lastParent (self : MemStateRev) (older : List MemStateRev) : StateSource :=
  (older.getLastD self).parent

/-- Squash the newest revisions of the chain into one. -/
def consolidate (self : MemStateRev) (maxBackSteps : Option Nat) : MemStateRev :=
  let revs := self.consolidatedRevs maxBackSteps
  ofParent (self.lastParent revs)
    (revs.reverse.foldl applyRev StateDelta.empty)

end MemStateRev

end Qevm
