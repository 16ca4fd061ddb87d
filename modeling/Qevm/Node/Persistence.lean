import Qevm.Node.Execution
import Qevm.State.Auto
import Qevm.State.Merkle

/-!
# States of blocks in the database

A block is executed on a state that is read from the database, through revisions upon it.
What these have changed in the end is written as one delta, under a new root.
-/

namespace Qevm

/-- A state that is written on top of a shared one. -/
def openState (shared : MemStateShared) : MemStateAuto := .const shared

/-- The state that the execution of a block leaves, as one delta. -/
def shareState (state : MemStateAuto) : MemStateShared := state.toShared.2.consolidate none

/-- The state of the genesis block, in which one account has all the money. -/
def genesisState [Keccak256] (addr : Addr) (balance : Wei) : MemStateAuto :=
  WorldState.setBalance (WorldState.createAccount (MemStateAuto.new emptyState) addr) addr
    balance

/-- The source with given reads.  In place of a panic it answers as for an account that there
is not. -/
def PanickingR.toSource [Keccak256] (self : PanickingR) : WorldStateR where
  getState contract key := (self.getState contract key).getD 0
  getBalance account := (self.getBalance account).getD 0
  getCode contract := (self.getCode contract).getD emptyCode
  getNonce account := (self.getNonce account).getD 0
  exist account := (self.exist account).getD false

section Committing

variable {σ : Type} [TrieStore σ Hash Bytes Bytes] [Keccak256]

/-- The state with a root, as it is read from the database. -/
def readState (mdb : σ) (root : Option Hash) : MemStateShared :=
  .new (getReader mdb root).reads.toSource

/-- Write a state upon the one with a root. -/
def commitState (mdb : σ) (root : Option Hash) (worldState : MemStateShared) :
    Option (σ × Hash) := do
  let delta ← worldState.rev.consolidatedDelta
  merkleCommit mdb root delta (getReader mdb root)

end Committing
end Qevm
