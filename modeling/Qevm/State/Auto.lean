import Qevm.State.Rev

/-!
# Revisions that convert on demand

A shared revision is not written any more, and a mutable one is not shared.  The
automatic state keeps one of the two: a write turns a shared revision into an
empty mutable one upon it, and a snapshot turns a mutable revision into a shared
one.
-/

namespace Qevm

/-- The delta of a revision upon an external source. -/
def MemStateRev.consolidatedDelta : MemStateRev → Option StateDelta
  | external _ delta => some delta
  | internal _ _ => none

/-- A revision that is shared and read-only. -/
structure MemStateShared where
  rev : MemStateRev

/-- A revision that is owned and writable. -/
structure MemStateMut where
  rev : MemStateRev

namespace MemStateShared

def new (source : WorldStateR) : MemStateShared := ⟨MemStateRev.new source⟩

/-- Squash the chain of revisions; a revision upon the external source stays as it
is. -/
def consolidate (self : MemStateShared) (maxBackSteps : Option Nat) : MemStateShared :=
  match self.rev.parent with
  | .external _ => self
  | .internal _ => ⟨self.rev.consolidate maxBackSteps⟩

end MemStateShared

namespace MemStateMut

/-- An empty revision upon a shared one. -/
def fromShared (shared : MemStateShared) : MemStateMut :=
  ⟨MemStateRev.fromShared shared.rev⟩

/-- Stop writing a revision. -/
def toShared (self : MemStateMut) : MemStateShared := ⟨self.rev⟩

end MemStateMut

/-- A state that is read, written and shared on demand. -/
inductive MemStateAuto
  | const (state : MemStateShared)
  | mutable (state : MemStateMut)

namespace MemStateAuto

def new (source : WorldStateR) : MemStateAuto := const (MemStateShared.new source)

/-- The revision that reads see. -/
def convertRef : MemStateAuto → MemStateRev
  | const state => state.rev
  | mutable state => state.rev

/-- The revision that writes change. -/
def convertMut : MemStateAuto → MemStateRev
  | const state => (MemStateMut.fromShared state).rev
  | mutable state => state.rev

/-- Write to the revision. -/
def write (self : MemStateAuto) (change : MemStateRev → MemStateRev) : MemStateAuto :=
  mutable ⟨change self.convertMut⟩

/-- Share the revision: the state left behind and the shared revision. -/
def toShared : MemStateAuto → MemStateAuto × MemStateShared
  | mutable state => (const state.toShared, state.toShared)
  | const state => (const state, state)

variable [Keccak256]

instance : WorldState MemStateAuto where
  reader self :=
    { getState := self.convertRef.getState
      getBalance := self.convertRef.getBalance
      getCode := self.convertRef.getCode
      getNonce := self.convertRef.getNonce
      exist := self.convertRef.exist }
  setState self contract key val := self.write fun rev => rev.setState contract key val
  setBalance self contract balance := self.write fun rev => rev.setBalance contract balance
  setCode self contract code := self.write fun rev => rev.setCode contract code
  setNonce self contract nonce := self.write fun rev => rev.setNonce contract nonce
  createAccount self addr := self.write fun rev => rev.createAccount addr
  deleteAccount self addr := self.write fun rev => rev.deleteAccount addr
  addLog self contract topics data blockNumber :=
    (self.convertMut.addLog contract topics data blockNumber).map fun rev => mutable ⟨rev⟩
  snapshot self := (self.toShared.1, const self.toShared.2)
  rollback _ state := state

end MemStateAuto

end Qevm
