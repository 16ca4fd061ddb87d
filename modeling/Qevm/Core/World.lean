import Qevm.Core.Opcode
import Qevm.Core.Types

/-!
# The world state interface

A readable world state is the record of its reader methods.  Every read may
wait for storage, but it returns what the reader answers at that moment, so the
interpreter is modelled by sequential reads.

Taking a snapshot goes through a shared reference, but an implementation may
still change its representation, so `snapshot` also returns the state left
behind.
-/

namespace Qevm

/-- Code that is built from raw bytes. -/
structure PlainCode where
  /-- The code. -/
  code : Bytes
  /-- Marks the bytes that start an instruction. -/
  bitmap : List Bool
  /-- The hash of the code. -/
  hash : Hash

namespace PlainCode

/-- Analyse and hash a code. -/
def new [Keccak256] (code : Bytes) : PlainCode :=
  ⟨code, genCodeBitmap code, Hash.hash code⟩

/-- Whether an offset starts an instruction. -/
def isOpcode (self : PlainCode) (dest : Nat) : Bool :=
  self.bitmap[dest]?.getD false

/-- Whether an offset holds a `JUMPDEST` instruction. -/
def isValidJumpdest (self : PlainCode) (dest : U256) : Bool :=
  match checkedAsU64 dest with
  | none => false
  | some dest =>
      if self.isOpcode dest.toNat then
        match self.code[dest.toNat]?.bind Opcode.fromU8 with
        | some .jumpDest => true
        | _ => false
      else
        false

/-- The code object of a plain code. -/
def toCode (self : PlainCode) : Code :=
  ⟨self.isValidJumpdest, self.code, self.hash⟩

@[simp] theorem asBytes_toCode (self : PlainCode) :
    self.toCode.asBytes = self.code := rfl

@[simp] theorem code_new [Keccak256] (code : Bytes) :
    (new code).code = code := rfl

end PlainCode

/-- The code object of an account without code. -/
def emptyCode [Keccak256] : Code := (PlainCode.new []).toCode

/-- A readable world state. -/
structure WorldStateR where
  /-- The value of a storage slot. -/
  getState : Addr → Hash → U256
  /-- The balance of an account. -/
  getBalance : Addr → Wei
  /-- The code of an account. -/
  getCode : Addr → Code
  /-- The nonce of an account. -/
  getNonce : Addr → UInt64
  /-- Whether an account exists. -/
  exist : Addr → Bool

/-- A world state that the interpreter can read, write, snapshot and roll
back. -/
class WorldState (S : Type) where
  /-- The reader methods. -/
  reader : S → WorldStateR
  /-- Set a storage slot. -/
  setState : S → Addr → Hash → U256 → S
  /-- Set a balance. -/
  setBalance : S → Addr → Wei → S
  /-- Set a code. -/
  setCode : S → Addr → Bytes → S
  /-- Set a nonce. -/
  setNonce : S → Addr → UInt64 → S
  /-- Create an account. -/
  createAccount : S → Addr → S
  /-- Delete an account. -/
  deleteAccount : S → Addr → S
  /-- Add a log entry; an implementation may panic. -/
  addLog : S → Addr → List Hash → Bytes → U256 → Option S
  /-- Take a snapshot: the state left behind and the snapshot. -/
  snapshot : S → S × S
  /-- Go back to a snapshot. -/
  rollback : S → S → S

namespace WorldState

variable {S : Type} [WorldState S]

/-- The value of a storage slot. -/
def getState (state : S) (account : Addr) (key : Hash) : U256 :=
  (reader state).getState account key

/-- The balance of an account. -/
def getBalance (state : S) (account : Addr) : Wei :=
  (reader state).getBalance account

/-- The code of an account. -/
def getCode (state : S) (account : Addr) : Code :=
  (reader state).getCode account

/-- The nonce of an account. -/
def getNonce (state : S) (account : Addr) : UInt64 :=
  (reader state).getNonce account

/-- Whether an account exists. -/
def exist (state : S) (account : Addr) : Bool :=
  (reader state).exist account

/-- Whether an account has no nonce, no balance and the code hash of the empty
byte string. -/
def isEmpty [Keccak256] (state : S) (contract : Addr) : Bool :=
  getNonce state contract = 0 ∧ getBalance state contract = 0 ∧
    (getCode state contract).getHash = Hash.emptyBytesHash

/-- Add to a balance; the state is unchanged when the sum overflows. -/
def addBalance (state : S) (addr : Addr) (val : Wei) : S × Option Unit :=
  match U256.checkedAdd (getBalance state addr) val with
  | some balance => (setBalance state addr balance, some ())
  | none => (state, none)

/-- Take from a balance; the state is unchanged when there is too little. -/
def subBalance (state : S) (addr : Addr) (val : Wei) : S × Option Unit :=
  match U256.checkedSub (getBalance state addr) val with
  | some balance => (setBalance state addr balance, some ())
  | none => (state, none)

/-- Move funds: a debit, then a credit. -/
def transferBalance (state : S) (sender recipient : Addr) (val : Wei) :
    S × Option Unit :=
  match subBalance state sender val with
  | (state, none) => (state, none)
  | (state, some ()) => addBalance state recipient val

end WorldState
end Qevm
