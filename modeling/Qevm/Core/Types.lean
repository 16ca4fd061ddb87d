import Qevm.Common
import Qevm.Core.Params
import Qevm.Logic.Procedure

/-!
# Errors, code objects and the environment of an execution
-/

namespace Qevm

/-- The ways in which a call frame fails. -/
inductive ExecError
  | outOfGas
  | codeStoreOutOfGas
  | depth
  | insufficientBalance
  | contractAddrCollision
  | reverted
  | maxCodeSizeExceeded
  | invalidJump
  | writeProtection
  | returnDataOutOfBounds
  | gasIntOverflow
  | invalidCode
  | nonceIntOverflow
  | stackOverflow
  | stackUnderflow
  | outOfMemory
  | invalidOpcode
  deriving DecidableEq, Repr

/-- The ways in which the interpreter itself panics. -/
inductive Panic
  /-- `call_pop` unwraps the top of an empty call stack. -/
  | callStackEmpty
  /-- `tx_end` asserts that the call stack is empty. -/
  | callStackNotEmpty
  /-- A transfer of funds is unwrapped. -/
  | transferFailed
  /-- `sub_refund` is asked for more than the counter holds. -/
  | refundBelowZero
  /-- `sstore_berlin_london_gas` asserts that the callee is in the access list. -/
  | addrNotInAccessList
  /-- An `unreachable!` branch is reached. -/
  | unreachable
  /-- A slice or an index is out of bounds. -/
  | indexOutOfBounds
  /-- Addition of 256-bit words overflows. -/
  | arithmeticOverflow
  /-- A 256-bit word does not fit the machine integer it is converted to. -/
  | integerOverflow
  /-- The data of an instruction that has none is unwrapped. -/
  | noInstructionData
  /-- A byte string of another length than 32 is made a hash. -/
  | hashLength
  deriving DecidableEq, Repr

/-- A procedure of the interpreter on a state. -/
abbrev Run (σ : Type) := Procedure σ ExecError Panic

/-- Multiplication of gas amounts. -/
def gasCheckedMul (x y : Gas) : Run σ Gas :=
  Procedure.okOr .gasIntOverflow (checkedMulU64 x y)

/-- An immutable code object. -/
structure Code where
  /-- Whether a jump to an offset is allowed. -/
  isValidJumpdest : U256 → Bool
  /-- The code itself. -/
  asBytes : Bytes
  /-- The hash of the code. -/
  getHash : Hash

/-- What an executed contract returns, or its failure. -/
abbrev Result := Except ExecError Unit

namespace Result

/-- Whether a result is a failure. -/
def isErr : Result → Bool
  | .error _ => true
  | .ok _ => false

end Result

/-- A precompiled contract maps an input to its returned data and its result. -/
abbrev PrecompiledContract := Bytes → Bytes × Result

end Qevm
