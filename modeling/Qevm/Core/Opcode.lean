import Qevm.Common

/-!
# Opcodes

The three families of numbered instructions are one constructor each.  The
variants `push`, `dup` and `swap` are the internal ones that the decoder
produces for these families.
-/

namespace Qevm

/-- The instruction set, internal variants included. -/
inductive Opcode
  | stop | add | mul | sub | div | sdiv | mod | smod | addMod | mulMod
  | exp | signExtend
  | lt | gt | slt | sgt | eql | isZero | and | or | xor | not | byte
  | shl | shr | sar
  | sha3
  | addr | balance | origin | caller | callValue | callDataLoad
  | callDataSize | callDataCopy | codeSize | codeCopy | gasPrice
  | extCodeSize | extCodeCopy | returnDataSize | returnDataCopy
  | extCodeHash | blockHash | coinbase | timestamp | number | difficulty
  | gasLimit | chainId | selfBalance | baseFee
  | pop | mload | mstore | mstore8 | sload | sstore | jump | jumpi | pc
  | msize | gas | jumpDest
  | pushN (index : Fin 32) | dupN (index : Fin 16) | swapN (index : Fin 16)
  | log0 | log1 | log2 | log3 | log4
  | push | dup | swap
  | create | call | callCode | return | delegateCall | create2
  | staticCall | revert | invalid | selfDestruct
  deriving DecidableEq, Repr

/-- What holds of 256 numbers holds of every byte. -/
theorem each_byte
    {property : UInt8 → Prop}
    (holds : ∀ value : Fin 256, property (UInt8.ofNat value)) (byte : UInt8) :
    property byte := by
  have same := holds ⟨byte.toNat, byte.toNat_lt⟩
  simpa using same

namespace Opcode

/-- The variants with consecutive numbers, in blocks with the number of their
first variant. -/
def blocks : List (Nat × List Opcode) :=
  [(0x00, [stop, add, mul, sub, div, sdiv, mod, smod, addMod, mulMod, exp,
      signExtend]),
    (0x10, [lt, gt, slt, sgt, eql, isZero, and, or, xor, not, byte, shl, shr,
      sar]),
    (0x20, [sha3]),
    (0x30, [addr, balance, origin, caller, callValue, callDataLoad,
      callDataSize, callDataCopy, codeSize, codeCopy, gasPrice, extCodeSize,
      extCodeCopy, returnDataSize, returnDataCopy, extCodeHash, blockHash,
      coinbase, timestamp, number, difficulty, gasLimit, chainId, selfBalance,
      baseFee]),
    (0x50, [pop, mload, mstore, mstore8, sload, sstore, jump, jumpi, pc, msize,
      gas, jumpDest]),
    (0x60, (List.finRange 32).map pushN),
    (0x80, (List.finRange 16).map dupN),
    (0x90, (List.finRange 16).map swapN),
    (0xa0, [log0, log1, log2, log3, log4]),
    (0xb0, [push, dup, swap]),
    (0xf0, [create, call, callCode, Opcode.return, delegateCall, create2]),
    (0xfa, [staticCall]),
    (0xfd, [revert, invalid, selfDestruct])]

/-- The variant with a given number. -/
def fromU8 (byte : UInt8) : Option Opcode :=
  blocks.findSome? fun block =>
    if block.1 ≤ byte.toNat then block.2[byte.toNat - block.1]? else none

/-- The instructions that may push a call frame. -/
def entersCall : Opcode → Bool
  | create | call | callCode | delegateCall | create2 | staticCall => true
  | _ => false

end Opcode
end Qevm
