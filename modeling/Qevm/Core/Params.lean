import Mathlib.Order.Lattice
import Mathlib.Order.Defs.LinearOrder
import Mathlib.Data.Nat.Basic

/-!
# Protocol parameters

The fork enumeration and the gas schedule of the interpreter.
-/

namespace Qevm

/-- Gas is counted in 64-bit words. -/
abbrev Gas := UInt64

/-- The rule sets, oldest first. -/
inductive Fork
  | frontier
  | homestead
  | tangerineWhistle
  | spuriousDragon
  | byzantium
  | constantinople
  | istanbul
  | berlin
  | london
  deriving DecidableEq, Repr

namespace Fork

/-- The position of a fork in the history of the protocol. -/
def rank : Fork → Nat
  | frontier => 0
  | homestead => 1
  | tangerineWhistle => 2
  | spuriousDragon => 3
  | byzantium => 4
  | constantinople => 5
  | istanbul => 6
  | berlin => 7
  | london => 8

theorem rank_injective : Function.Injective rank := by
  intro first second equal
  cases first <;> cases second <;> first | rfl | cases equal

instance : LinearOrder Fork := LinearOrder.lift' rank rank_injective

end Fork

namespace Params

def maxCallDepth : Nat := 1024
def maxStackDepth : Nat := 1024
def maxCodeSize : Nat := 24576
def maxMemSize : Nat := 0x1fffffffe0

def gasQuick : Gas := 2
def gasFastest : Gas := 3
def gasFast : Gas := 5
def gasSha3 : Gas := 30
def gasCopyWord : Gas := 3
def gasSha3Word : Gas := 6
def gasMid : Gas := 8
def gasSlow : Gas := 10
def gasExt : Gas := 20
def gasExtBaseFrontier : Gas := 20
def gasExtBaseTangerine : Gas := 700
def gasLog : Gas := 375
def gasLogTopic : Gas := 375
def gasLogData : Gas := 8
def gasCreate : Gas := 32000
def gasCreate2 : Gas := 32000
def gasCallFrontier : Gas := 40
def gasCallTangerine : Gas := 700
def gasCallStipend : Gas := 2300
def gasCallNewAccount : Gas := 25000
def gasCallValueTrans : Gas := 9000
def gasCreateData : Gas := 200
def gasMemResizeWord : Gas := 3
def gasJumpdest : Gas := 1
def gasExpByteFrontier : Gas := 10
def gasExpByteSpuriousDragon : Gas := 50
def quadCoefDiv : Gas := 512
def gasSelfDestruct : Gas := 5000
def gasCreateBySelfDestruct : Gas := 25000
def gasBalanceFrontier : Gas := 20
def gasBalanceTangerine : Gas := 400
def gasBalanceIstanbul : Gas := 700
def gasExtCodeSizeFrontier : Gas := 20
def gasExtCodeSizeTangerine : Gas := 700
def gasSloadFrontier : Gas := 50
def gasSloadTangerine : Gas := 200
def gasSloadIstanbul : Gas := 800
def gasExtCodeHashConstantinople : Gas := 400
def gasExtCodeHashIstanbul : Gas := 700
def gasSstoreSet : Gas := 20000
def gasSstoreReset : Gas := 5000
def gasSstoreClear : Gas := 5000
def gasSstoreRefund : Gas := 15000
def gasSstoreSetIstanbul : Gas := 20000
def gasSstoreResetIstanbul : Gas := 5000
def gasSstoreRefundIstanbul : Gas := 15000
def gasSstoreSentryIstanbul : Gas := 2300
def gasWarmStorageReadCostBerlin : Gas := 100
def gasColdSloadCostBerlin : Gas := 2100
def gasColdAccountAccessCostBerlin : Gas := 2600
def gasSelfDestructRefund : Gas := 24000
def gasTxAccessListStorageKey : Gas := 1900

/-- The clearing refund of EIP-3529. -/
def gasSstoreRefundLondon : Gas :=
  gasSstoreResetIstanbul - gasColdSloadCostBerlin + gasTxAccessListStorageKey

end Params
end Qevm
