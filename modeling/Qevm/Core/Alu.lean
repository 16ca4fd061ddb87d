import Qevm.Common

/-!
# Arithmetic of the interpreter

Word arithmetic as the instruction handlers compute it.
-/

namespace Qevm
namespace Alu

def add (a b : U256) : U256 := a + b

def sub (a b : U256) : U256 := a - b

def mul (a b : U256) : U256 := a * b

/-- Division of words that fails on a zero divisor. -/
def checkedDiv (a b : U256) : Option U256 :=
  if b = 0 then none else some (a / b)

/-- Remainder of words that fails on a zero divisor. -/
def checkedRem (a b : U256) : Option U256 :=
  if b = 0 then none else some (a % b)

def div (a b : U256) : U256 :=
  match checkedDiv a b with
  | some r => r
  | none => 0

/-- Two's-complement negation. -/
def neg (a : U256) : U256 := (a - 1) ^^^ BitVec.allOnes 256

/-- The sign of a word and its absolute value. -/
def getSignAbs (x : U256) : Bool × U256 :=
  if x.getLsbD 255 then (true, neg x) else (false, x)

def sdiv (a b : U256) : U256 :=
  let (aSign, aAbs) := getSignAbs a
  let (bSign, bAbs) := getSignAbs b
  match checkedDiv aAbs bAbs with
  | some r => if aSign ^^ bSign then neg r else r
  | none => 0

def rem (a b : U256) : U256 :=
  match checkedRem a b with
  | some r => r
  | none => 0

def smod (a b : U256) : U256 :=
  if b = 0 then 0 else
    let q := sdiv a b
    a - b * q

/-- Sum modulo `n`, computed in 512 bits. -/
def addMod (a b n : U256) : U256 :=
  if n = 0 then 0 else BitVec.ofNat 256 ((a.toNat + b.toNat) % n.toNat)

/-- Product modulo `n`, computed in 512 bits. -/
def mulMod (a b n : U256) : U256 :=
  if n = 0 then 0 else BitVec.ofNat 256 ((a.toNat * b.toNat) % n.toNat)

/-- Wrapping power, by squaring along the lowest `bits` bits of the exponent. -/
def powBits (a b : U256) : (bits : Nat) → U256
  | 0 => 1
  | bits + 1 =>
      let square := powBits a (b >>> 1) bits
      if b.getLsbD 0 then square * square * a else square * square

def exp (a b : U256) : U256 := powBits a b (U256.bits b)

/-- Extend the sign of the number in the lowest `back + 1` bytes. -/
def signExtend (back x : U256) : U256 :=
  let back := if back > 31 then 31 else back
  let shift := (back.toNat + 1) <<< 3
  if x.getLsbD (shift - 1) then
    -- fill with ones
    let mask := ((1 : U256) <<< (256 - shift)) - 1
    x ||| (mask <<< shift)
  else
    x

def boolToU256 (t : Bool) : U256 := if t then 1 else 0

def lt (a b : U256) : U256 := boolToU256 (a < b)

def gt (a b : U256) : U256 := boolToU256 (a > b)

def slt (a b : U256) : U256 :=
  let (aSign, aAbs) := getSignAbs a
  let (bSign, bAbs) := getSignAbs b
  if aSign ^^ bSign then
    boolToU256 aSign
  else
    boolToU256 (if aAbs = bAbs then false else (decide (aAbs < bAbs)) ^^ aSign)

def sgt (a b : U256) : U256 :=
  let (aSign, aAbs) := getSignAbs a
  let (bSign, bAbs) := getSignAbs b
  if aSign ^^ bSign then
    boolToU256 bSign
  else
    boolToU256 (if aAbs = bAbs then false else (decide (aAbs > bAbs)) ^^ bSign)

def eq (a b : U256) : U256 := boolToU256 (a = b)

def isZero (a : U256) : U256 := boolToU256 (a = 0)

def and (a b : U256) : U256 := a &&& b

def or (a b : U256) : U256 := a ||| b

def xor (a b : U256) : U256 := a ^^^ b

def not (a : U256) : U256 := ~~~a

def byte (i x : U256) : U256 :=
  let i := if i > 31 then 31 else i.toNat
  (x >>> (248 - (i <<< 3))) &&& 0xff

def shl (s val : U256) : U256 :=
  if s < 256 then val <<< s.toNat else 0

/-- The shift amount is converted to a machine size first, which fails when it
does not fit 64 bits. -/
def shr (s val : U256) : Option U256 :=
  (checkedAsU64 s).map fun amount => val >>> amount.toNat

def sar (s val : U256) : U256 :=
  let ext := val.getLsbD 255
  if s > 256 then
    if ext then BitVec.allOnes 256 else 0
  else
    let s := s.toNat
    let shifted := val >>> s
    if ext then
      shifted ||| ((sub ((1 : U256) <<< s) 1) <<< (256 - s))
    else
      shifted

end Alu
end Qevm
