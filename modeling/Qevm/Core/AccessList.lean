import Qevm.Collections.HashMap
import Qevm.Common

/-!
# The access list of a transaction

An address is stored with the position of its slots, or with `-1` when none of
its slots has been accessed.
-/

namespace Qevm

/-- An entry of the access list that a transaction declares. -/
structure TxAccessTuple where
  addr : Addr
  storageKeys : List Hash

/-- The accessed addresses and slots. -/
structure AccessList where
  /-- The accessed addresses, with the position of their slots or `-1`. -/
  addrs : HashMap Addr Int
  /-- The accessed slots. -/
  slots : List (HashSet Hash)

namespace AccessList

/-- The slots stored at a position, unless it is out of bounds. -/
def slotsAt (self : AccessList) (idx : Int) : Option (HashSet Hash) :=
  if 0 ≤ idx then self.slots[idx.toNat]? else none

/-- Whether an address was accessed. -/
def containsAddr (self : AccessList) (addr : Addr) : Bool :=
  (self.addrs.lookup addr).isSome

/-- Whether an address and a slot of it were accessed; `none` stands for an
index out of bounds. -/
def contains (self : AccessList) (addr : Addr) (slot : Hash) :
    Option (Bool × Bool) :=
  match self.addrs.lookup addr with
  | some idx =>
      if idx = -1 then
        some (true, false)
      else
        (self.slotsAt idx).map fun slots => (true, decide (slot ∈ slots))
  | none => some (false, false)

/-- Add an address; the flag tells whether it was new. -/
def addAddr (self : AccessList) (addr : Addr) : AccessList × Bool :=
  match self.addrs.lookup addr with
  | some _ => (self, false)
  | none => ({ self with addrs := self.addrs.insert addr (-1) }, true)

/-- Add a slot; the flags tell whether the address and the slot were new, and
`none` stands for an index out of bounds. -/
def addSlot (self : AccessList) (addr : Addr) (slot : Hash) :
    Option (AccessList × Bool × Bool) :=
  match (self.addrs.lookup addr).bind fun idx =>
      if idx = -1 then none else some idx with
  | some idx =>
      (self.slotsAt idx).map fun slots =>
        ({ self with slots := self.slots.set idx.toNat (slots.insert slot) },
          false, decide (slot ∉ slots))
  | none =>
      some (⟨self.addrs.insert addr self.slots.length,
          self.slots ++ [HashSet.empty.insert slot]⟩,
        (self.addrs.lookup addr).isNone, true)

/-- Add an address and then its slots. -/
def addTuple (self : AccessList) (tuple : TxAccessTuple) : Option AccessList :=
  tuple.storageKeys.foldlM
    (fun list key => (list.addSlot tuple.addr key).map Prod.fst)
    (self.addAddr tuple.addr).1

/-- The access list at the start of a transaction. -/
def new
    (sender : Addr) (recipient : Option Addr) (precompiled : List Addr)
    (accessList : Option (List TxAccessTuple)) : Option AccessList :=
  let ac : AccessList := ⟨∅, []⟩
  let ac := (ac.addAddr sender).1
  let ac := recipient.elim ac fun addr => (ac.addAddr addr).1
  let ac := precompiled.foldl (fun list addr => (list.addAddr addr).1) ac
  (accessList.getD []).foldlM addTuple ac

end AccessList
end Qevm
