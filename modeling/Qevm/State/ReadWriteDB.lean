import Qevm.Collections.Database
import Qevm.State.Merkle

/-!
# The store of trie nodes

The nodes of all tries are kept in a database next to other records.  A node has two
entries there, its count and its data.  Writes are collected in a batch until they are
committed.  Nodes are never removed.  The database, the hash of the nodes and the key
function are library code and parameters.

A result `none` of an operation stands for a panic.
-/

namespace Qevm

/-- The path to a node: its whole bytes and a last half byte. -/
abbrev NodePrefix := Bytes × Option UInt8

/-- The hash of the nodes, and the key of a node below a path. -/
class NodeHasher (η : outParam Type) where
  hash : Bytes → η
  key : η → NodePrefix → Bytes

/-- How often a node has been written. -/
structure Counter where
  count : Int64

namespace Counter

def encode (self : Counter) : Bytes := u64ToLeBytes self.count.toUInt64

/-- The first eight bytes are read; a shorter entry panics. -/
def decode (raw : Bytes) : Option Counter :=
  if 8 ≤ raw.length then some ⟨(u64FromLeBytes (raw.take 8)).toInt64⟩ else none

end Counter

/-- A database with a pending batch, and the space of the nodes in it. -/
structure ReadWriteDB (δ η : Type) where
  db : δ
  wb : Option (List (Bytes × Bytes))
  dbPrefix : Bytes
  nullNodeHash : η
  nullNodeData : Bytes

namespace ReadWriteDB

variable {δ η : Type} [NodeHasher η]

def cntSuffix : Bytes := [0x0]
def dataSuffix : Bytes := [0x1]

def new (dbPrefix : Bytes) (db : δ) : ReadWriteDB δ η :=
  ⟨db, none, dbPrefix, NodeHasher.hash [0], [0]⟩

def finalizeKey
    (self : ReadWriteDB δ η) (key : η) (path : NodePrefix) (suffix : Bytes) : Bytes :=
  self.dbPrefix ++ NodeHasher.key key path ++ suffix

/-- Add writes to the pending batch, which is started if there is none. -/
def putAll (self : ReadWriteDB δ η) (writes : List (Bytes × Bytes)) : ReadWriteDB δ η :=
  { self with wb := some (self.wb.getD [] ++ writes) }

variable [DecidableEq η] [Database δ Bytes Bytes]

/-- Write the pending batch. -/
def commit (self : ReadWriteDB δ η) : Option (ReadWriteDB δ η) :=
  match self.wb with
  | none => some self
  | some wb => (Database.write self.db wb).map fun db => { self with db := db, wb := none }

/-- The data of a node; a failed read finds nothing. -/
def get (self : ReadWriteDB δ η) (key : η) (path : NodePrefix) : Option (Option Bytes) :=
  if key = self.nullNodeHash then some (some self.nullNodeData)
  else
    match Database.get self.db (self.finalizeKey key path cntSuffix) with
    | none => some none
    | some none => some none
    | some (some raw) => do
        let cnt ← Counter.decode raw
        if 0 < cnt.count then
          some (Database.get self.db (self.finalizeKey key path dataSuffix)).join
        else some none

def contains (self : ReadWriteDB δ η) (key : η) (path : NodePrefix) : Option Bool :=
  if key = self.nullNodeHash then some true
  else
    match Database.get self.db (self.finalizeKey key path cntSuffix) with
    | none => some false
    | some none => some false
    | some (some raw) => (Counter.decode raw).map fun cnt => 0 < cnt.count

/-- Write a node under a key.  The count is read from the database, not from the pending
batch; a failed read panics. -/
def emplace (self : ReadWriteDB δ η) (key : η) (path : NodePrefix) (value : Bytes) :
    Option (ReadWriteDB δ η) :=
  if value = self.nullNodeData then some self
  else
    let cntKey := self.finalizeKey key path cntSuffix
    let dataKey := self.finalizeKey key path dataSuffix
    match Database.get self.db cntKey with
    | none => none
    | some (some raw) => do
        let cnt ← Counter.decode raw
        let self := if cnt.count ≤ 0 then self.putAll [(dataKey, value)] else self
        some (self.putAll [(cntKey, Counter.encode ⟨cnt.count + 1⟩)])
    | some none =>
        some (self.putAll [(cntKey, Counter.encode ⟨1⟩), (dataKey, value)])

/-- Write a node under its hash. -/
def insert (self : ReadWriteDB δ η) (path : NodePrefix) (value : Bytes) :
    Option (ReadWriteDB δ η × η) :=
  if value = self.nullNodeData then some (self, self.nullNodeHash)
  else
    let key := NodeHasher.hash value
    (self.emplace key path value).map fun self => (self, key)

/-- Nothing is removed. -/
def remove (self : ReadWriteDB δ η) (_key : η) (_path : NodePrefix) : ReadWriteDB δ η := self

/-- Open the database again, without what was pending. -/
def reopen (self : ReadWriteDB δ η) : ReadWriteDB δ η := new self.dbPrefix self.db

/-- What may happen to a store: writes of nodes, writes of other records, and the end of a
process before it has committed. -/
inductive Op (η : Type)
  | emplace (key : η) (path : NodePrefix) (value : Bytes)
  | insert (path : NodePrefix) (value : Bytes)
  | remove (key : η) (path : NodePrefix)
  | put (key value : Bytes)
  | commit
  | reopen

def step (self : ReadWriteDB δ η) : Op η → Option (ReadWriteDB δ η)
  | .emplace key path value => self.emplace key path value
  | .insert path value => (self.insert path value).map Prod.fst
  | .remove key path => some (self.remove key path)
  | .put key value => some (self.putAll [(key, value)])
  | .commit => self.commit
  | .reopen => some self.reopen

def run (self : ReadWriteDB δ η) : List (Op η) → Option (ReadWriteDB δ η)
  | [] => some self
  | op :: ops => (self.step op).bind fun self => self.run ops

end ReadWriteDB
end Qevm
