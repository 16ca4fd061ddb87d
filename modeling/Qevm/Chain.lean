import Qevm.Collections.HashMap
import Qevm.Common

/-!
# The chain of blocks

Blocks arrive in any order.  A block whose parent is attached to the base is
attached, and so is everything that waits for it; the others are kept as orphans
that wait for their parents.

The objects that a chain shares are values of the type of blocks: two objects of
one block may be different values.
-/

namespace Qevm

/-- What a chain looks at in a block. -/
class Block (B : Type) where
  parent : B → Hash
  hash : B → Hash

structure Chain (B : Type) where
  base : B
  /-- Blocks that are currently transitively attached to the base. -/
  attached : HashMap Hash B
  /-- Blocks that are currently free floating from the base. -/
  orphans : HashMap Hash B
  /-- The orphans that wait for a parent. -/
  orphanOn : HashMap Hash (List Hash)

namespace Chain

open Block (parent hash)

variable {B : Type} [Block B]

/-- The chain that consists of its base. -/
def new (base : B) : Chain B where
  base := base
  attached := (∅ : HashMap Hash B).insert (hash base) base
  orphans := ∅
  orphanOn := ∅

omit [Block B] in
/-- Attach the orphans of a waiting list.  A hash that is not that of an orphan
panics, which `none` stands for. -/
def attachAll (self : Chain B) : List Hash → Option (Chain B)
  | [] => some self
  | orphan :: waiting =>
      match self.orphans.lookup orphan with
      | none => none
      | some o =>
          attachAll { self with
            orphans := self.orphans.erase orphan
            attached := self.attached.insert orphan o } waiting

omit [Block B] in
/-- Attaching orphans removes no waiting list. -/
theorem orphanOn_attachAll
    {self next : Chain B} {waiting : List Hash}
    (run : self.attachAll waiting = some next) : next.orphanOn = self.orphanOn := by
  induction waiting generalizing self with
  | nil => rw [← Option.some.inj run]
  | cons orphan waiting inductionHypothesis =>
      rw [attachAll] at run
      split at run
      · contradiction
      · have rest := inductionHypothesis run
        exact rest

omit [Block B] in
/-- Clear the waiting lists of the attached blocks of a queue, recursively. -/
def clear (self : Chain B) (q : List Hash) : Option (Chain B) :=
  match q with
  | [] => some self
  | u :: q =>
      match _found : self.orphanOn.lookup u with
      | none => self.clear q
      | some waiting =>
          match _attached : attachAll { self with
            orphanOn := self.orphanOn.erase u } waiting with
          | none => none
          | some next => next.clear (q ++ waiting)
termination_by (self.orphanOn.entries.length, q.length)
decreasing_by
  · exact Prod.Lex.right _ (Nat.lt_succ_self _)
  · apply Prod.Lex.left
    rw [orphanOn_attachAll ‹_›]
    exact HashMap.length_erase_lt ‹_›

/-- Add a block, unless a block with its hash is known.  The result is the known
object or the new one. -/
def addBlock (self : Chain B) (block : B) : Option (B × Chain B) :=
  match self.attached.lookup (hash block) with
  | some b => some (b, self)
  | none =>
      match self.orphans.lookup (hash block) with
      | some b => some (b, self)
      | none =>
          match self.attached.lookup (parent block) with
          | none =>
              some (block, { self with
                orphanOn := HashMap.modify self.orphanOn (parent block) []
                  fun waiting => waiting ++ [hash block]
                orphans := self.orphans.insert (hash block) block })
          | some _ =>
              (clear { self with
                attached := self.attached.insert (hash block) block }
                [hash block]).map fun next => (block, next)

/-- Add blocks one after the other. -/
def addBlocks (self : Chain B) : List B → Option (List B × Chain B)
  | [] => some ([], self)
  | block :: blocks => do
      let (b, next) ← self.addBlock block
      let (bs, last) ← next.addBlocks blocks
      some (b :: bs, last)

/-- Whether a block is connected to the base. -/
def isAttached (self : Chain B) (block : Hash) : Bool :=
  (self.attached.lookup block).isSome

/-- The object of a block. -/
def getBlock (self : Chain B) (block : Hash) : Option B :=
  (self.attached.lookup block).orElse fun _ => self.orphans.lookup block

/-- Drop the orphans and their waiting lists. -/
def removeOrphans (self : Chain B) : Chain B :=
  { self with
    orphans := ∅
    orphanOn := ∅ }

/-- Whether a block is kept as an orphan. -/
def isOrphan (self : Chain B) (block : Hash) : Bool :=
  (self.orphans.lookup block).isSome

end Chain
end Qevm
