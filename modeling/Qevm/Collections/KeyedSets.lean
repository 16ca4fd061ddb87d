import Qevm.Logic.Procedure
import Mathlib.Data.Set.Basic

/-!
# Sets of keys and of values under keys

What is recorded is a set of keys, some of them with values.  A value is recorded under a
key of the set, so recording one records its key as well.
-/

/-- A set of keys and a set of values under keys. -/
@[ext] structure KeyedSets (κ : Type u) (ν : Type v) where
  keys : Set κ
  /-- Keys with values. -/
  pairs : Set (κ × ν)
  /-- A key with a value is a key. -/
  covered : ∀ pair ∈ pairs, pair.1 ∈ keys

namespace KeyedSets

variable {κ : Type u} {ν : Type v}

/-- Nothing is recorded. -/
protected def empty (κ : Type u) (ν : Type v) : KeyedSets κ ν := ⟨∅, ∅, fun _ => False.elim⟩

/-- Everything that one or the other records. -/
def union (sets more : KeyedSets κ ν) : KeyedSets κ ν where
  keys := sets.keys ∪ more.keys
  pairs := sets.pairs ∪ more.pairs
  covered pair recorded := recorded.imp (sets.covered pair) (more.covered pair)

/-- A key and values under it. -/
def single (key : κ) (values : Set ν) : KeyedSets κ ν where
  keys := {key}
  pairs := {pair | pair.1 = key ∧ pair.2 ∈ values}
  covered _ recorded := recorded.1

/-- Keys without values. -/
def ofKeys (keys : Set κ) : KeyedSets κ ν := ⟨keys, ∅, fun _ => False.elim⟩

theorem union_empty (sets : KeyedSets κ ν) : sets.union (.empty κ ν) = sets :=
  KeyedSets.ext (Set.union_empty _) (Set.union_empty _)

theorem union_assoc (first second third : KeyedSets κ ν) :
    (first.union second).union third = first.union (second.union third) :=
  KeyedSets.ext (Set.union_assoc _ _ _) (Set.union_assoc _ _ _)

/-- Values under one key are recorded together. -/
theorem single_union_single (key : κ) (values more : Set ν) :
    (single key values).union (single key more) = single key (values ∪ more) := by
  ext pair
  · exact or_self_iff
  · exact and_or_left.symm

/-- Procedures on such sets; they neither fail nor panic. -/
abbrev Operation (κ : Type u) (ν : Type v) (α : Type w) :=
  Procedure (KeyedSets κ ν) Empty Empty α

open Classical in
/-- Record a key and tell whether it is new. -/
noncomputable def addKey (key : κ) : Operation κ ν Bool := fun sets =>
  .ok (decide (key ∉ sets.keys)) (sets.union (single key ∅))

open Classical in
/-- Record a value under a key and tell whether the key and whether the value is new. -/
noncomputable def addPair (key : κ) (value : ν) : Operation κ ν (Bool × Bool) := fun sets =>
  .ok (decide (key ∉ sets.keys), decide ((key, value) ∉ sets.pairs))
    (sets.union (single key {value}))

open Classical in
/-- Tell whether a key is recorded. -/
noncomputable def hasKey (key : κ) : Operation κ ν Bool := fun sets =>
  .ok (decide (key ∈ sets.keys)) sets

open Classical in
/-- Tell whether a key is recorded and whether a value is under it. -/
noncomputable def hasPair (key : κ) (value : ν) : Operation κ ν (Bool × Bool) := fun sets =>
  .ok (decide (key ∈ sets.keys), decide ((key, value) ∈ sets.pairs)) sets

end KeyedSets
