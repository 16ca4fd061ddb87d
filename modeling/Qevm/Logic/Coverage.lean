import Mathlib.Data.Finset.Card
import Mathlib.Data.Set.Basic
import Mathlib.Tactic.Push

/-!
# Counters that cover a set

A counter covers a set when it holds a fixed weight for every element of the set.
An element may leave the set against its weight, and must bring its weight when it
joins.
-/

/-- A counter holds a weight for each of any number of elements of a set. -/
def Covers {α : Type*} (weight : Nat) (set : Set α) (count : Nat) : Prop :=
  ∀ elements : Finset α, (∀ a ∈ elements, a ∈ set) → weight * elements.card ≤ count

namespace Covers

variable {α : Type*} {weight count next : Nat} {set larger before after : Set α} {a : α}

/-- A larger counter covers a smaller set. -/
theorem mono
    (covers : Covers weight larger count) (subset : ∀ a ∈ set, a ∈ larger)
    (more : count ≤ next) : Covers weight set next := by
  intro elements members
  apply Nat.le_trans (covers elements _) more
  exact fun a member => subset a (members a member)

/-- A counter that covers a set holds the weight of an element. -/
theorem le_of_mem (covers : Covers weight set count) (member : a ∈ set) :
    weight ≤ count := by
  have single := covers {a} fun b same => Finset.mem_singleton.mp same ▸ member
  simpa using single

/-- Nothing has to be held for a set without elements. -/
theorem of_empty (empty : ∀ a, a ∉ set) : Covers weight set count := by
  intro elements members
  have none : elements = ∅ :=
    Finset.eq_empty_of_forall_notMem fun a member => empty a (members a member)
  rw [none, Finset.card_empty, Nat.mul_zero]
  exact Nat.zero_le count

/-- Finitely many elements of a set with one more. -/
theorem insert_le
    (covers : Covers weight set count) (member : a ∈ set) {elements : Finset α}
    (members : ∀ b ∈ elements, b ∈ set) (fresh : a ∉ elements) :
    weight * elements.card + weight ≤ count := by
  classical
  have more := covers (insert a elements) fun b found => by
    rcases Finset.mem_insert.mp found with rfl | old
    · exact member
    · exact members b old
  rwa [Finset.card_insert_of_notMem fresh, Nat.mul_succ] at more

open Classical in
/-- A counter still covers a set after one element has joined or left it, when it is
paid for the element that joins and pays no more than for the one that leaves. -/
theorem change
    (covers : Covers weight before count)
    (same : ∀ b, b ≠ a → (b ∈ after ↔ b ∈ before))
    (paid : count + (if a ∈ after then weight else 0) ≤
      next + (if a ∈ before then weight else 0)) : Covers weight after next := by
  intro elements members
  have others : ∀ b ∈ elements.erase a, b ∈ before := by
    intro b found
    obtain ⟨different, member⟩ := Finset.mem_erase.mp found
    exact (same b different).mp (members b member)
  have fresh : a ∉ elements.erase a := Finset.notMem_erase a elements
  have old : weight * (elements.erase a).card + (if a ∈ before then weight else 0) ≤
      count := by
    split
    · rename_i member
      exact covers.insert_le member others fresh
    · exact covers _ others
  have new : weight * elements.card ≤
      weight * (elements.erase a).card + (if a ∈ after then weight else 0) := by
    by_cases member : a ∈ elements
    · rw [if_pos (members a member), ← Finset.card_erase_add_one member, Nat.mul_succ]
    · rw [Finset.erase_eq_of_notMem member]
      exact Nat.le_add_right _ _
  omega

end Covers
