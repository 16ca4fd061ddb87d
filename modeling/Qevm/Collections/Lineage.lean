import Mathlib.Data.List.Basic

/-!
# Lines of ancestors

Things have names, and each but a root names its parent.  The line of a thing goes from the
root down to it.  Where names identify things and every thing is one below its parent, a
thing has one line only, as long as it is deep.
-/

universe u v

variable {β : Type u} {κ : Type v}

/-- The line from a root down to a thing, all of whose other members are known. -/
inductive Lineage (name parent : β → κ) (known : β → Prop) (root : β) : List β → β → Prop
  | root : Lineage name parent known root [root] root
  | child {path : List β} {above below : β} :
      Lineage name parent known root path above → known below → parent below = name above →
        Lineage name parent known root (path ++ [below]) below

/-- Names identify the root and the known things, and these are ranked below the root. -/
structure Ranked
    (name parent : β → κ) (rank : β → Nat) (known : β → Prop) (root : β) : Prop where
  identified : ∀ {first second}, first = root ∨ known first → second = root ∨ known second →
    name first = name second → first = second
  rank_root : rank root = 0
  rank_child : ∀ {below}, known below → ∃ above, (above = root ∨ known above) ∧
    parent below = name above ∧ rank below = rank above + 1

namespace Lineage

variable {name parent : β → κ} {rank : β → Nat} {known more : β → Prop} {root thing : β}
  {path other : List β}

theorem mono (lineage : Lineage name parent known root path thing)
    (included : ∀ {thing}, known thing → more thing) :
    Lineage name parent more root path thing := by
  induction lineage with
  | root => exact .root
  | child _ isKnown below inductionHypothesis =>
      exact .child inductionHypothesis (included isKnown) below

theorem last_known (lineage : Lineage name parent known root path thing) :
    thing = root ∨ known thing := by
  cases lineage with
  | root => exact .inl rfl
  | child _ isKnown _ => exact .inr isKnown

theorem getLast?_eq (lineage : Lineage name parent known root path thing) :
    path.getLast? = some thing := by
  cases lineage with
  | root => rfl
  | child => exact List.getLast?_concat

theorem head?_eq (lineage : Lineage name parent known root path thing) :
    path.head? = some root := by
  induction lineage with
  | root => rfl
  | child _ _ _ inductionHypothesis =>
      rw [List.head?_append, inductionHypothesis]
      rfl

/-- A line whose members below the root are of some kind is a line of that kind. -/
theorem of_mem_tail
    (lineage : Lineage name parent known root path thing)
    (included : ∀ member ∈ path.tail, more member) :
    Lineage name parent more root path thing := by
  induction lineage with
  | root => exact .root
  | @child path above below lineAbove isKnown named inductionHypothesis =>
      have someAbove : path ≠ [] := by
        rintro rfl
        exact absurd lineAbove.head?_eq nofun
      rw [List.tail_append_of_ne_nil someAbove] at included
      exact .child
        (inductionHypothesis fun member isMember =>
          included member (List.mem_append_left [below] isMember))
        (included below (List.mem_append_right path.tail List.mem_cons_self)) named

/-- A line is one longer than its last member is deep. -/
theorem length_eq
    (lineage : Lineage name parent known root path thing)
    (ranked : Ranked name parent rank known root) : path.length = rank thing + 1 := by
  induction lineage with
  | root => rw [ranked.rank_root, List.length_singleton]
  | child above isKnown below inductionHypothesis =>
      obtain ⟨named, namedKnown, sameName, deeper⟩ := ranked.rank_child isKnown
      obtain rfl := ranked.identified namedKnown above.last_known (sameName.symm.trans below)
      rw [List.length_append, inductionHypothesis, deeper, List.length_singleton]

/-- A thing has one line. -/
theorem unique
    (lineage : Lineage name parent known root path thing)
    (lineageOther : Lineage name parent known root other thing)
    (ranked : Ranked name parent rank known root) : path = other := by
  induction lineage generalizing other with
  | root =>
      have short := lineageOther.length_eq ranked
      rw [ranked.rank_root, Nat.zero_add] at short
      obtain ⟨only, rfl⟩ := List.length_eq_one_iff.mp short
      rw [Option.some.inj lineageOther.head?_eq]
  | @child path above below lineAbove isKnown named inductionHypothesis =>
      cases lineageOther with
      | root =>
          have long := (lineAbove.child isKnown named).length_eq ranked
          have some := lineAbove.length_eq ranked
          rw [List.length_append, ranked.rank_root, List.length_singleton] at long
          omega
      | @child otherLine otherAbove _ otherLineAbove _ otherNamed =>
          obtain rfl := ranked.identified otherLineAbove.last_known lineAbove.last_known
            (otherNamed.symm.trans named)
          rw [inductionHypothesis otherLineAbove]

/-- Every member of a line has the line up to it. -/
theorem take
    (lineage : Lineage name parent known root path thing) {depth : Nat} {member : β}
    (found : path[depth]? = some member) :
    Lineage name parent known root (path.take (depth + 1)) member := by
  induction lineage with
  | root =>
      obtain ⟨inside, rfl⟩ := List.getElem?_eq_some_iff.mp found
      obtain rfl : depth = 0 := Nat.lt_one_iff.mp inside
      exact .root
  | @child path above below lineAbove isKnown named inductionHypothesis =>
      by_cases inside : depth < path.length
      · rw [List.getElem?_append_left inside] at found
        rw [List.take_append_of_le_length inside]
        exact inductionHypothesis found
      · obtain ⟨within, same⟩ := List.getElem?_eq_some_iff.mp found
        rw [List.length_append, List.length_singleton] at within
        obtain rfl : depth = path.length := by omega
        rw [List.getElem_concat_length rfl] at same
        subst same
        rw [List.take_of_length_le (by simp)]
        exact lineAbove.child isKnown named

end Lineage
