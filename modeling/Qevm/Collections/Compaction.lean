import Mathlib.Data.List.Basic

/-!
# Positions in a list of which members are left out

A function that is not defined everywhere takes a list to a shorter one.  What a member
becomes stands at its rank there: the number of members before it that are not left out.
-/

universe u v

variable {β : Type u} {ν : Type v} {f : β → Option ν}

namespace Compaction

open List

/-- The number of members before a position that are not left out. -/
def rank (f : β → Option ν) (list : List β) (position : Nat) : Nat :=
  ((list.take position).filterMap f).length

@[simp] theorem rank_zero (list : List β) : rank f list 0 = 0 := by
  simp [rank]

theorem rank_cons (first : β) (list : List β) (position : Nat) :
    rank f (first :: list) (position + 1) =
      rank f list position + if (f first).isSome then 1 else 0 := by
  unfold rank
  rw [take_succ_cons]
  cases kept : f first with
  | none => simp [filterMap_cons_none kept]
  | some value => simp [filterMap_cons_some kept]

/-- Nothing stands behind where it stood. -/
theorem rank_le (list : List β) (position : Nat) : rank f list position ≤ position :=
  Nat.le_trans (length_filterMap_le f _) (length_take_le position list)

theorem rank_mono (list : List β) {position later : Nat} (less : position ≤ later) :
    rank f list position ≤ rank f list later := by
  have taken : (list.take later).take position = list.take position := by
    rw [take_take, Nat.min_eq_left less]
  unfold rank
  rw [← taken]
  exact ((take_sublist position _).filterMap f).length_le

/-- What a member becomes stands at its rank. -/
theorem getElem?_filterMap {list : List β} {place : Nat} {value : ν} :
    (list.filterMap f)[place]? = some value ↔
      ∃ (position : Nat) (member : β), list[position]? = some member ∧
        f member = some value ∧ rank f list position = place := by
  induction list generalizing place with
  | nil => simp
  | cons first list inductionHypothesis =>
      have shifted : ∀ there : Nat,
          (∃ (position : Nat) (member : β), list[position]? = some member ∧
            f member = some value ∧ rank f list position = there) ↔
          ∃ (position : Nat) (member : β), (first :: list)[position + 1]? = some member ∧
            f member = some value ∧ rank f (first :: list) (position + 1) =
              there + if (f first).isSome then 1 else 0 := by
        intro there
        simp only [getElem?_cons_succ, rank_cons, Nat.add_right_cancel_iff]
      cases kept : f first with
      | none =>
          rw [filterMap_cons_none kept, inductionHypothesis, shifted]
          simp only [kept]
          constructor
          · rintro ⟨position, member, found⟩
            exact ⟨position + 1, member, found⟩
          · rintro ⟨position, member, found, becomes, place⟩
            cases position with
            | zero =>
                rw [getElem?_cons_zero, Option.some.injEq] at found
                rw [← found, kept] at becomes
                contradiction
            | succ position => exact ⟨position, member, found, becomes, place⟩
      | some firstValue =>
          rw [filterMap_cons_some kept]
          cases place with
          | zero =>
              rw [getElem?_cons_zero]
              constructor
              · intro same
                exact ⟨0, first, rfl, kept.trans same, rank_zero _⟩
              · rintro ⟨position, member, found, becomes, place⟩
                cases position with
                | zero =>
                    rw [getElem?_cons_zero, Option.some.injEq] at found
                    rw [← kept, found, becomes]
                | succ position =>
                    rw [rank_cons, kept] at place
                    simp at place
          | succ place =>
              rw [getElem?_cons_succ, inductionHypothesis, shifted]
              simp only [kept]
              constructor
              · rintro ⟨position, member, found⟩
                exact ⟨position + 1, member, found⟩
              · rintro ⟨position, member, found, becomes, place⟩
                cases position with
                | zero => simp at place
                | succ position => exact ⟨position, member, found, becomes, place⟩

/-- A member keeps its position exactly if no member before it is left out. -/
theorem rank_eq_iff {list : List β} {position : Nat} (inside : position ≤ list.length) :
    rank f list position = position ↔
      ∀ before < position, ∃ member, list[before]? = some member ∧ (f member).isSome := by
  induction list generalizing position with
  | nil =>
      obtain rfl : position = 0 := Nat.le_zero.mp inside
      simp
  | cons first list inductionHypothesis =>
      cases position with
      | zero => simp
      | succ position =>
          have less := rank_le (f := f) list position
          rw [rank_cons, Nat.forall_lt_succ_left]
          rw [length_cons, Nat.succ_le_succ_iff] at inside
          simp only [getElem?_cons_zero, getElem?_cons_succ, Option.some.injEq,
            exists_eq_left', ← inductionHypothesis inside]
          split
          · next kept => simp [kept]
          · next dropped =>
              simp only [dropped, Bool.false_eq_true, false_and, iff_false]
              omega

end Compaction
