import Mathlib.Data.List.Basic

/-!
# Infinite arrays

An infinite array has a value at every index.  A list is the start of the array that is
blank beyond its end, so making the list longer with blanks changes nothing, and
overwriting a part of the list stores values in the array.
-/

namespace Qevm

/-- An infinite array. -/
abbrev Tape (α : Type u) := Nat → α

namespace Tape

variable {α : Type u} {blank : α}

/-- The array that starts with a list and is blank beyond. -/
def ofList (blank : α) (values : List α) : Tape α := fun index =>
  values[index]?.getD blank

/-- Store consecutive values from an index on. -/
def store (tape : Tape α) (start : Nat) (values : List α) : Tape α := fun index =>
  if start ≤ index then values[index - start]?.getD (tape index) else tape index

/-- A number of consecutive values from an index on. -/
def load (tape : Tape α) (start count : Nat) : List α :=
  (List.range count).map fun offset => tape (start + offset)

@[simp] theorem ofList_nil : ofList blank [] = fun _ => blank := rfl

@[simp] theorem length_load (tape : Tape α) (start count : Nat) :
    (tape.load start count).length = count := by
  simp [load]

/-- A list has the values of its array. -/
theorem getElem?_eq_ofList {values : List α} {index : Nat} (inside : index < values.length) :
    values[index]? = some (ofList blank values index) := by
  simp [ofList, inside]

/-- Making a list longer with blanks keeps its array. -/
theorem ofList_append_blank (values : List α) (count : Nat) :
    ofList blank (values ++ List.replicate count blank) = ofList blank values := by
  funext index
  unfold ofList
  by_cases inside : index < values.length
  · rw [List.getElem?_append_left inside]
  · have beyond : values.length ≤ index := Nat.le_of_not_lt inside
    rw [List.getElem?_append_right beyond, List.getElem?_eq_none beyond,
      List.getElem?_replicate]
    split <;> rfl

/-- Overwriting a part of a list stores the values in its array. -/
theorem ofList_overwrite
    {values data : List α} {start : Nat} (inside : start + data.length ≤ values.length) :
    ofList blank (values.take start ++ data ++ values.drop (start + data.length)) =
      (ofList blank values).store start data := by
  funext index
  have front : (values.take start).length = start := by
    rw [List.length_take]
    omega
  unfold ofList store
  by_cases before : index < start
  · rw [if_neg (Nat.not_le_of_lt before), List.append_assoc,
      List.getElem?_append_left (by omega), List.getElem?_take_of_lt before]
  · rw [if_pos (Nat.le_of_not_lt before), List.append_assoc,
      List.getElem?_append_right (by omega), front]
    by_cases covered : index - start < data.length
    · rw [List.getElem?_append_left covered]
      simp [covered]
    · have beyond : data.length ≤ index - start := Nat.le_of_not_lt covered
      have same : start + data.length + (index - start - data.length) = index := by omega
      rw [List.getElem?_append_right beyond, List.getElem?_eq_none beyond,
        List.getElem?_drop, same, Option.getD_none]

/-- A part of a list is loaded from its array. -/
theorem slice_eq_load
    {values : List α} {start count : Nat} (inside : start + count ≤ values.length) :
    (values.take (start + count)).drop start = (ofList blank values).load start count := by
  apply List.ext_getElem
  · rw [List.length_drop, List.length_take, length_load]
    omega
  · intro offset left right
    rw [length_load] at right
    have holds : start + offset < values.length := by omega
    simp [load, ofList, holds]

end Tape
end Qevm
