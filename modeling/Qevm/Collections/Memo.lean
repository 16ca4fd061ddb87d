import Qevm.Collections.HashMap

/-!
# Answers that are remembered

Questions are asked of a world that changes.  An answer is remembered for good, that there is
none is not: a question has the answer of the first world that had one when it was asked.
-/

universe u v w

namespace Memo

variable {κ : Type u} {ν : Type v} {ω : Type w} [DecidableEq κ] (answer : κ → ω → Option ν)

/-- Ask a question in a world. -/
def ask (memo : HashMap κ ν) (world : ω) (key : κ) : Option ν × HashMap κ ν :=
  match memo.lookup key with
  | some value => (some value, memo)
  | none =>
      match answer key world with
      | some value => (some value, memo.insert key value)
      | none => (none, memo)

/-- The first answer to a question among those to the questions that were asked. -/
def firstAnswer (key : κ) (asked : List (κ × ω)) : Option ν :=
  asked.findSome? fun entry => if entry.1 = key then answer key entry.2 else none

/-- What is remembered are the first answers. -/
def Remembers (memo : HashMap κ ν) (asked : List (κ × ω)) : Prop :=
  ∀ key, memo.lookup key = firstAnswer answer key asked

variable {answer} {memo : HashMap κ ν} {asked more : List (κ × ω)} {world : ω} {key other : κ}

theorem remembers_nil : Remembers answer (∅ : HashMap κ ν) ([] : List (κ × ω)) :=
  fun _ => rfl

theorem firstAnswer_append :
    firstAnswer answer key (asked ++ more) =
      (firstAnswer answer key asked).or (firstAnswer answer key more) :=
  List.findSome?_append

@[simp] theorem firstAnswer_singleton :
    firstAnswer answer key [(key, world)] = answer key world := by
  simp [firstAnswer]

theorem firstAnswer_other (different : other ≠ key) :
    firstAnswer answer key [(other, world)] = none := by
  simp [firstAnswer, different]

/-- The first answer is an answer in a world in which the question was asked. -/
theorem asked_of_firstAnswer {value : ν} (found : firstAnswer answer key asked = some value) :
    ∃ world, (key, world) ∈ asked ∧ answer key world = some value := by
  obtain ⟨⟨name, world⟩, member, gives⟩ := List.exists_of_findSome?_eq_some found
  dsimp only at gives
  split at gives
  · next same =>
      subst same
      exact ⟨world, member, gives⟩
  · contradiction

/-- Asking gives the first answer. -/
theorem Remembers.ask_fst (remembers : Remembers answer memo asked) :
    (ask answer memo world key).1 = firstAnswer answer key (asked ++ [(key, world)]) := by
  rw [firstAnswer_append, ← remembers key, firstAnswer_singleton]
  unfold ask
  cases memo.lookup key with
  | some value => rfl
  | none => cases answer key world <;> rfl

/-- Asking keeps the first answers. -/
theorem Remembers.ask (remembers : Remembers answer memo asked) :
    Remembers answer (ask answer memo world key).2 (asked ++ [(key, world)]) := by
  intro name
  rw [firstAnswer_append, ← remembers name]
  unfold Memo.ask
  by_cases same : name = key
  · subst same
    rw [firstAnswer_singleton]
    cases found : memo.lookup name with
    | some value => exact found
    | none =>
        cases gives : answer name world with
        | none => exact found
        | some value => exact AList.lookup_insert memo
  · rw [firstAnswer_other fun asks => same asks.symm, Option.or_none]
    cases memo.lookup key with
    | some value => rfl
    | none =>
        cases answer key world with
        | none => rfl
        | some value => exact AList.lookup_insert_ne same

end Memo
