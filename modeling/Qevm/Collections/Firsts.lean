import Mathlib.Data.List.Induction
import Mathlib.Data.List.Nodup

/-!
# The first of each key

Of a list whose members have keys, the first with each key, in the order of the list.
-/

universe u v

variable {β : Type u} {κ : Type v} [DecidableEq κ] {key : β → κ}

/-- Keep a member unless one with its key is kept already. -/
def keepFirst (key : β → κ) (kept : List β) (member : β) : List β :=
  if key member ∈ kept.map key then kept else kept ++ [member]

/-- The first member with each key. -/
def firstsBy (key : β → κ) (list : List β) : List β := list.foldl (keepFirst key) []

theorem firstsBy_append (list more : List β) :
    firstsBy key (list ++ more) = more.foldl (keepFirst key) (firstsBy key list) :=
  List.foldl_append

/-- What is kept has different keys. -/
theorem nodup_firstsBy (key : β → κ) (list : List β) :
    ((firstsBy key list).map key).Nodup := by
  induction list using List.reverseRecOn with
  | nil => exact List.nodup_nil
  | append_singleton list member inductionHypothesis =>
      rw [firstsBy_append, List.foldl_cons, List.foldl_nil, keepFirst]
      split
      · exact inductionHypothesis
      · next isNew =>
          rw [List.map_append, List.map_singleton]
          apply List.nodup_append.mpr
          refine ⟨inductionHypothesis, List.nodup_singleton _, ?_⟩
          rintro name isKept other isLast rfl
          exact isNew (List.mem_singleton.mp isLast ▸ isKept)
