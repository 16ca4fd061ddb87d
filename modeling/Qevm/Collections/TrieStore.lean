import Qevm.Collections.HashMap
import Mathlib.Logic.Function.Basic

/-!
# Stores of persistent maps

A store keeps maps, each under a root.  Inserting into the map under a root
writes a new map under a new root and keeps every map that was there.
-/

universe u v w x

/-- The operations of a store. -/
class TrieStore
    (σ : Type u) (ρ : outParam (Type v)) (κ : outParam (Type w))
    (ν : outParam (Type x)) where
  /-- The map under a root, if the root is in the store. -/
  trie : σ → ρ → Option (κ → Option ν)
  /-- Insert into the map under a root, or into a new one, and write it. -/
  insertAll : σ → Option ρ → List (κ × ν) → Option (σ × ρ)

namespace TrieStore

variable {σ : Type u} {ρ : Type v} {κ : Type w} {ν : Type x} [DecidableEq κ]

/-- A map after insertions, a later one on top of an earlier one. -/
def inserted (map : κ → Option ν) (writes : List (κ × ν)) : κ → Option ν :=
  writes.foldl (fun map write => Function.update map write.1 (some write.2)) map

/-- Insertions of the entries of a finite map under distinct keys. -/
theorem inserted_entries
    {α : Type u} {β : Type v} [DecidableEq α]
    {entries : List ((_ : α) × β)} (nodup : entries.NodupKeys) {name : α → κ}
    (injective : Function.Injective name) (value : β → ν) (map : κ → Option ν) (key : α) :
    inserted map (entries.map fun entry => (name entry.1, value entry.2)) (name key) =
      ((entries.dlookup key).map value).or (map (name key)) := by
  induction entries generalizing map with
  | nil => rfl
  | cons entry entries inductionHypothesis =>
      obtain ⟨other, found⟩ := entry
      obtain ⟨fresh, rest⟩ := List.nodupKeys_cons.mp nodup
      have step := inductionHypothesis rest
        (Function.update map (name other) (some (value found)))
      rw [inserted, List.map_cons, List.foldl_cons]
      refine Eq.trans step ?_
      by_cases same : other = key
      · subst same
        rw [List.dlookup_eq_none.mpr fresh, List.dlookup_cons_eq, Function.update_self]
        rfl
      · rw [List.dlookup_cons_ne _ _ (Ne.symm same), Function.update_of_ne]
        exact fun sameName => same (injective sameName).symm

end TrieStore

open TrieStore in
/-- What a store does when it does not fail. -/
class LawfulTrieStore
    (σ : Type u) {ρ : Type v} {κ : Type w} {ν : Type x} [DecidableEq κ]
    [TrieStore σ ρ κ ν] : Prop where
  insertAll_new : ∀ {db db' : σ} {writes : List (κ × ν)} {root : ρ},
    insertAll db none writes = some (db', root) →
      trie db' root = some (inserted (fun _ => none) writes)
  insertAll_existing : ∀ {db db' : σ} {writes : List (κ × ν)} {old root : ρ},
    insertAll db (some old) writes = some (db', root) →
      ∃ map, trie db old = some map ∧ trie db' root = some (inserted map writes)
  persistent : ∀ {db db' : σ} {writes : List (κ × ν)} {old : Option ρ} {root : ρ},
    insertAll db old writes = some (db', root) →
      ∀ {kept map}, trie db kept = some map → trie db' kept = some map
