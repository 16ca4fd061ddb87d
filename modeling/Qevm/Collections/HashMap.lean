import Mathlib.Data.List.AList

/-!
# Finite maps and finite sets with an iteration order

A hash map is a list of entries without repeated keys, and a hash set a list of
elements without repetition.  The order of the list is the order in which a loop
over the collection visits it; everything proved for every value of these types
holds for every iteration order.
-/

universe u v w x

/-- A finite map. -/
abbrev HashMap (κ : Type u) (ν : Type v) := AList fun _ : κ => ν

namespace HashMap

variable {κ : Type u} {ν : Type v} [DecidableEq κ]

/-- Change the value at a key, starting from a default when there is none. -/
def modify
    (map : HashMap κ ν) (key : κ) (default : ν) (change : ν → ν) :
    HashMap κ ν :=
  map.insert key (change ((map.lookup key).getD default))

@[simp] theorem lookup_modify
    (map : HashMap κ ν) (key : κ) (default : ν) (change : ν → ν) :
    (modify map key default change).lookup key =
      some (change ((map.lookup key).getD default)) :=
  AList.lookup_insert map

theorem lookup_modify_ne
    {map : HashMap κ ν} {key other : κ} {default : ν} {change : ν → ν}
    (different : other ≠ key) :
    (modify map key default change).lookup other = map.lookup other :=
  AList.lookup_insert_ne different

theorem lookup_insert_eq_ite
    (map : HashMap κ ν) (key other : κ) (value : ν) :
    (map.insert key value).lookup other =
      if other = key then some value else map.lookup other := by
  by_cases same : other = key
  · subst same
    simp
  · simp [same]

theorem lookup_erase_eq_ite
    (map : HashMap κ ν) (key other : κ) :
    (map.erase key).lookup other =
      if other = key then none else map.lookup other := by
  by_cases same : other = key
  · subst same
    simp
  · simp [same]

/-- A removed key leaves fewer entries. -/
theorem length_erase_lt
    {map : HashMap κ ν} {key : κ} {value : ν} (found : map.lookup key = some value) :
    (map.erase key).entries.length < map.entries.length := by
  have member : key ∈ map.keys := by
    apply AList.lookup_isSome.mp
    rw [found]
    rfl
  have shorter : (map.erase key).keys.length < map.keys.length := by
    rw [AList.keys_erase, List.length_erase_of_mem member]
    exact Nat.sub_lt (List.length_pos_of_mem member) Nat.one_pos
  simpa only [AList.keys, List.keys, List.length_map] using shorter

/-- A loop over the entries of a map. -/
def forEach
    (map : HashMap κ ν) (visit : σ → κ → ν → σ) (start : σ) : σ :=
  map.entries.foldl (fun state entry => visit state entry.1 entry.2) start

/-- A loop over a map, seen at one key: the visit of that key is the only one
that is seen, wherever it comes. -/
theorem forEach_at
    {σ : Type w} {α : Type x} (map : HashMap κ ν) {visit : σ → κ → ν → σ}
    (start : σ) (key : κ) (seen : σ → α) (step : α → ν → α)
    (others : ∀ state other value, other ≠ key →
      seen (visit state other value) = seen state)
    (here : ∀ state value, seen (visit state key value) = step (seen state) value) :
    seen (map.forEach visit start) =
      ((map.lookup key).map (step (seen start))).getD (seen start) := by
  obtain ⟨entries, nodup⟩ := map
  unfold forEach AList.lookup
  simp only
  induction entries generalizing start with
  | nil => rfl
  | cons entry entries inductionHypothesis =>
      obtain ⟨other, value⟩ := entry
      obtain ⟨fresh, rest⟩ := List.nodupKeys_cons.mp nodup
      rw [List.foldl_cons, inductionHypothesis _ rest]
      by_cases same : other = key
      · subst same
        have gone : entries.dlookup other = none := List.dlookup_eq_none.mpr fresh
        rw [gone, List.dlookup_cons_eq]
        exact here start value
      · have skipped : List.dlookup key (⟨other, value⟩ :: entries) =
            entries.dlookup key := List.dlookup_cons_ne _ _ (Ne.symm same)
        rw [skipped, others start other value same]

/-- Remove a list of keys. -/
def eraseAll (map : HashMap κ ν) (keys : List κ) : HashMap κ ν :=
  keys.foldl (fun map key => map.erase key) map

theorem lookup_eraseAll (map : HashMap κ ν) (keys : List κ) (key : κ) :
    (map.eraseAll keys).lookup key =
      if key ∈ keys then none else map.lookup key := by
  unfold eraseAll
  induction keys generalizing map with
  | nil => simp
  | cons head keys inductionHypothesis =>
      rw [List.foldl_cons, inductionHypothesis, lookup_erase_eq_ite]
      by_cases member : key ∈ keys
      · simp [member]
      · simp [member]

end HashMap

/-- A finite set. -/
structure HashSet (α : Type u) where
  /-- The elements in iteration order. -/
  toList : List α
  /-- No element is listed twice. -/
  nodup : toList.Nodup

namespace HashSet

variable {α : Type u}

/-- The set without elements. -/
def empty : HashSet α := ⟨[], List.nodup_nil⟩

instance : Membership α (HashSet α) := ⟨fun set element => element ∈ set.toList⟩

theorem mem_def {element : α} {set : HashSet α} :
    element ∈ set ↔ element ∈ set.toList := Iff.rfl

@[simp] theorem not_mem_empty (element : α) :
    element ∉ (empty : HashSet α) := List.not_mem_nil

variable [DecidableEq α]

instance (element : α) (set : HashSet α) : Decidable (element ∈ set) :=
  inferInstanceAs (Decidable (element ∈ set.toList))

/-- Add an element. -/
def insert (set : HashSet α) (element : α) : HashSet α :=
  ⟨set.toList.insert element, set.nodup.insert⟩

/-- Remove an element. -/
def remove (set : HashSet α) (element : α) : HashSet α :=
  ⟨set.toList.erase element, set.nodup.erase element⟩

/-- Add every element of another set. -/
def extend (set other : HashSet α) : HashSet α :=
  other.toList.foldl insert set

@[simp] theorem mem_insert {set : HashSet α} {element other : α} :
    other ∈ set.insert element ↔ other = element ∨ other ∈ set := by
  simp [mem_def, insert]

@[simp] theorem mem_remove {set : HashSet α} {element other : α} :
    other ∈ set.remove element ↔ other ≠ element ∧ other ∈ set := by
  simp [mem_def, remove, set.nodup.mem_erase_iff]

@[simp] theorem mem_extend {set other : HashSet α} {element : α} :
    element ∈ set.extend other ↔ element ∈ set ∨ element ∈ other := by
  have general (elements : List α) (start : HashSet α) :
      element ∈ elements.foldl insert start ↔
        element ∈ start ∨ element ∈ elements := by
    induction elements generalizing start with
    | nil => simp
    | cons head tail inductionHypothesis =>
        simp only [List.foldl_cons, inductionHypothesis, mem_insert,
          List.mem_cons]
        tauto
  exact general other.toList set

end HashSet
