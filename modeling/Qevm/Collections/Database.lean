import Qevm.Collections.TrieStore

/-!
# Databases with write batches

A database keeps a value for each of its keys.  Its reads and writes may fail.  A batch of
writes is applied as a whole, a later write on top of an earlier one.
-/

universe u v w

/-- The operations of a database. -/
class Database (δ : Type u) (κ : outParam (Type v)) (ν : outParam (Type w)) where
  /-- What is stored. -/
  contents : δ → κ → Option ν
  /-- Read the value of a key; `none` is a failure. -/
  get : δ → κ → Option (Option ν)
  /-- Write a batch; `none` is a failure. -/
  write : δ → List (κ × ν) → Option δ

open Database in
/-- What a database does when it does not fail. -/
class LawfulDatabase
    (δ : Type u) {κ : Type v} {ν : Type w} [DecidableEq κ] [Database δ κ ν] : Prop where
  get_eq : ∀ {db : δ} {key : κ} {found : Option ν},
    get db key = some found → found = contents db key
  write_eq : ∀ {db db' : δ} {batch : List (κ × ν)},
    write db batch = some db' → contents db' = TrieStore.inserted (contents db) batch

open Database in
/-- A database that does not fail. -/
class ReliableDatabase
    (δ : Type u) {κ : Type v} {ν : Type w} [DecidableEq κ] [Database δ κ ν] : Prop extends
    LawfulDatabase δ where
  answers : ∀ (db : δ) (key : κ), get db key ≠ none
  accepts : ∀ (db : δ) (batch : List (κ × ν)), write db batch ≠ none

namespace Database

variable {δ : Type u} {κ : Type v} {ν : Type w} [DecidableEq κ] [Database δ κ ν]

/-- The reads of a database all succeed. -/
def Answers (db : δ) : Prop := ∀ key : κ, get db key ≠ none

variable [LawfulDatabase δ]

/-- A database that answers reads what it stores. -/
theorem Answers.get_eq {db : δ} (answers : Answers db) (key : κ) :
    get db key = some (contents db key) := by
  cases read : get db key with
  | none => exact absurd read (answers key)
  | some found => rw [LawfulDatabase.get_eq read]

omit [LawfulDatabase δ] in
/-- A reliable database reads what it stores. -/
theorem get_of_reliable [ReliableDatabase δ] (db : δ) (key : κ) :
    get db key = some (contents db key) :=
  Answers.get_eq (ReliableDatabase.answers db) key

end Database

namespace TrieStore

variable {κ : Type v} {ν : Type w} [DecidableEq κ]

/-- Two lists of insertions, one after the other. -/
theorem inserted_append (map : κ → Option ν) (first second : List (κ × ν)) :
    inserted map (first ++ second) = inserted (inserted map first) second :=
  List.foldl_append

/-- A last insertion. -/
theorem inserted_concat (map : κ → Option ν) (writes : List (κ × ν)) (write : κ × ν) :
    inserted map (writes ++ [write]) =
      Function.update (inserted map writes) write.1 (some write.2) :=
  inserted_append map writes [write]

end TrieStore
