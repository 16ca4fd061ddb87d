import Mathlib.Data.List.Basic

/-!
# Sequences of records

Records of one kind stand one after the other.  A reader of one record is run as often as
there are records; it reads back what a writer of one record has written, whatever follows.
-/

namespace Codec

variable {α : Type u} {β : Type v}

/-- Run a reader of one record `count` times. -/
def readMany (read : List UInt8 → Option (β × List UInt8)) :
    (count : Nat) → List UInt8 → Option (List β × List UInt8)
  | 0, raw => some ([], raw)
  | count + 1, raw => do
      let (value, raw) ← read raw
      let (values, raw) ← readMany read count raw
      some (value :: values, raw)

/-- Written records are read back in their order. -/
theorem readMany_written
    {read : List UInt8 → Option (β × List UInt8)} {write : α → List UInt8} {kept : α → β}
    {values : List α}
    (reads : ∀ value ∈ values, ∀ rest, read (write value ++ rest) = some (kept value, rest))
    (rest : List UInt8) :
    readMany read values.length ((values.map write).flatten ++ rest) =
      some (values.map kept, rest) := by
  induction values with
  | nil => rfl
  | cons value values inductionHypothesis =>
      have others := inductionHypothesis fun other member =>
        reads other (List.mem_cons_of_mem value member)
      rw [List.length_cons, List.map_cons, List.flatten_cons, List.append_assoc, readMany,
        reads value List.mem_cons_self]
      simp only [Option.bind_eq_bind, Option.bind_some, others, List.map_cons]

end Codec
