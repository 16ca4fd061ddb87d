import Mathlib.Algebra.BigOperators.Group.Finset.Piecewise
import Mathlib.Algebra.Order.BigOperators.Group.Finset

/-!
# Holdings and their total

Finitely many owners hold natural numbers.  Changing what one owner holds changes
the total by the difference.
-/

namespace Holdings

variable {α : Type u} [Fintype α] [DecidableEq α] {holdings : α → Nat}

/-- What all owners hold together. -/
def total (holdings : α → Nat) : Nat := ∑ owner, holdings owner

/-- Changing what one owner holds. -/
theorem total_update (holdings : α → Nat) (owner : α) (amount : Nat) :
    total (Function.update holdings owner amount) + holdings owner =
      total holdings + amount := by
  have changed := Finset.sum_update_of_mem (Finset.mem_univ owner) holdings amount
  have split := Finset.add_sum_erase Finset.univ holdings (Finset.mem_univ owner)
  rw [Finset.sdiff_singleton_eq_erase] at changed
  unfold total
  omega

omit [DecidableEq α] in
/-- Nobody holds more than the total. -/
theorem le_total (holdings : α → Nat) (owner : α) :
    holdings owner ≤ total holdings :=
  Finset.single_le_sum (fun _ _ => Nat.zero_le _) (Finset.mem_univ owner)

end Holdings
