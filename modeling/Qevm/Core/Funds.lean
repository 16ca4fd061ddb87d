import Qevm.Collections.Holdings
import Qevm.Core.Lawful

/-!
# The funds of a world state

The total of all balances, and what the operations that move funds do to it.
-/

namespace Qevm

open WorldState

noncomputable instance : Fintype Addr :=
  have : Finite Addr :=
    Finite.of_injective BitVec.toFin BitVec.toFin_injective
  Fintype.ofFinite Addr

namespace View

/-- The sum of all balances. -/
noncomputable def total (view : View) : Nat :=
  Holdings.total fun account => (view.balance account).toNat

/-- Views with the same balances have the same sum. -/
theorem total_congr {left right : View} (same : left.balance = right.balance) :
    left.total = right.total := by
  rw [total, total, same]

/-- Changing a balance changes the sum by the difference. -/
theorem total_setBalance (view : View) (account : Addr) (balance : Wei) :
    (view.setBalance account balance).total + (view.balance account).toNat =
      view.total + balance.toNat := by
  have changed := Holdings.total_update
    (fun other => (view.balance other).toNat) account balance.toNat
  unfold total
  rw [← changed]
  congr 2
  funext other
  unfold setBalance
  by_cases same : other = account
  · subst same
    simp
  · simp [same]

/-- No balance is larger than the sum. -/
theorem balance_le_total (view : View) (account : Addr) :
    (view.balance account).toNat ≤ view.total :=
  Holdings.le_total (fun other => (view.balance other).toNat) account

end View

section Lawful

variable {S : Type} [WorldState S] [Keccak256] [LawfulWorldState S]

/-- Crediting an account adds to the sum, unless it overflows. -/
theorem total_addBalance (state : S) (addr : Addr) (val : Wei) :
    addBalance state addr val = (state, none) ∨
      (addBalance state addr val).2 = some () ∧
      (view (addBalance state addr val).1).total =
        (view state).total + val.toNat := by
  by_cases fits : (getBalance state addr).toNat + val.toNat < 2 ^ 256
  · refine .inr ?_
    have changed := View.total_setBalance (view state) addr
      (getBalance state addr + val)
    rw [LawfulWorldState.balance_view, BitVec.toNat_add,
      Nat.mod_eq_of_lt fits] at changed
    simp only [addBalance_fits fits, LawfulWorldState.view_setBalance, true_and]
    omega
  · exact .inl (addBalance_overflows (Nat.le_of_not_lt fits))

/-- A transfer that the sender can pay succeeds and keeps the sum. -/
theorem total_transferBalance
    {state : S} {sender : Addr} (recipient : Addr) {val : Wei}
    (covered : val ≤ getBalance state sender)
    (bounded : (view state).total < 2 ^ 256) :
    (transferBalance state sender recipient val).2 = some () ∧
      (view (transferBalance state sender recipient val).1).total =
        (view state).total := by
  have enough : val.toNat ≤ (getBalance state sender).toNat := covered
  have subtracted : (getBalance state sender - val).toNat + val.toNat =
      (getBalance state sender).toNat := by
    rw [BitVec.toNat_sub_of_le covered]
    omega
  have less := View.total_setBalance (view state) sender
    (getBalance state sender - val)
  rw [LawfulWorldState.balance_view, ← LawfulWorldState.view_setBalance] at less
  simp only [transferBalance, subBalance_covered covered]
  obtain overflows | ⟨credited, more⟩ := total_addBalance
    (setBalance state sender (getBalance state sender - val)) recipient val
  · -- the credit cannot overflow, because nobody holds more than the sum
    have held := View.balance_le_total
      (view (setBalance state sender (getBalance state sender - val))) recipient
    rw [LawfulWorldState.balance_view] at held
    have fits : (getBalance (setBalance state sender
        (getBalance state sender - val)) recipient).toNat + val.toNat < 2 ^ 256 := by
      omega
    rw [addBalance_fits fits] at overflows
    exact absurd (congrArg Prod.snd overflows) (by simp)
  · exact ⟨credited, by omega⟩

/-- Emptying a credited account loses at most what it held. -/
theorem total_sweep (state : S) (callee beneficiary : Addr) :
    (view (setBalance (addBalance state beneficiary (getBalance state callee)).1
      callee 0)).total ≤ (view state).total := by
  have emptied (state : S) :
      (view (setBalance state callee 0)).total +
        (getBalance state callee).toNat = (view state).total := by
    rw [← LawfulWorldState.balance_view, LawfulWorldState.view_setBalance]
    exact View.total_setBalance (view state) callee 0
  by_cases self : callee = beneficiary
  · subst self
    unfold addBalance
    split
    · rename_i balance sum
      have final := emptied (setBalance state callee balance)
      have changed := View.total_setBalance (view state) callee balance
      rw [LawfulWorldState.balance_view, ← LawfulWorldState.view_setBalance]
        at changed
      rw [getBalance_setBalance, if_pos rfl] at final
      simp only
      omega
    · exact Nat.le.intro (emptied state)
  · have final := emptied
      (addBalance state beneficiary (getBalance state callee)).1
    have kept : getBalance (addBalance state beneficiary
        (getBalance state callee)).1 callee = getBalance state callee := by
      unfold addBalance
      split
      · rw [getBalance_setBalance, if_neg self]
      · rfl
    rw [kept] at final
    obtain overflows | ⟨-, more⟩ :=
      total_addBalance state beneficiary (getBalance state callee)
    · rw [overflows] at final ⊢
      exact Nat.le.intro final
    · omega

end Lawful

section Flat

variable {S : Type} [WorldState S] [Keccak256] [FlatWorldState S]

/-- Deleting an account loses what it held. -/
theorem total_deleteAccount (state : S) (account : Addr) :
    (view (deleteAccount state account)).total +
        (getBalance state account).toNat = (view state).total := by
  have balances : (view (deleteAccount state account)).balance =
      ((view state).setBalance account 0).balance := by
    funext other
    by_cases same : other = account
    · subst same
      rw [(FlatWorldState.view_deleted state other).balance]
      simp only [View.setBalance, Function.update_self]
    · rw [(LawfulWorldState.view_deleteAccount same).1.balance]
      simp only [View.setBalance, Function.update_of_ne same]
  rw [View.total_congr balances, ← LawfulWorldState.balance_view]
  exact View.total_setBalance (view state) account 0

end Flat

end Qevm
