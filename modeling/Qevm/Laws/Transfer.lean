import Qevm.Core.Run
import Qevm.State.Dummy

/-!
# Transfers of funds

A transfer takes an amount from one account and gives it to another one.  Each half fails
without changing anything, but a transfer whose second half fails has taken the amount.
-/

namespace Qevm

open WorldState

/-- The view after an amount has been moved. -/
def View.moveFunds (view : View) (sender recipient : Addr) (val : Wei) : View :=
  { view with
    balance := fun account =>
      if sender = recipient then view.balance account
      else if account = sender then view.balance account - val
      else if account = recipient then view.balance account + val
      else view.balance account }

namespace View

/-- An account that pays itself keeps its balance. -/
theorem moveFunds_self (view : View) (account : Addr) (val : Wei) :
    view.moveFunds account account val = view := by
  simp only [moveFunds, if_true]

/-- Setting a balance twice sets it to the second value. -/
theorem setBalance_twice (view : View) (account : Addr) (first second : Wei) :
    (view.setBalance account first).setBalance account second =
      view.setBalance account second := by
  simp only [setBalance, Function.update_idem]

/-- Moving an amount to another account sets two balances. -/
theorem moveFunds_other
    (view : View) {sender recipient : Addr} (val : Wei) (other : recipient ≠ sender) :
    (view.setBalance sender (view.balance sender - val)).setBalance recipient
        (view.balance recipient + val) =
      view.moveFunds sender recipient val := by
  unfold moveFunds setBalance
  congr 1
  funext account
  dsimp only
  rw [if_neg other.symm]
  by_cases receives : account = recipient
  · subst receives
    rw [Function.update_self, if_neg other, if_pos rfl]
  · rw [Function.update_of_ne receives, Function.update_apply]
    by_cases pays : account = sender
    · rw [if_pos pays, if_pos pays, pays]
    · rw [if_neg pays, if_neg pays, if_neg receives]

end View

section Law

variable {S : Type} [WorldState S] {state : S} {sender recipient : Addr} {val : Wei}

/-- The sender has the amount, and another recipient can have it too. -/
def Transferable (state : S) (sender recipient : Addr) (val : Wei) : Prop :=
  val ≤ getBalance state sender ∧
    (recipient ≠ sender → (getBalance state recipient).toNat + val.toNat < 2 ^ 256)

/-- The sender has the amount, but the recipient cannot have it too. -/
def Overflows (state : S) (sender recipient : Addr) (val : Wei) : Prop :=
  recipient ≠ sender ∧ val ≤ getBalance state sender ∧
    2 ^ 256 ≤ (getBalance state recipient).toNat + val.toNat

instance (state : S) (sender recipient : Addr) (val : Wei) :
    Decidable (Overflows state sender recipient val) :=
  inferInstanceAs (Decidable (_ ∧ _ ∧ _))

/-- A transfer is all or nothing: it succeeds when it can, it moves the amount and changes
nothing else when it succeeds, and it changes no balance when it fails. -/
structure AllOrNothing [Keccak256] [LawfulWorldState S]
    (state : S) (sender recipient : Addr) (val : Wei) : Prop where
  succeeds : (transferBalance state sender recipient val).2 = some () ↔
    Transferable state sender recipient val
  moves : (transferBalance state sender recipient val).2 = some () →
    view (transferBalance state sender recipient val).1 =
      (view state).moveFunds sender recipient val
  keeps : (transferBalance state sender recipient val).2 = none →
    ∀ account, (view (transferBalance state sender recipient val).1).balance account =
      (view state).balance account

/-! ### The cases of a transfer -/

/-- An amount that the sender does not have is not taken. -/
theorem transferBalance_short (short : getBalance state sender < val) :
    transferBalance state sender recipient val = (state, none) := by
  simp only [transferBalance, subBalance_short short]

/-- The amount is taken before it is given. -/
theorem transferBalance_covered (covered : val ≤ getBalance state sender) :
    transferBalance state sender recipient val =
      addBalance (setBalance state sender (getBalance state sender - val))
        recipient val := by
  simp only [transferBalance, subBalance_covered covered]

variable [Keccak256] [LawfulWorldState S]

/-- A transfer to another account that can have the amount sets both balances. -/
theorem transferBalance_fits
    (other : recipient ≠ sender) (covered : val ≤ getBalance state sender)
    (fits : (getBalance state recipient).toNat + val.toNat < 2 ^ 256) :
    transferBalance state sender recipient val =
      (setBalance (setBalance state sender (getBalance state sender - val))
        recipient (getBalance state recipient + val), some ()) := by
  have kept : getBalance (setBalance state sender (getBalance state sender - val))
      recipient = getBalance state recipient := by
    rw [getBalance_setBalance, if_neg other]
  rw [transferBalance_covered covered, addBalance_fits (by rwa [kept]), kept]

/-- A transfer to an account that cannot have the amount fails when it has been taken. -/
theorem transferBalance_overflows (overflows : Overflows state sender recipient val) :
    transferBalance state sender recipient val =
      (setBalance state sender (getBalance state sender - val), none) := by
  obtain ⟨other, covered, large⟩ := overflows
  have kept : getBalance (setBalance state sender (getBalance state sender - val))
      recipient = getBalance state recipient := by
    rw [getBalance_setBalance, if_neg other]
  rw [transferBalance_covered covered, addBalance_overflows (by rwa [kept])]

/-- A transfer of an account to itself sets its balance to what it was. -/
theorem transferBalance_self (covered : val ≤ getBalance state sender) :
    transferBalance state sender sender val =
      (setBalance (setBalance state sender (getBalance state sender - val))
        sender (getBalance state sender), some ()) := by
  have taken : getBalance (setBalance state sender (getBalance state sender - val))
      sender = getBalance state sender - val := by
    rw [getBalance_setBalance, if_pos rfl]
  have fits : (getBalance state sender - val).toNat + val.toNat < 2 ^ 256 := by
    have enough : val.toNat ≤ (getBalance state sender).toNat := covered
    rw [BitVec.toNat_sub_of_le covered, Nat.sub_add_cancel enough]
    exact (getBalance state sender).isLt
  rw [transferBalance_covered covered, addBalance_fits (by rwa [taken]), taken,
    BitVec.sub_add_cancel]

/-- What can be transferred is moved. -/
theorem Transferable.moves (transferable : Transferable state sender recipient val) :
    ∃ final, transferBalance state sender recipient val = (final, some ()) ∧
      view final = (view state).moveFunds sender recipient val := by
  obtain ⟨covered, fits⟩ := transferable
  by_cases same : recipient = sender
  · subst same
    refine ⟨_, transferBalance_self covered, ?_⟩
    rw [View.moveFunds_self, LawfulWorldState.view_setBalance,
      LawfulWorldState.view_setBalance, View.setBalance_twice,
      ← LawfulWorldState.balance_view, View.setBalance_self]
  · refine ⟨_, transferBalance_fits same covered (fits same), ?_⟩
    rw [LawfulWorldState.view_setBalance, LawfulWorldState.view_setBalance,
      ← LawfulWorldState.balance_view, ← LawfulWorldState.balance_view,
      View.moveFunds_other _ _ same]

/-- A transfer that can succeed or that its sender cannot pay is all or nothing. -/
theorem Transferable.allOrNothing (transferable : Transferable state sender recipient val) :
    AllOrNothing state sender recipient val := by
  obtain ⟨final, run, moved⟩ := transferable.moves
  refine ⟨?_, ?_, ?_⟩ <;> rw [run]
  · exact iff_of_true rfl transferable
  · exact fun _ => moved
  · exact fun failed => nomatch failed

/-- So is one that its sender cannot pay. -/
theorem allOrNothing_of_short (short : getBalance state sender < val) :
    AllOrNothing state sender recipient val := by
  refine ⟨?_, ?_, ?_⟩ <;> rw [transferBalance_short short]
  · refine iff_of_false nofun fun transferable => ?_
    exact absurd transferable.1 (BitVec.not_le.mpr short)
  · exact fun failed => nomatch failed
  · exact fun _ _ => rfl

/-- A transfer that overflows has taken the amount. -/
theorem Overflows.takes (overflows : Overflows state sender recipient val) :
    (transferBalance state sender recipient val).2 = none ∧
      getBalance (transferBalance state sender recipient val).1 sender =
        getBalance state sender - val ∧
      getBalance state sender - val ≠ getBalance state sender := by
  rw [transferBalance_overflows overflows, getBalance_setBalance, if_pos rfl]
  refine ⟨rfl, rfl, fun same => ?_⟩
  obtain ⟨-, covered, large⟩ := overflows
  have given := (getBalance state recipient).isLt
  have enough : val.toNat ≤ (getBalance state sender).toNat := covered
  -- an amount that overflows is not zero, so taking it changes the balance
  have numbers := congrArg BitVec.toNat same
  rw [BitVec.toNat_sub_of_le covered] at numbers
  omega

/-- It is not all or nothing. -/
theorem Overflows.not_allOrNothing (overflows : Overflows state sender recipient val) :
    ¬AllOrNothing state sender recipient val := by
  intro holds
  obtain ⟨fails, taken, changed⟩ := overflows.takes
  have kept := holds.keeps fails sender
  rw [LawfulWorldState.balance_view, LawfulWorldState.balance_view, taken] at kept
  exact changed kept

/-- A transfer is all or nothing unless the recipient cannot have what the sender has. -/
theorem transfer_all_or_nothing_iff :
    AllOrNothing state sender recipient val ↔ ¬Overflows state sender recipient val := by
  constructor
  · exact fun holds overflows => overflows.not_allOrNothing holds
  · intro bounded
    by_cases covered : val ≤ getBalance state sender
    · refine Transferable.allOrNothing ⟨covered, fun other => ?_⟩
      exact Nat.lt_of_not_le fun large => bounded ⟨other, covered, large⟩
    · exact allOrNothing_of_short (BitVec.not_le.mp covered)

end Law

/-- One account has one wei and another one has as much as there can be. -/
def Sample.fullState : DummyStateStore :=
  letI := keccak []
  (DummyStateStore.new.setBalance 0xaa 1).setBalance 0xbb (BitVec.allOnes 256)

/-- A transfer to a full account fails and has taken the amount. -/
theorem failed_transfer_takes :
    letI := Sample.keccak []
    Overflows Sample.fullState 0xaa 0xbb 1 ∧
      (transferBalance Sample.fullState 0xaa 0xbb 1).2 = none ∧
      getBalance Sample.fullState 0xaa = 1 ∧
      getBalance (transferBalance Sample.fullState 0xaa 0xbb 1).1 0xaa = 0 ∧
      ¬AllOrNothing Sample.fullState 0xaa 0xbb 1 := by
  let := Sample.keccak []
  have overflows : Overflows Sample.fullState 0xaa 0xbb 1 := by decide +kernel
  have held : getBalance Sample.fullState 0xaa = 1 := by decide +kernel
  obtain ⟨fails, taken, -⟩ := overflows.takes
  rw [held] at taken
  exact ⟨overflows, fails, held, taken, overflows.not_allOrNothing⟩

end Qevm
