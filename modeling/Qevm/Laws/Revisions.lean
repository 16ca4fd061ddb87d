import Qevm.State.Layers
import Qevm.Core.Run

/-!
# Reads through revisions

An empty revision upon a shared one and a consolidated revision are meant to
answer as the revision they come from.  Both only look at the deletion marks of
the newest revision, so a mark that gets covered shows again what it hides.
-/

namespace Qevm

open Overlay

namespace MemStateRev

section Law

variable [Keccak256]

/-- Two revisions answer every read alike. -/
def SameAnswers (left right : MemStateRev) : Prop :=
  ∀ account,
    (∀ key, left.getState account key = right.getState account key) ∧
      left.getBalance account = right.getBalance account ∧
      left.getNonce account = right.getNonce account ∧
      left.getCode account = right.getCode account ∧
      left.exist account = right.exist account

theorem sameAnswers_iff (left right : MemStateRev) :
    SameAnswers left right ↔
      ∀ account, left.reads account = right.reads account := by
  constructor
  · intro same account
    obtain ⟨state, balance, nonce, code, exist⟩ := same account
    ext1
    · funext field
      cases field with
      | slot key => exact state key
      | balance => exact balance
      | nonce => exact nonce
      | code => exact code
    · exact exist
  · intro same account
    have value (field : AccountField) :=
      congrFun (congrArg Reads.value (same account)) field
    exact ⟨fun key => value (.slot key), value .balance, value .nonce,
      value .code, congrArg Reads.exist (same account)⟩

/-- An empty revision upon a shared one answers as the shared one does exactly
when nothing is known of the accounts that the shared one marks as deleted: no
revision of the chain has an entry for them, and the external source answers
nothing. -/
theorem fromShared_sameAnswers_iff (self : MemStateRev) :
    SameAnswers (fromShared self) self ↔
      ∀ account ∈ self.delta.deletedAccounts,
        (∀ delta ∈ self.deltas, delta.accounts.lookup account = none) ∧
          self.source.reads account = deletedReads := by
  rw [sameAnswers_iff]
  refine forall_congr' fun account => ?_
  rw [reads_fromShared, reads_eq, top_empty_iff rfl, marked_layers, isDeleted,
    present_layers_eq_false, decide_eq_true_eq]

/-- A consolidated revision answers as the revision it comes from exactly when
the deletion marks that get covered by newer squashed revisions hide nothing
that is still seen. -/
theorem consolidate_sameAnswers_iff
    (self : MemStateRev) (maxBackSteps : Option Nat) :
    SameAnswers (self.consolidate maxBackSteps) self ↔
      ∀ account, Transparent deletedReads (self.squashed maxBackSteps account)
        ((self.foundation maxBackSteps).reads account) := by
  rw [sameAnswers_iff]
  refine forall_congr' fun account => ?_
  rw [reads_consolidate, reads_squashed self maxBackSteps]
  exact top_squash_iff rfl (List.cons_ne_nil _ _) _

end Law

namespace Sample

/-- The digests of revisions without code. -/
@[reducible] def noCodeKeccak : Keccak256 := Qevm.Sample.keccak
  [([], 0xc5d2460186f7233c927e7db2dcc703c0e500b653ca82273b7bfad8045d85a470)]

/-- An account gets a balance, and a later revision deletes it. -/
def deleting : MemStateRev :=
  letI := noCodeKeccak
  (fromShared ((new emptyState).setBalance 1 5)).deleteAccount 1

end Sample

/-- An account that is deleted before a snapshot exists after it. -/
theorem deleted_account_comes_back :
    letI := Sample.noCodeKeccak
    ¬ SameAnswers (fromShared Sample.deleting) Sample.deleting := by
  let := Sample.noCodeKeccak
  intro same
  have exist : (fromShared Sample.deleting).exist 1 =
      Sample.deleting.exist 1 := (same 1).2.2.2.2
  revert exist
  decide +kernel

/-- Consolidation loses the mark of an account that a newer revision touches no
more: it does not exist, where the chain shows the balance below the mark. -/
theorem consolidation_shows_the_mark :
    letI := Sample.noCodeKeccak
    ¬ SameAnswers ((fromShared Sample.deleting).consolidate none)
      (fromShared Sample.deleting) := by
  let := Sample.noCodeKeccak
  intro same
  have exist : ((fromShared Sample.deleting).consolidate none).exist 1 =
      (fromShared Sample.deleting).exist 1 := (same 1).2.2.2.2
  revert exist
  decide +kernel

end MemStateRev
end Qevm
