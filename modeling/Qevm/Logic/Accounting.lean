import Qevm.Logic.Procedure

/-!
# Amortised accounting

A potential is a number that a state holds, and a value that a procedure
returns may be worth something.  A procedure that starts with some credit may
put it into the potential of the state or into the worth of its value, but never
creates any.  The rules are instances: the credit goes along a program until a
part of it returns something of worth.
-/

/-- Values that are worth a number. -/
class Worth (α : Type _) where
  /-- What a value is worth. -/
  worth : α → Nat

instance : Worth PUnit := ⟨fun _ => 0⟩

instance : Worth UInt64 := ⟨UInt64.toNat⟩

namespace Procedure

variable {σ τ : Type u} {ε : Type v} {π : Type w} {α β : Type x}

/-- The last state holds at most the potential of the first one. -/
def Falls (potential : σ → Nat) (first last : σ) : Prop :=
  potential last ≤ potential first

instance (potential : σ → Nat) : IsPreorder σ (Falls potential) where
  refl _ := Nat.le_refl _
  trans _ _ _ left right := Nat.le_trans right left

/-- Started with some credit, a procedure ends with no more potential and
worth than there was potential and credit at its start. -/
class Accounts
    (potential : σ → Nat) (credit : Nat) [Worth α]
    (program : Procedure σ ε π α) : Prop where
  /-- The account of both ends of a run. -/
  holds : ∀ state, wp program
    (fun value final =>
      potential final + Worth.worth value ≤ potential state + credit)
    (fun _ final => potential final ≤ potential state + credit) state

namespace Accounts

variable {potential : σ → Nat} {credit : Nat} {state final : σ}

/-- The account of a run that returns. -/
theorem ok
    [Worth α] {program : Procedure σ ε π α} {value : α}
    [accounts : Accounts potential credit program]
    (run : program state = .ok value final) :
    potential final + Worth.worth value ≤ potential state + credit := by
  simpa [wp, run] using accounts.holds state

/-- The account of a run that raises an error. -/
theorem error
    [Worth α] {program : Procedure σ ε π α} {err : ε}
    [accounts : Accounts potential credit program]
    (run : program state = .error err final) :
    potential final ≤ potential state + credit := by
  simpa [wp, run] using accounts.holds state

/-- A returned value is worth at most the credit. -/
theorem pure
    [Worth α] {value : α} (enough : Worth.worth value ≤ credit) :
    Accounts potential credit (Pure.pure value : Procedure σ ε π α) :=
  ⟨fun _ => (wp_pure value).mpr (Nat.add_le_add_left enough _)⟩

instance raise [Worth α] (err : ε) :
    Accounts potential credit (raise err : Procedure σ ε π α) :=
  ⟨fun _ => (wp_raise err).mpr (Nat.le_add_right _ _)⟩

instance abort [Worth α] (reason : π) :
    Accounts potential credit (abort reason : Procedure σ ε π α) :=
  ⟨fun _ => trivial⟩

/-- A part that does not raise the potential hands the credit on. -/
instance (priority := low) bind_moves
    [Worth β] (first : Procedure σ ε π α) (next : α → Procedure σ ε π β)
    [moves : Moves (Falls potential) first]
    [accounts : ∀ value, Accounts potential credit (next value)] :
    Accounts potential credit (first >>= next) := by
  refine ⟨fun state => ?_⟩
  rw [wp_bind]
  refine wp_mono (moves.holds state) ?_
    (fun _ _ less => Nat.le_add_right_of_le less)
  intro value middle less
  have bound : potential middle + credit ≤ potential state + credit :=
    Nat.add_le_add_right less credit
  exact wp_mono ((accounts value).holds middle)
    (fun _ _ spent => Nat.le_trans spent bound)
    (fun _ _ spent => Nat.le_trans spent bound)

/-- The second part of a composition starts with what the first part returns. -/
instance bind
    [Worth α] [Worth β]
    (first : Procedure σ ε π α) (next : α → Procedure σ ε π β)
    [accounts : Accounts potential credit first]
    [nextAccounts : ∀ value, Accounts potential (Worth.worth value) (next value)] :
    Accounts potential credit (first >>= next) := by
  refine ⟨fun state => ?_⟩
  rw [wp_bind]
  refine wp_mono (accounts.holds state) ?_ (fun _ _ less => less)
  intro value middle paid
  exact wp_mono ((nextAccounts value).holds middle)
    (fun _ _ spent => Nat.le_trans spent paid)
    (fun _ _ spent => Nat.le_trans spent paid)

instance ite
    [Worth α] (condition : Prop) [Decidable condition]
    (yes no : Procedure σ ε π α)
    [yesAccounts : Accounts potential credit yes]
    [noAccounts : Accounts potential credit no] :
    Accounts potential credit (if condition then yes else no) := by
  split
  · exact yesAccounts
  · exact noAccounts

/-- A part that returns nothing and does not raise the potential may drop the
credit. -/
instance (priority := low) of_moves
    (program : Procedure σ ε π PUnit)
    [moves : Moves (Falls potential) program] :
    Accounts potential credit program :=
  ⟨fun state => wp_mono (moves.holds state)
    (fun _ _ less => Nat.le_add_right_of_le less)
    (fun _ _ less => Nat.le_add_right_of_le less)⟩

end Accounts

/-! ### Costs -/

/-- A part of the state is kept, and the potential does not rise. -/
def Saves (potential : σ → Nat) (part : σ → τ) (first last : σ) : Prop :=
  part last = part first ∧ potential last ≤ potential first

instance (potential : σ → Nat) (part : σ → τ) :
    IsPreorder σ (Saves potential part) where
  refl _ := ⟨rfl, Nat.le_refl _⟩
  trans _ _ _ left right :=
    ⟨right.1.trans left.1, Nat.le_trans right.2 left.2⟩

/-- A run that returns keeps a part of the state and takes at least a cost from the
potential. -/
class Costs
    (potential : σ → Nat) (part : σ → τ) (cost : Nat)
    (program : Procedure σ ε π α) : Prop where
  /-- Both ends of a run that returns. -/
  holds : ∀ {state value final}, program state = .ok value final →
    part final = part state ∧ potential final + cost ≤ potential state

namespace Costs

variable {potential : σ → Nat} {part : σ → τ} {cost : Nat}

/-- The second part of a composition may pay. -/
instance bind_next
    (first : Procedure σ ε π α) (next : α → Procedure σ ε π β)
    [saves : Moves (Saves potential part) first]
    [costs : ∀ value, Costs potential part cost (next value)] :
    Costs potential part cost (first >>= next) := by
  refine ⟨fun run => ?_⟩
  obtain ⟨value, middle, begins, ends⟩ := bind_ok.mp run
  have kept : Saves potential part _ middle := saves.ok begins
  have paid := (costs value).holds ends
  exact ⟨paid.1.trans kept.1, Nat.le_trans paid.2 kept.2⟩

/-- The first part of a composition may pay. -/
instance bind_first
    (first : Procedure σ ε π α) (next : α → Procedure σ ε π β)
    [costs : Costs potential part cost first]
    [saves : ∀ value, Moves (Saves potential part) (next value)] :
    Costs potential part cost (first >>= next) := by
  refine ⟨fun run => ?_⟩
  obtain ⟨value, middle, begins, ends⟩ := bind_ok.mp run
  have paid := costs.holds begins
  have kept : Saves potential part middle _ := (saves value).ok ends
  exact ⟨kept.1.trans paid.1,
    Nat.le_trans (Nat.add_le_add_right kept.2 cost) paid.2⟩

instance ite
    (condition : Prop) [Decidable condition] (yes no : Procedure σ ε π α)
    [yesCosts : Costs potential part cost yes] [noCosts : Costs potential part cost no] :
    Costs potential part cost (if condition then yes else no) := by
  split
  · exact yesCosts
  · exact noCosts

/-- Both parts of a composition may pay. -/
theorem add
    {rest : Nat} {first : Procedure σ ε π α} {next : α → Procedure σ ε π β}
    [costs : Costs potential part cost first]
    [nextCosts : ∀ value, Costs potential part rest (next value)] :
    Costs potential part (cost + rest) (first >>= next) := by
  refine ⟨fun run => ?_⟩
  obtain ⟨value, middle, begins, ends⟩ := bind_ok.mp run
  obtain ⟨kept, paid⟩ := costs.holds begins
  obtain ⟨still, rested⟩ := (nextCosts value).holds ends
  exact ⟨still.trans kept, by omega⟩

end Costs

/-- A run that returns takes at least a cost from the potential. -/
abbrev Expends
    (potential : σ → Nat) (cost : Nat) (program : Procedure σ ε π α) : Prop :=
  Costs potential (fun _ => PUnit.unit) cost program

/-- What does not raise the potential keeps nothing in particular. -/
instance saves_of_falls
    {potential : σ → Nat} (program : Procedure σ ε π α)
    [moves : Moves (Falls potential) program] :
    Moves (Saves potential fun _ => PUnit.unit) program :=
  moves.mono fun _ _ less => ⟨rfl, less⟩

/-- A run that returns brings at most a gain to the potential. -/
class Gains
    (potential : σ → Nat) (gain : Nat) (program : Procedure σ ε π α) : Prop where
  /-- Both ends of a run that returns. -/
  holds : ∀ {state value final}, program state = .ok value final →
    potential final ≤ potential state + gain

namespace Gains

variable {potential : σ → Nat} {gain cost : Nat}

instance (priority := low) of_falls
    (program : Procedure σ ε π α) [moves : Moves (Falls potential) program] :
    Gains potential gain program := by
  refine ⟨fun run => ?_⟩
  have less : Falls potential _ _ := moves.ok run
  exact Nat.le_add_right_of_le less

/-- The second part of a composition may gain. -/
instance bind_next
    (first : Procedure σ ε π α) (next : α → Procedure σ ε π β)
    [falls : Moves (Falls potential) first]
    [gains : ∀ value, Gains potential gain (next value)] :
    Gains potential gain (first >>= next) := by
  refine ⟨fun run => ?_⟩
  obtain ⟨value, middle, begins, ends⟩ := bind_ok.mp run
  have less : Falls potential _ middle := falls.ok begins
  exact Nat.le_trans ((gains value).holds ends) (Nat.add_le_add_right less gain)

/-- The first part of a composition may gain. -/
instance bind_first
    (first : Procedure σ ε π α) (next : α → Procedure σ ε π β)
    [gains : Gains potential gain first]
    [falls : ∀ value, Moves (Falls potential) (next value)] :
    Gains potential gain (first >>= next) := by
  refine ⟨fun run => ?_⟩
  obtain ⟨value, middle, begins, ends⟩ := bind_ok.mp run
  have less : Falls potential middle _ := (falls value).ok ends
  exact Nat.le_trans less (gains.holds begins)

/-- What the first part spends covers what the second part gains. -/
theorem covered
    (gain : Nat) {first : Procedure σ ε π α} {next : α → Procedure σ ε π β}
    [spends : Expends potential (cost + gain) first]
    [gains : ∀ value, Gains potential gain (next value)] :
    Expends potential cost (first >>= next) := by
  refine ⟨fun run => ⟨rfl, ?_⟩⟩
  obtain ⟨value, middle, begins, ends⟩ := bind_ok.mp run
  have paid := (spends.holds begins).2
  have more := (gains value).holds ends
  omega

/-- What the second part spends covers what the first part gains. -/
theorem repaid
    (gain : Nat) {first : Procedure σ ε π α} {next : α → Procedure σ ε π β}
    [gains : Gains potential gain first]
    [spends : ∀ value, Expends potential (cost + gain) (next value)] :
    Expends potential cost (first >>= next) := by
  refine ⟨fun run => ⟨rfl, ?_⟩⟩
  obtain ⟨value, middle, begins, ends⟩ := bind_ok.mp run
  have more := gains.holds begins
  have paid := ((spends value).holds ends).2
  omega

end Gains

/-! ### Runs of a number of steps -/

/-- A run of a number of steps. -/
inductive Steps {σ : Type u} (step : σ → σ → Prop) : Nat → σ → σ → Prop
  | refl (state : σ) : Steps step 0 state state
  | tail {count : Nat} {first middle last : σ} :
      Steps step count first middle → step middle last →
      Steps step (count + 1) first last

namespace Steps

variable {step : σ → σ → Prop} {count : Nat} {first last : σ}

/-- A run reaches its last state. -/
theorem reaches (run : Steps step count first last) :
    Relation.ReflTransGen step first last := by
  induction run with
  | refl => exact .refl
  | tail _ next inductionHypothesis => exact .tail inductionHypothesis next

/-- A run is not longer than the potential it starts with when every step that it can
take spends some. -/
theorem bounded
    (potential : σ → Nat) (run : Steps step count first last)
    (spends : ∀ {middle next}, Relation.ReflTransGen step first middle →
      step middle next → potential next + 1 ≤ potential middle) :
    count + potential last ≤ potential first := by
  induction run with
  | refl => exact Nat.le_of_eq (Nat.zero_add _)
  | tail run next inductionHypothesis =>
      have before := inductionHypothesis spends
      have spent := spends run.reaches next
      omega

end Steps

end Procedure
