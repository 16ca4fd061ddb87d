import Qevm.Logic.Procedure

/-!
# Procedures on images

A map from one type of states to another commutes with a pair of procedures when the second
one does to the image of a state what the first one does to the state.  The map may only be
good on valid states, as long as a procedure never makes an invalid state valid: then every
run that ends in a valid state has been through valid states only.

The rules are instances, so the search for one follows the structure of the two programs,
which differ in their states only.
-/

namespace Outcome

variable {σ τ : Type u} {ε : Type v} {π : Type w} {α β : Type x}

/-- The image of the end of a run. -/
def map (values : α → β) (states : σ → τ) : Outcome σ ε π α → Outcome τ ε π β
  | .ok value state => .ok (values value) (states state)
  | .error err state => .error err (states state)
  | .panic reason => .panic reason

/-- The run has been through valid states.  A run that panics has no last state, so this is
only known of it when there is no other kind of state. -/
def Within (valid : σ → Prop) : Outcome σ ε π α → Prop
  | .ok _ state => valid state
  | .error _ state => valid state
  | .panic _ => ∀ state, valid state

theorem within_of_all {valid : σ → Prop} (all : ∀ state, valid state)
    (outcome : Outcome σ ε π α) : outcome.Within valid := by
  cases outcome with
  | ok value state => exact all state
  | error err state => exact all state
  | panic reason => exact all

theorem map_eq_ok
    {values : α → β} {states : σ → τ} {outcome : Outcome σ ε π α} {value : β} {state : τ} :
    outcome.map values states = .ok value state ↔
      ∃ found original, outcome = .ok found original ∧ values found = value ∧
        states original = state := by
  cases outcome <;> simp [map, and_assoc]

theorem map_eq_panic
    {values : α → β} {states : σ → τ} {outcome : Outcome σ ε π α} {reason : π} :
    outcome.map values states = .panic reason ↔ outcome = .panic reason := by
  cases outcome <;> simp [map]

end Outcome

namespace Procedure

variable {σ τ : Type u} {ε : Type v} {π : Type w} {α β γ δ : Type x}

/-- The second program does to an image what the first one does to the original, on runs
through valid states. -/
class Commutes
    (valid : σ → Prop) (states : σ → τ) (values : outParam (α → β))
    (program : Procedure σ ε π α) (image : Procedure τ ε π β) : Prop where
  /-- An invalid state stays invalid. -/
  keeps : ∀ state, (program state).Within valid → valid state
  /-- The run from an image is the image of the run. -/
  run : ∀ state, (program state).Within valid →
    image (states state) = (program state).map values states

namespace Commutes

variable {valid : σ → Prop} {states : σ → τ}

instance pure (value : α) :
    Commutes valid states (fun value => value) (Pure.pure value : Procedure σ ε π α)
      (Pure.pure value : Procedure τ ε π α) :=
  ⟨fun _ within => within, fun _ _ => rfl⟩

instance raise (err : ε) :
    Commutes valid states (fun value => value) (raise err : Procedure σ ε π α)
      (Procedure.raise err : Procedure τ ε π α) :=
  ⟨fun _ within => within, fun _ _ => rfl⟩

instance abort (reason : π) :
    Commutes valid states (fun value => value) (abort reason : Procedure σ ε π α)
      (Procedure.abort reason : Procedure τ ε π α) :=
  ⟨fun state within => within state, fun _ _ => rfl⟩

instance read :
    Commutes valid states states (read : Procedure σ ε π σ)
      (Procedure.read : Procedure τ ε π τ) :=
  ⟨fun _ within => within, fun _ _ => rfl⟩

/-- A projection reads from the image of a valid state what it reads from the state. -/
theorem reads
    {values : α → β} {project : σ → α} {imageProject : τ → β}
    (same : ∀ state, valid state → imageProject (states state) = values (project state)) :
    Commutes valid states values (reads project : Procedure σ ε π α)
      (Procedure.reads imageProject : Procedure τ ε π β) :=
  ⟨fun _ within => within,
    fun state within => congrArg (Outcome.ok · (states state)) (same state within)⟩

/-- A change of an image is the image of a change. -/
theorem update
    {change : σ → σ} {imageChange : τ → τ}
    (keeps : ∀ state, valid (change state) → valid state)
    (same : ∀ state, valid (change state) →
      imageChange (states state) = states (change state)) :
    Commutes valid states (fun value => value) (update change : Procedure σ ε π PUnit)
      (Procedure.update imageChange : Procedure τ ε π PUnit) :=
  ⟨fun state within => keeps state within,
    fun state within => congrArg (Outcome.ok PUnit.unit) (same state within)⟩

instance unwrap (reason : π) (value : Option α) :
    Commutes valid states (fun value => value) (unwrap reason value : Procedure σ ε π α)
      (Procedure.unwrap reason value : Procedure τ ε π α) := by
  cases value with
  | none => exact abort reason
  | some value => exact pure value

instance okOr (err : ε) (value : Option α) :
    Commutes valid states (fun value => value) (okOr err value : Procedure σ ε π α)
      (Procedure.okOr err value : Procedure τ ε π α) := by
  cases value with
  | none => exact raise err
  | some value => exact pure value

instance ite
    {values : α → β} (condition : Prop) [Decidable condition]
    (yes no : Procedure σ ε π α) (imageYes imageNo : Procedure τ ε π β)
    [yesCommutes : Commutes valid states values yes imageYes]
    [noCommutes : Commutes valid states values no imageNo] :
    Commutes valid states values (if condition then yes else no)
      (if condition then imageYes else imageNo) := by
  split
  · exact yesCommutes
  · exact noCommutes

/-- The rule for conditions that are stated differently. -/
theorem when_iff
    {condition imageCondition : Prop} [Decidable condition] [Decidable imageCondition]
    {body : Procedure σ ε π PUnit} {imageBody : Procedure τ ε π PUnit}
    (same : imageCondition ↔ condition)
    [commutes : Commutes valid states (fun value => value) body imageBody] :
    Commutes valid states (fun value => value) (when condition body)
      (when imageCondition imageBody) := by
  unfold when
  by_cases holds : condition
  · simp only [holds, same.mpr holds, if_true]
    exact commutes
  · simp only [holds, mt same.mp holds, if_false]
    exact pure PUnit.unit

instance when
    (condition : Prop) [Decidable condition]
    (body : Procedure σ ε π PUnit) (imageBody : Procedure τ ε π PUnit)
    [Commutes valid states (fun value => value) body imageBody] :
    Commutes valid states (fun value => value) (Procedure.when condition body)
      (Procedure.when condition imageBody) :=
  when_iff Iff.rfl

instance raiseIf (condition : Prop) [Decidable condition] (err : ε) :
    Commutes valid states (fun value => value)
      (raiseIf condition err : Procedure σ ε π PUnit)
      (Procedure.raiseIf condition err : Procedure τ ε π PUnit) :=
  when condition (Procedure.raise err) (Procedure.raise err)

instance abortIf (condition : Prop) [Decidable condition] (reason : π) :
    Commutes valid states (fun value => value)
      (abortIf condition reason : Procedure σ ε π PUnit)
      (Procedure.abortIf condition reason : Procedure τ ε π PUnit) :=
  when condition (Procedure.abort reason) (Procedure.abort reason)

/-- The continuation of the image gets the image of the value. -/
instance bind
    {values : α → β} {nextValues : γ → δ}
    (first : Procedure σ ε π α) (image : Procedure τ ε π β)
    (next : α → Procedure σ ε π γ) (imageNext : β → Procedure τ ε π δ)
    [commutes : Commutes valid states values first image]
    [nextCommutes : ∀ value,
      Commutes valid states nextValues (next value) (imageNext (values value))] :
    Commutes valid states nextValues (first >>= next) (image >>= imageNext) := by
  constructor
  · intro state within
    change (Procedure.bind first next state).Within valid at within
    refine commutes.keeps state ?_
    unfold Procedure.bind at within
    cases ended : first state with
    | ok value middle =>
        rw [ended] at within
        exact (nextCommutes value).keeps middle within
    | error err final =>
        rw [ended] at within
        exact within
    | panic reason =>
        rw [ended] at within
        exact within
  · intro state within
    change (Procedure.bind first next state).Within valid at within
    change Procedure.bind image imageNext (states state) =
      (Procedure.bind first next state).map nextValues states
    have run := commutes.run state
    unfold Procedure.bind at within ⊢
    cases ended : first state with
    | ok value middle =>
        rw [ended] at within run
        rw [run ((nextCommutes value).keeps middle within)]
        exact (nextCommutes value).run middle within
    | error err final =>
        rw [ended] at within run
        rw [run within]
        rfl
    | panic reason =>
        rw [ended] at within run
        rw [run within]
        rfl

/-- The rule for a continuation that has to be looked at by cases. -/
theorem next
    {values : α → β} {nextValues : γ → δ}
    {first : Procedure σ ε π α} {image : Procedure τ ε π β}
    {next : α → Procedure σ ε π γ} {imageNext : β → Procedure τ ε π δ}
    (commutes : Commutes valid states values first image)
    (nextCommutes : ∀ value,
      Commutes valid states nextValues (next value) (imageNext (values value))) :
    Commutes valid states nextValues (first >>= next) (image >>= imageNext) :=
  inferInstance

/-- The rule for a continuation that looks at the state: on a valid state the continuation
of the image may be replaced by one that looks at the original. -/
theorem readNext
    {γ δ : Type u} {nextValues : γ → δ}
    {next : σ → Procedure σ ε π γ} {imageNext : τ → Procedure τ ε π δ}
    (nextCommutes : ∀ state, ∃ replaced : Procedure τ ε π δ,
      (valid state → imageNext (states state) = replaced) ∧
        Commutes valid states nextValues (next state) replaced) :
    Commutes valid states nextValues (Procedure.read >>= next)
      (Procedure.read >>= imageNext) := by
  constructor
  · intro state within
    obtain ⟨replaced, -, commutes⟩ := nextCommutes state
    exact commutes.keeps state within
  · intro state within
    obtain ⟨replaced, same, commutes⟩ := nextCommutes state
    change imageNext (states state) (states state) = _
    rw [same (commutes.keeps state within)]
    exact commutes.run state within

instance handle
    {values : α → β}
    (first : Procedure σ ε π α) (image : Procedure τ ε π β)
    (handler : ε → Procedure σ ε π α) (imageHandler : ε → Procedure τ ε π β)
    [commutes : Commutes valid states values first image]
    [handlerCommutes : ∀ err,
      Commutes valid states values (handler err) (imageHandler err)] :
    Commutes valid states values (Procedure.handle first handler)
      (Procedure.handle image imageHandler) := by
  constructor
  · intro state within
    refine commutes.keeps state ?_
    unfold Procedure.handle at within
    cases ended : first state with
    | ok value final =>
        rw [ended] at within
        exact within
    | error err middle =>
        rw [ended] at within
        exact (handlerCommutes err).keeps middle within
    | panic reason =>
        rw [ended] at within
        exact within
  · intro state within
    have run := commutes.run state
    unfold Procedure.handle at within ⊢
    cases ended : first state with
    | ok value final =>
        rw [ended] at within run
        rw [run within]
        rfl
    | error err middle =>
        rw [ended] at within run
        rw [run ((handlerCommutes err).keeps middle within)]
        exact (handlerCommutes err).run middle within
    | panic reason =>
        rw [ended] at within run
        rw [run within]
        rfl

instance attempt
    (program : Procedure σ ε π α) (image : Procedure τ ε π α)
    [commutes : Commutes valid states (fun value => value) program image] :
    Commutes valid states (fun value => value) (Procedure.attempt program)
      (Procedure.attempt image) := by
  constructor
  · intro state within
    refine commutes.keeps state ?_
    unfold Procedure.attempt at within
    cases ended : program state <;> rw [ended] at within <;> exact within
  · intro state within
    have run := commutes.run state
    unfold Procedure.attempt at within ⊢
    cases ended : program state <;> rw [ended] at within run <;> rw [run within] <;> rfl

/-- A part of the state on whose image its procedure does the same, whatever the state
around it. -/
theorem zoom
    {ρ υ : Type u} {parts : ρ → υ} {values : α → β}
    {project : σ → ρ} {imageProject : τ → υ}
    {embed : ρ → σ → σ} {imageEmbed : υ → τ → τ}
    {part : Procedure ρ ε π α} {imagePart : Procedure υ ε π β}
    (commutes : Commutes (fun _ => True) parts values part imagePart)
    (keeps : ∀ inner state, valid (embed inner state) → valid state)
    (same : ∀ state, imageProject (states state) = parts (project state))
    (embeds : ∀ inner state,
      imageEmbed (parts inner) (states state) = states (embed inner state)) :
    Commutes valid states values (Procedure.zoom project embed part)
      (Procedure.zoom imageProject imageEmbed imagePart) := by
  constructor
  · intro state within
    unfold Procedure.zoom at within
    cases ended : part (project state) with
    | ok value inner =>
        rw [ended] at within
        exact keeps inner state within
    | error err inner =>
        rw [ended] at within
        exact keeps inner state within
    | panic reason =>
        rw [ended] at within
        exact within state
  · intro state _
    unfold Procedure.zoom
    rw [same, commutes.run _ (Outcome.within_of_all (fun _ => trivial) _)]
    cases part (project state) with
    | ok value inner => exact congrArg (Outcome.ok (values value)) (embeds inner state)
    | error err inner => exact congrArg (Outcome.error err) (embeds inner state)
    | panic reason => rfl

/-- Every procedure commutes with the identity. -/
theorem refl (part : Procedure σ ε π α) :
    Commutes (fun _ => True) (fun state => state) (fun value => value) part part :=
  ⟨fun _ _ => trivial, fun state _ => by cases part state <;> rfl⟩

end Commutes
end Procedure
