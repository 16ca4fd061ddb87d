import Mathlib.Logic.Relation

/-!
# Procedures with state, errors and panics

A procedure reads and writes a state and ends in a value, in an error that a
caller may handle, or in a panic that nothing handles.  An error keeps the state
that had been reached when it was raised.

The rules are those of a weakest precondition calculus.  `Procedure.Moves`
lifts a preorder on states to procedures: every part of a procedure has to
stay inside the preorder, whether or not it raises an error.
-/

/-- The end of a procedure started in one state. -/
inductive Outcome (σ ε π α : Type _)
  | ok (value : α) (state : σ)
  | error (err : ε) (state : σ)
  | panic (reason : π)

/-- The value and the state of an end that returns. -/
def Outcome.returned {σ ε π α : Type _} : Outcome σ ε π α → Option (α × σ)
  | .ok value state => some (value, state)
  | .error _ _ | .panic _ => none

theorem Outcome.returned_eq_some {outcome : Outcome σ ε π α} {value : α} {state : σ} :
    outcome.returned = some (value, state) ↔ outcome = .ok value state := by
  cases outcome <;> simp [returned]

/-- A procedure over the state `σ` with errors `ε` and panics `π`. -/
def Procedure (σ ε π α : Type _) := σ → Outcome σ ε π α

namespace Procedure

variable {σ τ : Type u} {ε : Type v} {π : Type w} {α β : Type x}

/-- Return a value and leave the state alone. -/
protected def pure (value : α) : Procedure σ ε π α := fun state =>
  .ok value state

/-- Run a procedure and continue with its value. -/
protected def bind
    (first : Procedure σ ε π α)
    (next : α → Procedure σ ε π β) : Procedure σ ε π β := fun state =>
  match first state with
  | .ok value state => next value state
  | .error err state => .error err state
  | .panic reason => .panic reason

instance : Monad (Procedure σ ε π) where
  pure := Procedure.pure
  bind := Procedure.bind

/-- Raise an error. -/
def raise (err : ε) : Procedure σ ε π α := fun state => .error err state

/-- Panic. -/
def abort (reason : π) : Procedure σ ε π α := fun _ => .panic reason

/-- Read the state. -/
def read : Procedure σ ε π σ := fun state => .ok state state

/-- Read a projection of the state. -/
def reads (project : σ → α) : Procedure σ ε π α := fun state =>
  .ok (project state) state

/-- Change the state. -/
def update (change : σ → σ) : Procedure σ ε π PUnit := fun state =>
  .ok ⟨⟩ (change state)

/-- Run a procedure on a part of the state. -/
def zoom
    (project : σ → τ)
    (embed : τ → σ → σ)
    (part : Procedure τ ε π α) : Procedure σ ε π α := fun state =>
  match part (project state) with
  | .ok value inner => .ok value (embed inner state)
  | .error err inner => .error err (embed inner state)
  | .panic reason => .panic reason

/-- Run a procedure and handle its error. -/
def handle
    (first : Procedure σ ε π α)
    (handler : ε → Procedure σ ε π α) : Procedure σ ε π α := fun state =>
  match first state with
  | .ok value state => .ok value state
  | .error err state => handler err state
  | .panic reason => .panic reason

/-- Run a procedure and return its error as a value. -/
def attempt
    (program : Procedure σ ε π α) : Procedure σ ε π (Except ε α) :=
  fun state =>
    match program state with
    | .ok value state => .ok (.ok value) state
    | .error err state => .ok (.error err) state
    | .panic reason => .panic reason

/-- Raise an error when a condition holds. -/
def raiseIf (condition : Prop) [Decidable condition] (err : ε) :
    Procedure σ ε π PUnit := fun state =>
  if condition then .error err state else .ok ⟨⟩ state

/-- Panic when a condition holds. -/
def abortIf (condition : Prop) [Decidable condition] (reason : π) :
    Procedure σ ε π PUnit := fun state =>
  if condition then .panic reason else .ok ⟨⟩ state

/-- Run a procedure only when a condition holds. -/
def when
    (condition : Prop) [Decidable condition]
    (body : Procedure σ ε π PUnit) : Procedure σ ε π PUnit := fun state =>
  if condition then body state else .ok ⟨⟩ state

/-- Lift an optional value, panicking when there is none. -/
def unwrap (reason : π) : Option α → Procedure σ ε π α
  | some value => Procedure.pure value
  | none => abort reason

/-- Lift an optional value, raising an error when there is none. -/
def okOr (err : ε) : Option α → Procedure σ ε π α
  | some value => Procedure.pure value
  | none => raise err

/-! ### Weakest preconditions -/

/-- The states from which every value satisfies `post` and every error satisfies
`fail`.  Panics are not constrained. -/
def wp
    (program : Procedure σ ε π α)
    (post : α → σ → Prop)
    (fail : ε → σ → Prop)
    (state : σ) : Prop :=
  match program state with
  | .ok value state => post value state
  | .error err state => fail err state
  | .panic _ => True

variable {post : α → σ → Prop} {fail : ε → σ → Prop} {state : σ}

@[simp] theorem wp_pure (value : α) :
    wp (pure value : Procedure σ ε π α) post fail state ↔
      post value state := Iff.rfl

@[simp] theorem wp_bind
    (first : Procedure σ ε π α)
    (next : α → Procedure σ ε π β)
    (post : β → σ → Prop) :
    wp (first >>= next) post fail state ↔
      wp first (fun value state => wp (next value) post fail state) fail state := by
  change wp (Procedure.bind first next) post fail state ↔ _
  unfold wp Procedure.bind
  cases first state <;> rfl

@[simp] theorem wp_map
    (first : Procedure σ ε π α)
    (change : α → β)
    (post : β → σ → Prop) :
    wp (change <$> first) post fail state ↔
      wp first (fun value => post (change value)) fail state := by
  change wp (Procedure.bind first fun value => Procedure.pure (change value))
    post fail state ↔ _
  unfold wp Procedure.bind
  cases first state <;> rfl

@[simp] theorem wp_raise (err : ε) :
    wp (raise err : Procedure σ ε π α) post fail state ↔
      fail err state := Iff.rfl

@[simp] theorem wp_abort (reason : π) :
    wp (abort reason : Procedure σ ε π α) post fail state ↔ True := Iff.rfl

@[simp] theorem wp_read (post : σ → σ → Prop) :
    wp (read : Procedure σ ε π σ) post fail state ↔
      post state state := Iff.rfl

@[simp] theorem wp_reads (project : σ → α) :
    wp (reads project : Procedure σ ε π α) post fail state ↔
      post (project state) state := Iff.rfl

@[simp] theorem wp_update
    (change : σ → σ)
    (post : PUnit → σ → Prop) :
    wp (update change : Procedure σ ε π PUnit) post fail state ↔
      post ⟨⟩ (change state) := Iff.rfl

@[simp] theorem wp_zoom
    (project : σ → τ)
    (embed : τ → σ → σ)
    (part : Procedure τ ε π α) :
    wp (zoom project embed part) post fail state ↔
      wp part (fun value inner => post value (embed inner state))
        (fun err inner => fail err (embed inner state)) (project state) := by
  unfold wp zoom
  cases part (project state) <;> rfl

@[simp] theorem wp_handle
    (first : Procedure σ ε π α)
    (handler : ε → Procedure σ ε π α) :
    wp (handle first handler) post fail state ↔
      wp first post (fun err state => wp (handler err) post fail state) state := by
  unfold wp handle
  cases first state <;> rfl

@[simp] theorem wp_attempt
    (program : Procedure σ ε π α)
    (post : Except ε α → σ → Prop) :
    wp (attempt program) post fail state ↔
      wp program (fun value => post (.ok value))
        (fun err => post (.error err)) state := by
  unfold wp attempt
  cases program state <;> rfl

@[simp] theorem wp_raiseIf
    (condition : Prop) [Decidable condition] (err : ε)
    (post : PUnit → σ → Prop) :
    wp (raiseIf condition err : Procedure σ ε π PUnit) post fail state ↔
      (condition → fail err state) ∧ (¬condition → post ⟨⟩ state) := by
  by_cases holds : condition <;> simp [wp, raiseIf, holds]

@[simp] theorem wp_abortIf
    (condition : Prop) [Decidable condition] (reason : π)
    (post : PUnit → σ → Prop) :
    wp (abortIf condition reason : Procedure σ ε π PUnit) post fail state ↔
      (¬condition → post ⟨⟩ state) := by
  by_cases holds : condition <;> simp [wp, abortIf, holds]

@[simp] theorem wp_when
    (condition : Prop) [Decidable condition]
    (body : Procedure σ ε π PUnit)
    (post : PUnit → σ → Prop) :
    wp (when condition body) post fail state ↔
      (condition → wp body post fail state) ∧
        (¬condition → post ⟨⟩ state) := by
  by_cases holds : condition <;> simp [wp, when, holds]

@[simp] theorem wp_unwrap (reason : π) (value : Option α) :
    wp (unwrap reason value : Procedure σ ε π α) post fail state ↔
      ∀ found, value = some found → post found state := by
  cases value <;> simp [unwrap, wp, Procedure.pure, abort]

@[simp] theorem wp_okOr (err : ε) (value : Option α) :
    wp (okOr err value : Procedure σ ε π α) post fail state ↔
      (∀ found, value = some found → post found state) ∧
        (value = none → fail err state) := by
  cases value <;> simp [okOr, wp, Procedure.pure, raise]

/-- Weakening of both postconditions. -/
theorem wp_mono
    {program : Procedure σ ε π α}
    {post' : α → σ → Prop} {fail' : ε → σ → Prop}
    (holds : wp program post fail state)
    (weaker : ∀ value state, post value state → post' value state)
    (weakerFail : ∀ err state, fail err state → fail' err state) :
    wp program post' fail' state := by
  unfold wp at holds ⊢
  cases outcome : program state with
  | ok value final => exact weaker _ _ (by simpa [outcome] using holds)
  | error err final => exact weakerFail _ _ (by simpa [outcome] using holds)
  | panic reason => trivial

/-- The trivial postconditions always hold. -/
@[simp] theorem wp_true (program : Procedure σ ε π α) :
    wp program (fun _ _ => True) (fun _ _ => True) state ↔ True := by
  unfold wp
  cases program state <;> simp

/-- A proved precondition describes a run that returns. -/
theorem wp_ok
    {program : Procedure σ ε π α} {value : α} {final : σ}
    (holds : wp program post fail state)
    (run : program state = .ok value final) : post value final := by
  simpa [wp, run] using holds

/-- A proved precondition describes a run that raises an error. -/
theorem wp_error
    {program : Procedure σ ε π α} {err : ε} {final : σ}
    (holds : wp program post fail state)
    (run : program state = .error err final) : fail err final := by
  simpa [wp, run] using holds

/-- What holds after both ends holds after a run, whether it raises an error or not. -/
theorem wp_ended
    {program : Procedure σ ε π α} {good : σ → Prop} {value : α} {final : σ}
    (holds : wp program (fun _ => good) (fun _ => good) state)
    (run : program state = .ok value final ∨
      ∃ err, program state = .error err final) : good final := by
  obtain run | ⟨err, run⟩ := run
  · exact wp_ok holds run
  · exact wp_error holds run

/-- A precondition is proved from the two ways in which a run can end. -/
theorem wp_of_run
    {program : Procedure σ ε π α}
    (returns : ∀ value final, program state = .ok value final →
      post value final)
    (raises : ∀ err final, program state = .error err final →
      fail err final) :
    wp program post fail state := by
  unfold wp
  cases run : program state with
  | ok value final => exact returns value final run
  | error err final => exact raises err final run
  | panic reason => trivial

/-- Two proved preconditions hold together. -/
theorem wp_and
    {program : Procedure σ ε π α}
    {post' : α → σ → Prop} {fail' : ε → σ → Prop}
    (left : wp program post fail state)
    (right : wp program post' fail' state) :
    wp program (fun value state => post value state ∧ post' value state)
      (fun err state => fail err state ∧ fail' err state) state :=
  wp_of_run (fun _ _ run => ⟨wp_ok left run, wp_ok right run⟩)
    (fun _ _ run => ⟨wp_error left run, wp_error right run⟩)

/-- A composition that returns returns from both of its parts. -/
theorem bind_ok
    {first : Procedure σ ε π α} {next : α → Procedure σ ε π β}
    {value : β} {final : σ} :
    (first >>= next) state = .ok value final ↔
      ∃ middle between, first state = .ok middle between ∧
        next middle between = .ok value final := by
  change Procedure.bind first next state = _ ↔ _
  unfold Procedure.bind
  cases first state with
  | ok middle between =>
      simp only [Outcome.ok.injEq, and_assoc, exists_and_left,
        exists_eq_left']
  | error err between => simp
  | panic reason => simp

/-- What follows a part that returns is all that is left. -/
theorem bind_of_ok
    {first : Procedure σ ε π α} {next : α → Procedure σ ε π β}
    {middle : α} {between : σ} (run : first state = .ok middle between) :
    (first >>= next) state = next middle between := by
  change Procedure.bind first next state = _
  simp only [Procedure.bind, run]

/-- A composition that raises an error raises it in one of its parts. -/
theorem bind_error
    {first : Procedure σ ε π α} {next : α → Procedure σ ε π β}
    {err : ε} {final : σ} :
    (first >>= next) state = .error err final ↔
      first state = .error err final ∨
        ∃ middle between, first state = .ok middle between ∧
          next middle between = .error err final := by
  change Procedure.bind first next state = _ ↔ _
  unfold Procedure.bind
  cases first state with
  | ok middle between =>
      simp only [Outcome.ok.injEq, and_assoc, reduceCtorEq, false_or, exists_and_left,
        exists_eq_left']
  | error err between => simp
  | panic reason => simp

/-- A composition that panics panics in one of its parts. -/
theorem bind_panic
    {first : Procedure σ ε π α} {next : α → Procedure σ ε π β}
    {reason : π} :
    (first >>= next) state = .panic reason ↔
      first state = .panic reason ∨
        ∃ middle between, first state = .ok middle between ∧
          next middle between = .panic reason := by
  change Procedure.bind first next state = _ ↔ _
  unfold Procedure.bind
  cases first state with
  | ok middle between =>
      simp only [Outcome.ok.injEq, and_assoc, reduceCtorEq, false_or, exists_and_left,
        exists_eq_left']
  | error err between => simp
  | panic reason => simp

/-- A check that passes changes nothing. -/
theorem raiseIf_ok
    {condition : Prop} [Decidable condition] {err : ε} {value : PUnit}
    {final : σ} :
    (raiseIf condition err : Procedure σ ε π PUnit) state = .ok value final ↔
      ¬condition ∧ final = state := by
  by_cases holds : condition <;> simp [raiseIf, holds, eq_comm]

/-- An assertion that holds changes nothing. -/
theorem okOr_ok
    {err : ε} {option : Option α} {value : α} {final : σ} :
    (okOr err option : Procedure σ ε π α) state = .ok value final ↔
      option = some value ∧ final = state := by
  cases option <;> simp [okOr, Procedure.pure, raise, eq_comm]

theorem unwrap_ok
    {reason : π} {option : Option α} {value : α} {final : σ} :
    (unwrap reason option : Procedure σ ε π α) state = .ok value final ↔
      option = some value ∧ final = state := by
  cases option <;> simp [unwrap, Procedure.pure, abort, eq_comm]

theorem abortIf_ok
    {condition : Prop} [Decidable condition] {reason : π} {value : PUnit}
    {final : σ} :
    (abortIf condition reason : Procedure σ ε π PUnit) state =
      .ok value final ↔ ¬condition ∧ final = state := by
  by_cases holds : condition <;> simp [abortIf, holds, eq_comm]

/-- What follows a read gets the projection of the state. -/
theorem reads_bind_ok
    {project : σ → α} {next : α → Procedure σ ε π β} {value : β} {final : σ} :
    (reads project >>= next) state = .ok value final ↔
      next (project state) state = .ok value final := Iff.rfl

/-- What follows a check that passes starts in the same state. -/
theorem raiseIf_bind_ok
    {condition : Prop} [Decidable condition] {err : ε}
    {next : PUnit → Procedure σ ε π β} {value : β} {final : σ} :
    (raiseIf condition err >>= next) state = .ok value final ↔
      ¬condition ∧ next ⟨⟩ state = .ok value final := by
  simp only [bind_ok, raiseIf_ok]
  constructor
  · rintro ⟨_, _, ⟨passes, rfl⟩, run⟩
    exact ⟨passes, run⟩
  · rintro ⟨passes, run⟩
    exact ⟨⟨⟩, state, ⟨passes, rfl⟩, run⟩

/-- What follows an assertion that holds gets its value in the same state. -/
theorem okOr_bind_ok
    {err : ε} {option : Option α} {next : α → Procedure σ ε π β} {value : β}
    {final : σ} :
    (okOr err option >>= next) state = .ok value final ↔
      ∃ found, option = some found ∧ next found state = .ok value final := by
  simp only [bind_ok, okOr_ok]
  constructor
  · rintro ⟨found, _, ⟨holds, rfl⟩, run⟩
    exact ⟨found, holds, run⟩
  · rintro ⟨found, holds, run⟩
    exact ⟨found, state, ⟨holds, rfl⟩, run⟩

/-- A conditional step runs its body or changes nothing. -/
theorem when_ok
    {condition : Prop} [Decidable condition] {body : Procedure σ ε π PUnit}
    {value : PUnit} {final : σ} :
    when condition body state = .ok value final ↔
      condition ∧ body state = .ok value final ∨ ¬condition ∧ final = state := by
  by_cases holds : condition <;> simp [when, holds, eq_comm]

/-- A conditional step panics in its body. -/
theorem when_panic
    {condition : Prop} [Decidable condition] {body : Procedure σ ε π PUnit}
    {reason : π} :
    when condition body state = .panic reason ↔
      condition ∧ body state = .panic reason := by
  by_cases holds : condition <;> simp [when, holds]

/-- A returned value is returned as a value. -/
theorem attempt_ok
    {program : Procedure σ ε π α} {value : α} {final : σ}
    (run : program state = .ok value final) :
    attempt program state = .ok (.ok value) final := by
  simp only [attempt, run]

/-- A raised error is returned as a value. -/
theorem attempt_error
    {program : Procedure σ ε π α} {err : ε} {final : σ}
    (run : program state = .error err final) :
    attempt program state = .ok (.error err) final := by
  simp only [attempt, run]

/-! ### Associativity -/

/-- Programs are equal when they end in the same way from every state. -/
theorem bind_assoc
    {γ : Type x} (first : Procedure σ ε π α)
    (second : α → Procedure σ ε π β) (third : β → Procedure σ ε π γ) :
    (first >>= second) >>= third =
      first >>= fun value => second value >>= third := by
  funext state
  change Procedure.bind (Procedure.bind first second) third state =
    Procedure.bind first
      (fun value => Procedure.bind (second value) third) state
  unfold Procedure.bind
  cases first state <;> rfl

/-- A returned value is handed on. -/
theorem pure_bind
    (value : α) (next : α → Procedure σ ε π β) :
    (pure value : Procedure σ ε π α) >>= next = next value := rfl

/-- A program may be followed by returning its value. -/
theorem bind_pure (program : Procedure σ ε π α) :
    (program >>= fun value => pure value) = program := by
  funext state
  change Procedure.bind program Procedure.pure state = _
  unfold Procedure.bind
  cases program state <;> rfl

/-! ### What a procedure returns -/

/-- Every returned value satisfies a predicate, whatever the state is. -/
class Returns (good : α → Prop) (program : Procedure σ ε π α) : Prop where
  /-- The value of a run that returns is good. -/
  holds : ∀ {state value final}, program state = .ok value final → good value

namespace Returns

variable {good : α → Prop}

/-- A returned value is good when it is. -/
theorem pure {value : α} (holds : good value) :
    Returns good (Pure.pure value : Procedure σ ε π α) := by
  refine ⟨fun {state found final} run => ?_⟩
  obtain ⟨rfl, rfl⟩ : value = found ∧ state = final := by
    simpa [Pure.pure, Procedure.pure] using run
  exact holds

instance raise (err : ε) : Returns good (raise err : Procedure σ ε π α) :=
  ⟨fun run => by simp [Procedure.raise] at run⟩

instance abort (reason : π) :
    Returns good (abort reason : Procedure σ ε π α) :=
  ⟨fun run => by simp [Procedure.abort] at run⟩

/-- Only the last part of a composition returns its value. -/
instance bind
    {good : β → Prop}
    (first : Procedure σ ε π α) (next : α → Procedure σ ε π β)
    [returns : ∀ value, Returns good (next value)] :
    Returns good (first >>= next) := by
  refine ⟨fun run => ?_⟩
  obtain ⟨middle, between, -, run⟩ := bind_ok.mp run
  exact (returns middle).holds run

instance ite
    (condition : Prop) [Decidable condition] (yes no : Procedure σ ε π α)
    [yesReturns : Returns good yes] [noReturns : Returns good no] :
    Returns good (if condition then yes else no) := by
  split
  · exact yesReturns
  · exact noReturns

end Returns

/-! ### What a procedure panics with -/

/-- A panic with a reason is permitted. -/
class Permits (allowed : π → Prop) (reason : π) : Prop where
  permitted : allowed reason

/-- Every panic is permitted, whatever the state is. -/
class Panics (allowed : π → Prop) (program : Procedure σ ε π α) : Prop where
  /-- The reason of a run that panics is permitted. -/
  holds : ∀ {state reason}, program state = .panic reason → allowed reason

namespace Panics

variable {allowed : π → Prop}

/-- A procedure that never panics. -/
theorem never
    {program : Procedure σ ε π α}
    (returns : ∀ state reason, program state ≠ .panic reason) :
    Panics allowed program :=
  ⟨fun run => absurd run (returns _ _)⟩

instance pure (value : α) :
    Panics allowed (Pure.pure value : Procedure σ ε π α) :=
  never fun _ _ run => nomatch run

instance raise (err : ε) : Panics allowed (raise err : Procedure σ ε π α) :=
  never fun _ _ run => nomatch run

instance read : Panics allowed (read : Procedure σ ε π σ) :=
  never fun _ _ run => nomatch run

instance reads (project : σ → α) :
    Panics allowed (reads project : Procedure σ ε π α) :=
  never fun _ _ run => nomatch run

instance update (change : σ → σ) :
    Panics allowed (update change : Procedure σ ε π PUnit) :=
  never fun _ _ run => nomatch run

instance raiseIf (condition : Prop) [Decidable condition] (err : ε) :
    Panics allowed (raiseIf condition err : Procedure σ ε π PUnit) := by
  refine never fun state reason run => ?_
  by_cases holds : condition <;> simp [Procedure.raiseIf, holds] at run

instance okOr (err : ε) (value : Option α) :
    Panics allowed (okOr err value : Procedure σ ε π α) := by
  cases value with
  | none => exact never fun _ _ run => nomatch run
  | some value => exact never fun _ _ run => nomatch run

instance abort (reason : π) [permits : Permits allowed reason] :
    Panics allowed (abort reason : Procedure σ ε π α) :=
  ⟨fun run => Outcome.panic.inj run ▸ permits.permitted⟩

instance abortIf
    (condition : Prop) [Decidable condition] (reason : π)
    [permits : Permits allowed reason] :
    Panics allowed (abortIf condition reason : Procedure σ ε π PUnit) := by
  refine ⟨fun run => ?_⟩
  by_cases holds : condition
  · simp only [Procedure.abortIf, holds, if_true, Outcome.panic.injEq] at run
    exact run ▸ permits.permitted
  · simp [Procedure.abortIf, holds] at run

instance unwrap
    (reason : π) (value : Option α) [permits : Permits allowed reason] :
    Panics allowed (unwrap reason value : Procedure σ ε π α) := by
  cases value with
  | none => exact ⟨fun run => Outcome.panic.inj run ▸ permits.permitted⟩
  | some value => exact never fun _ _ run => nomatch run

instance «when»
    (condition : Prop) [Decidable condition]
    (body : Procedure σ ε π PUnit) [panics : Panics allowed body] :
    Panics allowed (Procedure.when condition body) := by
  refine ⟨fun run => ?_⟩
  by_cases holds : condition
  · simp only [Procedure.when, holds, if_true] at run
    exact panics.holds run
  · simp [Procedure.when, holds] at run

instance bind
    (first : Procedure σ ε π α) (next : α → Procedure σ ε π β)
    [panics : Panics allowed first]
    [nextPanics : ∀ value, Panics allowed (next value)] :
    Panics allowed (first >>= next) := by
  refine ⟨fun run => ?_⟩
  obtain run | ⟨middle, between, -, run⟩ := bind_panic.mp run
  · exact panics.holds run
  · exact (nextPanics middle).holds run

instance ite
    (condition : Prop) [Decidable condition] (yes no : Procedure σ ε π α)
    [yesPanics : Panics allowed yes] [noPanics : Panics allowed no] :
    Panics allowed (if condition then yes else no) := by
  split
  · exact yesPanics
  · exact noPanics

instance handle
    (first : Procedure σ ε π α) (handler : ε → Procedure σ ε π α)
    [panics : Panics allowed first]
    [handlerPanics : ∀ err, Panics allowed (handler err)] :
    Panics allowed (Procedure.handle first handler) := by
  refine ⟨fun {state reason} run => ?_⟩
  unfold Procedure.handle at run
  cases outcome : first state with
  | ok value final => simp [outcome] at run
  | error err final =>
      simp only [outcome] at run
      exact (handlerPanics err).holds run
  | panic found =>
      simp only [outcome, Outcome.panic.injEq] at run
      exact run ▸ panics.holds outcome

instance attempt
    (program : Procedure σ ε π α) [panics : Panics allowed program] :
    Panics allowed (Procedure.attempt program) := by
  refine ⟨fun {state reason} run => ?_⟩
  unfold Procedure.attempt at run
  cases outcome : program state with
  | ok value final => simp [outcome] at run
  | error err final => simp [outcome] at run
  | panic found =>
      simp only [outcome, Outcome.panic.injEq] at run
      exact run ▸ panics.holds outcome

instance zoom
    (project : σ → τ) (embed : τ → σ → σ) (part : Procedure τ ε π α)
    [panics : Panics allowed part] :
    Panics allowed (Procedure.zoom project embed part) := by
  refine ⟨fun {state reason} run => ?_⟩
  unfold Procedure.zoom at run
  cases outcome : part (project state) with
  | ok value final => simp [outcome] at run
  | error err final => simp [outcome] at run
  | panic found =>
      simp only [outcome, Outcome.panic.injEq] at run
      exact run ▸ panics.holds outcome

end Panics

/-! ### Procedures that stay inside a preorder -/

/-- Every state in which the procedure ends is related to the state in which
it started.  The rules are instances, so the search for an instance follows the
structure of a program. -/
class Moves
    (related : σ → σ → Prop) (program : Procedure σ ε π α) : Prop where
  /-- Both ends of a run are related to its start. -/
  holds : ∀ state, wp program (fun _ => related state) (fun _ => related state)
    state

namespace Moves

variable {related : σ → σ → Prop}

/-- A moving procedure relates the state of a run that returns. -/
theorem ok
    {program : Procedure σ ε π α} [moves : Moves related program]
    {value : α} {final : σ}
    (run : program state = .ok value final) : related state final := by
  simpa [wp, run] using moves.holds state

/-- A moving procedure relates the state of a run that raises an error. -/
theorem error
    {program : Procedure σ ε π α} [moves : Moves related program]
    {err : ε} {final : σ}
    (run : program state = .error err final) : related state final := by
  simpa [wp, run] using moves.holds state

/-- A moving procedure relates the state of a run that does not panic. -/
theorem ended
    {program : Procedure σ ε π α} [moves : Moves related program]
    {value : α} {final : σ}
    (run : program state = .ok value final ∨
      ∃ err, program state = .error err final) : related state final :=
  wp_ended (moves.holds state) run

/-- Moving along a finer relation is moving along a coarser one. -/
theorem mono
    {coarser : σ → σ → Prop} {program : Procedure σ ε π α}
    (moves : Moves related program)
    (implies : ∀ first last, related first last → coarser first last) :
    Moves coarser program :=
  ⟨fun state =>
    wp_mono (moves.holds state) (fun _ => implies state) (fun _ => implies state)⟩

instance abort (reason : π) :
    Moves related (abort reason : Procedure σ ε π α) := ⟨fun _ => trivial⟩

section Rules

variable [IsPreorder σ related]

instance pure (value : α) :
    Moves related (Pure.pure value : Procedure σ ε π α) :=
  ⟨fun state => refl_of related state⟩

instance raise (err : ε) :
    Moves related (raise err : Procedure σ ε π α) :=
  ⟨fun state => refl_of related state⟩

instance read :
    Moves related (read : Procedure σ ε π σ) :=
  ⟨fun state => refl_of related state⟩

instance reads (project : σ → α) :
    Moves related (reads project : Procedure σ ε π α) :=
  ⟨fun state => refl_of related state⟩

instance unwrap (reason : π) (value : Option α) :
    Moves related (unwrap reason value : Procedure σ ε π α) :=
  ⟨fun state => by simp [refl_of related state]⟩

instance okOr (err : ε) (value : Option α) :
    Moves related (okOr err value : Procedure σ ε π α) :=
  ⟨fun state => by simp [refl_of related state]⟩

instance raiseIf
    (condition : Prop) [Decidable condition] (err : ε) :
    Moves related (raiseIf condition err : Procedure σ ε π PUnit) :=
  ⟨fun state => by simp [refl_of related state]⟩

instance abortIf
    (condition : Prop) [Decidable condition] (reason : π) :
    Moves related (abortIf condition reason : Procedure σ ε π PUnit) :=
  ⟨fun state => by simp [refl_of related state]⟩

/-- A conditional step moves when its body does. -/
instance when
    (condition : Prop) [Decidable condition]
    (body : Procedure σ ε π PUnit) [moves : Moves related body] :
    Moves related (Procedure.when condition body) :=
  ⟨fun state => by
    rw [wp_when]
    exact ⟨fun _ => moves.holds state, fun _ => refl_of related state⟩⟩

/-- Composition stays inside a transitive relation. -/
instance bind
    (first : Procedure σ ε π α) (next : α → Procedure σ ε π β)
    [moves : Moves related first]
    [nextMoves : ∀ value, Moves related (next value)] :
    Moves related (first >>= next) := by
  refine ⟨fun state => ?_⟩
  rw [wp_bind]
  refine wp_mono (moves.holds state) ?_ (fun _ _ step => step)
  intro value middle firstStep
  exact wp_mono ((nextMoves value).holds middle)
    (fun _ final secondStep => trans_of related firstStep secondStep)
    (fun _ final secondStep => trans_of related firstStep secondStep)

/-- The second part of a composition only has to move after runs of the first
part. -/
theorem bind_run
    {first : Procedure σ ε π α} {next : α → Procedure σ ε π β} {state : σ}
    [moves : Moves related first]
    (nextMoves : ∀ value middle, first state = .ok value middle →
      Moves related (next value)) :
    wp (first >>= next) (fun _ => related state) (fun _ => related state)
      state := by
  rw [wp_bind]
  refine wp_of_run (fun value middle run => ?_) (fun err final run => moves.error run)
  have firstStep : related state middle := moves.ok run
  exact wp_mono ((nextMoves value middle run).holds middle)
    (fun _ final secondStep => trans_of related firstStep secondStep)
    (fun _ final secondStep => trans_of related firstStep secondStep)

/-- Handling an error stays inside a transitive relation. -/
instance handle
    (first : Procedure σ ε π α) (handler : ε → Procedure σ ε π α)
    [moves : Moves related first]
    [handlerMoves : ∀ err, Moves related (handler err)] :
    Moves related (Procedure.handle first handler) := by
  refine ⟨fun state => ?_⟩
  rw [wp_handle]
  refine wp_mono (moves.holds state) (fun _ _ step => step) ?_
  intro err middle firstStep
  exact wp_mono ((handlerMoves err).holds middle)
    (fun _ final secondStep => trans_of related firstStep secondStep)
    (fun _ final secondStep => trans_of related firstStep secondStep)

end Rules

/-- Returning the error as a value does not move further. -/
instance attempt
    (program : Procedure σ ε π α) [moves : Moves related program] :
    Moves related (Procedure.attempt program) :=
  ⟨fun state => by
    rw [wp_attempt]
    exact moves.holds state⟩

/-- A conditional moves when both of its branches do. -/
instance ite
    (condition : Prop) [Decidable condition]
    (yes no : Procedure σ ε π α)
    [yesMoves : Moves related yes] [noMoves : Moves related no] :
    Moves related (if condition then yes else no) := by
  split
  · exact yesMoves
  · exact noMoves

/-- A change of the state moves when the change is related. -/
theorem update
    {change : σ → σ} (changes : ∀ state, related state (change state)) :
    Moves related (update change : Procedure σ ε π PUnit) := ⟨changes⟩

/-- A procedure on a part moves the whole when every change of the part
does. -/
theorem zoom_any
    {project : σ → τ} {embed : τ → σ → σ}
    (part : Procedure τ ε π α)
    (lifts : ∀ state inner, related state (embed inner state)) :
    Moves related (Procedure.zoom project embed part) :=
  ⟨fun state => by
    rw [wp_zoom]
    exact wp_of_run (fun _ inner _ => lifts state inner)
      (fun _ inner _ => lifts state inner)⟩

/-- A procedure on a part moves the whole along a lifted relation. -/
theorem zoom
    (inner : τ → τ → Prop) {project : σ → τ} {embed : τ → σ → σ}
    (part : Procedure τ ε π α) [moves : Moves inner part]
    (lifts : ∀ state final, inner (project state) final →
      related state (embed final state)) :
    Moves related (Procedure.zoom project embed part) :=
  ⟨fun state => by
    rw [wp_zoom]
    exact wp_mono (moves.holds (project state)) (fun _ => lifts state)
      (fun _ => lifts state)⟩

end Moves

end Procedure
