import Qevm.Logic.Procedure

/-!
# Refinement of operations

An operation refines an abstract one when both end alike from related states: they return
the same value in related states again, or they fail, the one reporting the fault of the
other, and leave their states as they were.  An operation that refines another one does
not panic.  Refinement of every operation is refinement of every run of operations,
whether or not some of them fail on the way.
-/

/-- Two runs end alike, where a failure leaves the states in which they started. -/
inductive Outcome.Agrees
    (related : σ → τ → Prop) (report : η → ε) (start : σ) (modelStart : τ) :
    Outcome σ ε π α → Outcome τ η ρ α → Prop
  | ok (value : α) {state : σ} {model : τ} (still : related state model) :
      Agrees related report start modelStart (.ok value state) (.ok value model)
  | error (fault : η) :
      Agrees related report start modelStart (.error (report fault) start)
        (.error fault modelStart)

namespace Procedure

variable {σ τ : Type u} {ε η α β : Type v} {π ρ : Type w}
  {related : σ → τ → Prop} {report : η → ε}

/-- From related states both operations end alike. -/
def Refines
    (related : σ → τ → Prop) (report : η → ε)
    (program : Procedure σ ε π α) (abstract : Procedure τ η ρ α) : Prop :=
  ∀ state model, related state model →
    (program state).Agrees related report state model (abstract model)

/-- Operations may hand on what they return. -/
theorem Refines.bind_pure
    {program : Procedure σ ε π α} {abstract : Procedure τ η ρ α}
    (refines : Refines related report program abstract) (read : α → β) :
    Refines related report (program >>= fun value => pure (read value))
      (abstract >>= fun value => pure (read value)) := by
  intro state model start
  have agrees := refines state model start
  change Outcome.Agrees related report state model
    (Procedure.bind program (fun value => Procedure.pure (read value)) state)
    (Procedure.bind abstract (fun value => Procedure.pure (read value)) model)
  unfold Procedure.bind
  generalize program state = ended, abstract model = modelEnded at agrees
  cases agrees with
  | ok value still => exact .ok (read value) still
  | error fault => exact .error fault

/-- Run operations one after another and return how each of them ended. -/
def trace (run : ι → Procedure σ ε π α) : List ι → Procedure σ ε π (List (Except ε α))
  | [] => pure []
  | op :: rest => do
      let result ← attempt (run op)
      let results ← trace run rest
      pure (result :: results)

/-- A returned or a raised end comes first in the trace. -/
theorem trace_cons
    {run : ι → Procedure σ ε π α} {op : ι} {rest : List ι} {result : Except ε α}
    {results : List (Except ε α)} {state middle final : σ}
    (first : attempt (run op) state = .ok result middle)
    (others : trace run rest middle = .ok results final) :
    trace run (op :: rest) state = .ok (result :: results) final := by
  rw [trace, bind_of_ok first, bind_of_ok others]
  rfl

/-- A run of operations that refine abstract ones traces the abstract run. -/
theorem Refines.trace
    {run : ι → Procedure σ ε π α} {abstract : ι → Procedure τ η ρ α}
    (refines : ∀ op, Refines related report (run op) (abstract op))
    (ops : List ι) {state : σ} {model : τ} (start : related state model) :
    ∃ results final modelFinal,
      Procedure.trace run ops state = .ok (results.map (Except.mapError report)) final ∧
        Procedure.trace abstract ops model = .ok results modelFinal ∧
        related final modelFinal := by
  induction ops generalizing state model with
  | nil => exact ⟨[], state, model, rfl, rfl, start⟩
  | cons op rest inductionHypothesis =>
      have agrees := refines op state model start
      generalize concrete : run op state = ended at agrees
      generalize abstracted : abstract op model = modelEnded at agrees
      cases agrees with
      | ok value still =>
          obtain ⟨results, final, modelFinal, runs, follows, last⟩ :=
            inductionHypothesis still
          exact ⟨.ok value :: results, final, modelFinal,
            trace_cons (attempt_ok concrete) runs,
            trace_cons (attempt_ok abstracted) follows, last⟩
      | error fault =>
          obtain ⟨results, final, modelFinal, runs, follows, last⟩ :=
            inductionHypothesis start
          exact ⟨.error fault :: results, final, modelFinal,
            trace_cons (attempt_error concrete) runs,
            trace_cons (attempt_error abstracted) follows, last⟩

/-- Operations that report errors as they are have the same trace. -/
theorem Refines.trace_same
    {run : ι → Procedure σ ε π α} {abstract : ι → Procedure τ ε ρ α}
    (refines : ∀ op, Refines related id (run op) (abstract op))
    (ops : List ι) {state : σ} {model : τ} (start : related state model) :
    ∃ results final modelFinal,
      Procedure.trace run ops state = .ok results final ∧
        Procedure.trace abstract ops model = .ok results modelFinal ∧
        related final modelFinal := by
  have same : Except.mapError id = (id : Except ε α → Except ε α) := by
    funext result
    cases result <;> rfl
  simpa only [same, List.map_id] using Refines.trace refines ops start

end Procedure
