import Mathlib.Algebra.Order.Group.Nat
import Mathlib.Tactic.Common

/-!
# Bisection

An interval is narrowed from both sides by testing its midpoint: a midpoint that passes
becomes the upper end, one that fails the lower end.  A test may depend on when it is made,
and nothing is assumed about how its outcome depends on the point.
-/

/-- Narrowing an interval from one time on to another, at which no point is left between the
ends. -/
inductive Bisection (passed failed : Nat → Nat → Prop) :
    (time low high time' low' high' : Nat) → Prop
  | done {time low high : Nat} (adjacent : ¬low + 1 < high) :
      Bisection passed failed time low high time low high
  | lower {time low high time' low' high' : Nat} (apart : low + 1 < high)
      (pass : passed time ((low + high) / 2))
      (rest : Bisection passed failed (time + 1) low ((low + high) / 2) time' low' high') :
      Bisection passed failed time low high time' low' high'
  | raise {time low high time' low' high' : Nat} (apart : low + 1 < high)
      (fail : failed time ((low + high) / 2))
      (rest : Bisection passed failed (time + 1) ((low + high) / 2) high time' low' high') :
      Bisection passed failed time low high time' low' high'

namespace Bisection

variable {passed failed : Nat → Nat → Prop} {time low high time' low' high' rounds : Nat}

/-- One test halves an interval. -/
theorem halves (narrow : high - low ≤ 2 ^ (rounds + 1)) :
    (low + high) / 2 - low ≤ 2 ^ rounds ∧ high - (low + high) / 2 ≤ 2 ^ rounds := by
  rw [Nat.pow_succ] at narrow
  omega

/-- The number of tests is at most the logarithm of the width. -/
theorem rounds_le
    (bisects : Bisection passed failed time low high time' low' high')
    (narrow : high - low ≤ 2 ^ rounds) : time' ≤ time + rounds := by
  induction bisects generalizing rounds with
  | done => exact Nat.le_add_right _ _
  | lower apart _ _ inductionHypothesis =>
      cases rounds with
      | zero => rw [Nat.pow_zero] at narrow; omega
      | succ rounds =>
          have later := inductionHypothesis (halves narrow).1
          omega
  | raise apart _ _ inductionHypothesis =>
      cases rounds with
      | zero => rw [Nat.pow_zero] at narrow; omega
      | succ rounds =>
          have later := inductionHypothesis (halves narrow).2
          omega

/-- The ends come as close as can be, but never meet. -/
theorem inside
    (bisects : Bisection passed failed time low high time' low' high') :
    time ≤ time' ∧ high' ≤ high ∧ (low < high → low' + 1 = high') := by
  induction bisects with
  | done adjacent => omega
  | lower apart _ _ inductionHypothesis => omega
  | raise apart _ _ inductionHypothesis => omega

/-- The upper end is where it was, or it has passed in the meantime. -/
theorem passed_high
    (bisects : Bisection passed failed time low high time' low' high') :
    high' = high ∨ ∃ test, time ≤ test ∧ test < time' ∧ passed test high' := by
  induction bisects with
  | done => exact .inl rfl
  | @lower time _ _ _ _ _ _ pass rest inductionHypothesis =>
      right
      obtain rfl | ⟨test, late, early, pass⟩ := inductionHypothesis
      · exact ⟨time, Nat.le_refl _, rest.inside.1, pass⟩
      · exact ⟨test, Nat.le_of_succ_le late, early, pass⟩
  | raise _ _ _ inductionHypothesis =>
      obtain same | ⟨test, late, early, pass⟩ := inductionHypothesis
      · exact .inl same
      · exact .inr ⟨test, Nat.le_of_succ_le late, early, pass⟩

/-- The lower end is where it was, or it has failed in the meantime. -/
theorem failed_low
    (bisects : Bisection passed failed time low high time' low' high') :
    low' = low ∨ ∃ test, time ≤ test ∧ test < time' ∧ failed test low' := by
  induction bisects with
  | done => exact .inl rfl
  | lower _ _ _ inductionHypothesis =>
      obtain same | ⟨test, late, early, fail⟩ := inductionHypothesis
      · exact .inl same
      · exact .inr ⟨test, Nat.le_of_succ_le late, early, fail⟩
  | @raise time _ _ _ _ _ _ fail rest inductionHypothesis =>
      right
      obtain rfl | ⟨test, late, early, fail⟩ := inductionHypothesis
      · exact ⟨time, Nat.le_refl _, rest.inside.1, fail⟩
      · exact ⟨test, Nat.le_of_succ_le late, early, fail⟩

end Bisection
