import Mathlib.Data.List.Basic

/-!
# Checks in order

A request passes a list of checks in order. The first check that fails decides how the
request ends: one kind of check refuses it, the other kind breaks it. The verdict of a list
is computed from the left, and the verdict of two lists from the verdicts of both.
-/

namespace Interaction

/-- A check that refuses a request, or one that breaks it, when it does not hold. -/
inductive Check
  | must (holds : Bool)
  | cast (holds : Bool)
  deriving DecidableEq

/-- Whether a check holds. -/
def Check.holds : Check → Bool
  | .must holds => holds
  | .cast holds => holds

/-- How a request ends that is checked. -/
inductive Verdict
  | passes
  | refused
  | broken
  deriving DecidableEq

/-- The verdict of checks made in order. -/
def verdict : List Check → Verdict
  | [] => .passes
  | .must holds :: rest => if holds then verdict rest else .refused
  | .cast holds :: rest => if holds then verdict rest else .broken

/-- Go on with a verdict when the first one passes. -/
def Verdict.andThen : Verdict → Verdict → Verdict
  | .passes, next => next
  | ended, _ => ended

@[simp] theorem verdict_nil : verdict [] = .passes := rfl

@[simp] theorem Verdict.passes_andThen (next : Verdict) : Verdict.passes.andThen next = next := rfl

@[simp] theorem Verdict.refused_andThen (next : Verdict) : Verdict.refused.andThen next = .refused :=
  rfl

@[simp] theorem Verdict.broken_andThen (next : Verdict) : Verdict.broken.andThen next = .broken := rfl

/-- Checks made one list after the other. -/
@[simp] theorem verdict_append (first second : List Check) :
    verdict (first ++ second) = (verdict first).andThen (verdict second) := by
  induction first with
  | nil => rfl
  | cons check rest ih =>
    cases check with
    | must holds => cases holds <;> simp [verdict, ih]
    | cast holds => cases holds <;> simp [verdict, ih]

/-- A check that holds is passed over. -/
@[simp] theorem verdict_must_true (rest : List Check) :
    verdict (.must true :: rest) = verdict rest := rfl

/-- A check that holds is passed over. -/
@[simp] theorem verdict_cast_true (rest : List Check) :
    verdict (.cast true :: rest) = verdict rest := rfl

/-- A refusing check that fails refuses. -/
@[simp] theorem verdict_must_false (rest : List Check) :
    verdict (.must false :: rest) = .refused := rfl

/-- A breaking check that fails breaks. -/
@[simp] theorem verdict_cast_false (rest : List Check) :
    verdict (.cast false :: rest) = .broken := rfl

/-- A list passes exactly when each of its checks holds. -/
theorem verdict_eq_passes {checks : List Check} :
    verdict checks = .passes ↔ ∀ check ∈ checks, check.holds = true := by
  induction checks with
  | nil => simp
  | cons check rest ih =>
    cases check with
    | must holds => cases holds <;> simp [Check.holds, ih]
    | cast holds => cases holds <;> simp [Check.holds, ih]

end Interaction
