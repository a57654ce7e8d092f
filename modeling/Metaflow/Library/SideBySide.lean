import Mathlib.Data.Option.Defs

/-!
# Two runs side by side

Rules for partial computations that fail together, or succeed with related
results.
-/

namespace Metaflow.Library

section SideBySide

variable {α β γ δ : Type}

/-- Related first steps, followed by steps that relate what they are given. -/
theorem rel_bind (first : Option.Rel before left right)
    (next : ∀ valueLeft valueRight, before valueLeft valueRight ->
      Option.Rel related (nextLeft valueLeft) (nextRight valueRight)) :
    Option.Rel related (left >>= nextLeft) (right >>= nextRight) := by
  cases first with
  | some holds => exact next _ _ holds
  | none => exact .none

theorem rel_bind_same
    (next : ∀ value, step = some value -> Option.Rel related (nextLeft value) (nextRight value)) :
    Option.Rel related (step >>= nextLeft) (step >>= nextRight) := by
  cases step with
  | none => exact .none
  | some value => exact next value rfl

/-- Both sides take the same branch. -/
theorem rel_ite [Decidable condition] (isTrue : condition -> Option.Rel related thenLeft thenRight)
    (isFalse : ¬ condition -> Option.Rel related elseLeft elseRight) :
    Option.Rel related (if condition then thenLeft else elseLeft)
      (if condition then thenRight else elseRight) := by
  by_cases holds : condition
  · rw [if_pos holds, if_pos holds]
    exact isTrue holds
  · rw [if_neg holds, if_neg holds]
    exact isFalse holds

theorem rel_mono (rel : Option.Rel related left right)
    (implies : ∀ valueLeft valueRight, related valueLeft valueRight ->
      weaker valueLeft valueRight) :
    Option.Rel weaker left right := by
  cases rel with
  | some holds => exact .some (implies _ _ holds)
  | none => exact .none

end SideBySide

end Metaflow.Library
