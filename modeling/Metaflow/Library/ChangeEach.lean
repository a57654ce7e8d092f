import Mathlib.Logic.Function.Basic

/-!
# Loops that rewrite a stretch of an array

An array is the function that reads it. `changeEach` is the loop over
consecutive indices that replaces every entry by a function of itself.
-/

namespace Metaflow.Library

variable {α : Type*}

/-- `for i := first; i < first + count; i++ { table[i] = change(table[i]) }` -/
def changeEach (change : α -> α) (first count : Nat) (table : Nat -> α) : Nat -> α :=
  (List.range' first count).foldl
    (fun table index => Function.update table index (change (table index)))
    table

theorem changeEach_apply (change : α -> α) (first count : Nat) (table : Nat -> α) (index : Nat) :
    changeEach change first count table index =
      if first ≤ index ∧ index < first + count then change (table index) else table index := by
  induction count generalizing first table with
  | zero =>
    have outside : ¬ (first ≤ index ∧ index < first + 0) := by omega
    rw [if_neg outside]
    rfl
  | succ count ih =>
    have unrolled : changeEach change first (count + 1) table = changeEach change (first + 1) count
          (Function.update table first (change (table first))) := by
      simp only [changeEach, List.range'_succ, List.foldl_cons]
    rw [unrolled, ih]
    by_cases atFirst : index = first
    · subst atFirst
      rw [if_neg (by omega), if_pos (by omega), Function.update_self]
    · rw [Function.update_of_ne atFirst]
      exact if_congr (by omega) rfl rfl

end Metaflow.Library
