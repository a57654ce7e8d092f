import Mathlib.Logic.Function.Basic

/-!
# Tables of lists

A table with a list for each key. Elements are added one after another, each
at the end of the list of its key, so a list has the elements of its key in
the order they came.
-/

namespace Metaflow.Library

variable {κ α : Type*} [DecidableEq κ]

/-- Add an element to the list of its key. -/
def addToGroup (table : κ -> List α) (key : κ) (element : α) : κ -> List α :=
  Function.update table key (table key ++ [element])

variable (keyOf : α -> κ) (elements : List α) (table : κ -> List α)

theorem addToGroup_apply (key other : κ) (element : α) :
    addToGroup table key element other = table other ++ if key = other then [element] else [] := by
  unfold addToGroup
  by_cases same : key = other
  · subst same
    rw [Function.update_self, if_pos rfl]
  · rw [Function.update_of_ne (Ne.symm same), if_neg same, List.append_nil]

/-- The list of a key after a run over all elements, some of which are not
added. -/
theorem foldl_addToGroup (added : α -> Bool) (keyOf : α -> κ) (elements : List α)
    (table : κ -> List α) (key : κ) :
    elements.foldl (fun table element =>
        if added element then addToGroup table (keyOf element) element
        else table) table key =
      table key ++ elements.filter fun element =>
        added element && decide (keyOf element = key) := by
  induction elements generalizing table with
  | nil => simp
  | cons head rest ih =>
    rw [List.foldl_cons, ih]
    by_cases isAdded : added head
    · by_cases same : keyOf head = key <;>
        simp [isAdded, same, addToGroup_apply]
    · simp [isAdded]

/-- The list of a key after a run that adds all elements. -/
theorem foldl_addToGroup_all (key : κ) :
    elements.foldl (fun table element =>
        addToGroup table (keyOf element) element) table key =
      table key ++ elements.filter fun element =>
        decide (keyOf element = key) := by
  simpa using foldl_addToGroup (fun _ => true) keyOf elements table key

end Metaflow.Library
