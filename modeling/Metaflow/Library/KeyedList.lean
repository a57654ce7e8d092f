import Mathlib.Data.List.Nodup
import Mathlib.Data.Option.Defs

/-!
# Lists with one entry for each key

A list without two entries of one key is a finite map.
-/

namespace Metaflow.Library

open List

variable {E K : Type} (keyOf : E -> K)

/-- No key has two entries. -/
def Keyed (entries : List E) : Prop :=
  (entries.map keyOf).Nodup

variable [DecidableEq K]

/-- The entry of a key. -/
def entryAt (entries : List E) (key : K) : Option E :=
  entries.find? fun entry => keyOf entry = key

variable {keyOf}

theorem entryAt_eq_none_iff :
    entryAt keyOf entries key = none ↔ ∀ entry ∈ entries, keyOf entry ≠ key := by
  simp [entryAt]

theorem Keyed.entryAt_eq_some_iff (keyed : Keyed keyOf entries) :
    entryAt keyOf entries key = some entry ↔ entry ∈ entries ∧ keyOf entry = key := by
  constructor
  · intro found
    have isKey := find?_some found
    exact ⟨mem_of_find?_eq_some found, by simpa using isKey⟩
  · rintro ⟨present, rfl⟩
    cases found : entryAt keyOf entries (keyOf entry) with
    | none => exact absurd rfl (entryAt_eq_none_iff.mp found entry present)
    | some other =>
      have sameKey := find?_some found
      have otherPresent := mem_of_find?_eq_some found
      exact congrArg some (inj_on_of_nodup_map keyed otherPresent present (by simpa using sameKey))

end Metaflow.Library
