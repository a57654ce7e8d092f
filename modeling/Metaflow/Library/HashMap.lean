import Mathlib.Data.List.AList
import Mathlib.Data.Multiset.MapFold

/-!
# Hash maps

A hash map as an association list. What it holds is the multiset of its
values; the order of the entries means nothing.
-/

namespace Metaflow.Library

variable {K V : Type*}

/-- A map from keys to values. -/
abbrev HashMap (K V : Type*) := AList fun _ : K => V

namespace HashMap

/-- The values, as `drain` and `into_values` enumerate them. -/
def valueList (map : HashMap K V) : List V :=
  map.entries.map fun entry => entry.2

/-- The values of a map. -/
def values (map : HashMap K V) : Multiset V :=
  map.valueList

@[simp] theorem values_empty : values (∅ : HashMap K V) = 0 := rfl

/-- All entries of a map have a property. -/
def All (property : K -> V -> Prop) (map : HashMap K V) : Prop :=
  ∀ entry ∈ map.entries, property entry.1 entry.2

theorem all_empty (property : K -> V -> Prop) : All property (∅ : HashMap K V) := by
  intro entry isIn
  simp at isIn

variable [DecidableEq K]

variable {value : V} {map : HashMap K V}

theorem perm_of_dlookup {entries : List (Sigma fun _ : K => V)}
    (found : entries.dlookup key = some value) :
    entries.Perm (⟨key, value⟩ :: entries.kerase key) := by
  induction entries with
  | nil => simp at found
  | cons entry entries ih =>
    obtain ⟨first, firstValue⟩ := entry
    by_cases same : key = first
    · subst same
      obtain rfl : firstValue = value := by
        simpa [List.dlookup_cons_eq] using found
      rw [show (⟨key, firstValue⟩ :: entries).kerase key = entries from List.kerase_cons_eq rfl]
    · rw [List.dlookup_cons_ne _ _ same] at found
      rw [List.kerase_cons_ne same]
      exact ((ih found).cons _).trans (.swap ..)

theorem values_eq_of_lookup (found : map.lookup key = some value) :
    map.values = value ::ₘ values (map.erase key) := by
  have split : (map.entries.map fun entry => entry.2).Perm
      (value :: (map.entries.kerase key).map fun entry => entry.2) := (perm_of_dlookup found).map _
  exact Multiset.coe_eq_coe.mpr split

theorem erase_of_lookup (absent : map.lookup key = none) : map.erase key = map :=
  AList.ext (List.kerase_of_notMem_keys (AList.lookup_eq_none.mp absent))

theorem values_insert (map : HashMap K V) (key : K) (value : V) :
    values (map.insert key value) = value ::ₘ values (map.erase key) := by
  rw [values, valueList, AList.entries_insert]
  rfl

theorem values_insert_of_lookup (absent : map.lookup key = none) (value : V) :
    values (map.insert key value) = value ::ₘ map.values := by
  rw [values_insert, erase_of_lookup absent]

theorem all_erase (all : All property map) (key : K) : All property (map.erase key) := by
  intro entry isIn
  exact all entry ((List.kerase_sublist key map.entries).mem isIn)

theorem all_insert (all : All property map) (holds : property key value) :
    All property (map.insert key value) := by
  intro entry isIn
  rw [AList.entries_insert, List.mem_cons] at isIn
  rcases isIn with rfl | isIn
  · exact holds
  · exact all_erase all key entry isIn

theorem property_of_lookup (all : All property map) (found : map.lookup key = some value) :
    property key value :=
  all ⟨key, value⟩ (AList.mem_lookup_iff.mp found)

end HashMap
end Metaflow.Library
