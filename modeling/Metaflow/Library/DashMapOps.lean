import Metaflow.Library.HashMap

/-!
# Concurrent maps of a foreign library

`DashMapOps` are the calls that programs make on a concurrent map of a library,
and `DashMapOps.Lawful` is what is assumed of them. What is found is locked
until the reference to it is dropped; removing it before that waits for ever.
-/

namespace Metaflow.Library

/-- The calls on the concurrent maps of a library. -/
structure DashMapOps (K V C : Type) where
  /-- `DashMap::new` -/
  new : C
  /-- What `get`, `get_mut` and `contains_key` find. -/
  get : C -> K -> Option V
  /-- What `iter` enumerates. -/
  iter : C -> List (K × V)
  len : C -> Nat
  insert : C -> K -> V -> C
  /-- The map behind a `get_mut` and an assignment through what it found. -/
  set : C -> K -> V -> C
  /-- `remove` of the second key while a reference to the first one lives. -/
  removeHolding : C -> K -> K -> Option (V × C)

namespace DashMapOps

variable {K V C : Type}

/-- What is assumed of the calls. -/
structure Lawful (ops : DashMapOps K V C) : Prop where
  get_new : ∀ key, ops.get ops.new key = none
  get_of_mem_iter : ∀ map, ∀ entry ∈ ops.iter map, ops.get map entry.1 = some entry.2
  get_insert_self : ∀ map key value, ops.get (ops.insert map key value) key = some value
  get_insert_of_ne : ∀ map key value other, other ≠ key ->
    ops.get (ops.insert map key value) other = ops.get map other
  get_set_self : ∀ map key value, (ops.get map key).isSome ->
    ops.get (ops.set map key value) key = some value
  get_set_of_ne : ∀ map key value other, other ≠ key ->
    ops.get (ops.set map key value) other = ops.get map other
  /-- The lock that guards an entry is not free while there is a reference. -/
  removeHolding_self : ∀ map key, (ops.get map key).isSome -> ops.removeHolding map key key = none

/-- Everything that can be found in a map has a property. -/
def Holds (ops : DashMapOps K V C) (map : C) (property : V -> Prop) : Prop :=
  ∀ key, ∀ value ∈ ops.get map key, property value

variable {ops : DashMapOps K V C}

/-- A new map holds nothing. -/
theorem Lawful.holds_new (lawful : ops.Lawful) (property : V -> Prop) :
    ops.Holds ops.new property := by
  intro key value found
  rw [lawful.get_new] at found
  cases found

/-- An entry with the property may be written. -/
theorem Holds.write [DecidableEq K] {map after : C} {property : V -> Prop} {key : K} {value : V}
    (holds : ops.Holds map property) (isHeld : property value)
    (isAfter : ops.get after key = some value)
    (others : ∀ other, other ≠ key -> ops.get after other = ops.get map other) :
    ops.Holds after property := by
  intro other found isFound
  by_cases same : other = key
  · subst same
    rw [isAfter] at isFound
    exact Option.some.inj isFound ▸ isHeld
  · rw [others other same] at isFound
    exact holds other found isFound

end DashMapOps

namespace HashMap

variable {K V : Type} [DecidableEq K]

/-- The calls on a hash map under a single lock. -/
def dashMapOps (K V : Type) [DecidableEq K] : DashMapOps K V (HashMap K V) where
  new := ∅
  get map key := map.lookup key
  iter map := map.entries.map fun entry => (entry.1, entry.2)
  len map := map.entries.length
  insert map key value := map.insert key value
  set map key value := if (map.lookup key).isSome then map.insert key value else map
  removeHolding _ _ _ := none

/-- A hash map under a single lock has the laws. -/
theorem lawful_dashMapOps : (dashMapOps K V).Lawful where
  get_new _ := rfl
  get_of_mem_iter map := by
    intro entry isEntry
    obtain ⟨stored, isStored, rfl⟩ := List.mem_map.mp isEntry
    exact AList.mem_lookup_iff.mpr isStored
  get_insert_self map _ _ := AList.lookup_insert map
  get_insert_of_ne map _ _ _ different := AList.lookup_insert_ne different
  get_set_self map key value present := by
    simp only [dashMapOps] at present ⊢
    rw [if_pos present]
    exact AList.lookup_insert map
  get_set_of_ne map key value other different := by
    simp only [dashMapOps]
    split_ifs
    · exact AList.lookup_insert_ne different
    · rfl
  removeHolding_self _ _ _ := rfl

end HashMap

end Metaflow.Library
