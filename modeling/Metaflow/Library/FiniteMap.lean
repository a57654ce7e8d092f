import Mathlib.Data.Finset.Card

/-!
# Finite maps

A partial function together with the finite set of keys it is defined on, and
the machine of an identifier table over it: add a key unless it is there, look
a key up, count the keys and forget them all.
-/

namespace Metaflow.Library

/-- A partial function with a finite domain. -/
structure FiniteMap (K V : Type) where
  lookup : K -> Option V
  keys : Finset K
  /-- The keys are where the function is defined. -/
  mem_keys : ∀ key, key ∈ keys ↔ (lookup key).isSome

namespace FiniteMap

variable {K V : Type}

/-- The map without keys. -/
def empty : FiniteMap K V where
  lookup _ := none
  keys := ∅
  mem_keys key := by simp

/-- The number of keys. -/
def size (map : FiniteMap K V) : Nat :=
  map.keys.card

variable [DecidableEq K]

/-- Define or redefine the function at a key. -/
def insert (map : FiniteMap K V) (key : K) (value : V) : FiniteMap K V where
  lookup := Function.update map.lookup key (some value)
  keys := Insert.insert key map.keys
  mem_keys other := by
    by_cases same : other = key <;> simp [same, map.mem_keys]

section

variable {map : FiniteMap K V} {key : K}

theorem size_insert_of_absent (absent : map.lookup key = none)
    (value : V) : (map.insert key value).size = map.size + 1 := by
  apply Finset.card_insert_of_notMem
  rw [map.mem_keys, absent]
  simp

theorem size_insert_of_present
    (present : map.lookup key = some old) (value : V) : (map.insert key value).size = map.size := by
  apply congrArg Finset.card
  apply Finset.insert_eq_of_mem
  rw [map.mem_keys, present]
  simp

end

/-- The operations of an identifier table. -/
inductive Op (K V : Type) where
  | addOrGet (key : K) (value : V) (overwrite : Bool)
  | get (key : K)
  | size
  | clear

/-- What the operations answer. -/
inductive Answer (V : Type) where
  | value (value : V) (flag : Bool)
  | count (size : Nat)
  | done
  deriving DecidableEq

variable [Inhabited V]

/-- One operation of an identifier table. A missing key answers the default
value and `false`. -/
def step (map : FiniteMap K V) : Op K V -> FiniteMap K V × Answer V
  | .addOrGet key value overwrite =>
    match map.lookup key with
    | none => (map.insert key value, .value value true)
    | some old =>
      if overwrite then (map.insert key value, .value value false)
      else (map, .value old false)
  | .get key =>
    match map.lookup key with
    | none => (map, .value default false)
    | some value => (map, .value value true)
  | .size => (map, .count map.size)
  | .clear => (empty, .done)

end FiniteMap

end Metaflow.Library
