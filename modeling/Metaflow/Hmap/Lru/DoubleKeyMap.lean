import Mathlib.Data.Multiset.Basic
import Metaflow.Hmap.Lru.DoubleKeyLru

/-!
# What `U128U64DoubleKeyLRU` is for

The abstract map is an LRU map of entries that have a short key besides their
long key: the short key of their insertion.
-/

namespace Metaflow.Hmap.Lru

open Library

namespace DoubleKeyNode

variable {V : Type}

/-- The long key of an entry. -/
def longKey (entry : DoubleKeyNode V) : UInt64 × UInt64 :=
  (entry.longKey0, entry.longKey1)

end DoubleKeyNode

/-- LRU maps of entries with long and short keys. -/
abbrev DoubleKeyMap (V : Type) :=
  LruMap (DoubleKeyNode.longKey : DoubleKeyNode V -> UInt64 × UInt64)

namespace DoubleKeyMap

variable {V : Type}

/-- The operations. -/
inductive Op (V : Type) where
  | add (longKey : UInt64 × UInt64) (shortKey : UInt64) (value : V)
  | addByShortKey
      (longKey0s longKey1s : List UInt64)
      (shortKey : UInt64)
      (values : List V)
  | get (longKey : UInt64 × UInt64) (peek : Bool)
  | remove (longKey : UInt64 × UInt64)
  | removeByShortKey (shortKey : UInt64)
  | peekByShortKey (shortKey : UInt64)
  | clear

/-- What the operations answer. The values of a short key have no order. -/
inductive Answer (V : Type) where
  | done
  | completed (wholly : Bool)
  | found (value : Option V)
  | removed (count : Nat)
  | values (values : Option (Multiset V))
  deriving DecidableEq

/-- A new long key is put in front with the short key; an entry that is there is
put in front with the new value and keeps its short key. -/
def add (map : DoubleKeyMap V) (longKey : UInt64 × UInt64) (shortKey : UInt64)
    (value : V) : DoubleKeyMap V :=
  match map.find? longKey with
  | some entry => map.put { entry with value := value }
  | none => map.put
      { longKey0 := longKey.1
        longKey1 := longKey.2
        shortKey := shortKey
        value := value }

/-- Add one entry after the other, as far as the lists go. -/
def addAll (shortKey : UInt64) :
    DoubleKeyMap V -> List UInt64 -> List UInt64 -> List V -> DoubleKeyMap V × Bool
  | map, [], _, _ => (map, true)
  | map, longKey0 :: longKey0s, longKey1 :: longKey1s, value :: values =>
    addAll shortKey (add map (longKey0, longKey1) shortKey value) longKey0s longKey1s values
  | map, _ :: _, _, _ => (map, false)

/-- The entries that were inserted with a short key. -/
def withShortKey (map : DoubleKeyMap V) (shortKey : UInt64) : List (DoubleKeyNode V) :=
  map.entries.filter fun entry => entry.shortKey = shortKey

/-- One operation of the abstract map. -/
def step (map : DoubleKeyMap V) : Op V -> DoubleKeyMap V × Answer V
  | .add longKey shortKey value => (add map longKey shortKey value, .done)
  | .addByShortKey longKey0s longKey1s shortKey values =>
    if longKey0s.length ≠ longKey1s.length ∧
        longKey0s.length ≠ values.length then (map, .completed true)
    else
      let (map, wholly) := addAll shortKey map longKey0s longKey1s values
      (map, .completed wholly)
  | .get longKey peek =>
    match map.find? longKey with
    | none => (map, .found none)
    | some entry => (if peek then map else map.put entry, .found (some entry.value))
  | .remove longKey => (map.remove longKey, .done)
  | .removeByShortKey shortKey =>
    (map.removeWhere fun entry => entry.shortKey = shortKey,
      .removed (withShortKey map shortKey).length)
  | .peekByShortKey shortKey =>
    (map, .values
      (if withShortKey map shortKey = [] then none
        else some (Multiset.ofList ((withShortKey map shortKey).map DoubleKeyNode.value))))
  | .clear => (map.clear, .done)

variable (map : DoubleKeyMap V)

theorem capacity_add (longKey : UInt64 × UInt64) (shortKey : UInt64) (value : V) :
    (add map longKey shortKey value).capacity = map.capacity := by
  unfold add
  split <;> rfl

theorem capacity_addAll (shortKey : UInt64) (longKey0s longKey1s : List UInt64) (values : List V) :
    (addAll shortKey map longKey0s longKey1s values).1.capacity = map.capacity := by
  induction longKey0s generalizing map longKey1s values with
  | nil => simp [addAll]
  | cons longKey0 longKey0s ih =>
    cases longKey1s with
    | nil => rfl
    | cons longKey1 longKey1s =>
      cases values with
      | nil => rfl
      | cons value values => rw [addAll, ih, capacity_add]

theorem capacity_step (operation : Op V) : (step map operation).1.capacity = map.capacity := by
  cases operation with
  | add longKey shortKey value => exact capacity_add _ _ _ _
  | addByShortKey longKey0s longKey1s shortKey values =>
    rw [step]
    split
    · rfl
    · exact capacity_addAll _ _ _ _ _
  | get longKey peek =>
    simp only [step]
    split
    · rfl
    · split <;> rfl
  | _ => rfl

end DoubleKeyMap

end Metaflow.Hmap.Lru
