import Metaflow.Library.KeyedList

/-!
# Bounded maps that forget the least recently used entry

An `LruMap` is a list of entries, the most recently used one first, without two
entries of one key and never longer than its capacity.
-/

namespace Metaflow.Library

open List

/-- The entries of an LRU map, the most recently used one first. -/
structure LruMap {E K : Type} (keyOf : E -> K) where
  capacity : Nat
  positive : 0 < capacity
  entries : List E
  /-- No key has two entries. -/
  nodup : (entries.map keyOf).Nodup
  bounded : entries.length ≤ capacity

namespace LruMap

variable {E K V : Type} {keyOf : E -> K}

@[ext] theorem ext {left right : LruMap keyOf} (sameCapacity : left.capacity = right.capacity)
    (sameEntries : left.entries = right.entries) : left = right := by
  cases left
  cases right
  simp_all

/-- A map without entries. -/
def empty (keyOf : E -> K) (capacity : Nat) (positive : 0 < capacity) : LruMap keyOf where
  capacity := capacity
  positive := positive
  entries := []
  nodup := List.nodup_nil
  bounded := Nat.zero_le capacity

/-- Forget all entries. -/
def clear (map : LruMap keyOf) : LruMap keyOf :=
  empty keyOf map.capacity map.positive

/-- Forget the entries that satisfy a test. -/
def removeWhere (map : LruMap keyOf) (test : E -> Bool) : LruMap keyOf where
  capacity := map.capacity
  positive := map.positive
  entries := map.entries.filter fun entry => !test entry
  nodup := map.nodup.sublist (List.filter_sublist.map keyOf)
  bounded := Nat.le_trans (List.length_filter_le _ _) map.bounded

/-- Entries go or stay. -/
theorem length_removeWhere (map : LruMap keyOf) (test : E -> Bool) :
    (map.entries.filter test).length + (map.removeWhere test).entries.length = map.entries.length :=
  (length_eq_length_filter_add test).symm

theorem removeWhere_of_forall (map : LruMap keyOf) {test : E -> Bool}
    (fails : ∀ entry ∈ map.entries, test entry = false) : map.removeWhere test = map := by
  apply LruMap.ext
  · rfl
  · refine filter_eq_self.mpr ?_
    intro entry present
    simp [fails entry present]

variable [DecidableEq K]

/-- The entry of a key. -/
def find? (map : LruMap keyOf) (key : K) : Option E :=
  map.entries.find? fun entry => keyOf entry = key

/-- Forget the entry of a key. -/
def remove (map : LruMap keyOf) (key : K) : LruMap keyOf :=
  map.removeWhere fun entry => keyOf entry = key

/-- The entries that stay when `key` is put in front, without the least recently
used one when a new key finds the map full. -/
def others (map : LruMap keyOf) (key : K) : List E :=
  if (map.find? key).isSome then (map.remove key).entries
  else if map.entries.length < map.capacity then map.entries
  else map.entries.dropLast

section

variable (map : LruMap keyOf)

theorem find?_eq_none_iff (key : K) :
    map.find? key = none ↔ ∀ entry ∈ map.entries, keyOf entry ≠ key := by
  simp [find?]

theorem find?_eq_some_iff (key : K) (entry : E) :
    map.find? key = some entry ↔ entry ∈ map.entries ∧ keyOf entry = key :=
  Keyed.entryAt_eq_some_iff map.nodup

theorem remove_of_find?_eq_none (absent : map.find? key = none) : map.remove key = map := by
  refine map.removeWhere_of_forall ?_
  intro entry present
  simpa using (map.find?_eq_none_iff key).mp absent entry present

@[simp] theorem find?_remove_self (key : K) : (map.remove key).find? key = none := by
  simp [find?_eq_none_iff, remove, removeWhere]

end

variable {entry : E} {map : LruMap keyOf}

section

variable (map : LruMap keyOf)

theorem length_remove (found : map.find? key = some entry) :
    (map.remove key).entries.length + 1 = map.entries.length := by
  obtain ⟨present, isKey⟩ := (map.find?_eq_some_iff key entry).mp found
  have keyPresent : key ∈ map.entries.map keyOf := mem_map.mpr ⟨entry, present, isKey⟩
  have erased : ((map.remove key).entries.map keyOf) = (map.entries.map keyOf).erase key := by
    rw [map.nodup.erase_eq_filter, filter_map]
    congr 1
  have lengths := congrArg List.length erased
  have positive := length_pos_of_mem keyPresent
  rw [length_erase_of_mem keyPresent, length_map, length_map] at lengths
  rw [length_map] at positive
  omega

/-- An entry that goes anyway may be removed first. -/
theorem removeWhere_remove {key : K}
    (found : map.find? key = some entry) (test : E -> Bool) (passes : test entry = true) :
    (map.remove key).removeWhere test = map.removeWhere test := by
  apply LruMap.ext
  · rfl
  · change (map.entries.filter _).filter _ = map.entries.filter _
    rw [filter_filter]
    refine filter_congr ?_
    intro other present
    by_cases sameKey : keyOf other = key
    · have isOther := (map.find?_eq_some_iff key other).mpr ⟨present, sameKey⟩
      obtain rfl : other = entry := Option.some.inj (isOther.symm.trans found)
      simp [passes]
    · simp [sameKey]

variable (key : K)

theorem others_subset (present : entry ∈ map.others key) :
    entry ∈ map.entries ∧ keyOf entry ≠ key := by
  unfold others at present
  split at present
  · simpa [remove, removeWhere] using present
  · next absent =>
      have noKey := (map.find?_eq_none_iff key).mp (by simpa using absent)
      have old : entry ∈ map.entries := by
        split at present
        · exact present
        · exact (dropLast_sublist _).subset present
      exact ⟨old, noKey entry old⟩

theorem others_sublist : (map.others key).Sublist map.entries := by
  unfold others
  split
  · exact filter_sublist
  · split
    · exact List.Sublist.refl _
    · exact dropLast_sublist _

/-- Putting an entry in front leaves room for it. -/
theorem length_others_lt : (map.others key).length < map.capacity := by
  have bounded := map.bounded
  have positive := map.positive
  unfold others
  split
  · next present =>
      obtain ⟨entry, found⟩ := Option.isSome_iff_exists.mp present
      have isEntry := (map.find?_eq_some_iff key entry).mp found
      have shorter : (map.remove key).entries.length < map.entries.length := by
        refine length_filter_lt_length_iff_exists.mpr ⟨entry, isEntry.1, ?_⟩
        simp [isEntry.2]
      omega
  · split
    · assumption
    · rw [length_dropLast]
      omega

end

/-- Put an entry in front. Another one of its key goes, or if the map is full
the least recently used one. -/
def put (map : LruMap keyOf) (entry : E) : LruMap keyOf where
  capacity := map.capacity
  positive := map.positive
  entries := entry :: map.others (keyOf entry)
  nodup := by
    rw [List.map_cons, List.nodup_cons]
    refine ⟨?_, map.nodup.sublist ((map.others_sublist _).map keyOf)⟩
    intro present
    obtain ⟨other, isOther, sameKey⟩ := List.mem_map.mp present
    exact (map.others_subset _ isOther).2 sameKey
  bounded := map.length_others_lt (keyOf entry)

theorem forall_put {property : E -> Prop}
    (holds : ∀ entry ∈ map.entries, property entry) (holdsNew : property entry) :
    ∀ other ∈ (map.put entry).entries, property other := by
  intro other present
  rcases mem_cons.mp present with rfl | old
  · exact holdsNew
  · exact holds other (map.others_subset _ old).1

theorem find?_put_self (map : LruMap keyOf) (entry : E) :
    (map.put entry).find? (keyOf entry) = some entry := by
  simp [find?, put]

theorem entries_put_of_room
    (absent : map.find? (keyOf entry) = none) (room : map.entries.length < map.capacity) :
    (map.put entry).entries = entry :: map.entries := by
  change entry :: map.others (keyOf entry) = _
  unfold others
  rw [absent, if_neg (by simp), if_pos room]

/-- Putting a new key into a full map is putting it into the map without the
least recent entry. -/
theorem put_of_full {rest : LruMap keyOf} (sameCapacity : rest.capacity = map.capacity)
    (evicted : rest.entries = map.entries.dropLast) (full : map.capacity ≤ map.entries.length)
    (absent : map.find? (keyOf entry) = none) : rest.put entry = map.put entry := by
  have stillAbsent : rest.find? (keyOf entry) = none := by
    rw [find?_eq_none_iff] at absent ⊢
    intro other present
    rw [evicted] at present
    exact absent other ((dropLast_sublist _).subset present)
  have notFull : rest.entries.length < rest.capacity := by
    have positive := map.positive
    have bounded := map.bounded
    rw [evicted, sameCapacity, length_dropLast]
    omega
  refine LruMap.ext sameCapacity ?_
  change _ :: rest.others _ = _ :: map.others _
  congr 1
  unfold others
  rw [stillAbsent, absent]
  simp only [Option.isSome_none, Bool.false_eq_true, if_false]
  rw [if_pos notFull, if_neg (Nat.not_lt.mpr full), evicted]

/-- The operations of an LRU map from keys to values. -/
inductive Op (K V : Type) where
  | add (key : K) (value : V)
  | get (key : K) (peek : Bool)
  | remove (key : K)
  | clear
  | walk
  | size

/-- What the operations answer. -/
inductive Answer (K V : Type) where
  | done
  | found (value : Option V)
  | pairs (entries : List (K × V))
  | count (size : Int)
  deriving DecidableEq

/-- One operation of an LRU map from keys to values. -/
def step (map : LruMap (Prod.fst : K × V -> K)) :
    Op K V -> LruMap (Prod.fst : K × V -> K) × Answer K V
  | .add key value => (map.put (key, value), .done)
  | .get key peek =>
    match map.find? key with
    | none => (map, .found none)
    | some entry => (if peek then map else map.put entry, .found (some entry.2))
  | .remove key => (map.remove key, .done)
  | .clear => (map.clear, .done)
  | .walk => (map, .pairs map.entries)
  | .size => (map, .count map.entries.length)

variable (map : LruMap (Prod.fst : K × V -> K))

theorem step_get (key : K) (peek : Bool) : map.step (.get key peek) =
      ((map.find? key).elim map fun entry => if peek then map else map.put entry,
        .found ((map.find? key).map Prod.snd)) := by
  simp only [step]
  cases map.find? key <;> rfl

theorem capacity_step (operation : Op K V) : (map.step operation).1.capacity = map.capacity := by
  cases operation with
  | get key peek =>
    rw [step_get]
    cases map.find? key <;> cases peek <;> rfl
  | _ => rfl

end LruMap

end Metaflow.Library
