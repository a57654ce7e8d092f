import Metaflow.Library.LruMap

/-!
# Caches of a foreign library

`LruCacheOps` are the calls that programs make on a cache of a library, and
`LruCacheOps.Lawful` is what is assumed of them. Putting an entry may drop any
other one. An `LruMap` is a cache with these laws.
-/

namespace Metaflow.Library

/-- The calls on the caches of a library. -/
structure LruCacheOps (K V C : Type) where
  /-- `LruCache::new` -/
  new : { capacity : Nat // 0 < capacity } -> C
  /-- What `get`, `get_mut` and `pop` find. -/
  find? : C -> K -> Option V
  /-- The cache behind a `get`. -/
  touch : C -> K -> C
  /-- The cache behind a `get_mut` and an assignment through what it found. -/
  set : C -> K -> V -> C
  put : C -> K -> V -> C
  /-- The cache behind a `pop`. -/
  pop : C -> K -> C
  clear : C -> C

namespace LruCacheOps

variable {K V C : Type}

/-- What is assumed of the calls. -/
structure Lawful (ops : LruCacheOps K V C) : Prop where
  find?_new : ∀ capacity key, ops.find? (ops.new capacity) key = none
  find?_clear : ∀ cache key, ops.find? (ops.clear cache) key = none
  find?_touch : ∀ cache key other, ops.find? (ops.touch cache key) other = ops.find? cache other
  find?_set_self : ∀ cache key value, (ops.find? cache key).isSome ->
    ops.find? (ops.set cache key value) key = some value
  find?_set_of_ne : ∀ cache key value other, other ≠ key ->
    ops.find? (ops.set cache key value) other = ops.find? cache other
  find?_put_self : ∀ cache key value, ops.find? (ops.put cache key value) key = some value
  /-- Other entries stay as they are or go. -/
  find?_put_of_ne : ∀ cache key value other found, other ≠ key ->
    ops.find? (ops.put cache key value) other = some found -> ops.find? cache other = some found
  find?_pop_self : ∀ cache key, ops.find? (ops.pop cache key) key = none

variable {ops : LruCacheOps K V C}

/-- Everything that can be found in a cache has a property. -/
def Holds (ops : LruCacheOps K V C) (cache : C) (property : V -> Prop) : Prop :=
  ∀ key, ∀ value ∈ ops.find? cache key, property value

namespace Lawful

variable (lawful : ops.Lawful)
include lawful

/-- A new cache holds nothing. -/
theorem holds_new (capacity : { capacity : Nat // 0 < capacity }) (property : V -> Prop) :
    ops.Holds (ops.new capacity) property := by
  intro key value found
  rw [lawful.find?_new] at found
  cases found

/-- Nor does one that was cleared. -/
theorem holds_clear (cache : C) (property : V -> Prop) :
    ops.Holds (ops.clear cache) property := by
  intro key value found
  rw [lawful.find?_clear] at found
  cases found

variable {cache : C} {property : V -> Prop} (holds : ops.Holds cache property)
include holds

/-- A lookup changes nothing that can be found. -/
theorem holds_touch (key : K) : ops.Holds (ops.touch cache key) property := by
  intro other value found
  rw [lawful.find?_touch] at found
  exact holds other value found

/-- An entry with the property may be put. -/
theorem holds_put [DecidableEq K] (key : K) {value : V} (isHeld : property value) :
    ops.Holds (ops.put cache key value) property := by
  intro other found isFound
  by_cases same : other = key
  · subst same
    rw [lawful.find?_put_self] at isFound
    exact Option.some.inj isFound ▸ isHeld
  · exact holds other found (lawful.find?_put_of_ne _ _ _ _ _ same isFound)

/-- An entry that is there may be set to a value with the property. -/
theorem holds_set [DecidableEq K] {key : K} {value : V} (isHeld : property value)
    (present : (ops.find? cache key).isSome) : ops.Holds (ops.set cache key value) property := by
  intro other found isFound
  by_cases same : other = key
  · subst same
    rw [lawful.find?_set_self _ _ _ present] at isFound
    exact Option.some.inj isFound ▸ isHeld
  · rw [lawful.find?_set_of_ne _ _ _ _ same] at isFound
    exact holds other found isFound

end Lawful
end LruCacheOps

namespace LruMap

variable {K V : Type} [DecidableEq K]

/-- The calls on an LRU map from keys to values. -/
def cacheOps (K V : Type) [DecidableEq K] :
    LruCacheOps K V (LruMap (Prod.fst : K × V -> K)) where
  new capacity := empty Prod.fst capacity capacity.property
  find? map key := (map.find? key).map Prod.snd
  touch map key := (map.find? key).elim map map.put
  set map key value := if (map.find? key).isSome then map.put (key, value) else map
  put map key value := map.put (key, value)
  pop map key := map.remove key
  clear map := map.clear

/-- Putting an entry under a key that is there changes no other key. -/
theorem find?_put_of_isSome {map : LruMap (Prod.fst : K × V -> K)} {entry : K × V}
    (present : (map.find? entry.1).isSome) {key : K} (different : key ≠ entry.1) :
    (map.put entry).find? key = map.find? key := by
  have others : map.others entry.1 = (map.remove entry.1).entries := if_pos present
  ext found
  rw [find?_eq_some_iff, find?_eq_some_iff]
  change found ∈ entry :: map.others entry.1 ∧ _ ↔ _
  rw [others, List.mem_cons]
  refine and_congr_left fun isKey => ?_
  simp only [remove, removeWhere, List.mem_filter, isKey]
  constructor
  · rintro (rfl | old)
    · exact absurd isKey.symm different
    · exact old.1
  · exact fun old => .inr ⟨old, by simp [different]⟩

/-- An LRU map is a cache with the laws. -/
theorem lawful_cacheOps : (cacheOps K V).Lawful where
  find?_new _ _ := rfl
  find?_clear _ _ := rfl
  find?_touch map key other := by
    change Option.map _ (find? (Option.elim (map.find? key) map map.put) other) = _
    cases found : map.find? key with
    | none => rfl
    | some entry =>
      obtain ⟨-, rfl⟩ := (map.find?_eq_some_iff key entry).mp found
      by_cases same : other = entry.1
      · subst same
        rw [Option.elim_some, find?_put_self, ← found]
        rfl
      · rw [Option.elim_some, find?_put_of_isSome (Option.isSome_of_eq_some found) same]
        rfl
  find?_set_self map key value present := by
    have isSome : (map.find? key).isSome := by simpa [cacheOps] using present
    simp only [cacheOps, if_pos isSome]
    exact congrArg (Option.map Prod.snd) (find?_put_self map (key, value))
  find?_set_of_ne map key value other different := by
    simp only [cacheOps]
    split_ifs with present
    · exact congrArg _ (@find?_put_of_isSome _ _ _ map (key, value) present _ different)
    · rfl
  find?_put_self map key value :=
    congrArg (Option.map Prod.snd) (find?_put_self map (key, value))
  find?_put_of_ne map key value other found different isFound := by
    obtain ⟨entry, isEntry, rfl⟩ := Option.map_eq_some_iff.mp isFound
    obtain ⟨mem, isKey⟩ := (find?_eq_some_iff _ _ _).mp isEntry
    rcases List.mem_cons.mp mem with rfl | old
    · exact absurd isKey.symm different
    · have kept := (map.find?_eq_some_iff other entry).mpr ⟨(map.others_subset _ old).1, isKey⟩
      exact congrArg (Option.map Prod.snd) kept
  find?_pop_self map key := congrArg (Option.map Prod.snd) (map.find?_remove_self key)

end LruMap

end Metaflow.Library
