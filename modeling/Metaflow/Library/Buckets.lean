import Mathlib.Algebra.BigOperators.Group.Multiset.Basic
import Metaflow.Library.HashMap

/-!
# Maps of buckets

A hash map whose values are vectors. What it holds is the multiset of its
pairs of a key and a value; the order inside a bucket is lost, as taking a
value out of a vector moves the last one into its place.
-/

namespace Metaflow.Library

open scoped List

variable {K V : Type*}

/-- `Vec::swap_remove`: the last value takes the place of the removed one. -/
def swapRemove (values : List V) (index : Nat) : List V :=
  match values.getLast? with
  | none => []
  | some last => (values.set index last).dropLast

theorem set_perm_of_getElem (found : values[index]? = some value) (last : V) :
    (value :: values.set index last).Perm (last :: values) := by
  induction values generalizing index with
  | nil => simp at found
  | cons first values ih =>
    cases index with
    | zero =>
      obtain rfl : first = value := by simpa using found
      exact .swap ..
    | succ index =>
      have inRest : values[index]? = some value := by simpa using found
      calc
        value :: first :: values.set index last
          ~ first :: value :: values.set index last := .swap ..
        _ ~ first :: last :: values := (ih inRest).cons first
        _ ~ last :: first :: values := .swap ..

theorem perm_swapRemove {values : List V}
    (found : values[index]? = some value) : values.Perm (value :: swapRemove values index) := by
  obtain rfl | ⟨init, last, rfl⟩ := values.eq_nil_or_concat'
  · simp at found
  · simp only [swapRemove, List.getLast?_concat]
    by_cases atEnd : index = init.length
    · subst atEnd
      obtain rfl : last = value := by simpa using found
      simp
    · have inside : index < init.length := by
        have := (List.getElem?_eq_some_iff.mp found).1
        simp at this
        omega
      have inInit : init[index]? = some value := by rwa [List.getElem?_append_left inside] at found
      rw [List.set_append_left _ _ inside, List.dropLast_concat]
      exact (List.perm_append_singleton last init).trans (set_perm_of_getElem inInit last).symm

/-- Nothing is left if the value was the only one. -/
theorem swapRemove_eq_nil_iff {values : List V} (found : values[index]? = some value) :
    swapRemove values index = [] ↔ values.length = 1 := by
  rw [(perm_swapRemove found).length_eq, List.length_cons, ← List.length_eq_zero_iff]
  omega

/-- A map from keys to vectors of values. -/
abbrev Buckets (K V : Type*) := AList fun _ : K => List V

namespace Buckets

/-- The values of one bucket with its key. -/
def bucket (key : K) (values : List V) : Multiset (K × V) :=
  (values : Multiset V).map (Prod.mk key)

@[simp] theorem bucket_nil (key : K) : bucket key ([] : List V) = 0 := rfl

@[simp] theorem bucket_append (key : K) (values others : List V) :
    bucket key (values ++ others) = bucket key values + bucket key others := by
  rw [bucket, ← Multiset.coe_add, Multiset.map_add]
  rfl

@[simp] theorem bucket_singleton (key : K) (value : V) : bucket key [value] = {(key, value)} := rfl

variable {key : K} {buckets : Buckets K V}

theorem bucket_swapRemove {index : Nat} (found : values[index]? = some value) (key : K) :
    bucket key values = (key, value) ::ₘ bucket key (swapRemove values index) := by
  rw [bucket, Multiset.coe_eq_coe.mpr (perm_swapRemove found),
    ← Multiset.cons_coe, Multiset.map_cons]
  rfl

/-- All pairs of a key and a value in its bucket. -/
def contents (buckets : Buckets K V) : Multiset (K × V) :=
  (buckets.entries.map fun entry => bucket entry.1 entry.2).sum

@[simp] theorem contents_empty : contents (∅ : Buckets K V) = 0 := rfl

variable [DecidableEq K]

/-- A bucket and the rest of the map. -/
theorem contents_eq_of_lookup (found : buckets.lookup key = some values) :
    contents buckets = bucket key values + contents (buckets.erase key) := by
  have split := (HashMap.perm_of_dlookup found).map fun entry => bucket entry.1 entry.2
  rw [contents, split.sum_eq, List.map_cons, List.sum_cons]
  rfl

theorem contents_erase_of_lookup (absent : buckets.lookup key = none) :
    contents (buckets.erase key) = contents buckets := by
  have notKey : key ∉ buckets.entries.keys := AList.lookup_eq_none.mp absent
  exact congrArg (fun entries : List (Sigma fun _ : K => List V) =>
    (entries.map fun entry => bucket entry.1 entry.2).sum)
    (List.kerase_of_notMem_keys notKey)

theorem contents_insert (buckets : Buckets K V) (key : K) (values : List V) :
    contents (buckets.insert key values) = bucket key values + contents (buckets.erase key) := by
  rw [contents, AList.entries_insert, List.map_cons, List.sum_cons]
  rfl

theorem contents_swapRemove (found : buckets.lookup key = some values)
    (isValue : values[index]? = some value) :
    contents buckets = (key, value) ::ₘ
      contents (buckets.insert key (swapRemove values index)) := by
  rw [contents_eq_of_lookup found, contents_insert, bucket_swapRemove isValue, Multiset.cons_add]

/-- A pair is there if the bucket of its key has the value. -/
theorem mem_contents_iff :
    (key, value) ∈ contents buckets ↔
      ∃ values, buckets.lookup key = some values ∧ value ∈ values := by
  have inEntries : ∀ entries : List (Sigma fun _ : K => List V),
      (key, value) ∈ (entries.map fun entry => bucket entry.1 entry.2).sum ↔
        ∃ values, ⟨key, values⟩ ∈ entries ∧ value ∈ values := by
    intro entries
    induction entries with
    | nil => simp
    | cons entry entries ih =>
      obtain ⟨first, values⟩ := entry
      rw [List.map_cons, List.sum_cons, Multiset.mem_add, ih]
      simp only [bucket, Multiset.mem_map, Multiset.mem_coe, Prod.mk.injEq, List.mem_cons,
        Sigma.mk.injEq, or_and_right, exists_or]
      refine or_congr_left ⟨?_, ?_⟩
      · rintro ⟨_, isIn, rfl, rfl⟩
        exact ⟨values, ⟨rfl, HEq.rfl⟩, isIn⟩
      · rintro ⟨_, ⟨rfl, same⟩, isIn⟩
        exact ⟨value, eq_of_heq same ▸ isIn, rfl, rfl⟩
  rw [contents, inEntries]
  exact exists_congr fun values => and_congr_left fun _ => AList.mem_lookup_iff.symm

/-- No bucket is empty. -/
def Filled (buckets : Buckets K V) : Prop :=
  ∀ key values, buckets.lookup key = some values -> values ≠ []

theorem filled_empty : Filled (∅ : Buckets K V) := by
  intro key values found
  simp at found

/-- A bucket that is written is the only one that can become empty. -/
theorem Filled.insert_iff (filled : Filled buckets) :
    Filled (buckets.insert key values) ↔ values ≠ [] := by
  constructor
  · exact fun after => after key values (AList.lookup_insert buckets)
  · intro nonempty other found isFound
    by_cases same : other = key
    · subst same
      rw [AList.lookup_insert] at isFound
      exact Option.some.inj isFound ▸ nonempty
    · rw [AList.lookup_insert_ne same] at isFound
      exact filled other found isFound

/-- No bucket is empty exactly if every key has a value. -/
theorem filled_iff :
    Filled buckets ↔ ∀ key ∈ buckets, ∃ value, (key, value) ∈ contents buckets := by
  simp only [mem_contents_iff]
  constructor
  · intro filled key isKey
    obtain ⟨values, found⟩ := Option.isSome_iff_exists.mp (AList.lookup_isSome.mpr isKey)
    obtain ⟨value, isIn⟩ := List.exists_mem_of_ne_nil values (filled key values found)
    exact ⟨value, values, found, isIn⟩
  · rintro backed key values found rfl
    obtain ⟨value, others, again, isIn⟩ :=
      backed key (AList.lookup_isSome.mp (Option.isSome_of_eq_some found))
    rw [found] at again
    rw [← Option.some.inj again] at isIn
    cases isIn

/-- Without an empty bucket there are no more keys than values. -/
theorem Filled.length_keys_le (filled : Filled buckets) :
    buckets.keys.length ≤ (contents buckets).card := by
  have keys : (buckets.keys : Multiset K) ≤ (contents buckets).map Prod.fst := by
    refine (Multiset.le_iff_subset (Multiset.coe_nodup.mpr buckets.keys_nodup)).mpr ?_
    intro key isKey
    obtain ⟨value, isIn⟩ := filled_iff.mp filled key (AList.mem_keys.mpr isKey)
    exact Multiset.mem_map.mpr ⟨_, isIn, rfl⟩
  simpa using Multiset.card_le_card keys

variable (buckets : Buckets K V) (key : K)

theorem contents_insert_concat (values : List V) (value : V) :
    contents (buckets.insert key (values ++ [value])) =
      (key, value) ::ₘ contents (buckets.insert key values) := by
  rw [contents_insert, contents_insert, bucket_append, bucket_singleton,
    add_right_comm, add_comm _ {(key, value)}, Multiset.singleton_add]

/-- Adding a value to its bucket, which may be missing. -/
theorem contents_push (value : V) :
    contents (buckets.insert key ((buckets.lookup key).getD [] ++ [value])) =
      (key, value) ::ₘ contents buckets := by
  rw [contents_insert_concat, contents_insert]
  cases found : buckets.lookup key with
  | none => simp [contents_erase_of_lookup found]
  | some values => simp [contents_eq_of_lookup found]

end Buckets
end Metaflow.Library
