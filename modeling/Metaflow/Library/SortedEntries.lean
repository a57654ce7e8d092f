import Mathlib.Order.Lattice

/-!
# Entries in the order of their keys

Lists of keys and values whose keys ascend, and the binary search for a key: it
finds the entry of the key or the place between the smaller and the larger
keys.
-/

namespace Metaflow.Library

open List

variable {α β : Type} [LinearOrder α]

def Ascending (entries : List (α × β)) : Prop :=
  entries.Pairwise (·.1 < ·.1)

/-- The place of a key, or the place where it is to be inserted. -/
def binarySearch (entries : List (α × β)) (key : α) : Except Nat Nat :=
  let place := entries.countP (·.1 < key)
  if entries[place]?.any (·.1 = key) then .ok place else .error place

/-- Ascending lists on the two sides of a key. -/
structure Around (key : α) (lower upper : List (α × β)) : Prop where
  ascendingLower : Ascending lower
  ascendingUpper : Ascending upper
  below : ∀ entry ∈ lower, entry.1 < key
  above : ∀ entry ∈ upper, key < entry.1

namespace Around

variable {key : α} {lower upper : List (α × β)} (around : Around key lower upper)

include around

/-- An entry of the key goes between the two lists. -/
theorem ascending_insert (value : β) : Ascending (lower ++ (key, value) :: upper) := by
  refine pairwise_append.mpr ⟨around.ascendingLower,
    pairwise_cons.mpr ⟨around.above, around.ascendingUpper⟩, ?_⟩
  intro smaller isLower larger isUpper
  rcases mem_cons.mp isUpper with rfl | isUpper
  · exact around.below smaller isLower
  · exact (around.below smaller isLower).trans (around.above larger isUpper)

theorem ascending_append : Ascending (lower ++ upper) := by
  refine pairwise_append.mpr ⟨around.ascendingLower, around.ascendingUpper, ?_⟩
  intro smaller isLower larger isUpper
  exact (around.below smaller isLower).trans (around.above larger isUpper)

theorem binarySearch_eq (found : Option β) :
    binarySearch (lower ++ (found.toList.map (key, ·) ++ upper)) key =
      if found.isSome then .ok lower.length else .error lower.length := by
  have allBelow : lower.countP (·.1 < key) = lower.length := by
    simpa [countP_eq_length] using fun _ _ isLower => around.below _ isLower
  have noneBelow : upper.countP (·.1 < key) = 0 := by
    simpa [countP_eq_zero] using fun _ _ isUpper => (around.above _ isUpper).le
  have notKey : (lower ++ upper)[lower.length]?.any (·.1 = key) = false := by
    cases upper with
    | nil => simp
    | cons larger rest => simpa using (around.above larger (by simp)).ne'
  cases found with
  | none => simp [binarySearch, countP_append, allBelow, noneBelow, notKey]
  | some value => simp [binarySearch, countP_append, allBelow, noneBelow]

end Around

/-- A key has an entry in an ascending list or a place between two entries. -/
theorem Ascending.exists_around (ascending : Ascending entries) (key : α) :
    ∃ lower found upper, Around key lower upper ∧
      entries = lower ++ ((found : Option β).toList.map (key, ·) ++ upper) := by
  induction entries with
  | nil => exact ⟨[], none, [], ⟨.nil, .nil, by simp, by simp⟩, rfl⟩
  | cons first rest ih =>
    obtain ⟨isLeast, ascending⟩ := pairwise_cons.mp ascending
    rcases lt_trichotomy first.1 key with isBelow | rfl | isAbove
    · obtain ⟨lower, found, upper, around, rfl⟩ := ih ascending
      refine ⟨first :: lower, found, upper, ⟨?_, around.ascendingUpper, ?_, around.above⟩, rfl⟩
      · refine pairwise_cons.mpr ⟨fun entry isLower => ?_, around.ascendingLower⟩
        exact isLeast entry (mem_append_left _ isLower)
      · exact forall_mem_cons.mpr ⟨isBelow, around.below⟩
    · exact ⟨[], some first.2, rest, ⟨.nil, ascending, by simp, isLeast⟩, rfl⟩
    · have allAbove : ∀ entry ∈ first :: rest, key < entry.1 :=
        forall_mem_cons.mpr ⟨isAbove, fun entry isRest => isAbove.trans (isLeast entry isRest)⟩
      exact ⟨[], none, first :: rest,
        ⟨.nil, pairwise_cons.mpr ⟨isLeast, ascending⟩, by simp, allAbove⟩, rfl⟩

end Metaflow.Library
