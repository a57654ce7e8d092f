import Mathlib.Order.Interval.Finset.Nat

/-!
# Numbers missing from a set

How many numbers of an interval are not in a finite set, and how that changes
with the interval and the set.
-/

namespace Metaflow.Library

open Finset

/-- How many numbers from `first` up to `last` are not in `present`. -/
def missing (present : Finset Nat) (first last : Nat) : Nat :=
  ((Finset.Ico first last).filter fun number => number ∉ present).card

section

variable (present : Finset Nat)

@[simp] theorem missing_self (first : Nat) : missing present first first = 0 := by
  simp [missing]

theorem missing_le (first last : Nat) : missing present first last ≤ last - first :=
  (card_filter_le _ _).trans_eq (Nat.card_Ico first last)

/-- Adjacent intervals. -/
theorem missing_add (lower : first ≤ middle) (upper : middle ≤ last) :
    missing present first middle + missing present middle last = missing present first last := by
  unfold missing
  rw [← Finset.Ico_union_Ico_eq_Ico lower upper, filter_union, card_union_of_disjoint]
  apply disjoint_filter_filter
  exact Finset.Ico_disjoint_Ico_consecutive first middle last

theorem missing_succ (first : Nat) : missing present first (first + 1) =
      if first ∈ present then 0 else 1 := by
  rw [missing, Nat.Ico_succ_singleton, filter_singleton]
  split <;> simp_all

end

theorem missing_congr
    (same : ∀ number, first ≤ number -> number < last -> (number ∈ present ↔ number ∈ present')) :
    missing present first last = missing present' first last := by
  unfold missing
  congr 1
  apply filter_congr
  intro number inside
  obtain ⟨lower, upper⟩ := mem_Ico.mp inside
  rw [same number lower upper]

theorem missing_eq_zero (all : ∀ number, first ≤ number -> number < last -> number ∈ present) :
    missing present first last = 0 := by
  apply card_eq_zero.mpr
  apply filter_eq_empty_iff.mpr
  intro number inside
  obtain ⟨lower, upper⟩ := mem_Ico.mp inside
  exact not_not_intro (all number lower upper)

theorem missing_eq_length (none : ∀ number, first ≤ number -> number < last -> number ∉ present) :
    missing present first last = last - first := by
  unfold missing
  rw [filter_true_of_mem, Nat.card_Ico]
  intro number inside
  obtain ⟨lower, upper⟩ := mem_Ico.mp inside
  exact none number lower upper

end Metaflow.Library
