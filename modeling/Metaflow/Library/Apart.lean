import Mathlib.Data.Multiset.UnionInter

/-!
# Families of multisets without a common value

A family of multisets in which no value occurs twice, neither in one member
nor in two of them.
-/

namespace Metaflow.Library

open Function Multiset

variable {ι α : Type}

/-- No value occurs twice in a family of multisets. -/
structure Apart (family : ι -> Multiset α) : Prop where
  within : ∀ index, (family index).Nodup
  between : ∀ index other, index ≠ other -> Disjoint (family index) (family other)

namespace Apart

theorem mono (apart : Apart family) (fewer : ∀ index, smaller index ≤ family index) :
    Apart smaller where
  within index := nodup_of_le (fewer index) (apart.within index)
  between index other differ :=
    (apart.between index other differ).mono (fewer index) (fewer other)

variable [DecidableEq ι]

/-- A value that is in no member may be added to one of them. -/
theorem update_cons (apart : Apart family) (index : ι) (absent : ∀ other, value ∉ family other) :
    Apart (update family index (value ::ₘ family index)) := by
  constructor
  · refine (forall_update_iff family fun _ member => member.Nodup).mpr
      ⟨?_, fun other _ => apart.within other⟩
    exact nodup_cons.mpr ⟨absent index, apart.within index⟩
  · intro place other differ
    by_cases here : place = index
    · subst here
      rw [update_self, update_of_ne differ.symm, disjoint_cons_left]
      exact ⟨absent other, apart.between place other differ⟩
    · rw [update_of_ne here]
      by_cases there : other = index
      · subst there
        rw [update_self, disjoint_cons_right]
        exact ⟨absent place, apart.between place other differ⟩
      · rw [update_of_ne there]
        exact apart.between place other differ

theorem notMem_of_update_cons
    (apart : Apart (update family index (value ::ₘ family index))) (other : ι) :
    value ∉ family other := by
  by_cases here : other = index
  · subst here
    have nodup := apart.within other
    rw [update_self, nodup_cons] at nodup
    exact nodup.1
  · have disjoint := apart.between index other (Ne.symm here)
    rw [update_self, update_of_ne here, disjoint_cons_left] at disjoint
    exact disjoint.1

/-- A value may be added exactly if it is in no member. -/
theorem update_cons_iff (apart : Apart family) (index : ι) (value : α) :
    Apart (update family index (value ::ₘ family index)) ↔ ∀ other, value ∉ family other :=
  ⟨notMem_of_update_cons, apart.update_cons index⟩

end Apart
end Metaflow.Library
