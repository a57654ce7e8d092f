import Mathlib.Data.List.Sort
import Mathlib.Data.Multiset.AddSub

/-!
# Ordered sets

A finite set kept as the ascending list of its elements, as a search tree
presents it: insertion, removal and the elements of a half-open range.
-/

namespace Metaflow.Library

open Multiset

/-- The ascending list of the elements of a finite set. -/
structure OrderedSet (α : Type*) [LinearOrder α] where
  elements : List α
  ascending : elements.Pairwise (· < ·)

namespace OrderedSet

variable {α : Type*} [LinearOrder α]

instance : Membership α (OrderedSet α) where
  mem set element := element ∈ set.elements

instance (element : α) (set : OrderedSet α) : Decidable (element ∈ set) :=
  inferInstanceAs (Decidable (element ∈ set.elements))

section

variable (set : OrderedSet α) (element : α)

theorem mem_iff :
    element ∈ set ↔ element ∈ set.elements := Iff.rfl

theorem nodup : set.elements.Nodup :=
  set.ascending.imp ne_of_lt

def empty : OrderedSet α := ⟨[], .nil⟩

@[simp] theorem not_mem_empty : element ∉ (empty : OrderedSet α) := List.not_mem_nil

end

def length (set : OrderedSet α) : Nat :=
  set.elements.length

variable {element : α} {members : Multiset α}

theorem ascending_orderedInsert (set : OrderedSet α) (absent : element ∉ set) :
    (set.elements.orderedInsert (· ≤ ·) element).Pairwise (· < ·) := by
  have sorted : (set.elements.orderedInsert (· ≤ ·) element).Pairwise
      (· ≤ ·) := (set.ascending.imp le_of_lt).orderedInsert element _
  have distinct : (set.elements.orderedInsert (· ≤ ·) element).Nodup :=
    (List.perm_orderedInsert (· ≤ ·) element set.elements).nodup_iff.mpr
      (List.nodup_cons.mpr ⟨absent, set.nodup⟩)
  exact (sorted.and distinct).imp fun ordered => lt_of_le_of_ne ordered.1 ordered.2

/-- Add an element unless it is there. -/
def insert (set : OrderedSet α) (element : α) : OrderedSet α :=
  if absent : element ∉ set then
    ⟨set.elements.orderedInsert (· ≤ ·) element,
      set.ascending_orderedInsert absent⟩
  else set

variable {set : OrderedSet α}

theorem insert_of_mem (present : element ∈ set) : set.insert element = set :=
  dif_neg (not_not_intro present)

theorem coe_insert_of_notMem (absent : element ∉ set) :
    ((set.insert element).elements : Multiset α) = element ::ₘ (set.elements : Multiset α) := by
  rw [insert, dif_pos absent]
  exact coe_eq_coe.mpr (List.perm_orderedInsert (· ≤ ·) element set.elements)

section

variable (set : OrderedSet α)

@[simp] theorem mem_insert (element other : α) :
    other ∈ set.insert element ↔ other = element ∨ other ∈ set := by
  by_cases present : element ∈ set
  · rw [insert_of_mem present]
    exact ⟨Or.inr, fun either => either.elim (fun same => same ▸ present) id⟩
  · rw [insert, dif_pos present]
    exact List.mem_orderedInsert (· ≤ ·)

/-- Drop an element if it is there. -/
def remove (set : OrderedSet α) (element : α) : OrderedSet α :=
  ⟨set.elements.erase element, set.ascending.sublist List.erase_sublist⟩

theorem coe_remove (element : α) :
    ((set.remove element).elements : Multiset α) = (set.elements : Multiset α).erase element := rfl

@[simp] theorem mem_remove (element other : α) :
    other ∈ set.remove element ↔ other ≠ element ∧ other ∈ set :=
  set.nodup.mem_erase_iff

/-- The elements from `low` up to, but not including, `high`. -/
def range (set : OrderedSet α) (low high : α) : List α :=
  set.elements.filter fun element => low ≤ element ∧ element < high

@[simp] theorem mem_range (low high element : α) :
    element ∈ set.range low high ↔ element ∈ set ∧ low ≤ element ∧ element < high := by
  simp [range, mem_iff]

theorem nodup_range (low high : α) : (set.range low high).Nodup :=
  set.nodup.filter _

end

theorem length_remove_add_one (present : element ∈ set) :
    (set.remove element).length + 1 = set.length := by
  have positive : 0 < set.elements.length := List.length_pos_of_mem present
  rw [length, length, remove, List.length_erase_of_mem present]
  omega

theorem length_insert_le (set : OrderedSet α) (element : α) :
    (set.insert element).length ≤ set.length + 1 := by
  rw [insert]
  split
  · exact (List.orderedInsert_length (· ≤ ·) set.elements element).le
  · exact Nat.le_succ _

/-- The multiset has exactly the elements of the set, each once. -/
def Tracks (set : OrderedSet α) (members : Multiset α) : Prop :=
  (∀ member ∈ members, member ∈ set) ∧ ∀ element ∈ set, members.count element = 1

/-- The set has lost a member. -/
def Short (set : OrderedSet α) (members : Multiset α) : Prop :=
  set.length < members.card

theorem tracks_iff_coe_eq : set.Tracks members ↔ (set.elements : Multiset α) = members := by
  have distinct : (set.elements : Multiset α).Nodup := coe_nodup.mpr set.nodup
  constructor
  · rintro ⟨kept, once⟩
    ext element
    by_cases present : element ∈ set
    · rw [once element present]
      exact count_eq_one_of_mem distinct present
    · rw [count_eq_zero.mpr fun mem => present (kept element mem)]
      exact count_eq_zero.mpr present
  · rintro rfl
    exact ⟨fun member mem => mem, fun element present =>
      count_eq_one_of_mem distinct present⟩

theorem Tracks.not_short (tracks : set.Tracks members) : ¬ set.Short members := by
  rw [← tracks_iff_coe_eq.mp tracks]
  exact lt_irrefl _

theorem Tracks.remove (tracks : set.Tracks (element ::ₘ members)) :
    (set.remove element).Tracks members := by
  rw [tracks_iff_coe_eq] at tracks ⊢
  rw [coe_remove, tracks, erase_cons_head]

theorem Tracks.insert (tracks : set.Tracks members) (absent : element ∉ set) :
    (set.insert element).Tracks (element ::ₘ members) := by
  rw [tracks_iff_coe_eq] at tracks ⊢
  rw [coe_insert_of_notMem absent, tracks]

/-- A member that the set has already is lost. -/
theorem Tracks.short_insert (tracks : set.Tracks members) (present : element ∈ set) :
    (set.insert element).Short (element ::ₘ members) := by
  rw [insert_of_mem present, Short, card_cons, ← tracks_iff_coe_eq.mp tracks]
  exact Nat.lt_succ_self _

theorem Tracks.insert_iff (tracks : set.Tracks members) :
    (set.insert element).Tracks (element ::ₘ members) ↔ element ∉ set :=
  ⟨fun still present => still.not_short (tracks.short_insert present), tracks.insert⟩

/-- Removals and insertions do not bring a lost member back. -/
theorem Short.remove (short : set.Short (element ::ₘ members)) (present : element ∈ set) :
    (set.remove element).Short members := by
  have shrunk := length_remove_add_one present
  rw [Short, card_cons] at short
  rw [Short]
  omega

theorem Short.insert (short : set.Short members) (element : α) :
    (set.insert element).Short (element ::ₘ members) := by
  have grown := set.length_insert_le element
  rw [Short] at short
  rw [Short, card_cons]
  omega

end OrderedSet
end Metaflow.Library
