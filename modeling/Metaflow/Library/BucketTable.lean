import Mathlib.Data.List.Sort

/-!
# Tables of lists

Items are put at the ends of lists that are numbered from zero. Read in the
order of the numbers, the lists hold what was put in, and a walk that stops
after some items has taken the first ones of that reading.
-/

namespace Metaflow.Library

open List

variable {α : Type*}

/-- The lists by their numbers. -/
abbrev BucketTable (α : Type*) := Nat -> List α

namespace BucketTable

def empty : BucketTable α := fun _ => []

/-- Put an item at the end of a list. -/
def add (table : BucketTable α) (index : Nat) (item : α) : BucketTable α :=
  Function.update table index (table index ++ [item])

/-- The items of the first lists. -/
def items (table : BucketTable α) (bound : Nat) : List α :=
  (List.range bound).flatMap table

@[simp] theorem items_empty (bound : Nat) : (empty : BucketTable α).items bound = [] :=
  flatMap_eq_nil_iff.mpr fun _ _ => rfl

variable (table : BucketTable α)

theorem items_succ (bound : Nat) : table.items (bound + 1) = table.items bound ++ table bound := by
  rw [items, range_succ, flatMap_append, flatMap_singleton]
  rfl

theorem items_add_of_le (behind : bound ≤ index) (item : α) :
    (table.add index item).items bound = table.items bound := by
  refine flatMap_congr fun other mem => ?_
  have before := mem_range.mp mem
  exact Function.update_of_ne (by omega) ..

theorem items_add_perm (inside : index < bound) (item : α) :
    ((table.add index item).items bound).Perm (table.items bound ++ [item]) := by
  induction bound with
  | zero => omega
  | succ bound ih =>
    rw [items_succ, items_succ]
    rcases Nat.lt_succ_iff_lt_or_eq.mp inside with before | rfl
    · have same : table.add index item bound = table bound := Function.update_of_ne (by omega) ..
      rw [same]
      calc
        ((table.add index item).items bound ++ table bound).Perm
            ((table.items bound ++ [item]) ++ table bound) := (ih before).append_right _
        _ = table.items bound ++ ([item] ++ table bound) := append_assoc ..
        List.Perm _ (table.items bound ++ (table bound ++ [item])) :=
          perm_append_comm.append_left _
        _ = table.items bound ++ table bound ++ [item] := (append_assoc ..).symm
    · rw [items_add_of_le table (Nat.le_refl _), append_assoc]
      refine List.Perm.of_eq (congrArg _ ?_)
      exact Function.update_self ..

/-- Take items of one list until there are enough. -/
def takeList (enough : Nat) : List α -> List α -> List α
  | taken, [] => taken
  | taken, item :: rest =>
    if enough ≤ (taken ++ [item]).length then taken ++ [item]
    else takeList enough (taken ++ [item]) rest

/-- Walk through the lists while there are not enough items. -/
def walk (table : BucketTable α) (enough : Nat) : List α -> List Nat -> List α
  | taken, [] => taken
  | taken, index :: rest =>
    if taken.length < enough then
      table.walk enough (takeList enough taken (table index)) rest
    else taken

theorem takeList_eq (fewer : taken.length < enough) (list : List α) :
    takeList enough taken list = (taken ++ list).take enough := by
  induction list generalizing taken with
  | nil => rw [takeList, append_nil, take_of_length_le (by omega)]
  | cons item rest ih =>
    have step : taken ++ item :: rest = (taken ++ [item]) ++ rest := by simp
    rw [takeList, step]
    split_ifs with full
    · have exact : (taken ++ [item]).length = enough := by
        rw [length_append, length_singleton] at full ⊢
        omega
      exact (take_left' exact).symm
    · exact ih (by omega)

theorem take_take_append (enough : Nat) (front back : List α) :
    (front.take enough ++ back).take enough = (front ++ back).take enough := by
  have room : enough - min enough front.length = enough - front.length := by omega
  rw [take_append, take_append, take_take, Nat.min_self, length_take, room]

theorem walk_eq (notMore : taken.length ≤ enough) (indices : List Nat) :
    table.walk enough taken indices = (taken ++ indices.flatMap table).take enough := by
  induction indices generalizing taken with
  | nil => rw [walk, flatMap_nil, append_nil, take_of_length_le notMore]
  | cons index rest ih =>
    rw [walk]
    split_ifs with fewer
    · rw [takeList_eq fewer, ih (length_take_le _ _),
        flatMap_cons, ← append_assoc, take_take_append]
    · rw [take_left' (by omega)]

theorem walk_range (enough bound : Nat) :
    table.walk enough [] (List.range bound) = (table.items bound).take enough :=
  (table.walk_eq (Nat.zero_le _) _).trans rfl

end BucketTable

end Metaflow.Library
