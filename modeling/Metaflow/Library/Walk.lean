import Mathlib.Data.Fintype.Pigeonhole

/-!
# Walks

The positions that a partial function leads to from a start. A walk over
finitely many positions ends exactly if it does not return to one, and then
within as many steps as there are positions.
-/

namespace Metaflow.Library

section Walk

variable {α : Type} {next : α -> Option α} {start : α}

/-- Where a number of steps lead. -/
def walk (next : α -> Option α) (start : α) : Nat -> Option α
  | 0 => some start
  | steps + 1 => (walk next start steps).bind next

/-- No position is reached twice. -/
def NeverReturns (next : α -> Option α) (start : α) : Prop :=
  ∀ first later position, first < later -> walk next start first = some position ->
    walk next start later ≠ some position

@[simp] theorem walk_zero : walk next start 0 = some start := rfl

theorem walk_succ (reached : walk next start steps = some position) :
    walk next start (steps + 1) = next position := by
  rw [walk, reached]
  rfl

theorem walk_add (before after : Nat) : walk next start (before + after) =
      (walk next start before).bind fun middle => walk next middle after := by
  induction after with
  | zero => simp
  | succ after ih =>
    rw [← Nat.add_assoc, walk, ih]
    cases walk next start before <;> rfl

/-- A step behind another is the rest of the walk from there. -/
theorem walk_succ_of_next (isNext : next start = some second) (steps : Nat) :
    walk next start (steps + 1) = walk next second steps := by
  rw [Nat.add_comm, walk_add, walk_succ walk_zero, isNext]
  rfl

theorem walk_succ_of_end (ends : next start = none) (steps : Nat) :
    walk next start (steps + 1) = none := by
  rw [Nat.add_comm, walk_add, walk_succ walk_zero, ends]
  rfl

theorem walk_eq_none_of_le (ended : walk next start steps = none) (isLater : steps ≤ later) :
    walk next start later = none := by
  obtain ⟨more, rfl⟩ := Nat.exists_eq_add_of_le isLater
  rw [walk_add, ended]
  rfl

/-- A walk that comes back to its start does so again and again. -/
theorem walk_mul_eq_start (returns : walk next start period = some start) (rounds : Nat) :
    walk next start (period * rounds) = some start := by
  induction rounds with
  | zero => rfl
  | succ rounds ih =>
    rw [Nat.mul_succ, walk_add, ih]
    exact returns

theorem neverReturns_of_ended (ended : walk next start steps = none) : NeverReturns next start := by
  intro first later position before isFirst isLater
  obtain ⟨period, rfl⟩ := Nat.exists_eq_add_of_lt before
  have returns : walk next position (period + 1) = some position := by
    rwa [Nat.add_assoc, walk_add, isFirst] at isLater
  have again : walk next start (first + (period + 1) * steps) = some position := by
    rw [walk_add, isFirst]
    exact walk_mul_eq_start returns steps
  have enough : steps ≤ first + (period + 1) * steps := by
    rw [Nat.add_mul]
    omega
  rw [walk_eq_none_of_le ended enough] at again
  cases again

theorem last_le (reached : walk next start steps = some position) (ends : next position = none)
    (goesOn : walk next start later ≠ none) : later ≤ steps := by
  by_contra behind
  refine goesOn (walk_eq_none_of_le ?_ (Nat.lt_of_not_le behind))
  rw [walk_succ reached]
  exact ends

end Walk

section Bounded

variable {next : Nat -> Option Nat} {start bound : Nat}

variable (startLt : start < bound)
  (stays : ∀ position later, next position = some later -> later < bound)
include startLt stays

theorem lt_of_walk (reached : walk next start steps = some position) : position < bound := by
  cases steps with
  | zero =>
    cases reached
    exact startLt
  | succ steps =>
    obtain ⟨before, -, isNext⟩ := Option.bind_eq_some_iff.mp reached
    exact stays before position isNext

/-- A walk that stays below a bound and does not return ends within it. -/
theorem walk_eq_none_of_neverReturns (neverReturns : NeverReturns next start) :
    walk next start bound = none := by
  by_contra goesOn
  have reached : ∀ steps : Fin (bound + 1), ∃ position, walk next start steps = some position := by
    intro steps
    rw [← Option.ne_none_iff_exists']
    intro ended
    exact goesOn (walk_eq_none_of_le ended (Nat.le_of_lt_succ steps.isLt))
  choose position isPosition using reached
  let place : Fin (bound + 1) -> Fin bound := fun steps =>
    ⟨position steps, lt_of_walk startLt stays (isPosition steps)⟩
  obtain ⟨first, later, differ, same⟩ := Fintype.exists_ne_map_eq_of_card_lt place (by simp)
  have samePosition : position first = position later := congrArg Fin.val same
  rcases Nat.lt_or_gt_of_ne (fun equal => differ (Fin.ext equal)) with
    before | before
  · refine neverReturns _ _ _ before (isPosition first) ?_
    rw [samePosition]
    exact isPosition later
  · refine neverReturns _ _ _ before (isPosition later) ?_
    rw [← samePosition]
    exact isPosition first

end Bounded

end Metaflow.Library
