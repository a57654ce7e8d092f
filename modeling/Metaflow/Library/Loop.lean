import Mathlib.Data.Option.Basic

/-!
# Loops that may not end

`loop body fuel` repeats `body` until it answers `none`; out of fuel, the loop
answers `none`. What a loop leaves behind and whether it ends are separate
rules.
-/

namespace Metaflow.Library

variable {σ : Type*}

/-- Repeat `body` while it has a next state, at most `fuel` times. -/
def loop (body : σ -> Option σ) : Nat -> σ -> Option σ
  | 0, _ => none
  | fuel + 1, state =>
    match body state with
    | none => some state
    | some next => loop body fuel next

variable {invariant : σ -> Prop}

theorem loop_keeps
    (roundKeeps : ∀ state next, invariant state -> body state = some next -> invariant next)
    (initially : invariant state) (ended : loop body fuel state = some final) :
    invariant final ∧ body final = none := by
  induction fuel generalizing state with
  | zero => simp [loop] at ended
  | succ fuel ih =>
    cases next : body state with
    | none =>
      obtain rfl : state = final := by simpa [loop, next] using ended
      exact ⟨initially, next⟩
    | some after =>
      exact ih (roundKeeps state after initially next) (by simpa [loop, next] using ended)

/-- A loop ends if every round lowers a rank. -/
theorem loop_isSome_of_rank (rank : σ -> Nat)
    (roundLowers : ∀ state next, invariant state -> body state = some next ->
      invariant next ∧ rank next < rank state)
    (initially : invariant state) (enough : rank state < fuel) : (loop body fuel state).isSome := by
  induction fuel generalizing state with
  | zero => exact absurd enough (Nat.not_lt_zero _)
  | succ fuel ih =>
    cases next : body state with
    | none => simp [loop, next]
    | some after =>
      obtain ⟨stillHolds, lower⟩ := roundLowers state after initially next
      have ends := ih stillHolds (by omega)
      simpa [loop, next] using ends

/-- A loop whose rounds all lead to another round does not end. -/
theorem loop_eq_none
    (goesOn : ∀ state, invariant state -> ∃ next, body state = some next ∧ invariant next)
    (initially : invariant state) (fuel : Nat) : loop body fuel state = none := by
  induction fuel generalizing state with
  | zero => rfl
  | succ fuel ih =>
    obtain ⟨next, isNext, stillHolds⟩ := goesOn state initially
    simpa [loop, isNext] using ih stillHolds

end Metaflow.Library
