import Mathlib.Data.List.Basic

/-!
# First in, first out, with losses

Items enter at the back of a queue and go at the front, handed on or lost. The
items that went and those still held are the items that entered, in order.
-/

namespace Metaflow.Library

variable {α : Type*}

/-- One change of a queue. -/
inductive Move (α : Type*) where
  | stay
  | enter (items : List α)
  | lose (items : List α)
  | handOn (items : List α)

/-- How an item went. -/
inductive Fate where
  | lost
  | handedOn
  deriving Repr, DecidableEq

namespace Move

/-- The queue before and after a move. -/
def Takes : Move α -> List α -> List α -> Prop
  | stay, before, after => after = before
  | enter items, before, after => after = before ++ items
  | lose items, before, after => before = items ++ after
  | handOn items, before, after => before = items ++ after

/-- The items that enter. -/
def entering : Move α -> List α
  | enter items => items
  | _ => []

/-- The items that go, with their fate. -/
def going : Move α -> List (Fate × α)
  | lose items => items.map fun item => (.lost, item)
  | handOn items => items.map fun item => (.handedOn, item)
  | _ => []

/-- The items that get lost. -/
def losing : Move α -> List α
  | lose items => items
  | _ => []

/-- One move keeps the account. -/
theorem Takes.entering_append {move : Move α} (takes : move.Takes before after) :
    before ++ move.entering = move.going.map Prod.snd ++ after := by
  cases move with
  | stay =>
    obtain rfl : after = before := takes
    simp [entering, going]
  | enter items =>
    obtain rfl : after = before ++ items := takes
    simp [entering, going]
  | lose items | handOn items =>
    obtain rfl : before = items ++ after := takes
    simp [entering, going, Function.comp_def]

end Move

/-- A run of moves from the empty queue to `held`, newest move last. -/
inductive Trace : List (Move α) -> List α -> Prop
  | nil : Trace [] []
  | snoc {moves : List (Move α)} {move : Move α} {before after : List α} :
      Trace moves before -> move.Takes before after ->
      Trace (moves ++ [move]) after

/-- Everything that entered is accounted for, in order. -/
theorem Trace.entering_eq {moves : List (Move α)} (trace : Trace moves held) :
    moves.flatMap Move.entering = (moves.flatMap Move.going).map Prod.snd ++ held := by
  induction trace with
  | nil => rfl
  | snoc _ takes ih =>
    rw [List.flatMap_append, List.flatMap_append, ih,
      List.flatMap_singleton, List.flatMap_singleton, List.map_append,
      List.append_assoc, List.append_assoc, takes.entering_append]

end Metaflow.Library
