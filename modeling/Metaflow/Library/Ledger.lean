import Mathlib.Algebra.BigOperators.Group.Multiset.Basic
import Mathlib.Tactic.Abel

/-!
# Ledgers of gathered records

A record opens an accumulator or joins one, and each accumulator is sent at some
time. Whatever the order of the moves, the records are divided among the
accumulators.
-/

namespace Metaflow.Library

open Multiset

variable {R A E : Type*}

/-- The records are divided into groups, one for each accumulator. -/
def Covers (gathers : A -> List R -> Prop) (accumulators : Multiset A)
    (records : Multiset R) : Prop :=
  ∃ groups : Multiset (A × List R), groups.map Prod.fst = accumulators ∧
    (∀ group ∈ groups, gathers group.1 group.2) ∧
    (groups.map fun group => (group.2 : Multiset R)).sum = records

namespace Covers

variable {gathers : A -> List R -> Prop}

theorem zero : Covers gathers 0 0 :=
  ⟨0, by simp⟩

section

variable {accumulators : Multiset A} {records : Multiset R}
  (covers : Covers gathers accumulators records)
include covers

theorem cons (isGroup : gathers accumulator group) :
    Covers gathers (accumulator ::ₘ accumulators) (group + records) := by
  obtain ⟨groups, rfl, areGroups, rfl⟩ := covers
  refine ⟨(accumulator, group) ::ₘ groups, by simp, ?_, by simp⟩
  intro other isIn
  rcases mem_cons.mp isIn with rfl | isIn
  · exact isGroup
  · exact areGroups other isIn

theorem mono
    (implies : ∀ accumulator group, gathers accumulator group -> weaker accumulator group) :
    Covers weaker accumulators records := by
  obtain ⟨groups, same, areGroups, sum_eq⟩ := covers
  exact ⟨groups, same, fun group isIn =>
    implies _ _ (areGroups group isIn), sum_eq⟩

omit covers in
/-- One accumulator and its group. -/
theorem split (covers : Covers gathers (accumulator ::ₘ accumulators) records) :
    ∃ group rest, gathers accumulator group ∧
      Covers gathers accumulators rest ∧ records = group + rest := by
  classical
  obtain ⟨groups, same, areGroups, rfl⟩ := covers
  obtain ⟨pair, isIn, rfl, rest⟩ := (map_eq_cons _ _ _ _).mpr same
  refine ⟨pair.2, _, areGroups pair isIn, ⟨groups.erase pair, rest, ?_, rfl⟩, ?_⟩
  · intro other isOther
    exact areGroups other (mem_of_mem_erase isOther)
  · rw [← sum_cons, ← map_cons (fun group : A × List R => (group.2 : Multiset R)),
      cons_erase isIn]

/-- What accumulators and records have in common selects whole groups. -/
theorem filter (selects : A -> Prop) (selected : R -> Prop)
    [DecidablePred selects] [DecidablePred selected]
    (agree : ∀ accumulator group, gathers accumulator group ->
      ∀ record ∈ group, (selected record ↔ selects accumulator)) :
    Covers gathers (accumulators.filter selects) (records.filter selected) := by
  obtain ⟨groups, rfl, areGroups, rfl⟩ := covers
  induction groups using Multiset.induction_on with
  | empty => exact zero
  | cons group groups ih =>
    have isGroup := areGroups group (mem_cons_self _ _)
    have rest := ih fun other isIn =>
      areGroups other (mem_cons_of_mem isIn)
    have common := agree group.1 group.2 isGroup
    rw [map_cons, map_cons, sum_cons, filter_add]
    by_cases isSelected : selects group.1
    · rw [filter_cons_of_pos _ isSelected, filter_eq_self.mpr fun record isIn =>
          (common record isIn).mpr isSelected]
      exact rest.cons isGroup
    · rw [filter_cons_of_neg _ isSelected, filter_eq_nil.mpr fun record isIn holds =>
          isSelected ((common record isIn).mp holds), zero_add]
      exact rest

/-- A count that an accumulator has as the sum over its group is conserved. -/
theorem sum_eq {M : Type*} [AddCommMonoid M] (count : A -> M) (countRecord : R -> M)
    (agree : ∀ accumulator group, gathers accumulator group ->
      count accumulator = (group.map countRecord).sum) :
    (accumulators.map count).sum = (records.map countRecord).sum := by
  obtain ⟨groups, rfl, areGroups, rfl⟩ := covers
  induction groups using Multiset.induction_on with
  | empty => simp
  | cons group groups ih =>
    have rest := ih fun other isIn =>
      areGroups other (mem_cons_of_mem isIn)
    rw [map_cons, map_cons, sum_cons, map_cons, sum_cons, Multiset.map_add, sum_add, rest,
      agree _ _ (areGroups group (mem_cons_self _ _))]
    simp

end

end Covers

/-- The accumulators that are held, and what was sent. -/
structure Ledger (A E : Type*) where
  held : Multiset A
  sent : Multiset E

/-- Which accumulator a record opens, which ones it may join and with what
result, and what is sent. -/
structure Gathering (R A E : Type*) where
  opens : R -> A
  joins : A -> R -> Prop
  merge : A -> R -> A
  sends : A -> E -> Prop

namespace Gathering

/-- The moves with some records. -/
inductive Moves (gathering : Gathering R A E) : Ledger A E -> List R -> Ledger A E -> Prop
  | refl {ledger : Ledger A E} : Moves gathering ledger [] ledger
  | opening
      {before : Ledger A E}
      {records : List R}
      {held : Multiset A}
      {sent : Multiset E}
      (moves : Moves gathering before records ⟨held, sent⟩)
      (record : R) :
      Moves gathering before (records ++ [record]) ⟨gathering.opens record ::ₘ held, sent⟩
  | joining
      {before : Ledger A E}
      {records : List R}
      {accumulator : A}
      {held : Multiset A}
      {sent : Multiset E}
      {record : R}
      (moves : Moves gathering before records ⟨accumulator ::ₘ held, sent⟩)
      (joined : gathering.joins accumulator record) :
      Moves gathering before (records ++ [record])
        ⟨gathering.merge accumulator record ::ₘ held, sent⟩
  | sending
      {before : Ledger A E}
      {records : List R}
      {accumulator : A}
      {held : Multiset A}
      {sent : Multiset E}
      {message : E}
      (moves : Moves gathering before records ⟨accumulator ::ₘ held, sent⟩)
      (isSent : gathering.sends accumulator message) :
      Moves gathering before records ⟨held, message ::ₘ sent⟩

/-- An accumulator that a record opened and others joined, in this order. -/
inductive Gathers (gathering : Gathering R A E) : A -> List R -> Prop
  | opening (record : R) :
      Gathers gathering (gathering.opens record) [record]
  | joining
      {accumulator : A}
      {records : List R}
      {record : R}
      (gathers : Gathers gathering accumulator records)
      (joined : gathering.joins accumulator record) :
      Gathers gathering (gathering.merge accumulator record) (records ++ [record])

/-- A message was made of an accumulator of some records. -/
def Sent (gathering : Gathering R A E) (message : E) (records : List R) : Prop :=
  ∃ accumulator, gathering.sends accumulator message ∧ gathering.Gathers accumulator records

variable {gathering : Gathering R A E}

theorem Moves.trans (first : gathering.Moves before records middle)
    (second : gathering.Moves middle more after) :
    gathering.Moves before (records ++ more) after := by
  induction second with
  | refl => rwa [List.append_nil]
  | opening _ record ih =>
    rw [← List.append_assoc]
    exact .opening ih record
  | joining _ joined ih =>
    rw [← List.append_assoc]
    exact .joining ih joined
  | sending _ isSent ih => exact .sending ih isSent

/-- The records are divided among the accumulators that are held and those
that were sent. -/
def Balanced (gathering : Gathering R A E) (ledger : Ledger A E) (records : Multiset R) : Prop :=
  ∃ heldRecords sentRecords, Covers gathering.Gathers ledger.held heldRecords ∧
    Covers gathering.Sent ledger.sent sentRecords ∧
    heldRecords + sentRecords = records

theorem balanced_empty : gathering.Balanced (⟨0, 0⟩ : Ledger A E) 0 :=
  ⟨0, 0, Covers.zero, Covers.zero, rfl⟩

theorem Moves.balanced (moves : gathering.Moves before records after)
    (balanced : gathering.Balanced before earlier) :
    gathering.Balanced after (earlier + records) := by
  induction moves with
  | refl => simpa using balanced
  | opening _ record ih =>
    obtain ⟨heldRecords, sentRecords, held, sent, same⟩ := ih
    refine ⟨_, sentRecords, held.cons (.opening record), sent, ?_⟩
    rw [add_assoc, same, ← coe_add, add_comm, add_assoc]
  | joining _ joined ih =>
    obtain ⟨heldRecords, sentRecords, held, sent, same⟩ := ih
    obtain ⟨group, rest, isGroup, others, rfl⟩ := held.split
    refine ⟨_, sentRecords, others.cons (isGroup.joining joined), sent, ?_⟩
    rw [← coe_add, ← coe_add, ← add_assoc, ← same]
    abel
  | sending _ isSent ih =>
    obtain ⟨heldRecords, sentRecords, held, sent, same⟩ := ih
    obtain ⟨group, rest, isGroup, others, rfl⟩ := held.split
    refine ⟨rest, _, others, sent.cons ⟨_, isSent, isGroup⟩, ?_⟩
    rw [← same]
    abel

/-- When nothing is held, the records are divided among what was sent. -/
theorem Balanced.covers_sent (balanced : gathering.Balanced ⟨0, sent⟩ records) :
    Covers gathering.Sent sent records := by
  obtain ⟨heldRecords, sentRecords, held, covers, rfl⟩ := balanced
  obtain ⟨groups, isZero, _, rfl⟩ := held
  obtain rfl := Multiset.map_eq_zero.mp isZero
  simpa using covers

end Gathering
end Metaflow.Library
