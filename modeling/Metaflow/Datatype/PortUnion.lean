import Mathlib.Data.List.Induction
import Metaflow.Datatype.PortSweep

/-!
# The union of the pieces

The first port of a piece belongs to a range that no bound cuts, so the pieces
have the ports of the ranges and no others, if the bounds of every range are in
order.
-/

namespace Metaflow.Datatype

/-- A range marks no other ports than its own. -/
theorem contains_of_markRange_ne (ordered : range.min ≤ range.max)
    (marked : markRange table range port ≠ .rangeNone) :
    table port ≠ .rangeNone ∨ range.Contains port := by
  have bounds := UInt16.le_iff_toNat_le.mp ordered
  rw [markRange_eq_markFrom] at marked
  by_cases single : range.min = range.max
  · rw [markFrom_single _ _ _ _ single] at marked
    by_cases isBound : port = range.max.toNat
    · exact .inr ⟨by rw [isBound]; exact bounds, Nat.le_of_eq isBound⟩
    · rw [if_neg isBound] at marked
      exact .inl marked
  · have apart : range.min.toNat ≠ range.max.toNat := fun same => single (UInt16.toNat_inj.mp same)
    have small := range.max.toNat_lt
    have next_eq : (range.min + 1).toNat = range.min.toNat + 1 := by
      rw [UInt16.toNat_add]
      exact Nat.mod_eq_of_lt (by change _ + 1 < _; omega)
    by_cases contains : range.Contains port
    · exact .inr contains
    · rw [PortRange.Contains] at contains
      rw [markFrom_of_ne _ _ _ _ single, next_eq] at marked
      simp only [if_neg (show ¬ port = range.max.toNat by omega),
        if_neg (show ¬ port = range.min.toNat by omega)] at marked
      rw [if_neg (by omega)] at marked
      exact .inl marked

theorem exists_contains_of_createPortStatusTable_ne (ordered : ∀ range ∈ raw, range.min ≤ range.max)
    (marked : createPortStatusTable raw port ≠ .rangeNone) :
    ∃ range ∈ raw, range.Contains port := by
  induction raw using List.reverseRecOn with
  | nil => exact absurd rfl marked
  | append_singleton before range ih =>
    rw [createPortStatusTable, List.foldl_append] at marked
    have isOrdered := ordered range (by simp)
    rcases contains_of_markRange_ne isOrdered marked with earlier | contains
    · obtain ⟨other, isIn, contains⟩ := ih
        (fun other isIn => ordered other (by simp [isIn])) earlier
      exact ⟨other, by simp [isIn], contains⟩
    · exact ⟨range, by simp, contains⟩

/-- The first port of every piece is marked. -/
def StartMarked (table : PortStatusTable) (pieces : List PortRange) : Prop :=
  ∀ piece ∈ pieces, table piece.min.toNat ≠ .rangeNone

theorem StartMarked.push (kept : StartMarked table pieces) (small : port < portCount)
    (marked : table port ≠ .rangeNone) (high : UInt16) :
    StartMarked table (pieces ++ [⟨.ofNat port, high⟩]) := by
  intro piece isIn
  rcases List.mem_append.mp isIn with earlier | isLast
  · exact kept piece earlier
  · obtain rfl := List.mem_singleton.mp isLast
    rw [toNat_ofNat_of_lt small]
    exact marked

section

variable (swept : Swept table bound sweep) (small : bound < portCount)
  (kept : StartMarked table sweep.portRanges)
include swept small kept

theorem StartMarked.closeBefore : StartMarked table (sweep.closeBefore table bound) := by
  unfold Sweep.closeBefore
  cases last : sweep.lastPort with
  | none => exact kept
  | some lastPort =>
    have last_le := (swept.of_lastPort last).2.1
    simp only
    split_ifs with closes
    · exact kept.push (Nat.lt_of_le_of_lt last_le small) closes.2 _
    · exact kept

theorem StartMarked.visit (visited : sweep.visit table bound = some next) :
    StartMarked table next.portRanges := by
  unfold Sweep.visit at visited
  cases status : table bound with
  | rangeNone | rangeIn =>
    rw [status] at visited
    obtain rfl := Option.some.inj visited
    exact kept
  | rangeEdge =>
    rw [status] at visited
    obtain rfl := Option.some.inj visited
    exact (StartMarked.closeBefore swept small kept).push small (by rw [status]; decide) _
  | rangeLeft =>
    rw [status] at visited
    obtain rfl := Option.some.inj visited
    exact StartMarked.closeBefore swept small kept
  | rangeRight =>
    rw [status] at visited
    cases last : sweep.lastPort with
    | none => simp [last] at visited
    | some lastPort =>
      have last_le := (swept.of_lastPort last).2.1
      simp only [last, Option.some.injEq] at visited
      subst visited
      simp only
      split_ifs with closes
      · exact kept.push (Nat.lt_of_le_of_lt last_le small) closes _
      · exact kept

end

theorem StartMarked.of_upTo (small : bound ≤ portCount)
    (ran : Sweep.upTo table bound = some sweep) : StartMarked table sweep.portRanges := by
  induction bound generalizing sweep with
  | zero =>
    obtain rfl := Option.some.inj ran
    exact fun piece isIn => absurd isIn List.not_mem_nil
  | succ bound ih =>
    rw [Sweep.upTo_succ] at ran
    obtain ⟨before, ranBefore, visited⟩ := Option.bind_eq_some_iff.mp ran
    have swept : Swept table bound before := .of_upTo (by omega) ranBefore
    exact StartMarked.visit swept (by omega) (ih (by omega) ranBefore) visited

/-- The first port of a piece belongs to a range. -/
theorem exists_contains_min_of_getPortRanges
    (ordered : ∀ range ∈ raw, range.min ≤ range.max) (cut : getPortRanges raw = some pieces)
    (isPiece : piece ∈ pieces) : ∃ range ∈ raw, range.Contains piece.min.toNat := by
  unfold getPortRanges at cut
  by_cases empty : raw = []
  · rw [if_pos empty, empty] at cut
    obtain rfl := Option.some.inj cut
    exact absurd isPiece List.not_mem_nil
  · rw [if_neg empty] at cut
    obtain ⟨sweep, ran, rfl⟩ := Option.map_eq_some_iff.mp cut
    have marked := StartMarked.of_upTo (Nat.le_refl _) ran piece isPiece
    exact exists_contains_of_createPortStatusTable_ne ordered marked

/-- `GetPortRanges` returns ascending, disjoint pieces with the ports of the
ranges, and each range contains a piece wholly or not at all. -/
theorem getPortRanges_refines {raw : List PortRange}
    (ordered : ∀ range ∈ raw, range.min ≤ range.max) :
    ∃ pieces, getPortRanges raw = some pieces ∧ (∀ piece ∈ pieces, piece.min ≤ piece.max) ∧
      pieces.Pairwise (fun lower upper => lower.max < upper.min) ∧
      (∀ port, (∃ piece ∈ pieces, piece.Contains port) ↔ ∃ range ∈ raw, range.Contains port) ∧
      ∀ piece ∈ pieces, ∀ range ∈ raw, (∀ port, piece.Contains port -> range.Contains port) ∨
        ∀ port, piece.Contains port -> ¬ range.Contains port := by
  obtain ⟨pieces, cut⟩ := Option.isSome_iff_exists.mp (getPortRanges_isSome_of_ordered ordered)
  have cuts := cuts_of_getPortRanges cut
  have inside : ∀ piece ∈ pieces, ∀ range ∈ raw, ∀ port,
      piece.Contains port -> range.Contains port ->
      ∀ other, piece.Contains other -> range.Contains other := by
    intro piece isPiece range isRange port inPiece inRange other otherIn
    obtain ⟨low, high⟩ := cuts.inside piece isPiece range isRange port inPiece inRange
    exact ⟨Nat.le_trans low otherIn.1, Nat.le_trans otherIn.2 high⟩
  refine ⟨pieces, cut, ?_, ?_, ?_, ?_⟩
  · intro piece isPiece
    exact UInt16.le_iff_toNat_le.mpr (cuts.ordered piece isPiece)
  · exact cuts.ascending.imp fun below => UInt16.lt_iff_toNat_lt.mpr below
  · intro port
    constructor
    · rintro ⟨piece, isPiece, contains⟩
      obtain ⟨range, isRange, startIn⟩ := exists_contains_min_of_getPortRanges ordered cut isPiece
      exact ⟨range, isRange, inside piece isPiece range isRange _
        ⟨Nat.le_refl _, cuts.ordered piece isPiece⟩ startIn port contains⟩
    · rintro ⟨range, isRange, contains⟩
      exact cuts.covers range isRange port contains
  · intro piece isPiece range isRange
    by_cases meets : ∃ port, piece.Contains port ∧ range.Contains port
    · obtain ⟨port, inPiece, inRange⟩ := meets
      exact .inl (inside piece isPiece range isRange port inPiece inRange)
    · exact .inr fun port inPiece inRange => meets ⟨port, inPiece, inRange⟩

/-- Two ranges that overlap. -/
theorem getPortRanges_refines_overlap :
    ∃ pieces, getPortRanges [⟨1, 5⟩, ⟨3, 9⟩] = some pieces ∧
      ∀ port, (∃ piece ∈ pieces, piece.Contains port) ↔
        ∃ range ∈ [(⟨1, 5⟩ : PortRange), ⟨3, 9⟩], range.Contains port := by
  obtain ⟨pieces, cut, _, _, union, _⟩ := @getPortRanges_refines [⟨1, 5⟩, ⟨3, 9⟩] (by decide)
  exact ⟨pieces, cut, union⟩

end Metaflow.Datatype
