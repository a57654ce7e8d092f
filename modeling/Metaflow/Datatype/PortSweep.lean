import Metaflow.Datatype.PortRange

/-!
# The pieces of a list of port ranges

The sweep emits ascending, disjoint pieces that no bound cuts and that cover
every port of every range, in whatever order the bounds of a range are.
-/

namespace Metaflow.Datatype

open Option

/-- No bound of a range lies strictly inside the piece. -/
structure Uncut (table : PortStatusTable) (piece : PortRange) : Prop where
  ordered : piece.min.toNat ≤ piece.max.toNat
  noStart : ∀ port, piece.min.toNat < port -> port ≤ piece.max.toNat -> ¬ (table port).Starts
  noEnd : ∀ port, piece.min.toNat ≤ port -> port < piece.max.toNat -> ¬ (table port).Ends

/-- The port lies between a lower and an upper bound with no unmarked port
between them. -/
def Spanned (table : PortStatusTable) (port : Nat) : Prop :=
  ∃ first last, first ≤ port ∧ port ≤ last ∧ last < portCount ∧
    (table first).Starts ∧ (table last).Ends ∧
      ∀ between, first ≤ between -> between ≤ last -> table between ≠ .rangeNone

/-- The pieces for the ports below a limit. -/
structure Pieces (table : PortStatusTable) (limit : Nat) (pieces : List PortRange) : Prop where
  ascending : pieces.Pairwise fun lower upper =>
    lower.max.toNat < upper.min.toNat
  below : ∀ piece ∈ pieces, piece.max.toNat < limit
  uncut : ∀ piece ∈ pieces, Uncut table piece
  covers : ∀ port < limit, Spanned table port -> ∃ piece ∈ pieces, piece.Contains port

theorem Pieces.nil (table : PortStatusTable) : Pieces table 0 [] := by
  constructor <;> simp

theorem Pieces.push (inv : Pieces table limit pieces)
    (uncut : Uncut table piece) (starts : piece.min.toNat = limit) :
    Pieces table (piece.max.toNat + 1) (pieces ++ [piece]) := by
  have ordered := uncut.ordered
  constructor
  · rw [List.pairwise_append]
    refine ⟨inv.ascending, List.pairwise_singleton _ _, ?_⟩
    intro lower mem upper last
    rw [List.mem_singleton.mp last, starts]
    exact inv.below lower mem
  · rw [List.forall_mem_append, List.forall_mem_singleton]
    refine ⟨fun other mem => ?_, Nat.lt_succ_self _⟩
    have := inv.below other mem
    omega
  · rw [List.forall_mem_append, List.forall_mem_singleton]
    exact ⟨inv.uncut, uncut⟩
  · intro port bounded spanned
    by_cases before : port < limit
    · obtain ⟨other, mem, contains⟩ := inv.covers port before spanned
      exact ⟨other, List.mem_append_left _ mem, contains⟩
    · exact ⟨piece, by simp, by omega, by omega⟩

/-- Ports behind the limit that no range spans need no piece. -/
theorem Pieces.skip (inv : Pieces table limit pieces) (later : limit ≤ limit')
    (gap : ∀ port, limit ≤ port -> port < limit' -> ¬ Spanned table port) :
    Pieces table limit' pieces := by
  refine ⟨inv.ascending, fun piece mem => ?_, inv.uncut, ?_⟩
  · have := inv.below piece mem
    omega
  · intro port bounded spanned
    by_cases before : port < limit
    · exact inv.covers port before spanned
    · exact absurd spanned (gap port (by omega) bounded)

/-- Behind an unmarked port nothing is spanned before the next lower bound. -/
theorem not_spanned_of_unmarked (unmarked : table first = .rangeNone)
    (noStart : ∀ port, first < port -> port ≤ last -> ¬ (table port).Starts)
    (above : first ≤ port) (below : port ≤ last) : ¬ Spanned table port := by
  rintro ⟨low, high, lowLe, leHigh, -, starts, -, marked⟩
  by_cases early : low ≤ first
  · exact marked first early (by omega) unmarked
  · exact noStart low (by omega) (by omega) starts

/-- The piece between two neighbouring marks, emitted unless its first port
is unmarked. -/
theorem Pieces.close (inv : Pieces table limit pieces)
    (starts : low.toNat = limit) (uncut : Uncut table ⟨low, high⟩) : Pieces table (high.toNat + 1)
      (if table limit ≠ .rangeNone then pieces ++ [⟨low, high⟩] else pieces) := by
  have ordered : low.toNat ≤ high.toNat := uncut.ordered
  by_cases unmarked : table limit = .rangeNone
  · rw [if_neg (not_not_intro unmarked)]
    exact inv.skip (by omega) fun port above below =>
      not_spanned_of_unmarked unmarked (starts ▸ uncut.noStart) above (Nat.le_of_lt_succ below)
  · rw [if_pos unmarked]
    exact inv.push uncut starts

/-- What holds after the sweep has visited the ports below a bound. -/
structure Swept (table : PortStatusTable) (bound : Nat) (sweep : Sweep) : Prop where
  pieces : Pieces table (sweep.lastPort.getD 0) sweep.portRanges
  last_le : sweep.lastPort.getD 0 ≤ bound
  starts_le : ∀ port < bound, (table port).Starts -> ∃ last ∈ sweep.lastPort, port ≤ last
  ends_lt : ∀ port < bound, (table port).Ends -> ∃ last ∈ sweep.lastPort, port < last
  opened : ∀ last ∈ sweep.lastPort, ∃ port < bound, (table port).Starts

theorem toNat_ofNat_of_lt (small : port < portCount) : (UInt16.ofNat port).toNat = port :=
  UInt16.toNat_ofNat_of_lt small

theorem toNat_pred {port : UInt16} (positive : 0 < port.toNat) :
    (port - 1).toNat = port.toNat - 1 :=
  UInt16.toNat_sub_of_le _ _ (UInt16.le_iff_toNat_le.mpr positive)

theorem toNat_ofNat_pred (positive : 0 < port) (small : port < portCount) :
    (UInt16.ofNat port - 1).toNat = port - 1 := by
  have isPort := toNat_ofNat_of_lt small
  rw [toNat_pred (by rwa [isPort]), isPort]

theorem Swept.start (table : PortStatusTable) : Swept table 0 ⟨none, []⟩ where
  pieces := Pieces.nil table
  last_le := Nat.le_refl 0
  starts_le := by simp
  ends_lt := by simp
  opened := by simp

section

variable (inv : Swept table bound sweep)
include inv

/-- Between the last cut and the bound there is no bound of a range. -/
theorem Swept.of_lastPort (last : sweep.lastPort = some lastPort) :
    Pieces table lastPort sweep.portRanges ∧ lastPort ≤ bound ∧
      (∀ port, lastPort < port -> port < bound -> ¬ (table port).Starts) ∧
      ∀ port, lastPort ≤ port -> port < bound -> ¬ (table port).Ends := by
  have pieces := inv.pieces
  have last_le := inv.last_le
  have starts_le := inv.starts_le
  have ends_lt := inv.ends_lt
  simp only [last, getD_some, mem_some_iff, exists_eq_left'] at pieces last_le starts_le ends_lt
  refine ⟨pieces, last_le, fun port above below starts => ?_, fun port above below ends => ?_⟩
  · have := starts_le port below starts
    omega
  · have := ends_lt port below ends
    omega

/-- Before a lower bound the sweep closes the piece of the ports before. -/
theorem Swept.closeBefore (small : bound < portCount) :
    Pieces table bound (sweep.closeBefore table bound) := by
  unfold Sweep.closeBefore
  cases last : sweep.lastPort with
  | none =>
    have pieces := inv.pieces
    rw [last, getD_none] at pieces
    refine pieces.skip (Nat.zero_le _) fun port _ below => ?_
    rintro ⟨low, -, lowLe, -, -, starts, -⟩
    simpa [last] using inv.starts_le low (by omega) starts
  | some lastPort =>
    obtain ⟨pieces, last_le, noStart, noEnd⟩ := inv.of_lastPort last
    by_cases same : lastPort = bound
    · simpa [same] using same ▸ pieces
    · have lastSmall : lastPort < portCount := by omega
      have piece : Uncut table ⟨.ofNat lastPort, .ofNat bound - 1⟩ := by
        constructor <;>
          simp only [toNat_ofNat_of_lt lastSmall, toNat_ofNat_pred (by omega : 0 < bound) small]
        · omega
        · exact fun port above below => noStart port above (by omega)
        · exact fun port above below => noEnd port above (by omega)
      have closed := pieces.close (toNat_ofNat_of_lt lastSmall) piece
      rw [toNat_ofNat_pred (by omega) small, Nat.sub_add_cancel (by omega)] at closed
      simpa only [same, ne_eq, not_false_eq_true, true_and] using closed

/-- An upper bound closes the piece that ends there. -/
theorem Swept.closeAt (small : bound < portCount)
    (last : sweep.lastPort = some lastPort) (isRight : table bound = .rangeRight) :
    Pieces table (bound + 1) (if table lastPort ≠ .rangeNone then
          sweep.portRanges ++ [⟨.ofNat lastPort, .ofNat bound⟩] else sweep.portRanges) := by
  obtain ⟨pieces, last_le, noStart, noEnd⟩ := inv.of_lastPort last
  have lastSmall : lastPort < portCount := by omega
  have piece : Uncut table ⟨.ofNat lastPort, .ofNat bound⟩ := by
    constructor <;>
      simp only [toNat_ofNat_of_lt lastSmall, toNat_ofNat_of_lt small]
    · exact last_le
    · intro port above below starts
      by_cases atBound : port = bound
      · rw [atBound, isRight] at starts
        exact absurd starts (by decide)
      · exact noStart port above (by omega) starts
    · exact fun port above below => noEnd port above below
  have closed := pieces.close (toNat_ofNat_of_lt lastSmall) piece
  rwa [toNat_ofNat_of_lt small] at closed

theorem Swept.pass (noStart : ¬ (table bound).Starts) (noEnd : ¬ (table bound).Ends) :
    Swept table (bound + 1) sweep where
  pieces := inv.pieces
  last_le := Nat.le_succ_of_le inv.last_le
  starts_le := Nat.forall_lt_succ_right.mpr ⟨inv.starts_le, fun starts => absurd starts noStart⟩
  ends_lt := Nat.forall_lt_succ_right.mpr ⟨inv.ends_lt, fun ends => absurd ends noEnd⟩
  opened := by
    intro last isLast
    obtain ⟨port, below, starts⟩ := inv.opened last isLast
    exact ⟨port, Nat.lt_succ_of_lt below, starts⟩

end

variable {pieces : List PortRange}

/-- Behind an upper bound the next piece starts at the port after it. -/
theorem Swept.of_pieces_succ (inv : Pieces table (bound + 1) pieces)
    (opened : ∃ port < bound + 1, (table port).Starts) :
    Swept table (bound + 1) ⟨some (bound + 1), pieces⟩ where
  pieces := inv
  last_le := Nat.le_refl _
  starts_le := fun _ below _ => ⟨bound + 1, rfl, Nat.le_of_lt below⟩
  ends_lt := fun _ below _ => ⟨bound + 1, rfl, below⟩
  opened := fun _ _ => opened

theorem Swept.visit (inv : Swept table bound sweep) (small : bound < portCount)
    (visited : sweep.visit table bound = some next) : Swept table (bound + 1) next := by
  unfold Sweep.visit at visited
  cases status : table bound with
  | rangeNone | rangeIn =>
    rw [status] at visited
    obtain rfl := Option.some.inj visited
    exact inv.pass (by rw [status]; decide) (by rw [status]; decide)
  | rangeEdge =>
    rw [status] at visited
    obtain rfl := Option.some.inj visited
    have single : Uncut table ⟨.ofNat bound, .ofNat bound⟩ :=
      ⟨Nat.le_refl _, fun _ above below => absurd above (by simpa using below),
        fun _ above below => absurd below (by simpa using above)⟩
    have pushed := (inv.closeBefore small).push single (toNat_ofNat_of_lt small)
    rw [toNat_ofNat_of_lt small] at pushed
    exact .of_pieces_succ pushed ⟨bound, Nat.lt_succ_self _, by rw [status]; decide⟩
  | rangeLeft =>
    rw [status] at visited
    obtain rfl := Option.some.inj visited
    refine ⟨inv.closeBefore small, Nat.le_succ _, ?_, ?_, ?_⟩
    · exact fun port below _ => ⟨bound, rfl, Nat.le_of_lt_succ below⟩
    · refine Nat.forall_lt_succ_right.mpr ⟨fun port before _ => ⟨bound, rfl, before⟩, ?_⟩
      exact fun ends => absurd ends (by rw [status]; decide)
    · exact fun _ _ => ⟨bound, Nat.lt_succ_self _, by rw [status]; decide⟩
  | rangeRight =>
    rw [status] at visited
    cases last : sweep.lastPort with
    | none => simp [last] at visited
    | some lastPort =>
      simp only [last, Option.some.injEq] at visited
      subst visited
      obtain ⟨port, below, starts⟩ := inv.opened lastPort last
      exact .of_pieces_succ (inv.closeAt small last status) ⟨port, Nat.lt_succ_of_lt below, starts⟩

/-- The sweep panics exactly at an upper bound before all lower bounds. -/
theorem Swept.visit_isSome_iff (inv : Swept table bound sweep) : (sweep.visit table bound).isSome ↔
      ((table bound).Ends -> ∃ port ≤ bound, (table port).Starts) := by
  have before : (∃ port < bound, (table port).Starts) ↔ sweep.lastPort.isSome := by
    constructor
    · rintro ⟨port, below, starts⟩
      obtain ⟨last, isLast, -⟩ := inv.starts_le port below starts
      exact isSome_iff_exists.mpr ⟨last, isLast⟩
    · intro isSome
      obtain ⟨last, isLast⟩ := isSome_iff_exists.mp isSome
      exact inv.opened last isLast
  unfold Sweep.visit
  cases status : table bound with
  | rangeNone | rangeIn => exact iff_of_true rfl (absurd · (by decide))
  | rangeEdge => exact iff_of_true rfl fun _ => ⟨bound, Nat.le_refl _, by simp [status]⟩
  | rangeLeft => exact iff_of_true rfl (absurd · (by decide))
  | rangeRight =>
    have strictly : (∃ port ≤ bound, (table port).Starts) ↔
        ∃ port < bound, (table port).Starts := by
      constructor
      · rintro ⟨port, below, starts⟩
        refine ⟨port, Nat.lt_of_le_of_ne below ?_, starts⟩
        rintro rfl
        exact absurd (status ▸ starts) (by decide)
      · rintro ⟨port, below, starts⟩
        exact ⟨port, Nat.le_of_lt below, starts⟩
    have ends : PortStatus.rangeRight.Ends := by decide
    rw [strictly, before]
    cases sweep.lastPort <;> simp [ends]

theorem Swept.of_upTo (small : bound ≤ portCount) (ran : Sweep.upTo table bound = some sweep) :
    Swept table bound sweep := by
  induction bound generalizing sweep with
  | zero =>
    obtain rfl := Option.some.inj ran
    exact .start table
  | succ bound ih =>
    rw [Sweep.upTo_succ] at ran
    obtain ⟨before, ranBefore, visited⟩ := bind_eq_some_iff.mp ran
    exact (ih (by omega) ranBefore).visit (by omega) visited

theorem Sweep.upTo_isSome_iff (table : PortStatusTable) (small : bound ≤ portCount) :
    (Sweep.upTo table bound).isSome ↔
      ∀ port < bound, (table port).Ends -> ∃ start ≤ port, (table start).Starts := by
  induction bound with
  | zero => simp [Sweep.upTo_zero]
  | succ bound ih =>
    rw [Sweep.upTo_succ, Nat.forall_lt_succ_right, ← ih (by omega)]
    cases ran : Sweep.upTo table bound with
    | none => simp
    | some sweep =>
      have inv : Swept table bound sweep := .of_upTo (by omega) ran
      simpa using inv.visit_isSome_iff

theorem Sweep.upTo_add_of_unmarked (unmarked : ∀ port, bound ≤ port -> table port = .rangeNone)
    (more : Nat) : Sweep.upTo table (bound + more) = Sweep.upTo table bound := by
  induction more with
  | zero => rfl
  | succ more ih =>
    have none : table (bound + more) = .rangeNone := unmarked _ (Nat.le_add_right _ _)
    rw [← Nat.add_assoc, Sweep.upTo_succ, ih]
    simp only [Sweep.visit, none, bind_fun_some]

/-- Cutting a list of ranges into pieces. -/
structure Cuts (raw pieces : List PortRange) : Prop where
  ascending : pieces.Pairwise fun lower upper =>
    lower.max.toNat < upper.min.toNat
  ordered : ∀ piece ∈ pieces, piece.min.toNat ≤ piece.max.toNat
  inside : ∀ piece ∈ pieces, ∀ range ∈ raw, ∀ port,
    piece.Contains port -> range.Contains port ->
      range.min.toNat ≤ piece.min.toNat ∧ piece.max.toNat ≤ range.max.toNat
  covers : ∀ range ∈ raw, ∀ port, range.Contains port -> ∃ piece ∈ pieces, piece.Contains port

section

variable (marks : Marks raw table)
include marks

theorem spanned_of_contains (mem : range ∈ raw) (contains : range.Contains port) :
    Spanned table port :=
  ⟨range.min.toNat, range.max.toNat, contains.1, contains.2, range.max.toNat_lt,
    (marks.starts_iff _).mpr ⟨range, mem, rfl⟩,
    (marks.ends_iff _).mpr ⟨range, mem, rfl⟩,
    fun between above below => marks.ne range mem between ⟨above, below⟩⟩

theorem cuts_of_pieces (inv : Pieces table portCount pieces) : Cuts raw pieces where
  ascending := inv.ascending
  ordered := fun piece mem => (inv.uncut piece mem).ordered
  inside := by
    intro piece mem range rangeMem port inPiece inRange
    obtain ⟨-, noStart, noEnd⟩ := inv.uncut piece mem
    obtain ⟨pieceMin, pieceMax⟩ := inPiece
    obtain ⟨rangeMin, rangeMax⟩ := inRange
    have starts := (marks.starts_iff _).mpr ⟨range, rangeMem, rfl⟩
    have ends := (marks.ends_iff _).mpr ⟨range, rangeMem, rfl⟩
    constructor
    · by_contra later
      exact noStart _ (by omega) (by omega) starts
    · by_contra earlier
      exact noEnd _ (by omega) (by omega) ends
  covers := by
    intro range mem port contains
    have spanned := spanned_of_contains marks mem contains
    have small := Nat.lt_of_le_of_lt contains.2 range.max.toNat_lt
    exact inv.covers port small spanned

/-- The sweep over a marked table cuts the ranges into pieces. -/
theorem cuts_of_createPortRangeByTable (cut : createPortRangeByTable table = some pieces) :
    Cuts raw pieces := by
  obtain ⟨sweep, ran, rfl⟩ := map_eq_some_iff.mp cut
  have swept := Swept.of_upTo (Nat.le_refl _) ran
  refine cuts_of_pieces marks (swept.pieces.skip swept.last_le ?_)
  rintro port above - ⟨-, last, -, leLast, small, -, ends, -⟩
  obtain ⟨lastPort, isLast, before⟩ := swept.ends_lt last small ends
  rw [isLast, getD_some] at above
  omega

/-- The sweep returns unless an upper bound lies below all lower bounds. -/
theorem createPortRangeByTable_isSome_iff : (createPortRangeByTable table).isSome ↔
      ∀ range ∈ raw, ∃ other ∈ raw, other.min ≤ range.max := by
  rw [createPortRangeByTable, isSome_map, Sweep.upTo_isSome_iff _ (Nat.le_refl _)]
  simp only [marks.starts_iff, marks.ends_iff, UInt16.le_iff_toNat_le]
  constructor
  · intro opened range mem
    obtain ⟨_, below, other, otherMem, rfl⟩ :=
      opened range.max.toNat range.max.toNat_lt ⟨range, mem, rfl⟩
    exact ⟨other, otherMem, below⟩
  · rintro opened _ - ⟨range, mem, rfl⟩
    obtain ⟨other, otherMem, below⟩ := opened range mem
    exact ⟨_, below, other, otherMem, rfl⟩

end

theorem Cuts.nil : Cuts [] [] := by
  constructor <;> simp

theorem cuts_of_table (marks : Marks raw table)
    (cut : (if raw = [] then some nothing else createPortRangeByTable table) = some pieces)
    (isNothing : raw = [] -> nothing = []) : Cuts raw pieces := by
  by_cases empty : raw = []
  · rw [if_pos empty, isNothing empty] at cut
    obtain rfl := Option.some.inj cut
    rw [empty]
    exact Cuts.nil
  · rw [if_neg empty] at cut
    exact cuts_of_createPortRangeByTable marks cut

theorem cuts_of_getPortRanges (cut : getPortRanges raw = some pieces) : Cuts raw pieces :=
  cuts_of_table (marks_createPortStatusTable raw) cut id

/-- `GetPortRanges` returns unless an upper bound lies below all lower
bounds. -/
theorem getPortRanges_isSome_iff (raw : List PortRange) :
    (getPortRanges raw).isSome ↔ ∀ range ∈ raw, ∃ other ∈ raw, other.min ≤ range.max := by
  unfold getPortRanges
  by_cases empty : raw = []
  · simp [empty]
  · rw [if_neg empty]
    exact createPortRangeByTable_isSome_iff (marks_createPortStatusTable raw)

/-- The ranges of every list whose bounds are in order are cut. -/
theorem getPortRanges_isSome_of_ordered (ordered : ∀ range ∈ raw, range.min ≤ range.max) :
    (getPortRanges raw).isSome :=
  (getPortRanges_isSome_iff raw).mpr fun range mem =>
    ⟨range, mem, ordered range mem⟩

end Metaflow.Datatype
