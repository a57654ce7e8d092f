import Metaflow.Segmenttree.ImmutableSegmentTree

/-!
# Which intervals a query finds

No upper endpoint lies inside a leaf, so an inserted interval leaves its index,
for each of its points, on a node that every query with this point visits.
Conversely a node has an index only if the interval encloses it.
-/

namespace Metaflow.Segmenttree

open IntegerRange

/-- The order that `compareTo` decides: an open cut is before a closed one. -/
def Cut.Before (cut other : Cut) : Prop :=
  cut.endpoint < other.endpoint ∨
    cut.endpoint = other.endpoint ∧ (cut.closed = true -> other.closed = true)

theorem Cut.compareTo_nonpos_iff (cut other : Cut) :
    cut.compareTo other ≤ 0 ↔ cut.Before other := by
  unfold compareTo Before
  split_ifs <;> grind

theorem Cut.compareTo_nonneg_iff (cut other : Cut) :
    0 ≤ cut.compareTo other ↔ other.Before cut := by
  unfold compareTo Before
  split_ifs <;> grind

namespace IntegerRange

variable {range other : IntegerRange}

theorem isConnected_iff : range.isConnected other = true ↔
      range.lower.Before other.upper ∧ other.lower.Before range.upper := by
  simp only [isConnected, Bool.and_eq_true, decide_eq_true_eq, Cut.compareTo_nonpos_iff]

theorem encloses_iff : range.encloses other = true ↔
      range.lower.Before other.lower ∧ other.upper.Before range.upper := by
  simp only [encloses, Bool.and_eq_true, decide_eq_true_eq, ge_iff_le,
    Cut.compareTo_nonpos_iff, Cut.compareTo_nonneg_iff]

theorem intersection_lower (range other : IntegerRange) :
    (range.intersection other).lower = range.lower ∧ other.lower.Before range.lower ∨
      (range.intersection other).lower = other.lower ∧ range.lower.Before other.lower := by
  have nonpos := Cut.compareTo_nonpos_iff range.lower other.lower
  have nonneg := Cut.compareTo_nonneg_iff range.lower other.lower
  simp only [intersection]
  split_ifs <;> grind

theorem intersection_upper (range other : IntegerRange) :
    (range.intersection other).upper = range.upper ∧ range.upper.Before other.upper ∨
      (range.intersection other).upper = other.upper ∧ other.upper.Before range.upper := by
  have nonpos := Cut.compareTo_nonpos_iff range.upper other.upper
  have nonneg := Cut.compareTo_nonneg_iff range.upper other.upper
  simp only [intersection]
  split_ifs <;> grind

/-- The points of a range. Whether the cut at an infinite lower endpoint is
closed does not matter. -/
def Contains (range : IntegerRange) (point : Endpoint) : Prop :=
  (range.lower.endpoint < point ∨ range.lower.endpoint = point ∧
    (range.lower.closed = true ∨ point = negativeInfinity)) ∧
  (point < range.upper.endpoint ∨ point = range.upper.endpoint ∧ range.upper.closed = true)

theorem isConnected_of_contains (inRange : range.Contains point) (inOther : other.Contains point) :
    range.isConnected other = true := by
  rw [isConnected_iff]
  unfold Cut.Before
  unfold Contains at inRange inOther
  grind

end IntegerRange

/-- Closed intervals that have more than an infinity. -/
structure Proper (interval : IntegerRange) : Prop where
  lowerClosed : interval.lower.closed = true
  upperClosed : interval.upper.closed = true
  ordered : interval.lower.endpoint ≤ interval.upper.endpoint
  lowerFinite : interval.lower.endpoint ≠ positiveInfinity
  upperFinite : interval.upper.endpoint ≠ negativeInfinity

/-- The point lies in the range of the root. -/
def SubTree.Holds (point : Endpoint) : SubTree -> Prop
  | .nil => False
  | .node interval _ _ _ => interval.Contains point

/-- No stop lies inside the range. -/
def Elementary (stops : List Endpoint) (interval : IntegerRange) : Prop :=
  ∀ stop ∈ stops, ¬ (interval.lower.endpoint < stop ∧ stop < interval.upper.endpoint)

/-- The children of inner nodes cover the points of their parent, and no stop
lies inside a leaf. -/
def WellFormed (stops : List Endpoint) : SubTree -> Prop
  | .nil => True
  | .node interval _ left right =>
    interval.lower.endpoint ≤ interval.upper.endpoint ∧
    (left = .nil ∧ right = .nil -> Elementary stops interval) ∧
    (¬ (left = .nil ∧ right = .nil) -> ∀ point < positiveInfinity,
      interval.Contains point -> left.Holds point ∨ right.Holds point) ∧
    WellFormed stops left ∧ WellFormed stops right

/-- A query with the point comes to a node with the index. -/
def Carries (index : Nat) (point : Endpoint) : SubTree -> Prop
  | .nil => False
  | .node interval indexBitSet left right =>
    interval.Contains point ∧
      (index ∈ indexBitSet ∨ Carries index point left ∨ Carries index point right)

/-- The nodes with an index lie inside the interval of this index. -/
def Sound (inside : Nat -> IntegerRange -> Prop) : SubTree -> Prop
  | .nil => True
  | .node interval indexBitSet left right =>
    (∀ index ∈ indexBitSet, inside index interval) ∧ Sound inside left ∧ Sound inside right

section Split

variable {interval curInterval : IntegerRange}

theorem contains_intersection (inInterval : interval.Contains point)
    (inCurrent : curInterval.Contains point) :
    (interval.intersection curInterval).Contains point := by
  have lower := interval.intersection_lower curInterval
  have upper := interval.intersection_upper curInterval
  unfold Contains at *
  grind

theorem not_isEmpty_intersection (proper : Proper interval)
    (inBoth : (interval.intersection curInterval).Contains point) :
    (interval.intersection curInterval).isEmpty = false := by
  have lower := interval.intersection_lower curInterval
  have upper := interval.intersection_upper curInterval
  have closed := proper.lowerClosed
  unfold Contains Cut.Before at *
  simp only [isEmpty]
  grind [negativeInfinity]

theorem hasBound_iff (cut : Cut) :
    cut.hasBound = true ↔ cut.endpoint ≠ positiveInfinity ∧ cut.endpoint ≠ negativeInfinity := by
  simp [Cut.hasBound]

theorem le_positiveInfinity (endpoint : Endpoint) : endpoint ≤ positiveInfinity :=
  Int64.le_maxValue endpoint

theorem negativeInfinity_le (endpoint : Endpoint) : negativeInfinity ≤ endpoint :=
  Int64.minValue_le endpoint

/-- The endpoints of a range lie between those of another one. -/
def IsPart (part whole : IntegerRange) : Prop :=
  whole.lower.endpoint ≤ part.lower.endpoint ∧ part.lower.endpoint ≤ part.upper.endpoint ∧
    part.upper.endpoint ≤ whole.upper.endpoint

theorem Elementary.part {part whole : IntegerRange} (elementary : Elementary stops whole)
    (isPart : IsPart part whole) : Elementary stops part := by
  intro stop mem
  have outside := elementary stop mem
  unfold IsPart at isPart
  grind

theorem wellFormed_node_leaves (ordered : curInterval.lower.endpoint ≤ curInterval.upper.endpoint)
    (elementary : Elementary stops curInterval) (isFirst : IsPart first curInterval)
    (isSecond : IsPart second curInterval)
    (covers : ∀ point < positiveInfinity, curInterval.Contains point ->
      first.Contains point ∨ second.Contains point) (bits firstBits secondBits : BitArray) :
    WellFormed stops (.node curInterval bits
      (.node first firstBits .nil .nil) (.node second secondBits .nil .nil)) := by
  refine ⟨ordered, by simp, fun _ => covers, ?_, ?_⟩
  · exact ⟨isFirst.2.1, fun _ => elementary.part isFirst, by simp, trivial, trivial⟩
  · exact ⟨isSecond.2.1, fun _ => elementary.part isSecond, by simp, trivial, trivial⟩

section

variable (curInterval both : IntegerRange)

theorem upperInterval_upper (above : curInterval.upper.endpoint ≠ negativeInfinity) :
    (upperInterval curInterval both).upper = curInterval.upper ∨
      curInterval.upper.endpoint = positiveInfinity ∧
        (upperInterval curInterval both).upper = ⟨positiveInfinity, false⟩ := by
  unfold upperInterval
  split_ifs with isBounded
  · exact .inl rfl
  · rw [hasUpperBound, hasBound_iff] at isBounded
    exact .inr ⟨by grind, rfl⟩

theorem lowerInterval_lower (below : curInterval.lower.endpoint ≠ positiveInfinity) :
    (lowerInterval curInterval both).lower = curInterval.lower ∨
      curInterval.lower.endpoint = negativeInfinity ∧
        (lowerInterval curInterval both).lower = ⟨negativeInfinity, false⟩ := by
  unfold lowerInterval
  split_ifs with isBounded
  · exact .inl rfl
  · rw [hasLowerBound, hasBound_iff] at isBounded
    exact .inr ⟨by grind, rfl⟩

theorem upperInterval_lower :
    (upperInterval curInterval both).lower = ⟨both.upper.endpoint, false⟩ := by
  unfold upperInterval
  split_ifs <;> rfl

theorem lowerInterval_upper :
    (lowerInterval curInterval both).upper = ⟨both.lower.endpoint, false⟩ := by
  unfold lowerInterval
  split_ifs <;> rfl

end

theorem wellFormed_splitLeaf (proper : Proper interval)
    (connected : interval.isConnected curInterval = true)
    (notEnclosed : ¬ interval.encloses curInterval = true)
    (ordered : curInterval.lower.endpoint ≤ curInterval.upper.endpoint)
    (elementary : Elementary stops curInterval)
    (isStop : interval.upper.hasBound = true -> interval.upper.endpoint ∈ stops)
    (indexBitSet : BitArray) (index : Nat) : WellFormed stops (splitLeaf curInterval indexBitSet
      (interval.intersection curInterval) index) := by
  have lower := interval.intersection_lower curInterval
  have upper := interval.intersection_upper curInterval
  obtain ⟨lowerClosed, upperClosed, intervalOrdered, lowerFinite, upperFinite⟩ := proper
  rw [isConnected_iff] at connected
  rw [encloses_iff] at notEnclosed
  rw [hasBound_iff] at isStop
  have stopOutside : interval.upper.endpoint ≠ positiveInfinity ->
      ¬ (curInterval.lower.endpoint < interval.upper.endpoint ∧
        interval.upper.endpoint < curInterval.upper.endpoint) :=
    fun finite => elementary _ (isStop ⟨finite, upperFinite⟩)
  have top := le_positiveInfinity curInterval.upper.endpoint
  have bottom := negativeInfinity_le curInterval.lower.endpoint
  generalize interval.intersection curInterval = both at *
  unfold Cut.Before at *
  unfold splitLeaf
  split_ifs with atLower <;>
    rw [hasLowerBound, hasBound_iff, lowerEndpoint, lowerEndpoint] at atLower
  · have isLower := upperInterval_lower curInterval both
    have isUpper := upperInterval_upper curInterval both (by grind)
    generalize upperInterval curInterval both = rest at *
    apply wellFormed_node_leaves ordered elementary
    · unfold IsPart
      grind
    · unfold IsPart
      grind
    · intro point finite contains
      unfold Contains at *
      grind
  · have isUpper := lowerInterval_upper curInterval both
    have isLower := lowerInterval_lower curInterval both (by grind)
    generalize lowerInterval curInterval both = rest at *
    apply wellFormed_node_leaves ordered elementary
    · unfold IsPart
      grind
    · unfold IsPart
      grind
    · intro point finite contains
      unfold Contains at *
      grind

end Split

@[simp] theorem mem_setBit (bits : BitArray) (index other : Nat) :
    other ∈ bits.setBit index ↔ other = index ∨ other ∈ bits := by
  unfold BitArray.setBit
  split_ifs with known
  · constructor
    · exact .inr
    · rintro (rfl | mem)
      · exact known
      · exact mem
  · rw [List.mem_orderedInsert]

section Insert

variable {interval : IntegerRange} {index : Nat}

/-- The range of the root stays. -/
theorem holds_insertIndex (tree : SubTree) :
    (insertIndex interval index tree).Holds point ↔ tree.Holds point := by
  cases tree with
  | nil => rfl
  | node curInterval bits left right =>
    unfold insertIndex splitLeaf
    split_ifs <;> rfl

theorem insertIndex_eq_nil_iff (tree : SubTree) :
    insertIndex interval index tree = .nil ↔ tree = .nil := by
  cases tree with
  | nil => exact Iff.rfl
  | node curInterval bits left right =>
    unfold insertIndex splitLeaf
    split_ifs <;> simp

theorem wellFormed_insertIndex (proper : Proper interval)
    (isStop : interval.upper.hasBound = true -> interval.upper.endpoint ∈ stops)
    (wellFormed : WellFormed stops tree) : WellFormed stops (insertIndex interval index tree) := by
  induction tree with
  | nil => trivial
  | node curInterval bits left right leftHypothesis rightHypothesis =>
    have ⟨ordered, elementary, covers, leftFormed, rightFormed⟩ := wellFormed
    unfold insertIndex
    split_ifs with apart encloses isLeaf isEmpty
    · exact wellFormed
    · exact wellFormed
    · exact wellFormed
    · exact wellFormed_splitLeaf proper (by simpa using apart) encloses
        ordered (elementary isLeaf) isStop bits index
    · refine ⟨ordered, ?_, ?_, leftHypothesis leftFormed, rightHypothesis rightFormed⟩
      · rw [insertIndex_eq_nil_iff, insertIndex_eq_nil_iff]
        exact elementary
      · rw [insertIndex_eq_nil_iff, insertIndex_eq_nil_iff]
        simp only [holds_insertIndex]
        exact covers

theorem Carries.insertIndex (carries : Carries other point tree) :
    Carries other point (insertIndex interval index tree) := by
  induction tree with
  | nil => exact carries
  | node curInterval bits left right leftHypothesis rightHypothesis =>
    have ⟨contains, found⟩ := carries
    unfold Segmenttree.insertIndex
    split_ifs with apart encloses isLeaf isEmpty
    · exact carries
    · refine ⟨contains, found.imp_left ?_⟩
      exact fun mem => (mem_setBit _ _ _).mpr (.inr mem)
    · exact carries
    · obtain ⟨rfl, rfl⟩ := isLeaf
      have mem : other ∈ bits := by simpa [Carries] using found
      unfold splitLeaf
      split_ifs <;> exact ⟨contains, .inl mem⟩
    · exact ⟨contains, found.imp_right (Or.imp leftHypothesis rightHypothesis)⟩

/-- An inserted interval is found at each of its points. -/
theorem carries_insertIndex (proper : Proper interval) (finite : point < positiveInfinity)
    (inInterval : interval.Contains point) (wellFormed : WellFormed stops tree)
    (holds : tree.Holds point) : Carries index point (insertIndex interval index tree) := by
  induction tree with
  | nil => exact holds
  | node curInterval bits left right leftHypothesis rightHypothesis =>
    obtain ⟨-, -, covers, leftFormed, rightFormed⟩ := wellFormed
    have connected : interval.isConnected curInterval = true :=
      isConnected_of_contains inInterval holds
    have inBoth := contains_intersection inInterval holds
    have notEmpty := not_isEmpty_intersection proper inBoth
    unfold insertIndex
    split_ifs with apart encloses isLeaf isEmpty
    · simp [connected] at apart
    · exact ⟨holds, .inl (by simp)⟩
    · simp [notEmpty] at isEmpty
    · unfold splitLeaf
      split_ifs
      · exact ⟨holds, .inr (.inl ⟨inBoth, .inl (by simp)⟩)⟩
      · exact ⟨holds, .inr (.inr ⟨inBoth, .inl (by simp)⟩)⟩
    · refine ⟨holds, .inr ?_⟩
      rcases covers isLeaf point finite holds with inLeft | inRight
      · exact .inl (leftHypothesis leftFormed inLeft)
      · exact .inr (rightHypothesis rightFormed inRight)

theorem encloses_intersection (curInterval : IntegerRange) :
    interval.encloses (interval.intersection curInterval) = true := by
  rw [encloses_iff]
  have lower := interval.intersection_lower curInterval
  have upper := interval.intersection_upper curInterval
  unfold Cut.Before at *
  grind

/-- An index is put on nodes that the interval encloses. -/
theorem sound_insertIndex (isInside : ∀ node, interval.encloses node = true -> inside index node)
    (sound : Sound inside tree) : Sound inside (insertIndex interval index tree) := by
  induction tree with
  | nil => trivial
  | node curInterval bits left right leftHypothesis rightHypothesis =>
    have ⟨here, leftSound, rightSound⟩ := sound
    unfold insertIndex
    split_ifs with apart encloses isLeaf isEmpty
    · exact sound
    · refine ⟨?_, leftSound, rightSound⟩
      intro other mem
      rcases (mem_setBit _ _ _).mp mem with rfl | known
      · exact isInside _ encloses
      · exact here other known
    · exact sound
    · have both := isInside _ (encloses_intersection curInterval)
      unfold splitLeaf
      split_ifs <;> simpa [Sound, SubTree.leaf, both] using here
    · exact ⟨here, leftHypothesis leftSound, rightHypothesis rightSound⟩

end Insert

end Metaflow.Segmenttree
