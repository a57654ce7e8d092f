import Metaflow.Segmenttree.Coverage

/-!
# Building the tree

The endpoints of closed intervals, sorted, cut the endpoints' order into
consecutive ranges. `buildTree` halves these ranges until none of the
endpoints lies inside, so the finished tree is well formed with respect to all
of them.
-/

namespace Metaflow.Segmenttree

open IntegerRange List

/-- Different finite endpoints, each in one of the two parts around it. -/
structure Typed (types : List TypedEndpoint) : Prop where
  nodup : (types.map (·.endpoint)).Nodup
  bounded : ∀ typed ∈ types, typed.endpoint ≠ positiveInfinity ∧ typed.endpoint ≠ negativeInfinity
  owned : ∀ typed ∈ types, typed.endpointType ≠ .bothOpen

theorem map_setType (known : types.any (·.endpoint = endpoint) = true) :
    (setType types endpoint endpointType).map (·.endpoint) = types.map (·.endpoint) := by
  rw [setType, if_pos known, map_map]
  apply map_congr_left
  intro typed _
  simp only [Function.comp]
  split_ifs with same
  · exact same.symm
  · rfl

theorem mem_setType (mem : typed ∈ setType types endpoint endpointType) :
    typed = ⟨endpoint, endpointType⟩ ∨ typed ∈ types := by
  unfold setType at mem
  split_ifs at mem with known
  · obtain ⟨old, oldMem, isTyped⟩ := mem_map.mp mem
    split_ifs at isTyped with same
    · exact .inl isTyped.symm
    · exact .inr (isTyped ▸ oldMem)
  · rcases mem_append.mp mem with old | new
    · exact .inr old
    · exact .inl (mem_singleton.mp new)

theorem mem_map_setType (other : Endpoint) :
    other ∈ (setType types endpoint endpointType).map (·.endpoint) ↔
      other = endpoint ∨ other ∈ types.map (·.endpoint) := by
  by_cases known : types.any (·.endpoint = endpoint) = true
  · rw [map_setType known]
    constructor
    · exact .inr
    · rintro (rfl | mem)
      · simpa using known
      · exact mem
  · rw [setType, if_neg known]
    simp [or_comm]

theorem Typed.setType (typed : Typed types)
    (bounded : endpoint ≠ positiveInfinity ∧ endpoint ≠ negativeInfinity)
    (owned : endpointType ≠ .bothOpen) : Typed (setType types endpoint endpointType) := by
  refine ⟨?_, ?_, ?_⟩
  · by_cases known : types.any (·.endpoint = endpoint) = true
    · rw [map_setType known]
      exact typed.nodup
    · rw [Segmenttree.setType, if_neg known, map_append]
      apply List.Nodup.append typed.nodup (nodup_singleton _)
      intro other mem isNew
      obtain rfl := mem_singleton.mp isNew
      exact known (by simpa using mem)
  · intro other mem
    rcases mem_setType mem with rfl | old
    · exact bounded
    · exact typed.bounded other old
  · intro other mem
    rcases mem_setType mem with rfl | old
    · exact owned
    · exact typed.owned other old

theorem mem_addUpper (interval : IntegerRange) (known : other ∈ types.map (·.endpoint) ∨
      interval.upper.hasBound = true ∧ other = interval.upper.endpoint) :
    other ∈ (addUpper types interval).map (·.endpoint) := by
  by_cases bounded : interval.hasUpperBound = true
  · rw [addUpper, if_pos bounded, mem_map_setType]
    exact known.symm.imp And.right id
  · rw [addUpper, if_neg bounded]
    exact known.resolve_right fun new => bounded new.1

theorem mem_addLower (interval : IntegerRange) (known : other ∈ types.map (·.endpoint)) :
    other ∈ (addLower types interval).map (·.endpoint) := by
  unfold addLower
  split_ifs <;> first
    | exact known
    | exact (mem_map_setType other).mpr (.inr known)

theorem Typed.addUpper (typed : Typed types) (interval : IntegerRange) :
    Typed (addUpper types interval) := by
  unfold Segmenttree.addUpper
  split_ifs with bounded
  · exact typed.setType ((hasBound_iff _).mp bounded) (by simp)
  · exact typed.setType ((hasBound_iff _).mp bounded) (by simp)
  · exact typed

theorem Typed.addLower (typed : Typed types) {interval : IntegerRange}
    (closed : interval.lower.closed = true) : Typed (addLower types interval) := by
  unfold Segmenttree.addLower
  split_ifs with bounded
  · exact typed
  · exact typed.setType ((hasBound_iff _).mp bounded) (by simp)
  · exact typed

/-- The loop over the intervals collects the upper endpoints. -/
theorem foldl_add_spec {intervals : List IntegerRange}
    (proper : ∀ interval ∈ intervals, Proper interval) (typed : Typed types) :
    let final := intervals.foldl (fun types interval =>
      Segmenttree.addLower (Segmenttree.addUpper types interval) interval) types
    Typed final ∧ (∀ other ∈ types.map (·.endpoint), other ∈ final.map (·.endpoint)) ∧
      ∀ interval ∈ intervals, interval.upper.hasBound = true ->
        interval.upper.endpoint ∈ final.map (·.endpoint) := by
  induction intervals generalizing types with
  | nil => exact ⟨typed, fun _ => id, by simp⟩
  | cons interval rest ih =>
    obtain ⟨finalTyped, kept, collected⟩ := ih (fun other mem => proper other (by simp [mem]))
      ((typed.addUpper interval).addLower (proper interval (by simp)).lowerClosed)
    refine ⟨finalTyped, ?_, ?_⟩
    · intro other mem
      exact kept other (mem_addLower interval (mem_addUpper interval (.inl mem)))
    · intro other mem bounded
      rcases mem_cons.mp mem with rfl | inRest
      · exact kept _ (mem_addLower other (mem_addUpper other (.inr ⟨bounded, rfl⟩)))
      · exact collected other inRest bounded

/-- Endpoints in ascending order. -/
structure SortedEndpoints (endpoints : List TypedEndpoint) : Prop where
  ascending : endpoints.Pairwise (·.endpoint < ·.endpoint)
  bounded : ∀ typed ∈ endpoints, typed.endpoint ≠ positiveInfinity ∧
    typed.endpoint ≠ negativeInfinity
  owned : ∀ typed ∈ endpoints, typed.endpointType ≠ .bothOpen

/-- The finite upper endpoints of the intervals. -/
def stopsOf (intervals : List IntegerRange) : List Endpoint :=
  (intervals.filter (·.upper.hasBound)).map (·.upper.endpoint)

variable {intervals : List IntegerRange} {stops : List Endpoint} {interval : IntegerRange}
  {tree : SubTree}

theorem toEndpoints_spec (proper : ∀ interval ∈ intervals, Proper interval) :
    SortedEndpoints (toEndpoints intervals) ∧
      ∀ stop ∈ stopsOf intervals, ∃ typed ∈ toEndpoints intervals, typed.endpoint = stop := by
  obtain ⟨typed, -, collected⟩ := foldl_add_spec proper
    (show Typed [] from ⟨by simp, by simp, by simp⟩)
  have total : Std.Total fun left right : TypedEndpoint =>
      left.endpoint ≤ right.endpoint :=
    ⟨fun left right => Int64.le_total left.endpoint right.endpoint⟩
  have trans : IsTrans TypedEndpoint fun left right =>
      left.endpoint ≤ right.endpoint := ⟨fun _ _ _ first second => Int64.le_trans first second⟩
  have sorted := pairwise_insertionSort
    (fun left right : TypedEndpoint => left.endpoint ≤ right.endpoint)
    (intervals.foldl (fun types interval =>
      addLower (addUpper types interval) interval) [])
  have nodup : ((toEndpoints intervals).map (·.endpoint)).Nodup :=
    ((perm_insertionSort _ _).map _).nodup_iff.mpr typed.nodup
  refine ⟨⟨?_, ?_, ?_⟩, ?_⟩
  · refine (sorted.and (pairwise_map.mp nodup)).imp ?_
    rintro left right ⟨le, ne⟩
    exact Int64.lt_of_le_of_ne le ne
  · intro other mem
    exact typed.bounded other ((mem_insertionSort _).mp mem)
  · intro other mem
    exact typed.owned other ((mem_insertionSort _).mp mem)
  · intro stop mem
    obtain ⟨interval, kept, rfl⟩ := mem_map.mp mem
    obtain ⟨isInterval, bounded⟩ := mem_filter.mp kept
    obtain ⟨other, otherMem, same⟩ := mem_map.mp (collected interval isInterval bounded)
    exact ⟨other, (mem_insertionSort _).mpr otherMem, same⟩

/-- The lower cut of a range that has the endpoints from `low` on inside. -/
def lowerCut (endpoints : List TypedEndpoint) (low : Nat) : Cut :=
  match low with
  | 0 => ⟨negativeInfinity, false⟩
  | index + 1 =>
    match endpoints[index]? with
    | none => ⟨negativeInfinity, false⟩
    | some typed => ⟨typed.endpoint, typed.endpointType = .rightClosed⟩

/-- The upper cut of a range that has the endpoints before `high` inside. -/
def upperCut (endpoints : List TypedEndpoint) (high : Nat) : Cut :=
  match endpoints[high]? with
  | none => ⟨positiveInfinity, false⟩
  | some typed => ⟨typed.endpoint, typed.endpointType = .leftClosed⟩

/-- The range that has the endpoints from `low` to `high - 1` inside. -/
def span (endpoints : List TypedEndpoint) (low high : Nat) : IntegerRange :=
  ⟨lowerCut endpoints low, upperCut endpoints high⟩

section Spans

variable {endpoints : List TypedEndpoint}

theorem lowerCut_succ (inside : index < endpoints.length) :
    lowerCut endpoints (index + 1) = ⟨endpoints[index].endpoint,
      endpoints[index].endpointType = .rightClosed⟩ := by
  simp [lowerCut, getElem?_eq_getElem inside]

theorem upperCut_of_lt (inside : high < endpoints.length) :
    upperCut endpoints high = ⟨endpoints[high].endpoint,
      endpoints[high].endpointType = .leftClosed⟩ := by
  simp [upperCut, getElem?_eq_getElem inside]

theorem upperCut_length : upperCut endpoints endpoints.length = ⟨positiveInfinity, false⟩ := by
  simp [upperCut]

namespace SortedEndpoints

variable (sorted : SortedEndpoints endpoints)

include sorted

theorem endpoint_lt (ordered : left < right) (inside : right < endpoints.length) :
    endpoints[left].endpoint < endpoints[right].endpoint :=
  pairwise_iff_getElem.mp sorted.ascending left right _ _ ordered

theorem endpointIndex_eq (inside : index < endpoints.length) :
    endpointIndex endpoints endpoints[index].endpoint = index := by
  have known : endpoints.any (·.endpoint = endpoints[index].endpoint) = true := by
    simp only [any_eq_true, decide_eq_true_eq]
    exact ⟨endpoints[index], getElem_mem inside, rfl⟩
  rw [endpointIndex, if_pos known, findIdx_eq inside]
  refine ⟨by simp, ?_⟩
  intro earlier before
  have less := sorted.endpoint_lt before inside
  simp only [decide_eq_false_iff_not]
  exact Int64.ne_of_lt less

variable {low high : Nat}

theorem lowerIndexOf_span (inside : low ≤ endpoints.length) (high : Nat) :
    lowerIndexOf endpoints (span endpoints low high) = low - 1 := by
  cases low with
  | zero => rfl
  | succ index =>
    have bounded : (span endpoints (index + 1) high).hasLowerBound = true := by
      rw [hasLowerBound, span, hasBound_iff, lowerCut_succ inside]
      exact sorted.bounded _ (getElem_mem inside)
    rw [lowerIndexOf, if_pos bounded, lowerEndpoint, span,
      lowerCut_succ inside, sorted.endpointIndex_eq inside]
    omega

theorem upperIndexOf_span (inside : high ≤ endpoints.length) (low : Nat) :
    upperIndexOf endpoints (span endpoints low high) = high := by
  rcases Nat.lt_or_eq_of_le inside with before | rfl
  · have bounded : (span endpoints low high).hasUpperBound = true := by
      rw [hasUpperBound, span, hasBound_iff, upperCut_of_lt before]
      exact sorted.bounded _ (getElem_mem before)
    rw [upperIndexOf, if_pos bounded, upperEndpoint, span,
      upperCut_of_lt before, sorted.endpointIndex_eq before]
  · rw [upperIndexOf, hasUpperBound, span, upperCut_length]
    rfl

theorem span_ordered (ordered : low ≤ high) (inside : high ≤ endpoints.length) :
    (span endpoints low high).lower.endpoint ≤ (span endpoints low high).upper.endpoint := by
  simp only [span]
  cases low with
  | zero => exact negativeInfinity_le _
  | succ index =>
    rcases Nat.lt_or_eq_of_le inside with before | rfl
    · rw [lowerCut_succ (by omega), upperCut_of_lt before]
      exact Int64.le_of_lt (sorted.endpoint_lt ordered before)
    · rw [upperCut_length]
      exact le_positiveInfinity _

theorem elementary_span (isEndpoint : ∀ stop ∈ stops, ∃ typed ∈ endpoints, typed.endpoint = stop)
    (inside : low ≤ endpoints.length) : Elementary stops (span endpoints low low) := by
  rintro stop mem ⟨above, below⟩
  obtain ⟨typed, typedMem, rfl⟩ := isEndpoint stop mem
  obtain ⟨index, isIndex, rfl⟩ := getElem_of_mem typedMem
  have afterLow : low ≤ index := by
    cases low with
    | zero => exact Nat.zero_le _
    | succ previous =>
      by_contra before
      simp only [span, lowerCut_succ inside] at above
      rcases Nat.lt_or_eq_of_le (show index ≤ previous by omega) with
        less | rfl
      · exact Int64.lt_irrefl (Int64.lt_trans above (sorted.endpoint_lt less inside))
      · exact Int64.lt_irrefl above
  simp only [span, upperCut_of_lt (Nat.lt_of_le_of_lt afterLow isIndex)] at below
  rcases Nat.lt_or_eq_of_le afterLow with less | rfl
  · exact Int64.lt_irrefl (Int64.lt_trans below (sorted.endpoint_lt less isIndex))
  · exact Int64.lt_irrefl below

/-- The spans on both sides of an endpoint cover the one around it. -/
theorem span_covers (inside : middle < endpoints.length)
    (contains : (span endpoints low high).Contains point) :
    (span endpoints low middle).Contains point ∨
      (span endpoints (middle + 1) high).Contains point := by
  have owned := sorted.owned _ (getElem_mem inside)
  have isUpper := upperCut_of_lt inside
  have isLower := lowerCut_succ inside
  unfold Contains span at *
  generalize endpoints[middle] = typed at *
  obtain ⟨endpoint, endpointType⟩ := typed
  cases endpointType <;> grind

end SortedEndpoints

theorem leftPart_span (ordered : low ≤ middle) (inside : middle < endpoints.length) :
    leftPart endpoints (low - 1) endpoints[middle] = some (span endpoints low middle) := by
  simp only [leftPart, span, upperCut_of_lt inside]
  cases low with
  | zero => rfl
  | succ index =>
    have isIndex : ((index + 1 : Nat) - 1 : Int).toNat = index := by omega
    rw [if_neg (by omega), isIndex,
      getElem?_eq_getElem (by omega : index < endpoints.length),
      Option.map_some, lowerCut_succ (by omega)]
    rfl

theorem rightPart_span (inside : middle < endpoints.length) (bounded : high ≤ endpoints.length) :
    rightPart endpoints high endpoints[middle] = some (span endpoints (middle + 1) high) := by
  simp only [rightPart, span, lowerCut_succ inside]
  rcases Nat.lt_or_eq_of_le bounded with before | rfl
  · rw [if_neg (by omega), Int.toNat_natCast,
      getElem?_eq_getElem before, Option.map_some, upperCut_of_lt before]
    rfl
  · rw [if_pos rfl, upperCut_length]
    rfl

end Spans

/-- A tree without indices that is well formed. -/
structure Built (stops : List Endpoint) (interval : IntegerRange) (tree : SubTree) : Prop where
  isNode : tree ≠ .nil
  holds : ∀ point, tree.Holds point ↔ interval.Contains point
  wellFormed : WellFormed stops tree
  sound : ∀ inside, Sound inside tree

theorem built_leaf (ordered : interval.lower.endpoint ≤ interval.upper.endpoint)
    (elementary : Elementary stops interval) : Built stops interval (.leaf interval) where
  isNode := by simp [SubTree.leaf]
  holds _ := Iff.rfl
  wellFormed := ⟨ordered, fun _ => elementary, by simp, trivial, trivial⟩
  sound _ := ⟨by simp, trivial, trivial⟩

theorem buildTree_spec (sorted : SortedEndpoints endpoints)
    (isEndpoint : ∀ stop ∈ stops, ∃ typed ∈ endpoints, typed.endpoint = stop) (ordered : low ≤ high)
    (inside : high ≤ endpoints.length) (enough : high - low < fuel) :
    ∃ tree, buildTree endpoints fuel (span endpoints low high) = some tree ∧
      Built stops (span endpoints low high) tree := by
  induction fuel generalizing low high with
  | zero => omega
  | succ fuel ih =>
    have lowerIndex := sorted.lowerIndexOf_span (Nat.le_trans ordered inside) high
    have upperIndex := sorted.upperIndexOf_span inside low
    have spanOrdered := sorted.span_ordered ordered inside
    rcases Nat.eq_or_lt_of_le ordered with rfl | more
    · refine ⟨.leaf (span endpoints low low), ?_, built_leaf spanOrdered
        (sorted.elementary_span isEndpoint inside)⟩
      simp only [buildTree, lowerIndex, upperIndex]
      exact if_pos (by omega)
    · obtain ⟨middle, isMiddle⟩ : ∃ middle : Nat,
          (((low - 1 : Int) + high).tdiv 2).toNat = middle := ⟨_, rfl⟩
      have bounds : low ≤ middle ∧ middle < high := by
        rw [Int.tdiv_eq_ediv_of_nonneg (by omega)] at isMiddle
        omega
      have middleInside : middle < endpoints.length := by omega
      obtain ⟨left, leftBuilt, leftSpec⟩ := ih bounds.1 (Nat.le_of_lt middleInside) (by omega)
      obtain ⟨right, rightBuilt, rightSpec⟩ := ih bounds.2 inside (by omega)
      refine ⟨.node (span endpoints low high) [] left right, ?_, ?_⟩
      · simp only [buildTree, lowerIndex, upperIndex]
        rw [if_neg (by omega), isMiddle, getElem?_eq_getElem middleInside]
        simp only [Option.bind_eq_bind, Option.bind_some, leftPart_span bounds.1 middleInside,
          rightPart_span middleInside inside, leftBuilt, rightBuilt]
        rfl
      · refine ⟨by simp, fun _ => Iff.rfl, ⟨spanOrdered, ?_, ?_,
          leftSpec.wellFormed, rightSpec.wellFormed⟩,
          fun inside => ⟨by simp, leftSpec.sound inside, rightSpec.sound inside⟩⟩
        · exact fun isLeaf => absurd isLeaf.1 leftSpec.isNode
        · intro _ point _ contains
          rw [leftSpec.holds, rightSpec.holds]
          exact sorted.span_covers middleInside contains

theorem buildTree_rangeAll (proper : ∀ interval ∈ intervals, Proper interval) : ∃ tree,
      buildTree (toEndpoints intervals) ((toEndpoints intervals).length + 2) rangeAll = some tree ∧
      Built (stopsOf intervals) rangeAll tree := by
  obtain ⟨sorted, isEndpoint⟩ := toEndpoints_spec proper
  have whole : span (toEndpoints intervals) 0 (toEndpoints intervals).length = rangeAll := by
    rw [span, upperCut_length]
    rfl
  rw [← whole]
  exact buildTree_spec sorted isEndpoint (Nat.zero_le _) (Nat.le_refl _) (by omega)

@[simp] theorem mem_or (bits other : BitArray) (index : Nat) :
    index ∈ bits.or other ↔ index ∈ bits ∨ index ∈ other := by
  unfold BitArray.or
  induction other generalizing bits with
  | nil => simp
  | cons head rest ih =>
    rw [foldl_cons, ih, mem_setBit, mem_cons, or_comm (a := index = head), or_assoc]

theorem mem_collect (inInterval : interval.Contains point) (carries : Carries index point tree) :
    tree.isConnectedTo interval = true ∧ index ∈ tree.collect interval := by
  induction tree with
  | nil => exact carries.elim
  | node curInterval bits left right leftHypothesis rightHypothesis =>
    obtain ⟨contains, found⟩ := carries
    refine ⟨isConnected_of_contains inInterval contains, ?_⟩
    rw [SubTree.collect, mem_or, mem_or]
    rcases found with here | inLeft | inRight
    · exact .inl (.inl here)
    · obtain ⟨connected, mem⟩ := leftHypothesis inLeft
      exact .inl (.inr (by rwa [if_pos connected]))
    · obtain ⟨connected, mem⟩ := rightHypothesis inRight
      exact .inr (by rwa [if_pos connected])

/-- What a query finds lies on a connected node. -/
theorem connected_of_mem_collect (sound : Sound inside tree)
    (connected : tree.isConnectedTo interval = true) (mem : index ∈ tree.collect interval) :
    ∃ node, inside index node ∧ interval.isConnected node = true := by
  induction tree with
  | nil => simp [SubTree.collect] at mem
  | node curInterval bits left right leftHypothesis rightHypothesis =>
    obtain ⟨here, leftSound, rightSound⟩ := sound
    rw [SubTree.collect, mem_or, mem_or] at mem
    rcases mem with (mem | mem) | mem
    · exact ⟨curInterval, here index mem, connected⟩
    · split_ifs at mem with leftConnected
      · exact leftHypothesis leftSound leftConnected mem
      · simp at mem
    · split_ifs at mem with rightConnected
      · exact rightHypothesis rightSound rightConnected mem
      · simp at mem

theorem foldl_insertIndex_spec (inside : Nat -> IntegerRange -> Prop) (first : Nat)
    (proper : ∀ interval ∈ intervals, Proper interval)
    (isStop : ∀ interval ∈ intervals, interval.upper.hasBound = true ->
      interval.upper.endpoint ∈ stops) (isInside : ∀ indexed ∈ intervals.zipIdx first, ∀ node,
      indexed.1.encloses node = true -> inside indexed.2 node)
    (wellFormed : WellFormed stops tree) (sound : Sound inside tree) :
    let final := (intervals.zipIdx first).foldl (fun root (interval, index) =>
      insertIndex interval index root) tree
    Sound inside final ∧ (∀ point, final.Holds point ↔ tree.Holds point) ∧
      (∀ index point, Carries index point tree -> Carries index point final) ∧
      ∀ indexed ∈ intervals.zipIdx first, ∀ point < positiveInfinity,
        indexed.1.Contains point -> tree.Holds point ->
        Carries indexed.2 point final := by
  induction intervals generalizing first tree with
  | nil => exact ⟨sound, fun _ => Iff.rfl, fun _ _ => id, by simp⟩
  | cons interval rest ih =>
    rw [zipIdx_cons] at isInside ⊢
    have isProper := proper interval (by simp)
    have formed : WellFormed stops (insertIndex interval first tree) :=
      wellFormed_insertIndex isProper (isStop interval (by simp)) wellFormed
    obtain ⟨finalSound, finalHolds, kept, inserted⟩ := ih (first + 1)
      (fun other mem => proper other (by simp [mem]))
      (fun other mem => isStop other (by simp [mem]))
      (fun other mem => isInside other (mem_cons_of_mem _ mem)) formed
      (sound_insertIndex (isInside (interval, first) (by simp)) sound)
    refine ⟨finalSound, ?_, ?_, ?_⟩
    · intro point
      rw [foldl_cons, finalHolds, holds_insertIndex]
    · intro index point carries
      exact kept index point carries.insertIndex
    · intro indexed mem point finite contains holds
      rcases mem_cons.mp mem with rfl | inRest
      · exact kept first point (carries_insertIndex isProper finite contains wellFormed holds)
      · exact inserted indexed inRest point finite contains ((holds_insertIndex tree).mpr holds)

/-- Closed intervals with a common point. -/
def IntegerRange.Meets (interval other : IntegerRange) : Prop :=
  ∃ point, (interval.lower.endpoint ≤ point ∧ point ≤ interval.upper.endpoint) ∧
    other.lower.endpoint ≤ point ∧ point ≤ other.upper.endpoint

/-- Proper closed intervals that meet have a finite point in common. -/
theorem exists_point_of_meets (proper : Proper interval)
    (lowerClosed : other.lower.closed = true) (upperClosed : other.upper.closed = true)
    (finite : other.lower.endpoint ≠ positiveInfinity) (meets : interval.Meets other) :
    ∃ point < positiveInfinity, interval.Contains point ∧ other.Contains point := by
  obtain ⟨point, ⟨low, high⟩, otherLow, otherHigh⟩ := meets
  have top := le_positiveInfinity interval.lower.endpoint
  have otherTop := le_positiveInfinity other.lower.endpoint
  obtain ⟨intervalLower, intervalUpper, -, lowerFinite, -⟩ := proper
  by_cases later : interval.lower.endpoint ≤ other.lower.endpoint
  · refine ⟨other.lower.endpoint, by grind, ?_, ?_⟩ <;>
      unfold Contains <;> grind
  · refine ⟨interval.lower.endpoint, by grind, ?_, ?_⟩ <;>
      unfold Contains <;> grind

theorem meets_of_connected (proper : Proper interval)
    (ordered : other.lower.endpoint ≤ other.upper.endpoint)
    (encloses : interval.encloses node = true) (connected : other.isConnected node = true) :
    interval.Meets other := by
  rw [encloses_iff] at encloses
  rw [isConnected_iff] at connected
  have intervalOrdered := proper.ordered
  unfold Cut.Before at *
  by_cases later : interval.lower.endpoint ≤ other.lower.endpoint
  · exact ⟨other.lower.endpoint, by grind⟩
  · exact ⟨interval.lower.endpoint, by grind⟩

theorem isConnected_comm (interval other : IntegerRange) :
    interval.isConnected other = other.isConnected interval := by
  rw [Bool.eq_iff_iff, isConnected_iff, isConnected_iff, and_comm]

theorem query_eq (isNode : tree ≠ .nil) (other : IntegerRange) :
    ∃ bits, query tree other = some bits ∧ ∀ index,
      index ∈ bits ↔ tree.isConnectedTo other = true ∧ index ∈ tree.collect other := by
  cases tree with
  | nil => exact absurd rfl isNode
  | node rootInterval bits left right =>
    refine ⟨_, (apply_ite some _ _ _).symm, ?_⟩
    intro index
    rw [isConnected_comm, SubTree.isConnectedTo]
    split_ifs with apart
    · simp [show other.isConnected rootInterval = false by
        simpa using apart]
    · simp [show other.isConnected rootInterval = true by
        simpa using apart]

/-- A query of the tree of proper intervals finds exactly those that meet the
queried one. -/
theorem query_init (nonempty : intervals ≠ []) (proper : ∀ interval ∈ intervals, Proper interval) :
    ∃ tree, init intervals = some tree ∧ ∀ other : IntegerRange,
      other.lower.closed = true -> other.upper.closed = true ->
      other.lower.endpoint ≤ other.upper.endpoint -> other.lower.endpoint ≠ positiveInfinity ->
      ∃ bits, query tree other = some bits ∧ ∀ index,
        index ∈ bits ↔ ∃ interval ∈ intervals[index]?, interval.Meets other := by
  obtain ⟨root, built, -, holds, wellFormed, sound⟩ := buildTree_rangeAll proper
  obtain ⟨finalSound, finalHolds, -, inserted⟩ := foldl_insertIndex_spec
    (fun index node => ∃ interval ∈ intervals[index]?, interval.encloses node = true) 0 proper
    (fun interval mem bounded =>
      mem_map.mpr ⟨interval, mem_filter.mpr ⟨mem, bounded⟩, rfl⟩)
    (fun indexed mem node encloses =>
      ⟨indexed.1, mk_mem_zipIdx_iff_getElem?.mp mem, encloses⟩)
    wellFormed (sound _)
  have positive : ¬ intervals.length ≤ 0 := by simpa [length_eq_zero_iff] using nonempty
  have made : init intervals = some (intervals.zipIdx.foldl
      (fun root (interval, index) => insertIndex interval index root) root) := by
    rw [init, if_neg positive]
    exact congrArg (Option.map _) built
  refine ⟨_, made, ?_⟩
  intro other lowerClosed upperClosed ordered finite
  generalize (intervals.zipIdx.foldl (fun root (interval, index) =>
    insertIndex interval index root) root) = final at *
  have rootHolds : ∀ point < positiveInfinity, root.Holds point := by
    intro point finitePoint
    rw [holds]
    have bottom := negativeInfinity_le point
    unfold Contains rangeAll
    grind
  have isNode : final ≠ .nil := by
    rintro rfl
    exact (finalHolds 0).mpr (rootHolds 0 (by decide))
  obtain ⟨bits, queried, members⟩ := query_eq isNode other
  refine ⟨bits, queried, fun index => ?_⟩
  rw [members]
  constructor
  · rintro ⟨connected, mem⟩
    obtain ⟨node, ⟨interval, isInterval, encloses⟩, nodeConnected⟩ :=
      connected_of_mem_collect finalSound connected mem
    exact ⟨interval, isInterval, meets_of_connected
      (proper interval (mem_of_getElem? isInterval)) ordered encloses
      nodeConnected⟩
  · rintro ⟨interval, isInterval, meets⟩
    obtain ⟨point, finitePoint, inInterval, inOther⟩ := exists_point_of_meets
      (proper interval (mem_of_getElem? isInterval)) lowerClosed
      upperClosed finite meets
    exact mem_collect inOther (inserted (interval, index)
      (mk_mem_zipIdx_iff_getElem?.mpr isInterval) point finitePoint
      inInterval (rootHolds point finitePoint))

end Metaflow.Segmenttree
