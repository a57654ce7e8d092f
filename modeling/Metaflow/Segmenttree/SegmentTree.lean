import Metaflow.Library.Run
import Metaflow.Segmenttree.Build

/-!
# Segment trees of several dimensions

`segment_tree.go`: a query asks the tree of each dimension, keeps the entries
that all of them find and returns their values, each identity once.
-/

namespace Metaflow.Segmenttree

open Library List

/-- What `Lower()` and `Upper()` of an interval return. -/
structure Interval where
  lower : Endpoint
  lowerClosed : Bool
  upper : Endpoint
  upperClosed : Bool
  deriving DecidableEq

def intervalToIntegerRange (interval : Interval) : IntegerRange :=
  ranged interval.lower interval.lowerClosed interval.upper interval.upperClosed

variable {V : Type}

structure Entry (V : Type) where
  intervals : List Interval
  value : V

inductive NewError where
  | invalidDimension
  | insufficientIntervalLength
  deriving DecidableEq

structure SegmentTree (V : Type) where
  trees : List SubTree
  values : List V

/-- The tree of one dimension. -/
def newTree (entries : List (Entry V)) (dimension : Nat) : Option SubTree := do
  let intervals <- entries.mapM fun entry =>
    (entry.intervals[dimension]?).map intervalToIntegerRange
  init intervals

def new (dimension : Nat) (entries : List (Entry V)) : Option (Except NewError (SegmentTree V)) :=
  if dimension = 0 then some (.error .invalidDimension)
  else if entries.any (·.intervals.length < dimension) then
    some (.error .insufficientIntervalLength)
  else
    ((List.range dimension).mapM (newTree entries)).map fun trees =>
      .ok { trees, values := entries.map (·.value) }

/-- The indices that are in all results. -/
def andAll : List BitArray -> Option BitArray
  | [] => none
  | first :: rest => some (rest.foldl BitArray.and first)

/-- Take the value of an index unless its identity has been taken. -/
def takeValue (id : V -> UInt64) (values : List V) (taken : List V × List UInt64)
    (index : Nat) : Option (List V × List UInt64) :=
  (values[index]?).map fun value =>
    if id value ∈ taken.2 then taken
    else (taken.1 ++ [value], id value :: taken.2)

namespace SegmentTree

def query (id : V -> UInt64) (tree : SegmentTree V) (intervals : List Interval) : Option (List V) :=
  if intervals.length ≠ tree.trees.length ∨ tree.values.length = 0 then
    some []
  else do
    let results <- (tree.trees.zip intervals).mapM fun (subTree, interval) =>
      Segmenttree.query subTree (intervalToIntegerRange interval)
    let indexBitSet <- andAll results
    let taken <- indexBitSet.foldlM (takeValue id tree.values) ([], [])
    return taken.1

end SegmentTree

namespace Interval

/-- A closed interval with at least one point. -/
structure Closed (interval : Interval) : Prop where
  lowerClosed : interval.lowerClosed = true
  upperClosed : interval.upperClosed = true
  ordered : interval.lower ≤ interval.upper

def closed (lower upper : Endpoint) : Interval :=
  ⟨lower, true, upper, true⟩

/-- Closed intervals share a point. -/
def Meets (interval other : Interval) : Prop :=
  ∃ point, (interval.lower ≤ point ∧ point ≤ interval.upper) ∧
    other.lower ≤ point ∧ point ≤ other.upper

/-- More than one of the two infinities, which entries may have. -/
structure Storable (interval : Interval) : Prop extends Closed interval where
  lowerFinite : interval.lower ≠ positiveInfinity
  upperFinite : interval.upper ≠ negativeInfinity

theorem Storable.proper (storable : interval.Storable) : Proper (intervalToIntegerRange interval) :=
  ⟨storable.lowerClosed, storable.upperClosed, storable.ordered,
    storable.lowerFinite, storable.upperFinite⟩

end Interval

/-- The entry at the index has, in this dimension, an interval that meets the
other one. -/
def MeetsAt (entries : List (Entry V)) (dimension index : Nat) (other : Interval) : Prop :=
  ∃ entry ∈ entries[index]?, ∃ interval ∈ entry.intervals[dimension]?, interval.Meets other

/-- A tree answers the queries of one dimension. -/
def Answers (entries : List (Entry V)) (dimension : Nat) (tree : SubTree) : Prop :=
  ∀ other : Interval, other.Closed -> other.lower ≠ positiveInfinity ->
    ∃ bits, query tree (intervalToIntegerRange other) = some bits ∧
      ∀ index, index ∈ bits ↔ MeetsAt entries dimension index other

/-- Entries of a dimension with intervals that may be stored. -/
structure Admitted (dimension : Nat) (entries : List (Entry V)) : Prop where
  length_eq : ∀ entry ∈ entries, entry.intervals.length = dimension
  storable : ∀ entry ∈ entries, ∀ interval ∈ entry.intervals, interval.Storable

section Build

variable {entries : List (Entry V)} {dimension : Nat} (admitted : Admitted dimension entries)
include admitted

theorem mapM_interval (inside : index < dimension) : ∃ ranges, entries.mapM (fun entry : Entry V =>
        (entry.intervals[index]?).map intervalToIntegerRange) = some ranges ∧
      ranges.length = entries.length ∧
      ∀ (place : Nat) range, ranges[place]? = some range ->
        ∃ entry ∈ entries[place]?, ∃ interval ∈ entry.intervals[index]?,
          intervalToIntegerRange interval = range := by
  apply mapM_spec
  intro place isPlace
  have mem := getElem_mem isPlace
  have isIndex : index < entries[place].intervals.length := by
    rw [admitted.length_eq _ mem]
    exact inside
  refine ⟨intervalToIntegerRange entries[place].intervals[index], ?_,
    entries[place], ?_, entries[place].intervals[index], ?_, rfl⟩
  · rw [getElem?_eq_getElem isIndex, Option.map_some]
  · exact getElem?_eq_getElem isPlace
  · exact getElem?_eq_getElem isIndex

theorem newTree_answers (nonempty : entries ≠ []) (inside : index < dimension) :
    ∃ tree, newTree entries index = some tree ∧ Answers entries index tree := by
  obtain ⟨ranges, mapped, sameLength, isRange⟩ := mapM_interval admitted inside
  have rangesNonempty : ranges ≠ [] := by
    rintro rfl
    exact nonempty (length_eq_zero_iff.mp sameLength.symm)
  have proper : ∀ range ∈ ranges, Proper range := by
    intro range mem
    obtain ⟨place, isPlace, rfl⟩ := getElem_of_mem mem
    obtain ⟨entry, isEntry, interval, isInterval, same⟩ :=
      isRange place _ (getElem?_eq_getElem isPlace)
    rw [← same]
    exact (admitted.storable entry (mem_of_getElem? isEntry) interval
      (mem_of_getElem? isInterval)).proper
  obtain ⟨tree, made, answers⟩ := query_init rangesNonempty proper
  refine ⟨tree, ?_, ?_⟩
  · rw [newTree, mapped]
    exact made
  · intro other closed finite
    obtain ⟨bits, queried, members⟩ := answers (intervalToIntegerRange other)
      closed.lowerClosed closed.upperClosed closed.ordered finite
    refine ⟨bits, queried, fun place => ?_⟩
    rw [members]
    constructor
    · rintro ⟨range, found, meets⟩
      obtain ⟨entry, isEntry, interval, isInterval, rfl⟩ := isRange place range found
      exact ⟨entry, isEntry, interval, isInterval, meets⟩
    · rintro ⟨entry, isEntry, interval, isInterval, meets⟩
      obtain ⟨isPlace, -⟩ := List.getElem?_eq_some_iff.mp isEntry
      have found := getElem?_eq_getElem (sameLength ▸ isPlace)
      obtain ⟨entry', isEntry', interval', isInterval', same⟩ := isRange place _ found
      obtain rfl : entry = entry' := Option.some.inj (isEntry.symm.trans isEntry')
      obtain rfl : interval = interval' := Option.some.inj (isInterval.symm.trans isInterval')
      exact ⟨_, found, same ▸ meets⟩

theorem new_spec (nonempty : entries ≠ []) (positive : 0 < dimension) :
    ∃ trees, new dimension entries = some (.ok { trees, values := entries.map (·.value) }) ∧
      trees.length = dimension ∧
      ∀ index tree, trees[index]? = some tree -> Answers entries index tree := by
  obtain ⟨trees, mapped, sameLength, answers⟩ := mapM_spec (newTree entries)
    (List.range dimension) (Answers entries) (by
      intro index inside
      rw [getElem_range]
      exact newTree_answers admitted nonempty (by simpa using inside))
  refine ⟨trees, ?_, by simpa using sameLength, answers⟩
  have enough : entries.any (·.intervals.length < dimension) = false := by
    rw [any_eq_false]
    intro entry mem
    simp [admitted.length_eq entry mem]
  rw [new, if_neg (by omega), enough, if_neg (by simp), mapped]
  rfl

end Build

theorem mem_foldl_and (first : BitArray) (rest : List BitArray) (index : Nat) :
    index ∈ rest.foldl BitArray.and first ↔ index ∈ first ∧ ∀ bits ∈ rest, index ∈ bits := by
  induction rest generalizing first with
  | nil => simp
  | cons bits rest ih =>
    rw [foldl_cons, ih, BitArray.and]
    simp [and_assoc]

theorem andAll_spec (nonempty : results ≠ []) : ∃ bits, andAll results = some bits ∧
      ∀ index, index ∈ bits ↔ ∀ result ∈ results, index ∈ result := by
  cases results with
  | nil => exact absurd rfl nonempty
  | cons first rest =>
    refine ⟨_, rfl, fun index => ?_⟩
    rw [mem_foldl_and]
    simp

/-- The values of the indices done so far, each identity once. -/
structure Taken (id : V -> UInt64) (values : List V) (done : List Nat)
    (taken : List V × List UInt64) : Prop where
  nodup : (taken.1.map id).Nodup
  ids : ∀ number, number ∈ taken.2 ↔ number ∈ taken.1.map id
  sound : ∀ value ∈ taken.1, ∃ index ∈ done, values[index]? = some value
  complete : ∀ index ∈ done, ∀ value ∈ values[index]?, id value ∈ taken.1.map id

section Take

variable {id : V -> UInt64}

theorem Taken.takeValue (holds : Taken id values done taken) (inside : index < values.length) :
    ∃ after, takeValue id values taken index = some after ∧
      Taken id values (done ++ [index]) after := by
  have found := getElem?_eq_getElem inside
  obtain ⟨nodup, ids, sound, complete⟩ := holds
  refine ⟨_, Option.map_eq_some_iff.mpr ⟨_, found, rfl⟩, ?_⟩
  have doneOrNew : ∀ other ∈ done ++ [index], other ∈ done ∨ other = index := by simp
  split_ifs with known
  · refine ⟨nodup, ids, ?_, ?_⟩
    · intro value mem
      obtain ⟨other, isDone, isValue⟩ := sound value mem
      exact ⟨other, by simp [isDone], isValue⟩
    · intro other mem value isValue
      rcases doneOrNew other mem with isDone | rfl
      · exact complete other isDone value isValue
      · obtain rfl := Option.some.inj (found.symm.trans isValue)
        exact (ids _).mp known
  · refine ⟨?_, ?_, ?_, ?_⟩
    · rw [map_append]
      refine List.Nodup.append nodup (nodup_singleton _) ?_
      intro number old new
      obtain rfl := mem_singleton.mp new
      exact known ((ids _).mpr old)
    · intro number
      rw [mem_cons, ids]
      simp [or_comm]
    · intro value mem
      rcases mem_append.mp mem with old | new
      · obtain ⟨other, isDone, isValue⟩ := sound value old
        exact ⟨other, by simp [isDone], isValue⟩
      · obtain rfl := mem_singleton.mp new
        exact ⟨index, by simp, found⟩
    · intro other mem value isValue
      rcases doneOrNew other mem with isDone | rfl
      · have old := complete other isDone value isValue
        rw [map_append]
        exact mem_append_left _ old
      · obtain rfl := Option.some.inj (found.symm.trans isValue)
        simp

/-- The loop over the indices. -/
theorem Taken.foldlM (inside : ∀ index ∈ indices, index < values.length)
    (holds : Taken id values done taken) :
    ∃ final, indices.foldlM (Segmenttree.takeValue id values) taken = some final ∧
      Taken id values (done ++ indices) final := by
  induction indices generalizing done taken with
  | nil => exact ⟨taken, rfl, by rwa [append_nil]⟩
  | cons index rest ih =>
    obtain ⟨after, stepped, stillHolds⟩ := holds.takeValue (inside index (by simp))
    obtain ⟨final, ran, holdsFinally⟩ := ih
      (fun other mem => inside other (by simp [mem])) stillHolds
    refine ⟨final, ?_, ?_⟩
    · rw [foldlM_cons, stepped]
      exact ran
    · rwa [append_cons]

end Take

variable {entries : List (Entry V)} {queried : List Interval} {dimension : Nat}

theorem mapM_query {trees : List SubTree}
    (answers : ∀ index tree, trees[index]? = some tree -> Answers entries index tree)
    (closed : ∀ other ∈ queried, other.Closed ∧ other.lower ≠ positiveInfinity)
    (sameLength : queried.length = trees.length) : ∃ results,
      (trees.zip queried).mapM (fun (subTree, interval) =>
        query subTree (intervalToIntegerRange interval)) = some results ∧
      results.length = queried.length ∧
      ∀ (dimension : Nat) bits, results[dimension]? = some bits -> ∃ other ∈ queried[dimension]?,
          ∀ index, index ∈ bits ↔ MeetsAt entries dimension index other := by
  obtain ⟨results, mapped, length_eq, known⟩ := mapM_spec (fun (pair : SubTree × Interval) =>
      query pair.1 (intervalToIntegerRange pair.2))
    (trees.zip queried)
    (fun dimension bits => ∃ other ∈ queried[dimension]?,
      ∀ index, index ∈ bits ↔ MeetsAt entries dimension index other) (by
      intro dimension inside
      have isTree : dimension < trees.length := by simp at inside; omega
      have isQueried : dimension < queried.length := by omega
      obtain ⟨closedOther, finite⟩ := closed queried[dimension] (getElem_mem isQueried)
      obtain ⟨bits, asked, members⟩ := answers dimension trees[dimension]
        (getElem?_eq_getElem isTree) queried[dimension] closedOther finite
      refine ⟨bits, ?_, queried[dimension], getElem?_eq_getElem isQueried, members⟩
      simpa using asked)
  exact ⟨results, mapped, by simpa [sameLength] using length_eq, known⟩

/-- The entry at an index meets the query in every dimension. -/
theorem meetsAt_iff_forall₂ (positive : 0 < dimension) (admitted : Admitted dimension entries)
    (sameLength : queried.length = dimension) (index : Nat) :
    (∀ place (inside : place < queried.length), MeetsAt entries place index queried[place]) ↔
    ∃ entry ∈ entries[index]?, List.Forall₂ Interval.Meets entry.intervals queried := by
  constructor
  · intro meets
    obtain ⟨entry, isEntry, -⟩ := meets 0 (by omega)
    have length_eq := admitted.length_eq entry (mem_of_getElem? isEntry)
    refine ⟨entry, isEntry, forall₂_iff_get.mpr ⟨by omega, ?_⟩⟩
    intro place left right
    obtain ⟨other, isOther, interval, isInterval, meet⟩ := meets place right
    obtain rfl := Option.some.inj (isEntry.symm.trans isOther)
    obtain ⟨_, rfl⟩ := List.getElem?_eq_some_iff.mp isInterval
    exact meet
  · rintro ⟨entry, isEntry, meets⟩ place inside
    obtain ⟨length_eq, meet⟩ := forall₂_iff_get.mp meets
    have isPlace : place < entry.intervals.length := by omega
    exact ⟨entry, isEntry, entry.intervals[place],
      getElem?_eq_getElem isPlace, meet place isPlace inside⟩

theorem query_indices (positive : 0 < dimension)
    (admitted : Admitted dimension entries) {trees : List SubTree}
    (trees_length : trees.length = dimension)
    (answers : ∀ index tree, trees[index]? = some tree -> Answers entries index tree)
    (sameLength : queried.length = dimension)
    (closed : ∀ other ∈ queried, other.Closed ∧ other.lower ≠ positiveInfinity) : ∃ results bits,
      (trees.zip queried).mapM (fun (subTree, interval) =>
        query subTree (intervalToIntegerRange interval)) = some results ∧
      andAll results = some bits ∧
      ∀ index, index ∈ bits ↔ ∃ entry ∈ entries[index]?,
        List.Forall₂ Interval.Meets entry.intervals queried := by
  obtain ⟨results, mapped, results_length, members⟩ := mapM_query answers closed (by omega)
  obtain ⟨bits, anded, isAnd⟩ : ∃ bits, andAll results = some bits ∧
      ∀ index, index ∈ bits ↔ ∀ result ∈ results, index ∈ result := by
    apply andAll_spec
    rintro rfl
    simp only [length_nil] at results_length
    omega
  refine ⟨results, bits, mapped, anded, fun index => ?_⟩
  rw [isAnd, ← meetsAt_iff_forall₂ positive admitted sameLength]
  constructor
  · intro found place inside
    have isResult := getElem?_eq_getElem (show place < results.length by omega)
    obtain ⟨other, isOther, iff⟩ := members place _ isResult
    obtain ⟨_, rfl⟩ := List.getElem?_eq_some_iff.mp isOther
    exact (iff index).mp (found _ (mem_of_getElem? isResult))
  · intro meets result mem
    obtain ⟨place, isPlace, rfl⟩ := getElem_of_mem mem
    obtain ⟨other, isOther, iff⟩ := members place _ (getElem?_eq_getElem isPlace)
    obtain ⟨isQueried, rfl⟩ := List.getElem?_eq_some_iff.mp isOther
    exact (iff index).mpr (meets place isQueried)

theorem new_nil (positive : 0 < dimension) :
    ∃ trees, new dimension ([] : List (Entry V)) = some (.ok { trees, values := [] }) := by
  obtain ⟨trees, mapped, -, -⟩ := mapM_spec
    (newTree ([] : List (Entry V))) (List.range dimension) (fun _ _ => True)
    (fun _ _ => ⟨.nil, rfl, trivial⟩)
  refine ⟨trees, ?_⟩
  rw [new, if_neg (by omega), if_neg (by simp), mapped]
  rfl

/-- The tree of storable closed intervals answers every query with the values of
the entries that meet it in every dimension, each identity once. -/
theorem query_returns_meeting (id : V -> UInt64) {dimension : Nat} (positive : 0 < dimension)
    {entries : List (Entry V)} (admitted : Admitted dimension entries) {queried : List Interval}
    (sameLength : queried.length = dimension)
    (closed : ∀ other ∈ queried, other.Closed ∧ other.lower ≠ positiveInfinity) :
    ∃ tree values, new dimension entries = some (.ok tree) ∧ tree.query id queried = some values ∧
      (values.map id).Nodup ∧
      (∀ value ∈ values, ∃ entry ∈ entries, entry.value = value ∧
        List.Forall₂ Interval.Meets entry.intervals queried) ∧
      ∀ entry ∈ entries, List.Forall₂ Interval.Meets entry.intervals queried ->
        id entry.value ∈ values.map id := by
  by_cases empty : entries = []
  · subst empty
    obtain ⟨trees, made⟩ := new_nil (V := V) positive
    exact ⟨_, [], made, if_pos (.inr rfl), by simp, by simp, by simp⟩
  · obtain ⟨trees, made, trees_length, answers⟩ := new_spec admitted empty positive
    obtain ⟨results, bits, mapped, anded, members⟩ := query_indices positive
      admitted trees_length answers sameLength closed
    have valueAt : ∀ index : Nat,
        (entries.map (·.value))[index]? = (entries[index]?).map (·.value) :=
      fun index => List.getElem?_map
    have inside : ∀ index ∈ bits, index < (entries.map (·.value)).length := by
      intro index mem
      obtain ⟨entry, isEntry, -⟩ := (members index).mp mem
      rw [List.length_map]
      exact (List.getElem?_eq_some_iff.mp isEntry).1
    have initially : Taken id (entries.map (·.value)) [] ([], []) :=
      ⟨by simp, by simp, by simp, by simp⟩
    obtain ⟨taken, ran, holds⟩ := initially.foldlM inside
    rw [List.nil_append] at holds
    refine ⟨_, taken.1, made, ?_, holds.nodup, ?_, ?_⟩
    · have notEmpty : ¬ (queried.length ≠ trees.length ∨ (entries.map (·.value)).length = 0) := by
        simp [sameLength, trees_length, empty]
      simp only [SegmentTree.query, if_neg notEmpty, mapped, anded, ran, some_bind, Option.pure_def]
    · intro value mem
      obtain ⟨index, found, isValue⟩ := holds.sound value mem
      obtain ⟨entry, isEntry, meets⟩ := (members index).mp found
      rw [valueAt, isEntry, Option.map_some] at isValue
      exact ⟨entry, List.mem_of_getElem? isEntry, Option.some.inj isValue, meets⟩
    · intro entry mem meets
      obtain ⟨index, inside, rfl⟩ := List.getElem_of_mem mem
      have isEntry := List.getElem?_eq_getElem inside
      apply holds.complete index ((members index).mpr ⟨_, isEntry, meets⟩)
      rw [valueAt, isEntry]
      rfl

/-- A query in the plane. -/
theorem query_returns_meeting_plane :
    ∃ tree values,
      new 2 [⟨[.closed 1 5, .closed 0 9], 7⟩,
        ⟨[.closed 3 8, .closed 20 30], (8 : UInt64)⟩] = some (.ok tree) ∧
      tree.query (fun value => value) [.closed 4 4, .closed 9 12] = some values ∧
      (values.map fun value => value).Nodup := by
  have admitted : Admitted 2 [⟨[.closed 1 5, .closed 0 9], 7⟩,
      ⟨[.closed 3 8, .closed 20 30], (8 : UInt64)⟩] := by
    refine ⟨by simp, ?_⟩
    simp only [List.forall_mem_cons, List.not_mem_nil, false_implies, implies_true, and_true]
    exact ⟨⟨⟨⟨rfl, rfl, by decide⟩, by decide, by decide⟩,
      ⟨rfl, rfl, by decide⟩, by decide, by decide⟩,
      ⟨⟨rfl, rfl, by decide⟩, by decide, by decide⟩,
      ⟨rfl, rfl, by decide⟩, by decide, by decide⟩
  obtain ⟨tree, values, made, queried, nodup, -⟩ := query_returns_meeting
    (fun value : UInt64 => value) (Nat.succ_pos 1) admitted
    (show [Interval.closed 4 4, .closed 9 12].length = 2 from rfl) (by
      simp only [List.forall_mem_cons, List.not_mem_nil, false_implies, implies_true, and_true]
      exact ⟨⟨⟨rfl, rfl, by decide⟩, by decide⟩, ⟨rfl, rfl, by decide⟩, by decide⟩)
  exact ⟨tree, values, made, queried, nodup⟩

/-- Endpoints in the wrong order find an entry without a common point; the
largest endpoint finds nothing; an interval from the smallest one on is not
found behind the interval of this endpoint alone. -/
theorem extreme_queries_differ :
    ((new 1 [⟨[.closed 1 5], (7 : UInt64)⟩]).bind fun made =>
      made.toOption.bind fun tree =>
        tree.query (fun value => value) [.closed 4 2]) = some [7] ∧
    ((new 1 [⟨[.closed 0 positiveInfinity], (7 : UInt64)⟩]).bind fun made =>
      made.toOption.bind fun tree => tree.query (fun value => value)
        [.closed positiveInfinity positiveInfinity]) = some [] ∧
    ((new 1 [⟨[.closed negativeInfinity negativeInfinity], (7 : UInt64)⟩,
        ⟨[.closed negativeInfinity 0], 8⟩]).bind fun made =>
      made.toOption.bind fun tree =>
        tree.query (fun value => value) [.closed 0 0]) = some [] := by
  decide +kernel

end Metaflow.Segmenttree
