import Mathlib.Data.List.Sort

/-!
# The best of the matching elements

A list sorted by falling keys is scanned for the first element that matches.
The scan finds an element of the largest key of all that match, and of those
the one that comes first in the list before it was sorted.
-/

namespace Metaflow.Library

variable {α : Type*} {key : α -> Nat} {match? : α -> Bool}
  {list : List α} {found : α}

/-- An element that matches, and none that matches has a larger key. -/
structure IsBest (key : α -> Nat) (match? : α -> Bool) (list : List α) (found : α) : Prop where
  mem : found ∈ list
  matched : match? found
  largest : ∀ other ∈ list, match? other -> key other ≤ key found

/-- The first of the best elements. -/
structure IsFirstBest (key : α -> Nat) (match? : α -> Bool) (list : List α) (found : α) : Prop where
  matched : match? found
  split : ∃ before after, list = before ++ found :: after ∧
    (∀ other ∈ before, match? other -> key other < key found) ∧
      ∀ other ∈ after, match? other -> key other ≤ key found

theorem IsFirstBest.isBest (first : IsFirstBest key match? list found) :
    IsBest key match? list found := by
  obtain ⟨before, after, rfl, front, back⟩ := first.split
  refine ⟨by simp, first.matched, fun other mem matched => ?_⟩
  rcases List.mem_append.mp mem with mem | mem
  · exact Nat.le_of_lt (front other mem matched)
  · rcases List.mem_cons.mp mem with rfl | mem
    · exact Nat.le_refl _
    · exact back other mem matched

/-- The answer is one of the best elements, or no element matches. -/
def FindsBest (key : α -> Nat) (match? : α -> Bool) (list : List α) : Option α -> Prop
  | some found => IsBest key match? list found
  | none => ∀ other ∈ list, match? other = false

/-- The answer is the first of the best elements, or no element matches. -/
def FindsFirstBest (key : α -> Nat) (match? : α -> Bool) (list : List α) : Option α -> Prop
  | some found => IsFirstBest key match? list found
  | none => ∀ other ∈ list, match? other = false

theorem IsFirstBest.cons (smaller : match? head -> key head < key found)
    (first : IsFirstBest key match? list found) :
    IsFirstBest key match? (head :: list) found := by
  obtain ⟨before, after, rfl, front, back⟩ := first.split
  refine ⟨first.matched, head :: before, after, rfl, ?_, back⟩
  rintro other (_ | ⟨_, mem⟩) matched
  · exact smaller matched
  · exact front other mem matched

theorem IsFirstBest.of_filter (first : IsFirstBest key match? (list.filter keep) found) :
    IsFirstBest key (fun element => keep element && match? element) list
      found := by
  obtain ⟨before, after, isSplit, front, back⟩ := first.split
  obtain ⟨front', tail, rfl, rfl, isTail⟩ := List.filter_eq_append_iff.mp isSplit
  obtain ⟨skipped, back', rfl, noneKept, kept, rfl⟩ := List.filter_eq_cons_iff.mp isTail
  refine ⟨by simp [kept, first.matched], front' ++ skipped, back', by simp, ?_, ?_⟩
  · intro other mem both
    obtain ⟨isKept, matched⟩ := Bool.and_eq_true_iff.mp both
    rcases List.mem_append.mp mem with mem | mem
    · exact front other (List.mem_filter.mpr ⟨mem, isKept⟩) matched
    · exact absurd isKept (noneKept other mem)
  · intro other mem both
    obtain ⟨isKept, matched⟩ := Bool.and_eq_true_iff.mp both
    exact back other (List.mem_filter.mpr ⟨mem, isKept⟩) matched

theorem FindsFirstBest.of_filter (finds : FindsFirstBest key match? (list.filter keep) answer) :
    FindsFirstBest key (fun element => keep element && match? element) list
      answer := by
  cases answer with
  | some found => exact IsFirstBest.of_filter finds
  | none =>
    intro other mem
    by_cases kept : keep other
    · simp [finds other (List.mem_filter.mpr ⟨mem, kept⟩)]
    · simp [kept]

/-- An element of a list is before, at or behind the place of another. -/
theorem append_cons_cases (same : before ++ first :: after = before' ++ second :: after') :
    first = second ∨ first ∈ before' ∨ second ∈ before ∧ first ∈ after' := by
  rcases List.append_eq_append_iff.mp same with
    ⟨between, rfl, isTail⟩ | ⟨between, rfl, isTail⟩
  · rcases List.cons_eq_append_iff.mp isTail with ⟨rfl, isTail⟩ | ⟨rest, rfl, _⟩
    · exact .inl (List.cons.inj isTail).1
    · exact .inr (.inl (by simp))
  · rcases List.cons_eq_append_iff.mp isTail with ⟨rfl, isTail⟩ | ⟨rest, rfl, rfl⟩
    · exact .inl (List.cons.inj isTail).1.symm
    · exact .inr (.inr ⟨by simp, by simp⟩)

theorem IsFirstBest.unique (first : IsFirstBest key match? list found)
    (first' : IsFirstBest key match? list other) : found = other := by
  obtain ⟨before, after, isSplit, front, _⟩ := first.split
  obtain ⟨before', after', isSplit', front', _⟩ := first'.split
  have notSmaller := first.isBest.largest other first'.isBest.mem first'.matched
  have notLarger := first'.isBest.largest found first.isBest.mem first.matched
  rcases append_cons_cases (isSplit.symm.trans isSplit') with
    same | inFront | ⟨inFront, _⟩
  · exact same
  · exact absurd (front' found inFront first.matched) (Nat.not_lt_of_le notSmaller)
  · exact absurd (front other inFront first'.matched) (Nat.not_lt_of_le notLarger)

/-- The first of the best matches is wanted if every other match comes behind
one that is. -/
theorem FindsFirstBest.findsBest_iff (matchWanted : ∀ element, want element -> match? element)
    (finds : FindsFirstBest key match? list answer) :
    FindsBest key want list answer ↔ ∀ before stray after, list = before ++ stray :: after ->
        match? stray -> want stray = false ->
        (∃ other ∈ before, want other ∧ key stray ≤ key other) ∨
          ∃ other ∈ after, want other ∧ key stray < key other := by
  cases answer with
  | none =>
    have nothing : FindsBest key want list none := by
      intro other mem
      have notMatched := finds other mem
      by_contra wanted
      rw [matchWanted other (by simpa using wanted)] at notMatched
      cases notMatched
    refine ⟨fun _ before stray after isSplit matched _ => ?_, fun _ => nothing⟩
    rw [finds stray (by simp [isSplit])] at matched
    cases matched
  | some found =>
    have first : IsFirstBest key match? list found := finds
    obtain ⟨before, after, isSplit, front, back⟩ := first.split
    constructor
    · intro best before' stray after' isSplit' matched notWanted
      have wanted : want found := best.matched
      have different : found ≠ stray := by
        rintro rfl
        rw [wanted] at notWanted
        cases notWanted
      rcases append_cons_cases (isSplit.symm.trans isSplit') with
        same | inFront | ⟨strayInFront, behind⟩
      · exact absurd same different
      · exact .inl ⟨found, inFront, wanted,
          first.isBest.largest stray (by simp [isSplit']) matched⟩
      · exact .inr ⟨found, behind, wanted, front stray strayInFront matched⟩
    · intro covered
      by_cases wanted : want found
      · exact ⟨first.isBest.mem, wanted, fun other mem otherWanted =>
          first.isBest.largest other mem (matchWanted other otherWanted)⟩
      · rcases covered before found after isSplit first.matched (by simpa using wanted) with
          ⟨other, mem, otherWanted, larger⟩ | ⟨other, mem, otherWanted, larger⟩
        · have := front other mem (matchWanted other otherWanted)
          omega
        · have := back other mem (matchWanted other otherWanted)
          omega

/-- The order of falling keys. -/
def falling (key : α -> Nat) (first second : α) : Prop :=
  key second ≤ key first

instance (key : α -> Nat) : DecidableRel (falling key) :=
  fun first second => inferInstanceAs (Decidable (key second ≤ key first))

instance (key : α -> Nat) : Std.Total (falling key) :=
  ⟨fun first second => Nat.le_total (key second) (key first)⟩

instance (key : α -> Nat) : IsTrans α (falling key) :=
  ⟨fun _ _ _ front back => Nat.le_trans back front⟩

/-- The scan of a sorted list after one more element has been inserted. -/
theorem find?_orderedInsert (head : α) (sorted : list.Pairwise (falling key)) :
    (list.orderedInsert (falling key) head).find? match? =
      if match? head then
        match list.find? match? with
        | some found => if key found ≤ key head then some head else some found
        | none => some head
      else list.find? match? := by
  induction list with
  | nil => cases matched : match? head <;> simp [matched]
  | cons second rest ih =>
    obtain ⟨secondLargest, restSorted⟩ := List.pairwise_cons.mp sorted
    by_cases before : falling key head second
    · rw [List.orderedInsert_cons_of_le _ _ before]
      cases matched : match? head with
      | false => simp [matched]
      | true =>
        cases isFound : (second :: rest).find? match? with
        | none => simp [matched]
        | some found =>
          have mem := List.mem_of_find?_eq_some isFound
          have smaller : key found ≤ key head := by
            rcases List.mem_cons.mp mem with rfl | mem
            · exact before
            · exact Nat.le_trans (secondLargest found mem) before
          simp [matched, smaller]
    · have larger : ¬ key second ≤ key head := before
      rw [List.orderedInsert_of_not_le _ _ before]
      cases secondMatches : match? second with
      | true => simp [secondMatches, larger]
      | false => simp [secondMatches, ih restSorted]

/-- The scan of the sorted list finds the first of the best elements. -/
theorem find?_insertionSort (list : List α) :
    FindsFirstBest key match? list ((list.insertionSort (falling key)).find? match?) := by
  induction list with
  | nil => simp [FindsFirstBest]
  | cons head rest ih =>
    rw [List.insertionSort_cons, find?_orderedInsert head (List.pairwise_insertionSort _ _)]
    cases matched : match? head with
    | false =>
      cases isFound : (rest.insertionSort (falling key)).find? match? with
      | none =>
        rw [isFound] at ih
        simpa [FindsFirstBest, matched] using ih
      | some found =>
        rw [isFound] at ih
        exact IsFirstBest.cons (by simp [matched]) ih
    | true =>
      cases isFound : (rest.insertionSort (falling key)).find? match? with
      | none =>
        rw [isFound] at ih
        refine ⟨matched, [], rest, rfl, by simp, ?_⟩
        intro other mem otherMatches
        rw [ih other mem] at otherMatches
        cases otherMatches
      | some found =>
        rw [isFound] at ih
        have first : IsFirstBest key match? rest found := ih
        by_cases smaller : key found ≤ key head
        · simp only [if_true, smaller]
          refine ⟨matched, [], rest, rfl, by simp, ?_⟩
          intro other mem otherMatches
          exact Nat.le_trans (first.isBest.largest other mem otherMatches) smaller
        · simp only [if_true, smaller, if_false]
          exact first.cons fun _ => Nat.lt_of_not_le smaller

section Marked

variable {ε : Type*} [DecidableEq ε] {marked : α -> Bool} {group : α -> ε} {common wanted : ε}

/-- The marked elements for the common list, and those of the group that are not
marked for another one. -/
def IsWanted (marked : α -> Bool) (group : α -> ε) (common wanted : ε) (element : α) : Prop :=
  if wanted = common then marked element else marked element = false ∧ group element = wanted

instance : DecidablePred (IsWanted marked group common wanted) :=
  fun element => by
    unfold IsWanted
    infer_instance

/-- Only the common list has elements that its search is not meant for. -/
theorem inList_iff (marked : α -> Bool) (group : α -> ε) (common wanted : ε) (element : α) :
    (if marked element then common else group element) = wanted ↔
      IsWanted marked group common wanted element ∨
        wanted = common ∧ marked element = false ∧ group element = common := by
  unfold IsWanted
  have other : ¬ wanted = common -> ¬ common = wanted := fun different same => different same.symm
  by_cases isMarked : marked element <;> by_cases isCommon : wanted = common <;>
    simp [isMarked, isCommon, other]

/-- The search finds one of the best it is meant for, unless an unmarked element
of the group of the common list matches and comes before them. -/
theorem FindsFirstBest.findsWanted_iff
    (finds : FindsFirstBest key (fun element =>
      decide ((if marked element then common else group element) = wanted) && match? element)
      list answer) :
    FindsBest key (fun element =>
        decide (IsWanted marked group common wanted element) && match? element) list answer ↔
      (wanted = common -> ∀ before stray after, list = before ++ stray :: after ->
          marked stray = false ∧ group stray = common ∧ match? stray ->
          (∃ other ∈ before, marked other ∧ match? other ∧ key stray ≤ key other) ∨
          ∃ other ∈ after, marked other ∧ match? other ∧ key stray < key other) := by
  rw [finds.findsBest_iff fun element => by
    simp only [Bool.and_eq_true, decide_eq_true_eq, inList_iff]
    exact fun hit => ⟨.inl hit.1, hit.2⟩]
  simp only [Bool.and_eq_true, Bool.and_eq_false_iff, decide_eq_true_eq, decide_eq_false_iff_not,
    inList_iff]
  constructor
  · rintro covered rfl before stray after isSplit ⟨notMarked, isGroup, matched⟩
    have strayed := covered before stray after isSplit ⟨.inr ⟨rfl, notMarked, isGroup⟩, matched⟩
      (.inl (by simp [IsWanted, notMarked]))
    simpa [IsWanted, and_assoc] using strayed
  · rintro covered before stray after isSplit ⟨inList, matched⟩ notWanted
    obtain ⟨rfl, notMarked, isGroup⟩ := inList.resolve_left
      (notWanted.resolve_right (by simp [matched]))
    simpa [IsWanted, and_assoc] using covered rfl before stray after isSplit
      ⟨notMarked, isGroup, matched⟩

end Marked
end Metaflow.Library
