import Metaflow.Datatype.PortRange
import Mathlib.Data.List.Sort

/-!
# Lists of ports

`utils.go`: `SplitPort2Int` sorts port ranges by their lower bounds and merges
each with the next if they meet, which is decided in 16 bits. A range from a
higher to a lower port holds no port and is not set right.
-/

namespace Metaflow.Datatype

open List

/-- The number that a word of digits stands for. -/
def digitsValue (value : Nat) : List Char -> Option Nat
  | [] => some value
  | digit :: rest =>
    if digit.isDigit then digitsValue (10 * value + (digit.toNat - '0'.toNat)) rest else none

/-- A number with or without a plus sign; the caller has split at the minus signs. -/
def unsigned : List Char -> Option Nat
  | [] | ['+'] => none
  | '+' :: digits => digitsValue 0 digits
  | digits => digitsValue 0 digits

/-- `strconv.Atoi` -/
def atoi (src : List Char) : Option Nat :=
  (unsigned src).filter (· < 9223372036854775808)

/-- The bounds in a part of the list, a port or two ports with a minus sign between them. -/
def readBounds (parse : List Char -> Option Nat) (src : List Char) : Option (Nat × Nat) :=
  match src.splitOn '-' with
  | min :: max :: _ => do return (<- parse min, <- parse max)
  | _ => do
      let port <- parse src
      return (port, port)

/-- `NewPortRange(uint16(min), uint16(max))` -/
def toPortRange (bounds : Nat × Nat) : PortRange :=
  ⟨UInt16.ofNat bounds.1, UInt16.ofNat bounds.2⟩

/-- A part that is no number adds nothing. -/
def getPorts (src : List Char) : List PortRange :=
  ((readBounds atoi src).map toPortRange).toList

/-- The range for two that meet. -/
def PortRange.join (current next : PortRange) : PortRange :=
  ⟨current.min, if current.max > next.max then current.max else next.max⟩

/-- The loop over the sorted ranges; where two meet, the next one is replaced
and `current` is deleted. -/
def mergeFrom (meets : PortRange -> PortRange -> Option Bool) (current : PortRange) :
    List PortRange -> Option (List PortRange)
  | [] => some [current]
  | next :: rest => do
      if <- meets current next then mergeFrom meets (current.join next) rest
      else return current :: (<- mergeFrom meets next rest)

def mergePorts (meets : PortRange -> PortRange -> Option Bool) :
    List PortRange -> Option (List PortRange)
  | [] => some []
  | first :: rest => mergeFrom meets first rest

/-- `ports[i].Max()+1 >= ports[i+1].Min()`, where the sum has 16 bits. -/
def meetsWrapping (current next : PortRange) : Option Bool :=
  some (current.max + 1 ≥ next.min)

/-- `SplitPort2Int`, for any way to sort. -/
def splitPort2Int (sort : List PortRange -> List PortRange) (src : List Char) :
    Option (List PortRange) :=
  if src = [] then some [⟨0, 65535⟩]
  else mergePorts meetsWrapping (sort ((src.splitOn ',').flatMap getPorts))

/-- The ports written in a list. -/
def Written (parse : List Char -> Option Nat) (src : List Char) (port : Nat) : Prop :=
  if src = [] then port ≤ 65535
  else ∃ part ∈ src.splitOn ',', ∃ bounds, readBounds parse part = some bounds ∧
    bounds.1 ≤ port ∧ port ≤ bounds.2

/-- Ascending ranges, none empty, that neither overlap nor touch. -/
structure Separated (ranges : List PortRange) : Prop where
  ordered : ∀ range ∈ ranges, range.min.toNat ≤ range.max.toNat
  apart : ranges.Pairwise fun range next => range.max.toNat + 1 < next.min.toNat

/-- Sorted by the lower bounds. -/
def SortedByMin (ranges : List PortRange) : Prop :=
  ranges.Pairwise fun range next => range.min.toNat ≤ next.min.toNat

/-- Ranges from a higher to a lower port vanish in others: they begin where
those in front reach, or just behind their own upper bound, where a later range
begins that holds a port. -/
def Absorbed (reach : Nat) : List PortRange -> Prop
  | [] => True
  | range :: rest =>
    (range.min.toNat ≤ range.max.toNat ∨ range.min.toNat ≤ reach ∨
      range.min.toNat = range.max.toNat + 1 ∧
        ∃ next ∈ rest, next.min.toNat = range.min.toNat ∧ next.Contains next.min.toNat) ∧
    Absorbed (max reach (range.max.toNat + 1)) rest

/-- The merged ranges, where bounds are compared as numbers. -/
def joined (current : PortRange) : List PortRange -> List PortRange
  | [] => [current]
  | next :: rest =>
    if next.min.toNat ≤ current.max.toNat + 1 then joined (current.join next) rest
    else current :: joined next rest

section

variable {current next range : PortRange} {rest : List PortRange}

@[simp] theorem min_join : (current.join next).min = current.min :=
  rfl

@[simp] theorem toNat_max_join :
    (current.join next).max.toNat = max current.max.toNat next.max.toNat := by
  unfold PortRange.join
  split_ifs with above
  · exact (Nat.max_eq_left (Nat.le_of_lt (UInt16.lt_iff_toNat_lt.mp above))).symm
  · have atMost : current.max ≤ next.max := UInt16.not_lt.mp above
    exact (Nat.max_eq_right (UInt16.le_iff_toNat_le.mp atMost)).symm

theorem SortedByMin.join (sorted : SortedByMin (current :: next :: rest)) :
    SortedByMin (current.join next :: rest) := by
  obtain ⟨first, others⟩ := pairwise_cons.mp sorted
  exact pairwise_cons.mpr ⟨fun range mem => first range (mem_cons_of_mem next mem),
    (pairwise_cons.mp others).2⟩

theorem min_le_of_mem_joined (sorted : SortedByMin (current :: rest))
    (mem : range ∈ joined current rest) : current.min.toNat ≤ range.min.toNat := by
  induction rest generalizing current with
  | nil => rw [mem_singleton.mp mem]
  | cons next rest ih =>
    rw [joined] at mem
    split_ifs at mem
    · have atLeast := ih sorted.join mem
      rwa [min_join] at atLeast
    · rcases mem_cons.mp mem with rfl | later
      · exact Nat.le_refl _
      · obtain ⟨first, others⟩ := pairwise_cons.mp sorted
        exact Nat.le_trans (first next mem_cons_self) (ih others later)

theorem apart_joined (sorted : SortedByMin (current :: rest)) :
    (joined current rest).Pairwise fun range next => range.max.toNat + 1 < next.min.toNat := by
  induction rest generalizing current with
  | nil => exact pairwise_singleton _ current
  | cons next rest ih =>
    rw [joined]
    split_ifs with meeting
    · exact ih sorted.join
    · have others := (pairwise_cons.mp sorted).2
      refine pairwise_cons.mpr ⟨fun range mem => ?_, ih others⟩
      have atLeast := min_le_of_mem_joined others mem
      omega

theorem contains_join_iff (sorted : current.min.toNat ≤ next.min.toNat)
    (meeting : next.min.toNat ≤ current.max.toNat + 1) (port : Nat) :
    (current.join next).Contains port ↔ current.Contains port ∨ next.Contains port := by
  simp only [PortRange.Contains, min_join, toNat_max_join]
  omega

/-- Merging keeps the ports. -/
theorem exists_contains_joined_iff (sorted : SortedByMin (current :: rest)) (port : Nat) :
    (∃ range ∈ joined current rest, range.Contains port) ↔
      ∃ range ∈ current :: rest, range.Contains port := by
  induction rest generalizing current with
  | nil => rfl
  | cons next rest ih =>
    obtain ⟨first, others⟩ := pairwise_cons.mp sorted
    rw [joined]
    split_ifs with meeting
    · rw [ih sorted.join]
      simp only [exists_mem_cons_iff, ← or_assoc,
        contains_join_iff (first next mem_cons_self) meeting]
    · simp only [exists_mem_cons_iff, ih others]

/-- The first range of the list is the one condition that merging changes. -/
theorem absorbed_join_iff (fresh : reach < current.min.toNat ∨ reach = 0)
    (sorted : current.min.toNat ≤ next.min.toNat)
    (meeting : next.min.toNat ≤ current.max.toNat + 1) :
    Absorbed reach (current.join next :: rest) ↔ Absorbed reach (current :: next :: rest) := by
  have reaches : max reach (max current.max.toNat next.max.toNat + 1) =
      max (max reach (current.max.toNat + 1)) (next.max.toNat + 1) := by omega
  simp only [Absorbed, exists_mem_cons_iff, min_join, toNat_max_join, reaches, PortRange.Contains]
  constructor
  · rintro ⟨first, others⟩
    refine ⟨?_, Or.inr (Or.inl (Nat.le_trans meeting (Nat.le_max_right _ _))), others⟩
    rcases first with holds | touched | ⟨behind, later⟩
    · by_cases own : current.min.toNat ≤ current.max.toNat
      · exact Or.inl own
      · exact Or.inr (Or.inr ⟨by omega, Or.inl (by omega)⟩)
    · exact Or.inr (Or.inl touched)
    · exact Or.inr (Or.inr ⟨by omega, Or.inr later⟩)
  · rintro ⟨first, -, others⟩
    refine ⟨?_, others⟩
    rcases first with holds | touched | ⟨behind, atNext | later⟩
    · exact Or.inl (by omega)
    · exact Or.inl (by omega)
    · exact Or.inl (by omega)
    · have grown : current.min.toNat ≤ max current.max.toNat next.max.toNat ∨
          current.min.toNat = max current.max.toNat next.max.toNat + 1 := by
        clear later
        omega
      exact grown.imp id fun stays => Or.inr ⟨stays, later⟩

/-- The merged ranges hold ports exactly if no empty range stays alone. -/
theorem ordered_joined_iff (fresh : reach < current.min.toNat ∨ reach = 0)
    (sorted : SortedByMin (current :: rest)) :
    (∀ range ∈ joined current rest, range.min.toNat ≤ range.max.toNat) ↔
      Absorbed reach (current :: rest) := by
  induction rest generalizing current reach with
  | nil =>
    simp only [joined, Absorbed, mem_singleton, forall_eq, not_mem_nil, false_and,
      exists_false, and_false, or_false, and_true]
    omega
  | cons next rest ih =>
    obtain ⟨first, others⟩ := pairwise_cons.mp sorted
    have firstNext := first next mem_cons_self
    rw [joined]
    split_ifs with meeting
    · rw [← absorbed_join_iff fresh firstNext meeting]
      exact ih fresh sorted.join
    · have behind : max reach (current.max.toNat + 1) < next.min.toNat := by omega
      have alone : ¬ (current.min.toNat = current.max.toNat + 1 ∧ ∃ later ∈ next :: rest,
          later.min.toNat = current.min.toNat ∧ later.Contains later.min.toNat) := by
        rintro ⟨touching, later, mem, starts, _⟩
        have atLeast : next.min.toNat ≤ later.min.toNat := by
          rcases mem_cons.mp mem with rfl | inRest
          · exact Nat.le_refl _
          · exact (pairwise_cons.mp others).1 later inRest
        omega
      rw [Absorbed, forall_mem_cons, ih (Or.inl behind) others]
      simp only [alone, or_false]
      have own : current.min.toNat ≤ reach -> current.min.toNat ≤ current.max.toNat := by omega
      exact and_congr_left' ⟨Or.inl, fun holds => holds.elim id own⟩

end

/-- All ranges merged. -/
def joinedAll : List PortRange -> List PortRange
  | [] => []
  | first :: rest => joined first rest

theorem separated_joinedAll_iff {ranges} (sorted : SortedByMin ranges) :
    Separated (joinedAll ranges) ↔ Absorbed 0 ranges := by
  cases ranges with
  | nil => exact iff_of_true ⟨by simp [joinedAll], List.Pairwise.nil⟩ trivial
  | cons first rest =>
    rw [← ordered_joined_iff (Or.inr rfl) sorted]
    exact ⟨Separated.ordered, fun ordered => ⟨ordered, apart_joined sorted⟩⟩

theorem exists_contains_joinedAll_iff {ranges} (sorted : SortedByMin ranges)
    (port : Nat) : (∃ range ∈ joinedAll ranges, range.Contains port) ↔
      ∃ range ∈ ranges, range.Contains port := by
  cases ranges with
  | nil => rfl
  | cons first rest => exact exists_contains_joined_iff sorted port

/-- A loop that compares as numbers do, as long as a condition on the rest of the list holds. -/
theorem mergePorts_eq_joinedAll {ranges} {guard : List PortRange -> Prop}
    (meetsIs : ∀ current next rest, guard (current :: next :: rest) ->
      meets current next = some (decide (next.min.toNat ≤ current.max.toNat + 1)))
    (join : ∀ current next rest, guard (current :: next :: rest) ->
      guard (current.join next :: rest))
    (tail : ∀ current rest, guard (current :: rest) -> guard rest) (holds : guard ranges) :
    mergePorts meets ranges = some (joinedAll ranges) := by
  cases ranges with
  | nil => rfl
  | cons current rest =>
    rw [mergePorts, joinedAll]
    induction rest generalizing current with
    | nil => rfl
    | cons next rest ih =>
      rw [mergeFrom, meetsIs current next rest holds, joined, Option.bind_eq_bind,
        Option.bind_some, ih _ (join current next rest holds), ih _ (tail current _ holds)]
      split_ifs <;> simp_all

/-- Behind a range that reaches the last port only ranges from port 0 on follow. -/
def NoWrap (range next : PortRange) : Prop :=
  range.max.toNat = 65535 -> next.min.toNat = 0

section

variable {current next : PortRange} {rest ranges out : List PortRange}

theorem meetsWrapping_of_noWrap (noWrap : NoWrap current next) :
    meetsWrapping current next = some (decide (next.min.toNat ≤ current.max.toNat + 1)) := by
  have small := current.max.toNat_lt
  have smallNext := next.min.toNat_lt
  rw [NoWrap] at noWrap
  rw [meetsWrapping, Option.some_inj, decide_eq_decide, ge_iff_le, UInt16.le_iff_toNat_le,
    UInt16.toNat_add]
  change _ ≤ (_ + 1) % 65536 ↔ _
  omega

theorem mergePorts_meetsWrapping (holds : ranges.Pairwise NoWrap) :
    mergePorts meetsWrapping ranges = some (joinedAll ranges) := by
  refine mergePorts_eq_joinedAll ?_ ?_ (fun _ _ => And.right ∘ pairwise_cons.mp) holds
  · intro current next rest holds
    exact meetsWrapping_of_noWrap ((pairwise_cons.mp holds).1 next mem_cons_self)
  · intro current next rest holds
    obtain ⟨first, others⟩ := pairwise_cons.mp holds
    obtain ⟨second, others⟩ := pairwise_cons.mp others
    refine pairwise_cons.mpr ⟨fun range mem reaches => ?_, others⟩
    rw [toNat_max_join] at reaches
    rcases Nat.le_total current.max.toNat next.max.toNat with below | above
    · exact second range mem (by omega)
    · exact first range (mem_cons_of_mem next mem) (by omega)

/-- What a turn of the loop can do. -/
theorem mergeFrom_cons_cases (ran : mergeFrom meets current (next :: rest) = some out) :
    (meets current next = some true ∧ mergeFrom meets (current.join next) rest = some out) ∨
      meets current next = some false ∧
        ∃ others, mergeFrom meets next rest = some others ∧ out = current :: others := by
  rw [mergeFrom] at ran
  obtain ⟨meeting, meetingIs, went⟩ := Option.bind_eq_some_iff.mp ran
  cases meeting with
  | true => exact Or.inl ⟨meetingIs, went⟩
  | false =>
    obtain ⟨others, othersIs, result⟩ := Option.bind_eq_some_iff.mp went
    exact Or.inr ⟨meetingIs, others, othersIs, (Option.some.inj result).symm⟩

theorem min_head_of_mergeFrom (ran : mergeFrom meets current rest = some out) :
    ∃ first others, out = first :: others ∧ first.min = current.min := by
  induction rest generalizing current out with
  | nil => exact ⟨current, [], (Option.some.inj ran).symm, rfl⟩
  | cons next rest ih =>
    obtain ⟨_, went⟩ | ⟨_, others, _, rfl⟩ := mergeFrom_cons_cases ran
    · obtain ⟨first, others, isOut, firstMin⟩ := ih went
      exact ⟨first, others, isOut, firstMin⟩
    · exact ⟨current, others, rfl, rfl⟩

/-- Ranges that come out apart have not been compared with a sum that wrapped. -/
theorem noWrap_of_apart (ran : mergeFrom meetsWrapping current rest = some out)
    (apart : out.Pairwise fun range next => range.max.toNat + 1 < next.min.toNat) :
    (current :: rest).Pairwise NoWrap := by
  induction rest generalizing current out with
  | nil => exact pairwise_singleton _ current
  | cons next rest ih =>
    obtain ⟨meeting, went⟩ | ⟨_, others, othersIs, rfl⟩ := mergeFrom_cons_cases ran
    · obtain ⟨first, others⟩ := pairwise_cons.mp (ih went apart)
      simp only [NoWrap, toNat_max_join] at first
      have small := current.max.toNat_lt
      have smallNext := next.max.toNat_lt
      have met : current.max + 1 ≥ next.min := of_decide_eq_true (Option.some.inj meeting)
      rw [ge_iff_le, UInt16.le_iff_toNat_le, UInt16.toNat_add] at met
      refine pairwise_cons.mpr ⟨forall_mem_cons.mpr ⟨fun reaches => ?_,
        fun range mem reaches => first range mem (by omega)⟩,
        pairwise_cons.mpr ⟨fun range mem reaches => first range mem (by omega), others⟩⟩
      rw [reaches] at met
      exact Nat.le_zero.mp met
    · obtain ⟨first, later, rfl, firstMin⟩ := min_head_of_mergeFrom othersIs
      obtain ⟨firstApart, othersApart⟩ := pairwise_cons.mp apart
      have below := firstApart first mem_cons_self
      have small := first.min.toNat_lt
      exact pairwise_cons.mpr ⟨fun range _ reaches => by omega, ih othersIs othersApart⟩

end

/-- Every part is a port or a range between two ports. -/
def IsPortList (src : List Char) : Prop :=
  src ≠ [] -> ∀ part ∈ src.splitOn ',', ∃ bounds, readBounds atoi part = some bounds ∧
    bounds.1 ≤ 65535 ∧ bounds.2 ≤ 65535

theorem contains_toPortRange_iff (low : bounds.1 ≤ 65535) (high : bounds.2 ≤ 65535) (port : Nat) :
    (toPortRange bounds).Contains port ↔ bounds.1 ≤ port ∧ port ≤ bounds.2 := by
  rw [PortRange.Contains, toPortRange, UInt16.toNat_ofNat_of_lt' (Nat.lt_succ_of_le low),
    UInt16.toNat_ofNat_of_lt' (Nat.lt_succ_of_le high)]

theorem exists_contains_getPorts_iff (nonempty : src ≠ [])
    (isPortList : IsPortList src) (port : Nat) :
    (∃ range ∈ (src.splitOn ',').flatMap getPorts, range.Contains port) ↔
      Written atoi src port := by
  rw [Written, if_neg nonempty]
  constructor
  · rintro ⟨range, mem, contains⟩
    obtain ⟨part, partMem, rangeMem⟩ := mem_flatMap.mp mem
    obtain ⟨bounds, boundsIs, low, high⟩ := isPortList nonempty part partMem
    rw [getPorts, boundsIs] at rangeMem
    rw [mem_singleton.mp rangeMem, contains_toPortRange_iff low high] at contains
    exact ⟨part, partMem, bounds, boundsIs, contains⟩
  · rintro ⟨part, partMem, bounds, boundsIs, inside⟩
    obtain ⟨_, sameBounds, low, high⟩ := isPortList nonempty part partMem
    obtain rfl := Option.some.inj (boundsIs.symm.trans sameBounds)
    refine ⟨toPortRange bounds, mem_flatMap.mpr ⟨part, partMem, ?_⟩,
      (contains_toPortRange_iff low high port).mpr inside⟩
    rw [getPorts, boundsIs]
    exact mem_singleton_self _

/-- The ranges are what the list of ports should become. -/
def ReadsAs (written : Nat -> Prop) (result : Option (List PortRange)) : Prop :=
  ∃ ranges, result = some ranges ∧ Separated ranges ∧
    ∀ port, (∃ range ∈ ranges, range.Contains port) ↔ written port

theorem readsAs_all : ReadsAs (Written parse []) (some [⟨0, 65535⟩]) := by
  refine ⟨_, rfl, ⟨by simp, pairwise_singleton _ _⟩, fun port => ?_⟩
  simp [Written, PortRange.Contains]

/-- A merge of sorted ranges that goes well under a condition, and only under it. -/
theorem readsAs_mergePorts_iff {ranges} {guard : Prop} (sorted : SortedByMin ranges)
    (holds : ∀ port, (∃ range ∈ ranges, range.Contains port) ↔ written port)
    (merges : guard -> mergePorts meets ranges = some (joinedAll ranges))
    (needs : ∀ out, mergePorts meets ranges = some out -> Separated out -> guard) :
    ReadsAs written (mergePorts meets ranges) ↔ guard ∧ Absorbed 0 ranges := by
  constructor
  · rintro ⟨out, ran, separated, _⟩
    have guarded := needs out ran separated
    have same := Option.some.inj ((merges guarded).symm.trans ran)
    rw [← same] at separated
    exact ⟨guarded, (separated_joinedAll_iff sorted).mp separated⟩
  · rintro ⟨guarded, absorbed⟩
    refine ⟨_, merges guarded, (separated_joinedAll_iff sorted).mpr absorbed, fun port => ?_⟩
    rw [exists_contains_joinedAll_iff sorted, holds]

/-- Exactly the lists with no range to the last port in front of others, and
whose empty ranges are absorbed, are read right. -/
theorem readsAs_splitPort2Int_iff
    (sorts : ∀ ports, (sort ports).Perm ports ∧ SortedByMin (sort ports))
    (isPortList : IsPortList src) :
    ReadsAs (Written atoi src) (splitPort2Int sort src) ↔
      (src ≠ [] ->
        (sort ((src.splitOn ',').flatMap getPorts)).Pairwise NoWrap ∧
          Absorbed 0 (sort ((src.splitOn ',').flatMap getPorts))) := by
  by_cases nonempty : src = []
  · subst nonempty
    exact iff_of_true readsAs_all fun notEmpty => absurd rfl notEmpty
  · obtain ⟨perm, sorted⟩ := sorts ((src.splitOn ',').flatMap getPorts)
    rw [splitPort2Int, if_neg nonempty]
    have holds : ∀ port, (∃ range ∈ sort ((src.splitOn ',').flatMap getPorts),
        range.Contains port) ↔ Written atoi src port := by
      intro port
      simp only [perm.mem_iff]
      exact exists_contains_getPorts_iff nonempty isPortList port
    rw [readsAs_mergePorts_iff sorted holds mergePorts_meetsWrapping]
    · exact ⟨fun both _ => both, fun both => both nonempty⟩
    · intro out ran separated
      generalize sort _ = ranges at ran
      cases ranges with
      | nil => exact List.Pairwise.nil
      | cons first rest => exact noWrap_of_apart ran separated.apart

/-- A stable sort by the lower bounds. -/
def sortByMin (ranges : List PortRange) : List PortRange :=
  ranges.insertionSort fun range next => range.min.toNat ≤ next.min.toNat

theorem sortByMin_sorts (ranges : List PortRange) :
    (sortByMin ranges).Perm ranges ∧ SortedByMin (sortByMin ranges) := by
  have total : Std.Total fun range next : PortRange => range.min.toNat ≤ next.min.toNat :=
    ⟨fun range next => Nat.le_total _ _⟩
  have trans : IsTrans PortRange fun range next => range.min.toNat ≤ next.min.toNat :=
    ⟨fun _ _ _ => Nat.le_trans⟩
  exact ⟨perm_insertionSort _ _, pairwise_insertionSort _ _⟩

/-- The list `80,443,8080-8090` -/
def webPorts : List Char :=
  ['8', '0', ',', '4', '4', '3', ',', '8', '0', '8', '0', '-', '8', '0', '9', '0']

/-- The ranges of the list. -/
def webRanges : List PortRange :=
  [⟨80, 80⟩, ⟨443, 443⟩, ⟨8080, 8090⟩]

theorem readsAs_splitPort2Int_web :
    ReadsAs (Written atoi webPorts) (splitPort2Int sortByMin webPorts) := by
  have isPortList : IsPortList webPorts := by
    intro _ part mem
    have parts : webPorts.splitOn ',' =
        [['8', '0'], ['4', '4', '3'], ['8', '0', '8', '0', '-', '8', '0', '9', '0']] := by
      decide
    simp only [parts, List.mem_cons, List.not_mem_nil, or_false] at mem
    rcases mem with rfl | rfl | rfl
    · exact ⟨(80, 80), by decide⟩
    · exact ⟨(443, 443), by decide⟩
    · exact ⟨(8080, 8090), by decide⟩
  have sorted : sortByMin ((webPorts.splitOn ',').flatMap getPorts) = webRanges := by decide
  refine (readsAs_splitPort2Int_iff sortByMin_sorts isPortList).mpr fun _ => ?_
  rw [sorted]
  refine ⟨?_, ?_⟩
  · simp [webRanges, NoWrap]
  · simp [webRanges, Absorbed]

/-- The range up to the last port is not joined with the one that it contains. -/
theorem splitPort2Int_overlaps :
    splitPort2Int sortByMin ['1', '-', '6', '5', '5', '3', '5', ',', '7'] =
      some [⟨1, 65535⟩, ⟨7, 7⟩] := by
  decide

end Metaflow.Datatype
