import Metaflow.Datatype.PortMerge
import Metaflow.Library.Run

/-!
# Port lists of the agent

`PortRangeList::try_from` reads, sorts and merges as the server does. A part
that is no port is an error, the sort is stable, and the sum that decides
whether two ranges meet overflows where it wraps on the server.
-/

namespace Metaflow.AgentCommon

open Datatype Library

/-- `parse::<u16>` -/
def parseU16 (src : List Char) : Option Nat :=
  (unsigned src).filter (· ≤ 65535)

/-- `PortRange::try_from` -/
def portRangeTryFrom (src : List Char) : Option PortRange :=
  (readBounds parseU16 src).map toPortRange

/-- `list[i].max() + 1 >= list[i + 1].min()`, where the sum may overflow. -/
def meetsChecked (current next : PortRange) : Option Bool :=
  if current.max = 65535 then none else some (current.max + 1 ≥ next.min)

/-- `PortRangeList::try_from`; the outer `none` stands for an overflow, the
inner one for an error. -/
def portRangeListTryFrom (src : List Char) : Option (Option (List PortRange)) :=
  if src = [] then some (some [⟨0, 65535⟩])
  else
    match (src.splitOn ',').mapM portRangeTryFrom with
    | none => some none
    | some list => (mergePorts meetsChecked (sortByMin list)).map some

/-- No range but the last one reaches the last port. -/
def LastPortLast (ranges : List PortRange) : Prop :=
  ∀ range ∈ ranges.dropLast, range.max.toNat ≠ 65535

section

variable {current next : PortRange} {rest ranges out list : List PortRange}

theorem lastPortLast_cons_cons_iff : LastPortLast (current :: next :: rest) ↔
    current.max.toNat ≠ 65535 ∧ LastPortLast (next :: rest) := by
  rw [LastPortLast, List.dropLast_cons_cons, List.forall_mem_cons, LastPortLast]

theorem meetsChecked_eq (notLast : current.max.toNat ≠ 65535) :
    meetsChecked current next = meetsWrapping current next := by
  rw [meetsChecked, if_neg fun isLast => notLast (congrArg UInt16.toNat isLast), meetsWrapping]

theorem lastPortLast_join_iff (first : current.max.toNat ≠ 65535) :
    LastPortLast (current.join next :: rest) ↔ LastPortLast (next :: rest) := by
  cases rest with
  | nil => rfl
  | cons third rest =>
    have small := current.max.toNat_lt
    have smallNext := next.max.toNat_lt
    rw [lastPortLast_cons_cons_iff, lastPortLast_cons_cons_iff, toNat_max_join]
    exact and_congr_left' (by omega)

theorem mergePorts_meetsChecked (holds : LastPortLast ranges) :
    mergePorts meetsChecked ranges = some (joinedAll ranges) := by
  refine mergePorts_eq_joinedAll ?_ ?_ ?_ holds
  · intro current next rest holds
    have first := (lastPortLast_cons_cons_iff.mp holds).1
    rw [meetsChecked_eq first, meetsWrapping_of_noWrap fun isLast => absurd isLast first]
  · intro current next rest holds
    obtain ⟨first, others⟩ := lastPortLast_cons_cons_iff.mp holds
    exact (lastPortLast_join_iff first).mpr others
  · intro current rest holds
    cases rest with
    | nil => exact fun range mem => absurd mem List.not_mem_nil
    | cons next rest => exact (lastPortLast_cons_cons_iff.mp holds).2

/-- A loop that does not overflow has met the last port at the end only. -/
theorem lastPortLast_of_mergeFrom (ran : mergeFrom meetsChecked current rest = some out) :
    LastPortLast (current :: rest) := by
  induction rest generalizing current out with
  | nil => exact fun range mem => absurd mem List.not_mem_nil
  | cons next rest ih =>
    have first : current.max.toNat ≠ 65535 := by
      intro isLast
      have overflow : meetsChecked current next = none := if_pos (UInt16.toNat_inj.mp isLast)
      rcases mergeFrom_cons_cases ran with ⟨meeting, _⟩ | ⟨meeting, _⟩ <;>
        cases overflow.symm.trans meeting
    refine lastPortLast_cons_cons_iff.mpr ⟨first, ?_⟩
    obtain ⟨_, went⟩ | ⟨_, others, othersIs, _⟩ := mergeFrom_cons_cases ran
    · exact (lastPortLast_join_iff first).mp (ih went)
    · exact ih othersIs

theorem le_of_parseU16 (parsed : parseU16 src = some port) : port ≤ 65535 :=
  of_decide_eq_true (Option.filter_eq_some_iff.mp parsed).2

theorem le_of_readBounds (read : readBounds parseU16 src = some bounds) :
    bounds.1 ≤ 65535 ∧ bounds.2 ≤ 65535 := by
  rw [readBounds] at read
  split at read
  · obtain ⟨min, minIs, rest⟩ := Option.bind_eq_some_iff.mp read
    obtain ⟨max, maxIs, same⟩ := Option.bind_eq_some_iff.mp rest
    rw [← Option.some.inj same]
    exact ⟨le_of_parseU16 minIs, le_of_parseU16 maxIs⟩
  · obtain ⟨port, portIs, same⟩ := Option.bind_eq_some_iff.mp read
    rw [← Option.some.inj same]
    exact ⟨le_of_parseU16 portIs, le_of_parseU16 portIs⟩

theorem exists_contains_list_iff (nonempty : src ≠ [])
    (parsed : (src.splitOn ',').mapM portRangeTryFrom = some list) (port : Nat) :
    (∃ range ∈ list, range.Contains port) ↔ Written parseU16 src port := by
  have areParsed := forall₂_of_mapM parsed
  rw [Written, if_neg nonempty]
  clear parsed
  generalize src.splitOn ',' = parts at areParsed
  induction areParsed with
  | nil => simp
  | @cons part range parts ranges isParsed _ ih =>
    obtain ⟨bounds, boundsIs, rfl⟩ := Option.map_eq_some_iff.mp isParsed
    obtain ⟨low, high⟩ := le_of_readBounds boundsIs
    simp only [List.exists_mem_cons_iff, ih, boundsIs, Option.some.injEq, exists_eq_left',
      contains_toPortRange_iff low high]

/-- Exactly the accepted lists that reach the last port with their last range
only, and whose empty ranges are absorbed, are read right. -/
theorem readsAs_portRangeListTryFrom_iff (accepted : portRangeListTryFrom src ≠ some none) :
    ReadsAs (Written parseU16 src) (portRangeListTryFrom src).join ↔
      ∀ list, src ≠ [] -> (src.splitOn ',').mapM portRangeTryFrom = some list ->
        LastPortLast (sortByMin list) ∧ Absorbed 0 (sortByMin list) := by
  by_cases nonempty : src = []
  · subst nonempty
    exact iff_of_true readsAs_all fun _ notEmpty => absurd rfl notEmpty
  · rw [portRangeListTryFrom, if_neg nonempty] at accepted ⊢
    cases parsed : (src.splitOn ',').mapM portRangeTryFrom with
    | none =>
      rw [parsed] at accepted
      exact absurd rfl accepted
    | some list =>
      obtain ⟨perm, sorted⟩ := sortByMin_sorts list
      have holds : ∀ port, (∃ range ∈ sortByMin list, range.Contains port) ↔
          Written parseU16 src port := by
        intro port
        simp only [perm.mem_iff]
        exact exists_contains_list_iff nonempty parsed port
      have same : ((mergePorts meetsChecked (sortByMin list)).map some).join =
          mergePorts meetsChecked (sortByMin list) := by
        cases mergePorts meetsChecked (sortByMin list) <;> rfl
      have needs : ∀ out, mergePorts meetsChecked (sortByMin list) = some out ->
          Separated out -> LastPortLast (sortByMin list) := by
        intro out ran _
        generalize sortByMin list = ranges at ran
        cases ranges with
        | nil => exact fun range mem => absurd mem List.not_mem_nil
        | cons first rest => exact lastPortLast_of_mergeFrom ran
      simp only [same, readsAs_mergePorts_iff sorted holds mergePorts_meetsChecked needs]
      constructor
      · rintro both _ _ isList
        rwa [← Option.some.inj isList]
      · intro both
        exact both list nonempty rfl

theorem readsAs_portRangeListTryFrom_web :
    ReadsAs (Written parseU16 webPorts) (portRangeListTryFrom webPorts).join := by
  refine (readsAs_portRangeListTryFrom_iff (by decide)).mpr fun list _ parsed => ?_
  have isList : (webPorts.splitOn ',').mapM portRangeTryFrom = some webRanges := by decide
  obtain rfl : webRanges = list := Option.some.inj (isList.symm.trans parsed)
  have sorted : sortByMin webRanges = webRanges := by decide
  rw [sorted]
  refine ⟨?_, ?_⟩
  · simp [webRanges, LastPortLast]
  · simp [webRanges, Absorbed]

theorem portRangeListTryFrom_overflows :
    portRangeListTryFrom ['1', '-', '6', '5', '5', '3', '5', ',', '7'] = none ∧
      portRangeListTryFrom ['9', '-', '5'] = some (some [⟨9, 5⟩]) := by
  decide

end

end Metaflow.AgentCommon
