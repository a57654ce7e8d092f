import Metaflow.AgentPolicy.FastPath
import Metaflow.Datatype.PortSweep

/-!
# The interest table of the agent's fast path

`generate_interest_table` writes the pieces of the port ranges of all ACLs over
what the update before left, and gives ports with `PortRange::ZERO` a stand-in.
Ports with one value should belong to the same ranges.
-/

namespace Metaflow.AgentPolicy

open Library List
open Datatype

/-- The port ranges of an `Acl`. -/
structure Acl where
  srcPortRanges : List PortRange := []
  dstPortRanges : List PortRange := []

/-- The loop body of `create_table`; the inner loop counts with `usize`. -/
def markPorts (table : PortStatusTable) (port : PortRange) : PortStatusTable :=
  let low := port.min.toNat
  let high := port.max.toNat
  if port.min = port.max then
    Function.update table low .rangeEdge
  else
    let table := Function.update table low (table low).markMin
    let table := Function.update table high (table high).markMax
    changeEach PortStatus.markIn (low + 1) (high - (low + 1)) table

def createTable (raw : List PortRange) : PortStatusTable :=
  raw.foldl markPorts fun _ => .rangeNone

/-- The sweep is that of `createPortRangeByTable`. -/
def interest (raw : List PortRange) : Option (List PortRange) :=
  if raw = [] then some []
  else createPortRangeByTable (createTable raw)

theorem marks_createTable (raw : List PortRange) : Marks raw (createTable raw) :=
  marks_foldl (fun _ _ => rfl) (fun _ => Nat.le_refl _) raw

variable {pieces : List PortRange} {filling : Filling} {port : Nat}

theorem cuts_of_interest (cut : interest raw = some pieces) : Cuts raw pieces :=
  cuts_of_table (marks_createTable raw) cut fun _ => rfl

/-- The local variables of `generate_interest_table`. -/
structure Filling where
  interestTable : Nat -> PortRange
  portOther : UInt16

/-- The new value of `port_other`; `none` is the underflow of
`item.min() - 1`. -/
def nextPortOther (portOther : UInt16) (item : PortRange) (index : Nat) : Option UInt16 :=
  if index = 0 then some (if item.min = 0 then item.max else 0)
  else if item.min = 0 then none
  else some (if item.min - 1 ≤ portOther then item.max else portOther)

/-- The loop body over the pieces. -/
def fillPiece (filling : Filling) (entry : PortRange × Nat) : Option Filling :=
  let item := entry.1
  (nextPortOther filling.portOther item entry.2).map fun portOther =>
    { portOther := portOther
      interestTable := changeEach (fun _ => item) item.min.toNat
        (item.max.toNat + 1 - item.min.toNat) filling.interestTable }

def portRangeZero : PortRange := ⟨0, 0⟩

/-- The stand-in for the ports of no piece, if the table gets one. -/
def standIn (portOther : UInt16) : Option PortRange :=
  if portOther ≠ 0 ∧ portOther < 65535 then
    some ⟨portOther + 1, portOther + 1⟩
  else none

/-- What a value of the table becomes at the end. -/
def settle (portOther : UInt16) (value : PortRange) : PortRange :=
  if value = portRangeZero then (standIn portOther).getD value else value

/-- All port ranges of the ACLs. -/
def aclPortRanges (acls : List Acl) : List PortRange :=
  acls.flatMap fun acl => acl.srcPortRanges ++ acl.dstPortRanges

def generateInterestTable (interestTable : Nat -> PortRange)
    (acls : List Acl) : Option (Nat -> PortRange) := do
  let list ← interest (aclPortRanges acls)
  let filling ← list.zipIdx.foldlM fillPiece { interestTable := interestTable, portOther := 0 }
  some (changeEach (settle filling.portOther) 0 portCount filling.interestTable)

/-- The last one of the ports that the pieces cover from port 0 on without a
gap, or 0. -/
def lastCovered : List PortRange -> UInt16
  | [] => 0
  | first :: rest =>
    if first.min = 0 then
      rest.foldl (fun last piece => if piece.min = last + 1 then piece.max else last) first.max
    else 0

/-- It is the upper bound of a piece if there is one that begins with port 0. -/
theorem lastCovered_eq_max (fromZero : first.min = 0) (rest : List PortRange) :
    ∃ piece ∈ first :: rest, lastCovered (first :: rest) = piece.max := by
  rw [lastCovered, if_pos fromZero]
  suffices covered : ∀ last, (∃ piece ∈ first :: rest, last = piece.max) ->
      ∀ pieces ⊆ first :: rest, ∃ piece ∈ first :: rest, pieces.foldl (fun last piece =>
        if piece.min = last + 1 then piece.max else last) last = piece.max from
    covered first.max ⟨first, by simp, rfl⟩ rest (by simp)
  intro last isMax pieces
  induction pieces generalizing last with
  | nil => exact fun _ => isMax
  | cons piece pieces ih =>
    intro inside
    rw [cons_subset] at inside
    rw [foldl_cons]
    by_cases follows : piece.min = last + 1
    · rw [if_pos follows]
      exact ih _ ⟨piece, inside.1, rfl⟩ inside.2
    · rw [if_neg follows]
      exact ih _ isMax inside.2

/-- After some pieces: their ports hold them, the other ports are as before, and
behind a `portOther` other than 0 comes a port of no piece. -/
structure Filled (before : Nat -> PortRange) (pieces : List PortRange)
    (filling : Filling) : Prop where
  ordered : ∀ piece ∈ pieces, piece.min.toNat ≤ piece.max.toNat
  covered : filling.portOther = lastCovered pieces
  inside : ∀ piece ∈ pieces, ∀ port, piece.Contains port -> filling.interestTable port = piece
  outside : ∀ port, (∀ piece ∈ pieces, ¬ piece.Contains port) ->
    filling.interestTable port = before port
  gap : filling.portOther ≠ 0 -> ∀ piece ∈ pieces,
    piece.max.toNat ≤ filling.portOther.toNat ∨ filling.portOther.toNat + 1 < piece.min.toNat

/-- In ascending order `item.min() - 1` does not underflow, and the gap moves
behind the piece or stays before it. -/
theorem nextPortOther_gap (ascending : ∀ piece ∈ pieces, piece.max.toNat < item.min.toNat)
    (gap : portOther ≠ 0 -> ∀ piece ∈ pieces,
      piece.max.toNat ≤ portOther.toNat ∨ portOther.toNat + 1 < piece.min.toNat)
    (ordered : item.min.toNat ≤ item.max.toNat) :
    ∃ portOther', nextPortOther portOther item pieces.length = some portOther' ∧
      (portOther' ≠ 0 -> ∀ piece ∈ pieces ++ [item],
        piece.max.toNat ≤ portOther'.toNat ∨ portOther'.toNat + 1 < piece.min.toNat) := by
  unfold nextPortOther
  by_cases first : pieces.length = 0
  · obtain rfl := length_eq_zero_iff.mp first
    refine ⟨_, if_pos rfl, ?_⟩
    intro notZero piece mem
    obtain rfl : piece = item := by simpa using mem
    by_cases fromZero : piece.min = 0
    · rw [if_pos fromZero]
      exact .inl (Nat.le_refl _)
    · rw [if_neg fromZero] at notZero
      exact absurd rfl notZero
  rw [if_neg first]
  obtain ⟨some, isSome⟩ := exists_mem_of_length_pos (Nat.pos_of_ne_zero first)
  have positive : 0 < item.min.toNat := Nat.zero_lt_of_lt (ascending some isSome)
  rw [if_neg fun zero => by simp [zero] at positive]
  refine ⟨_, rfl, ?_⟩
  simp only [forall_mem_append, forall_mem_singleton]
  split_ifs with reaches
  · refine fun _ => ⟨fun piece old => ?_, .inl (Nat.le_refl _)⟩
    have := ascending piece old
    exact .inl (by omega)
  · rw [UInt16.le_iff_toNat_le, toNat_pred positive] at reaches
    exact fun notZero => ⟨gap notZero, .inr (by omega)⟩

/-- `port_other` is the last port that is covered from port 0 on. -/
theorem nextPortOther_lastCovered (ordered : ∀ piece ∈ pieces, piece.min.toNat ≤ piece.max.toNat)
    (ascending : ∀ piece ∈ pieces, piece.max.toNat < item.min.toNat)
    (isNext : nextPortOther (lastCovered pieces) item pieces.length = some portOther) :
    portOther = lastCovered (pieces ++ [item]) := by
  cases pieces with
  | nil => exact (Option.some.inj isNext).symm
  | cons first rest =>
    have aboveFirst := ascending first (by simp)
    have firstOrdered := ordered first (by simp)
    have positive : 0 < item.min.toNat := Nat.zero_lt_of_lt aboveFirst
    have notZero : item.min ≠ 0 := fun zero => by simp [zero] at positive
    rw [nextPortOther, if_neg (by simp), if_neg notZero, Option.some.injEq] at isNext
    rw [← isNext, cons_append]
    by_cases fromZero : first.min = 0
    · obtain ⟨piece, isPiece, isMax⟩ := lastCovered_eq_max fromZero rest
      have above := ascending piece isPiece
      have appended : lastCovered (first :: (rest ++ [item])) =
          if item.min = lastCovered (first :: rest) + 1 then item.max
          else lastCovered (first :: rest) := by
        simp only [lastCovered, if_pos fromZero, foldl_append, foldl_cons, foldl_nil]
      rw [appended]
      refine if_congr ?_ rfl rfl
      rw [isMax, UInt16.le_iff_toNat_le, toNat_pred positive, ← UInt16.toNat_inj, UInt16.toNat_add]
      have small := item.min.toNat_lt
      have one : (1 : UInt16).toNat = 1 := rfl
      omega
    · have firstPositive : 0 < first.min.toNat :=
        Nat.pos_of_ne_zero fun zero => fromZero (UInt16.toNat_inj.mp zero)
      simp only [lastCovered, if_neg fromZero]
      refine if_neg ?_
      rw [UInt16.le_iff_toNat_le, toNat_pred positive]
      have zero : (0 : UInt16).toNat = 0 := rfl
      omega

variable {before : Nat -> PortRange} {range : PortRange}

/-- A round of the loop over the pieces. -/
theorem Filled.fillPiece (filled : Filled before pieces filling)
    (ascending : ∀ piece ∈ pieces, piece.max.toNat < item.min.toNat)
    (ordered : item.min.toNat ≤ item.max.toNat) :
    ∃ filling', fillPiece filling (item, pieces.length) = some filling' ∧
      Filled before (pieces ++ [item]) filling' := by
  obtain ⟨portOther, isNext, gap⟩ := nextPortOther_gap ascending filled.gap ordered
  have written (port : Nat) : changeEach (fun _ => item) item.min.toNat
          (item.max.toNat + 1 - item.min.toNat) filling.interestTable port =
        if item.Contains port then item else filling.interestTable port := by
    rw [changeEach_apply]
    exact if_congr (by simp only [PortRange.Contains]; omega) rfl rfl
  refine ⟨_, Option.map_eq_some_iff.mpr ⟨portOther, isNext, rfl⟩, ?_, ?_, ?_, ?_, gap⟩
  · rw [forall_mem_append, forall_mem_singleton]
    exact ⟨filled.ordered, ordered⟩
  · rw [filled.covered] at isNext
    exact nextPortOther_lastCovered filled.ordered ascending isNext
  · intro piece mem port contains
    simp only [written]
    rcases mem_append.mp mem with old | new
    · have := ascending piece old
      rw [if_neg (by simp only [PortRange.Contains] at *; omega)]
      exact filled.inside piece old port contains
    · obtain rfl := mem_singleton.mp new
      rw [if_pos contains]
  · intro port apart
    simp only [written]
    rw [if_neg (apart item (by simp))]
    exact filled.outside port fun piece mem => apart piece (by simp [mem])

theorem Filled.foldlM (filled : Filled before pieces filling)
    (ascending : (pieces ++ rest).Pairwise fun lower upper =>
      lower.max.toNat < upper.min.toNat)
    (ordered : ∀ piece ∈ rest, piece.min.toNat ≤ piece.max.toNat) :
    ∃ filling', (rest.zipIdx pieces.length).foldlM AgentPolicy.fillPiece filling = some filling' ∧
      Filled before (pieces ++ rest) filling' := by
  induction rest generalizing pieces filling with
  | nil => exact ⟨filling, rfl, by rwa [append_nil]⟩
  | cons item rest ih =>
    have below : ∀ piece ∈ pieces, piece.max.toNat < item.min.toNat := by
      intro piece mem
      exact (pairwise_append.mp ascending).2.2 piece mem item (by simp)
    obtain ⟨next, isNext, nextFilled⟩ := filled.fillPiece below (ordered item (by simp))
    obtain ⟨last, isLast, lastFilled⟩ := ih nextFilled (by rwa [append_assoc])
      (fun piece mem => ordered piece (by simp [mem]))
    refine ⟨last, ?_, by rwa [append_assoc] at lastFilled⟩
    rw [zipIdx_cons, foldlM_cons, isNext]
    simpa using isLast

/-- The loop over the pieces of the ranges. -/
theorem filled_of_cuts (cuts : Cuts raw pieces) (before : Nat -> PortRange) :
    ∃ filling, pieces.zipIdx.foldlM fillPiece
        { interestTable := before, portOther := 0 } = some filling ∧
      Filled before pieces filling := by
  have nothing : Filled before [] { interestTable := before, portOther := 0 } := by
    constructor <;> simp [lastCovered]
  exact nothing.foldlM cuts.ascending cuts.ordered

/-- Ports with one value belong to the same ranges of the ACLs. -/
def Separates (acls : List Acl) (table : Nat -> PortRange) : Prop :=
  ∀ left < portCount, ∀ right < portCount, table left = table right ->
    ∀ range ∈ aclPortRanges acls, (range.Contains left ↔ range.Contains right)

/-- The ranges are cut into pieces, and no port outside them has the value of a
piece in a range, in the table before the update and with the stand-in behind
the ports covered from port 0 on. -/
def Fresh (before : Nat -> PortRange) (acls : List Acl) : Prop :=
  ∃ pieces, interest (aclPortRanges acls) = some pieces ∧
    ∀ port < portCount, (∀ piece ∈ pieces, ¬ piece.Contains port) ->
      ∀ piece ∈ pieces, ∀ range ∈ aclPortRanges acls,
        (∃ inner, piece.Contains inner ∧ range.Contains inner) ->
        settle (lastCovered pieces) (before port) ≠ settle (lastCovered pieces) piece

/-- Two pieces keep different values. -/
theorem Filled.settle_injective (filled : Filled before pieces filling)
    (leftMem : left ∈ pieces) (rightMem : right ∈ pieces)
    (same : settle filling.portOther left = settle filling.portOther right) : left = right := by
  have notStandIn : ∀ piece ∈ pieces, ∀ other ∈ standIn filling.portOther, other ≠ piece := by
    rintro piece mem other isOther rfl
    unfold standIn at isOther
    split at isOther
    · next small =>
        obtain rfl := Option.some.inj isOther
        have bounded := UInt16.lt_iff_toNat_lt.mp small.2
        have next : (filling.portOther + 1).toNat = filling.portOther.toNat + 1 := by
          rw [UInt16.toNat_add]
          exact Nat.mod_eq_of_lt (by
            change filling.portOther.toNat + 1 < 65536
            change filling.portOther.toNat < 65535 at bounded
            omega)
        have := filled.gap small.1 _ mem
        dsimp only at this
        omega
    · simp at isOther
  have settled : ∀ piece ∈ pieces, settle filling.portOther piece = piece ∨
      piece = portRangeZero ∧ settle filling.portOther piece ∈ standIn filling.portOther := by
    intro piece mem
    unfold settle
    by_cases zero : piece = portRangeZero
    · rw [if_pos zero]
      cases isStandIn : standIn filling.portOther with
      | none => exact .inl rfl
      | some other => exact .inr ⟨zero, rfl⟩
    · exact .inl (if_neg zero)
  rcases settled left leftMem with leftSame | ⟨leftZero, leftStandIn⟩ <;>
    rcases settled right rightMem with rightSame | ⟨rightZero, rightStandIn⟩
  · rw [← leftSame, ← rightSame, same]
  · exact absurd (same.symm.trans leftSame) (notStandIn left leftMem _ rightStandIn)
  · exact absurd (same.trans rightSame) (notStandIn right rightMem _ leftStandIn)
  · rw [leftZero, rightZero]

/-- The values at the end. -/
theorem settled_apply (filling : Filling) (small : port < portCount) :
    changeEach (settle filling.portOther) 0 portCount filling.interestTable port =
      settle filling.portOther (filling.interestTable port) := by
  rw [changeEach_apply, if_pos ⟨Nat.zero_le _, by omega⟩]

theorem contains_small (contains : range.Contains port) : port < portCount :=
  Nat.lt_of_le_of_lt contains.2 range.max.toNat_lt

/-- An update separates the ports exactly if it starts from a fresh table. -/
theorem generateInterestTable_separates_iff (before : Nat -> PortRange) (acls : List Acl) :
    (∃ after, generateInterestTable before acls = some after ∧
      Separates acls after) ↔ Fresh before acls := by
  cases cut : interest (aclPortRanges acls) with
  | none => simp [generateInterestTable, Fresh, cut]
  | some pieces =>
    have cuts := cuts_of_interest cut
    obtain ⟨filling, isFilling, filled⟩ := filled_of_cuts cuts before
    have generated : generateInterestTable before acls =
        some (changeEach (settle filling.portOther) 0 portCount filling.interestTable) := by
      simp only [generateInterestTable, cut, isFilling, some_bind]
    simp only [generated, Fresh, cut, Option.some.injEq, exists_eq_left']
    constructor
    · intro separates
      rw [← filled.covered]
      intro port small outside piece mem range isRange
      rintro ⟨inner, inPiece, inRange⟩ same
      have sameValue := (separates port small inner (contains_small inRange) (by
          rw [settled_apply filling small, settled_apply filling (contains_small inRange),
            filled.outside port outside,
            filled.inside piece mem inner inPiece, same])
        range isRange).mpr inRange
      obtain ⟨other, otherMem, contains⟩ := cuts.covers range isRange port sameValue
      exact outside other otherMem contains
    · intro fresh
      rw [← filled.covered] at fresh
      have oneWay : ∀ left < portCount, ∀ right < portCount,
          settle filling.portOther (filling.interestTable left) =
            settle filling.portOther (filling.interestTable right) ->
          ∀ range ∈ aclPortRanges acls, range.Contains left -> range.Contains right := by
        intro left leftSmall right rightSmall same range isRange inRange
        obtain ⟨piece, mem, inPiece⟩ := cuts.covers range isRange left inRange
        rw [filled.inside piece mem left inPiece] at same
        by_cases covered : ∃ other ∈ pieces, other.Contains right
        · obtain ⟨other, otherMem, contains⟩ := covered
          rw [filled.inside other otherMem right contains] at same
          obtain rfl := filled.settle_injective mem otherMem same
          obtain ⟨lower, upper⟩ := cuts.inside piece mem range isRange left inPiece inRange
          exact ⟨Nat.le_trans lower contains.1, Nat.le_trans contains.2 upper⟩
        · have outside : ∀ piece ∈ pieces, ¬ piece.Contains right :=
            fun other otherMem contains =>
              covered ⟨other, otherMem, contains⟩
          rw [filled.outside right outside] at same
          exact absurd same.symm (fresh right rightSmall outside piece mem
            range isRange ⟨left, inPiece, inRange⟩)
      intro left leftSmall right rightSmall same range isRange
      rw [settled_apply filling leftSmall, settled_apply filling rightSmall] at same
      exact ⟨oneWay left leftSmall right rightSmall same range isRange,
        oneWay right rightSmall left leftSmall same.symm range isRange⟩

/-- One update, with the table it leaves. -/
def updateInterestTable (table : Nat -> PortRange) (acls : List Acl) :
    Option ((Nat -> PortRange) × (Nat -> PortRange)) :=
  (generateInterestTable table acls).map fun after => (after, after)

/-- In a run of updates every one completes with a table that separates the
ports exactly if each starts from a fresh one. -/
theorem updates_separate_iff (updates : List (List Acl)) :
    (∃ final tables,
      runSteps updateInterestTable (fun _ => portRangeZero) updates = some (final, tables) ∧
      List.Forall₂ Separates updates tables) ↔
    Guarded Fresh updateInterestTable (fun _ => portRangeZero) updates := by
  refine exists_run_forall₂_iff ?_ _ updates
  intro table acls
  rw [← generateInterestTable_separates_iff]
  constructor
  · rintro ⟨_, result, updated, separates⟩
    obtain ⟨after, generated, same⟩ := Option.map_eq_some_iff.mp updated
    obtain ⟨-, rfl⟩ := Prod.mk.inj same
    exact ⟨after, generated, separates⟩
  · rintro ⟨after, generated, separates⟩
    exact ⟨after, after, Option.map_eq_some_iff.mpr ⟨after, generated, rfl⟩, separates⟩

/-- Behind the upper bound of one range the table has no mark. -/
theorem createTable_singleton_of_lt (ordered : range.min.toNat ≤ range.max.toNat)
    (above : range.max.toNat < port) : createTable [range] port = .rangeNone := by
  change markFrom (range.min.toNat + 1) _ range port = _
  by_cases single : range.min = range.max
  · rw [markFrom_single _ _ _ _ single, if_neg (by omega)]
  · rw [markFrom_of_ne _ _ _ _ single, if_neg (by omega), if_neg (by omega), if_neg (by omega)]

/-- For one range the sweep may stop behind its upper bound. -/
theorem interest_singleton (ordered : range.min.toNat ≤ range.max.toNat)
    (swept : (Sweep.upTo (createTable [range]) (range.max.toNat + 1)).map
      Sweep.portRanges = some pieces) : interest [range] = some pieces := by
  rw [interest, if_neg (by simp), createPortRangeByTable]
  obtain ⟨rest, isPortCount⟩ :=
    Nat.exists_eq_add_of_le (show range.max.toNat + 1 ≤ portCount from range.max.toNat_lt)
  rw [isPortCount, Sweep.upTo_add_of_unmarked
    (fun port above => createTable_singleton_of_lt ordered (by omega))]
  exact swept

/-- The table generated from one range that is its own only piece. -/
theorem generateInterestTable_singleton
    (cut : interest [range] = some [range]) (before : Nat -> PortRange) :
    generateInterestTable before [{ dstPortRanges := [range] }] =
      some (changeEach (settle (if range.min = 0 then range.max else 0)) 0 portCount
        (changeEach (fun _ => range) range.min.toNat
          (range.max.toNat + 1 - range.min.toNat) before)) := by
  have ranges : aclPortRanges [{ dstPortRanges := [range] }] = [range] := rfl
  simp only [generateInterestTable, ranges, cut, Option.bind_eq_bind,
    Option.bind_some, zipIdx_cons, zipIdx_nil, foldlM_cons,
    foldlM_nil, fillPiece, nextPortOther, if_true, Option.map_some,
    Option.pure_def]

/-- The update to that one range, read port by port. -/
theorem updateInterestTable_singleton
    (cut : interest [range] = some [range]) (before : Nat -> PortRange) :
    ∃ after, updateInterestTable before [{ dstPortRanges := [range] }] = some (after, after) ∧
        ∀ port < portCount, after port = settle (if range.min = 0 then range.max else 0)
            (if range.min.toNat ≤ port ∧ port < range.min.toNat +
              (range.max.toNat + 1 - range.min.toNat) then range
            else before port) := by
  have generated := generateInterestTable_singleton cut before
  refine ⟨_, Option.map_eq_some_iff.mpr ⟨_, generated, rfl⟩, ?_⟩
  intro port small
  rw [changeEach_apply, if_pos ⟨Nat.zero_le _, by omega⟩, changeEach_apply]

theorem interest_lowPorts : interest [⟨0, 79⟩] = some [⟨0, 79⟩] :=
  interest_singleton (by decide) (by decide +kernel)

theorem interest_port80 : interest [⟨80, 80⟩] = some [⟨80, 80⟩] :=
  interest_singleton (by decide) (by decide +kernel)

/-- After an update to the ports up to 79, port 80 stands in for all others;
after one to port 80 alone they still have its value. -/
theorem stale_stand_in :
    ∃ final tables,
      runSteps updateInterestTable (fun _ => portRangeZero)
        [[{ dstPortRanges := [⟨0, 79⟩] }], [{ dstPortRanges := [⟨80, 80⟩] }]] =
          some (final, tables) ∧
      final 80 = final 81 ∧
      PortRange.Contains ⟨80, 80⟩ 80 ∧ ¬ PortRange.Contains ⟨80, 80⟩ 81 := by
  obtain ⟨first, firstStep, firstAt⟩ :=
    updateInterestTable_singleton interest_lowPorts fun _ => portRangeZero
  obtain ⟨second, secondStep, secondAt⟩ := updateInterestTable_singleton interest_port80 first
  refine ⟨second, [first, second], ?_, ?_, by decide, by decide⟩
  · rw [runSteps_cons_of_step firstStep, runSteps_cons_of_step secondStep,
      runSteps_nil, Option.map_some, Option.map_some]
  · rw [secondAt 80 (by decide), secondAt 81 (by decide),
      firstAt 80 (by decide), firstAt 81 (by decide)]
    decide

end Metaflow.AgentPolicy
