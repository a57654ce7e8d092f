import Metaflow.Datatype.PortSweep
import Metaflow.Policy.Acl

/-!
# The interest table

`interest.go`: before a packet is looked up each of its ports is replaced by
the first port of the piece it lies in, so that the fast path needs one entry
per piece. All ports outside the pieces share one stand-in port.
-/

namespace Metaflow.Policy

open Library Datatype

/-- The fields of a packet that the interest table reads and replaces. -/
structure LookupKey where
  srcPort : UInt16
  dstPort : UInt16
  deriving DecidableEq

structure InterestTable where
  interestPortMaps : Nat -> PortRange

/-- The local variables of the first loop of `generateInterestPortMap`. -/
structure PortFill where
  lastMax : UInt16
  portOther : UInt16
  interestPortMaps : Nat -> PortRange

namespace PortFill

def start : PortFill where
  lastMax := 0
  portOther := 0
  interestPortMaps := fun _ => ⟨0, 0⟩

/-- What the loop body does to `lastMax` and `portOther`. -/
def bounds (fill : PortFill) (index : Nat) (port : PortRange) : UInt16 × UInt16 :=
  if index = 0 then (port.max, fill.portOther)
  else if fill.portOther ≠ 0 then
    (port.max,
      if port.min - fill.lastMax > 1 then fill.lastMax + 1
      else fill.portOther)
  else (fill.lastMax, fill.portOther)

def visit (fill : PortFill) (entry : PortRange × Nat) : PortFill :=
  let (port, index) := entry
  let (lastMax, portOther) := fill.bounds index port
  { lastMax := lastMax
    portOther := portOther
    interestPortMaps :=
      changeEach (fun _ => port) port.min.toNat
        (port.max.toNat + 1 - port.min.toNat) fill.interestPortMaps }

/-- The choice of the stand-in after the loop. -/
def chosen (fill : PortFill) : UInt16 :=
  if fill.portOther = 0 ∧ (65535 : UInt16) - fill.lastMax > 1 then
    fill.lastMax + 1
  else fill.portOther

/-- The second loop: ports without a piece get the stand-in. -/
def fillOther (fill : PortFill) : Nat -> PortRange :=
  let portOther := fill.chosen
  if portOther ≠ 0 then
    changeEach (fun range => if range = ⟨0, 0⟩ then ⟨portOther, portOther⟩ else range)
      1 65535 fill.interestPortMaps
  else fill.interestPortMaps

end PortFill

/-- The port ranges of all ACLs, in the order in which they are collected. -/
def aclPorts (acls : List Acl) : List PortRange :=
  acls.flatMap fun acl => acl.srcPortRange ++ acl.dstPortRange

/-- `none` is a panic while the ranges are cut. -/
def generateInterestPortMap (acls : List Acl) : Option InterestTable :=
  (getPortRanges (aclPorts acls)).map fun ports =>
    { interestPortMaps :=
        (ports.zipIdx.foldl PortFill.visit PortFill.start).fillOther }

namespace InterestTable

/-- The first port of the range stored for a port. -/
def interestPort (table : InterestTable) (port : UInt16) : UInt16 :=
  (table.interestPortMaps port.toNat).min

def getFastInterestKeys (table : InterestTable) (packet : LookupKey) : LookupKey where
  srcPort := table.interestPort packet.srcPort
  dstPort := table.interestPort packet.dstPort

end InterestTable

/-- The port that stands for all ports outside the pieces. -/
def standIn : List PortRange -> UInt16
  | [] => 1
  | first :: _ => if first.max.toNat < 65534 then first.max + 1 else 0

theorem PortFill.visit_of_portOther_eq_zero {fill : PortFill} (unset : fill.portOther = 0)
    (port : PortRange) (index : Nat) :
    (fill.visit (port, index)).portOther = 0 ∧ (fill.visit (port, index)).lastMax =
        if index = 0 then port.max else fill.lastMax := by
  unfold visit bounds
  by_cases first : index = 0 <;> simp [first, unset]

/-- The stand-in is never set inside the loop, so only the first piece
decides it. -/
theorem PortFill.foldl_visit_bounds (ports : List PortRange) (index : Nat) (fill : PortFill)
    (unset : fill.portOther = 0) : ((ports.zipIdx index).foldl visit fill).portOther = 0 ∧
      ((ports.zipIdx index).foldl visit fill).lastMax =
        if index = 0 then (ports.head?.map PortRange.max).getD fill.lastMax else fill.lastMax := by
  induction ports generalizing index fill with
  | nil => simp [unset]
  | cons port ports ih =>
    obtain ⟨stillUnset, lastMax⟩ := visit_of_portOther_eq_zero unset port index
    obtain ⟨unsetAfter, lastMaxAfter⟩ := ih (index + 1) _ stillUnset
    rw [List.zipIdx_cons, List.foldl_cons]
    refine ⟨unsetAfter, lastMaxAfter.trans ?_⟩
    rw [if_neg (Nat.succ_ne_zero index), lastMax]
    rfl

theorem PortFill.chosen_start (ports : List PortRange) :
    (ports.zipIdx.foldl visit start).chosen = standIn ports := by
  obtain ⟨unset, lastMax⟩ := foldl_visit_bounds ports 0 start rfl
  have room : ∀ last : UInt16, (65535 : UInt16) - last > 1 ↔ last.toNat < 65534 := by
    intro last
    have small := last.toNat_lt
    have le : last ≤ 65535 := by
      rw [UInt16.le_iff_toNat_le]
      exact Nat.le_of_lt_succ small
    rw [gt_iff_lt, UInt16.lt_iff_toNat_lt, UInt16.toNat_sub_of_le _ _ le]
    change 1 < 65535 - last.toNat ↔ _
    omega
  simp only [chosen, unset, lastMax, true_and, room, if_true]
  cases ports with
  | nil => rfl
  | cons first rest => rfl

variable (fill : PortFill)

theorem PortFill.visit_maps (port : PortRange) (index position : Nat) :
    (fill.visit (port, index)).interestPortMaps position =
      if port.Contains position then port else fill.interestPortMaps position := by
  simp only [visit, changeEach_apply, PortRange.Contains]
  exact if_congr (by omega) rfl rfl

/-- Disjoint pieces do not overwrite each other. -/
theorem PortFill.foldl_visit_maps {ports : List PortRange}
    (ascending : ports.Pairwise fun lower upper =>
      lower.max.toNat < upper.min.toNat)
    (index : Nat) (fill : PortFill) (position : Nat) :
    (∀ port ∈ ports, port.Contains position ->
      ((ports.zipIdx index).foldl visit fill).interestPortMaps position = port) ∧
      ((∀ port ∈ ports, ¬ port.Contains position) ->
        ((ports.zipIdx index).foldl visit fill).interestPortMaps position =
          fill.interestPortMaps position) := by
  induction ports generalizing index fill with
  | nil => simp
  | cons first rest ih =>
    obtain ⟨apart, restAscending⟩ := List.pairwise_cons.mp ascending
    obtain ⟨inRest, outsideRest⟩ := ih restAscending (index + 1) (fill.visit (first, index))
    rw [List.zipIdx_cons, List.foldl_cons]
    rw [visit_maps] at outsideRest
    refine ⟨fun port mem contains => ?_, fun outside => ?_⟩
    · rcases List.mem_cons.mp mem with rfl | later
      · rw [outsideRest, if_pos contains]
        intro other otherMem otherContains
        have := apart other otherMem
        have := contains.2
        have := otherContains.1
        omega
      · exact inRest port later contains
    · rw [outsideRest fun port mem => outside port (by simp [mem]),
        if_neg (outside first (by simp))]

/-- The ports that share the stand-in. -/
def Uncovered (pieces : List PortRange) (port : UInt16) : Prop :=
  port ≠ 0 ∧ ∀ piece ∈ pieces, ¬ piece.Contains port.toNat

/-- What the table of a list of ACLs stores. -/
structure Stores (pieces : List PortRange) (table : InterestTable) : Prop where
  covered : ∀ (port : UInt16), ∀ piece ∈ pieces,
    piece.Contains port.toNat -> table.interestPort port = piece.min
  uncovered : ∀ port, Uncovered pieces port -> table.interestPort port = standIn pieces
  zero : table.interestPort 0 = 0

theorem PortFill.fillOther_apply {port : UInt16} (positive : port ≠ 0) : fill.fillOther port.toNat =
      if fill.interestPortMaps port.toNat = ⟨0, 0⟩ then ⟨fill.chosen, fill.chosen⟩
      else fill.interestPortMaps port.toNat := by
  have small := port.toNat_lt
  have notZero : port.toNat ≠ 0 := fun zero => positive (UInt16.toNat_inj.mp zero)
  unfold fillOther
  by_cases unset : fill.chosen = 0
  · simp only [unset, ne_eq, not_true_eq_false, if_false]
    split_ifs with empty
    · exact empty
    · rfl
  · simp only [ne_eq, unset, not_false_eq_true, if_true, changeEach_apply]
    rw [if_pos (by omega)]

theorem PortFill.fillOther_zero : fill.fillOther 0 = fill.interestPortMaps 0 := by
  unfold fillOther
  by_cases unset : fill.chosen = 0 <;> simp [unset, changeEach_apply]

theorem stores_of_generate (cut : getPortRanges (aclPorts acls) = some pieces)
    (generated : generateInterestPortMap acls = some table) : Stores pieces table := by
  have cuts := cuts_of_getPortRanges cut
  rw [generateInterestPortMap, cut] at generated
  obtain rfl := Option.some.inj generated
  have maps := PortFill.foldl_visit_maps cuts.ascending 0 PortFill.start
  have chosen := PortFill.chosen_start pieces
  constructor
  · intro port piece mem contains
    have stored := (maps port.toNat).1 piece mem contains
    simp only [InterestTable.interestPort]
    by_cases zero : port = 0
    · subst zero
      exact congrArg PortRange.min ((PortFill.fillOther_zero _).trans stored)
    · rw [PortFill.fillOther_apply _ zero, stored, if_neg]
      rintro rfl
      exact zero (UInt16.toNat_inj.mp (Nat.le_zero.mp contains.2))
  · rintro port ⟨positive, outside⟩
    have stored := (maps port.toNat).2 outside
    simp only [InterestTable.interestPort]
    have empty : PortFill.start.interestPortMaps port.toNat = ⟨0, 0⟩ := rfl
    rw [PortFill.fillOther_apply _ positive, stored, if_pos empty]
    exact chosen
  · change (PortFill.fillOther _ 0).min = 0
    rw [PortFill.fillOther_zero]
    by_cases inPiece : ∃ piece ∈ pieces, piece.Contains 0
    · obtain ⟨piece, mem, contains⟩ := inPiece
      rw [(maps 0).1 piece mem contains]
      exact UInt16.toNat_inj.mp (Nat.le_zero.mp contains.1)
    · push Not at inPiece
      rw [(maps 0).2 inPiece]
      rfl

theorem exists_stores (cut : getPortRanges (aclPorts acls) = some pieces) :
    ∃ table, generateInterestPortMap acls = some table ∧ Stores pieces table := by
  cases generated : generateInterestPortMap acls with
  | none => simp [generateInterestPortMap, cut] at generated
  | some table => exact ⟨table, rfl, stores_of_generate cut generated⟩

/-- Replacing the ports keeps the packet's membership in every port range of
every ACL. -/
def InterestTable.KeepsMembership (table : InterestTable) (acls : List Acl) : Prop :=
  ∀ packet, ∀ acl ∈ acls, ∀ range ∈ acl.srcPortRange ++ acl.dstPortRange,
    (range.Contains (table.getFastInterestKeys packet).srcPort.toNat ↔
      range.Contains packet.srcPort.toNat) ∧
    (range.Contains (table.getFastInterestKeys packet).dstPort.toNat ↔
      range.Contains packet.dstPort.toNat)

/-- A second replacement changes nothing. -/
def InterestTable.Idempotent (table : InterestTable) : Prop :=
  ∀ packet, table.getFastInterestKeys (table.getFastInterestKeys packet) =
    table.getFastInterestKeys packet

theorem mem_aclPorts :
    range ∈ aclPorts acls ↔ ∃ acl ∈ acls, range ∈ acl.srcPortRange ++ acl.dstPortRange := by
  simp only [aclPorts, List.mem_flatMap]

theorem InterestTable.keepsMembership_iff (table : InterestTable) (acls : List Acl) :
    table.KeepsMembership acls ↔ ∀ port, ∀ range ∈ aclPorts acls,
        (range.Contains (table.interestPort port).toNat ↔ range.Contains port.toNat) := by
  constructor
  · intro keeps port range mem
    obtain ⟨acl, aclMem, rangeMem⟩ := mem_aclPorts.mp mem
    exact (keeps ⟨port, port⟩ acl aclMem range rangeMem).1
  · intro keeps packet acl aclMem range rangeMem
    have mem := mem_aclPorts.mpr ⟨acl, aclMem, rangeMem⟩
    exact ⟨keeps packet.srcPort range mem, keeps packet.dstPort range mem⟩

/-- A port and the first port of its piece lie in the same ranges. -/
theorem contains_min_iff (cuts : Cuts raw pieces)
    (pieceMem : piece ∈ pieces) (rangeMem : range ∈ raw) (contains : piece.Contains port) :
    range.Contains piece.min.toNat ↔ range.Contains port := by
  have atMin : piece.Contains piece.min.toNat := ⟨Nat.le_refl _, cuts.ordered piece pieceMem⟩
  have inside := cuts.inside piece pieceMem range rangeMem
  obtain ⟨above, below⟩ := contains
  constructor
  · intro minIn
    have := inside _ atMin minIn
    exact ⟨by omega, by omega⟩
  · intro portIn
    have := inside _ ⟨above, below⟩ portIn
    exact ⟨this.1, by omega⟩

theorem port_cases (pieces : List PortRange) (port : UInt16) :
    (∃ piece ∈ pieces, piece.Contains port.toNat) ∨ port = 0 ∨ Uncovered pieces port := by
  by_cases covered : ∃ piece ∈ pieces, piece.Contains port.toNat
  · exact .inl covered
  · push Not at covered
    by_cases zero : port = 0
    · exact .inr (.inl zero)
    · exact .inr (.inr ⟨zero, covered⟩)

theorem Uncovered.not_contains (cuts : Cuts raw pieces)
    (uncovered : Uncovered pieces port) (mem : range ∈ raw) : ¬ range.Contains port.toNat := by
  intro contains
  obtain ⟨piece, pieceMem, inPiece⟩ := cuts.covers range mem _ contains
  exact uncovered.2 piece pieceMem inPiece

/-- Membership is kept exactly if no port needs the stand-in or it lies in no
range. -/
theorem Stores.keepsMembership_iff (stores : Stores pieces table)
    (cuts : Cuts (aclPorts acls) pieces) :
    table.KeepsMembership acls ↔ (∀ port, ¬ Uncovered pieces port) ∨
        ∀ range ∈ aclPorts acls, ¬ range.Contains (standIn pieces).toNat := by
  rw [InterestTable.keepsMembership_iff]
  constructor
  · intro keeps
    by_cases needed : ∃ port, Uncovered pieces port
    · obtain ⟨port, uncovered⟩ := needed
      refine .inr fun range mem contains => ?_
      rw [← stores.uncovered port uncovered, keeps port range mem] at contains
      exact uncovered.not_contains cuts mem contains
    · exact .inl (not_exists.mp needed)
  · intro separate port range mem
    rcases port_cases pieces port with
      ⟨piece, pieceMem, contains⟩ | rfl | uncovered
    · rw [stores.covered port piece pieceMem contains]
      exact contains_min_iff cuts pieceMem mem contains
    · rw [stores.zero]
    · rcases separate with allCovered | free
      · exact absurd uncovered (allCovered port)
      · rw [stores.uncovered port uncovered]
        exact iff_of_false (free range mem) (uncovered.not_contains cuts mem)

/-- A stand-in inside a later piece is the first port of that piece. -/
theorem min_eq_standIn (cuts : Cuts raw pieces) (mem : piece ∈ pieces)
    (contains : piece.Contains (standIn pieces).toNat) : piece.min = standIn pieces := by
  obtain ⟨above, below⟩ := contains
  apply UInt16.toNat_inj.mp
  cases pieces with
  | nil => simp at mem
  | cons first rest =>
    obtain ⟨apart, -⟩ := List.pairwise_cons.mp cuts.ascending
    by_cases room : first.max.toNat < 65534
    · have next : (standIn (first :: rest)).toNat = first.max.toNat + 1 := by
        rw [standIn, if_pos room, UInt16.toNat_add]
        change (first.max.toNat + 1) % 65536 = _
        omega
      rw [next] at above below ⊢
      rcases List.mem_cons.mp mem with rfl | later
      · omega
      · have := apart piece later
        omega
    · rw [standIn, if_neg room] at above ⊢
      exact Nat.le_zero.mp above

theorem Stores.idempotent (stores : Stores pieces table) (cuts : Cuts raw pieces) :
    table.Idempotent := by
  have twice : ∀ port, table.interestPort (table.interestPort port) = table.interestPort port := by
    intro port
    rcases port_cases pieces port with ⟨piece, mem, contains⟩ | rfl | uncovered
    · rw [stores.covered port piece mem contains]
      exact stores.covered _ piece mem ⟨Nat.le_refl _, cuts.ordered piece mem⟩
    · rw [stores.zero, stores.zero]
    · rw [stores.uncovered port uncovered]
      rcases port_cases pieces (standIn pieces) with
        ⟨piece, mem, contains⟩ | isZero | free
      · rw [stores.covered _ piece mem contains]
        exact min_eq_standIn cuts mem contains
      · rw [isZero, stores.zero]
      · exact stores.uncovered _ free
  intro packet
  simp only [InterestTable.getFastInterestKeys, twice]

/-- Replacing ports keeps the membership in all ranges, and a second replacement
changes nothing, exactly for the ACLs whose ranges are cut without a panic and
whose pieces cover all ports behind port 0 or leave the stand-in outside every
range. -/
theorem getFastInterestKeys_sound_iff (acls : List Acl) :
    (∃ table, generateInterestPortMap acls = some table ∧
      table.KeepsMembership acls ∧ table.Idempotent) ↔
    ∃ pieces, getPortRanges (aclPorts acls) = some pieces ∧
      ((∀ port : UInt16, port ≠ 0 -> ∃ piece ∈ pieces, piece.Contains port.toNat) ∨
        ∀ range ∈ aclPorts acls, ¬ range.Contains (standIn pieces).toNat) := by
  have allCovered : ∀ pieces : List PortRange,
      (∀ port, ¬ Uncovered pieces port) ↔
        ∀ port : UInt16, port ≠ 0 -> ∃ piece ∈ pieces, piece.Contains port.toNat := by
    intro pieces
    simp only [Uncovered, not_and, not_forall, not_not, exists_prop]
  constructor
  · rintro ⟨table, generated, keeps, -⟩
    obtain ⟨pieces, cut, -⟩ := Option.map_eq_some_iff.mp generated
    have stores := stores_of_generate cut generated
    refine ⟨pieces, cut, ?_⟩
    rw [← allCovered]
    exact (stores.keepsMembership_iff (cuts_of_getPortRanges cut)).mp keeps
  · rintro ⟨pieces, cut, separate⟩
    rw [← allCovered] at separate
    obtain ⟨table, generated, stores⟩ := exists_stores cut
    have cuts := cuts_of_getPortRanges cut
    exact ⟨table, generated, (stores.keepsMembership_iff cuts).mpr separate, stores.idempotent cuts⟩

/-- One ACL for the ports 80 and 81. -/
def neighbourAcl : Acl where
  dstPortRange := [⟨80, 80⟩, ⟨81, 81⟩]

theorem getPortRanges_neighbourAcl :
    getPortRanges (aclPorts [neighbourAcl]) = some [⟨80, 80⟩, ⟨81, 81⟩] := by
  have unmarked : ∀ port, 82 ≤ port ->
      createPortStatusTable [⟨80, 80⟩, ⟨81, 81⟩] port = .rangeNone := by
    intro port above
    simp only [createPortStatusTable, List.foldl_cons, List.foldl_nil,
      markRange_eq_markFrom, markFrom_single]
    rw [if_neg, if_neg]
    · change port ≠ 80
      omega
    · change port ≠ 81
      omega
  have swept := Sweep.upTo_add_of_unmarked unmarked 65454
  have cut : createPortRangeByTable
      (createPortStatusTable [⟨80, 80⟩, ⟨81, 81⟩]) = some [⟨80, 80⟩, ⟨81, 81⟩] := by
    change (Sweep.upTo _ (82 + 65454)).map _ = _
    rw [swept]
    rfl
  exact cut

/-- Every port outside the ACL is looked up as port 81. -/
theorem neighbourAcl_port_443 :
    ∃ table, generateInterestPortMap [neighbourAcl] = some table ∧
      table.getFastInterestKeys ⟨443, 443⟩ = ⟨81, 81⟩ ∧
      ¬ table.KeepsMembership [neighbourAcl] := by
  have cut := getPortRanges_neighbourAcl
  obtain ⟨table, generated, stores⟩ := exists_stores cut
  have replaced := stores.uncovered 443 ⟨by decide, by decide⟩
  refine ⟨table, generated, ?_, ?_⟩
  · simp only [InterestTable.getFastInterestKeys, replaced]
    rfl
  · rw [InterestTable.keepsMembership_iff]
    intro keeps
    have kept := keeps 443 ⟨81, 81⟩ (by decide)
    rw [replaced] at kept
    exact absurd kept (by decide)

end Metaflow.Policy
