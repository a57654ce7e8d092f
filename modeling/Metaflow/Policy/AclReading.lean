import Metaflow.Policy.AclMatch

/-!
# Reading ACLs

What an ACL accepts, read from its own fields and the groups that it names,
and that a packet matches one of the compiled nodes exactly if the ACL accepts
it.
-/

namespace Metaflow.Policy

open Datatype Library List
open Acl

section

variable (key : Datatype.LookupKey) (data : List IpGroupData) (ranges : List PortRange)

/-- The port is in one of the ranges, if there are any. -/
def AcceptsPort (port : UInt16) : Prop :=
  ranges = [] ∨ ∃ range ∈ ranges, range.min ≤ port ∧ port ≤ range.max

/-- One of the ranges has a port, if there are any ranges. -/
def Usable : Prop :=
  ranges = [] ∨ ∃ range ∈ ranges, range.min ≤ range.max

theorem mapM_newPortSegments :
    ∃ segments, ranges.mapM newPortSegments = some segments ∧ ∀ port : UInt16,
        (∃ segment ∈ segments.flatten, segment.Matches port) ↔
          ∃ range ∈ ranges, range.min ≤ port ∧ port ≤ range.max := by
  induction ranges with
  | nil => exact ⟨[], rfl, by simp⟩
  | cons range ranges ih =>
    obtain ⟨first, firstResult, tiles⟩ := newPortSegments_spec range
    obtain ⟨rest, restResult, covers⟩ := ih
    refine ⟨first :: rest, ?_, ?_⟩
    · rw [mapM_cons, firstResult, restResult]
      rfl
    · intro port
      simp only [flatten_cons, mem_append, or_and_right, exists_or,
        mem_cons, exists_eq_left, covers]
      exact or_congr_left (tiles.matches_iff port)

/-- The segments of usable ranges match the ports that are accepted. -/
theorem portSegments_spec {ranges : List PortRange} (usable : Usable ranges) :
    ∃ segments, portSegments ranges = some segments ∧
      ∀ port, (∃ segment ∈ segments, segment.Matches port) ↔ AcceptsPort ranges port := by
  obtain ⟨segments, result, covers⟩ := mapM_newPortSegments ranges
  simp only [portSegments, result, Option.map_some, Option.some.injEq, exists_eq_left']
  intro port
  split_ifs with none
  · have noRange : ranges = [] := by
      refine usable.resolve_right ?_
      rintro ⟨range, isIn, inOrder⟩
      obtain ⟨segment, isSegment, _⟩ :=
        (covers range.min).mpr ⟨range, isIn, UInt16.le_refl _, inOrder⟩
      rw [none] at isSegment
      exact not_mem_nil isSegment
    simp [AcceptsPort, noRange, PortSegment.Matches, allPortSegment]
  · have someRange : ranges ≠ [] := by
      rintro rfl
      cases result
      exact none rfl
    rw [covers, AcceptsPort, or_iff_right someRange]

/-- The segments of the addresses of a group. -/
def IpGroupData.segments (parseCIDR : String -> Option ParsedCidr)
    (group : IpGroupData) : List IpSegment :=
  group.ips.filterMap fun ips =>
    newIpSegment parseCIDR ips (group.epcId.setWidth 16)

/-- A segment of one of the named groups; there is no group 0. -/
def Names (parseCIDR : String -> Option ParsedCidr) (data : List IpGroupData)
    (groups : List (BitVec 32)) (segment : IpSegment) : Prop :=
  ∃ group ∈ data, group.id ≠ 0 ∧ group.id ∈ groups ∧ segment ∈ group.segments parseCIDR

/-- The named groups are told from the others by 16 bits of their ids. -/
def ToldApart (groups : List (BitVec 32)) : Prop :=
  ∀ group ∈ data, ∀ id ∈ groups, group.id.setWidth 16 = id.setWidth 16 -> group.id = id

variable (groupIpMap : GroupIpMap)

theorem mem_addGroup_iff (group : IpGroupData) (id : BitVec 16) (segment : IpSegment) :
    segment ∈ addGroup parseCIDR groupIpMap group id ↔ segment ∈ groupIpMap id ∨
        group.id ≠ 0 ∧ group.id.setWidth 16 = id ∧ segment ∈ group.segments parseCIDR := by
  unfold addGroup
  by_cases zero : group.id = 0
  · simp [zero]
  · rw [if_pos zero, Function.update_apply]
    by_cases same : id = group.id.setWidth 16
    · subst same
      rw [if_pos rfl, mem_append]
      exact or_congr_right ⟨fun isIn => ⟨zero, rfl, isIn⟩, fun isIn => isIn.2.2⟩
    · rw [if_neg same]
      simp [Ne.symm same]

theorem mem_foldl_addGroup_iff (id : BitVec 16) (segment : IpSegment) :
    segment ∈ data.foldl (addGroup parseCIDR) groupIpMap id ↔ segment ∈ groupIpMap id ∨
        ∃ group ∈ data, group.id ≠ 0 ∧ group.id.setWidth 16 = id ∧
          segment ∈ group.segments parseCIDR := by
  induction data generalizing groupIpMap with
  | nil => simp
  | cons group data ih =>
    rw [foldl_cons, ih, mem_addGroup_iff, or_assoc]
    simp only [mem_cons, exists_eq_or_imp]

/-- The map has the segments of the groups under their ids. -/
theorem mem_groupSegments_iff {data : List IpGroupData} {groups : List (BitVec 32)}
    (apart : ToldApart data groups) (segment : IpSegment) :
    segment ∈ groupSegments (generateGroupIpMap parseCIDR data) groups ↔
      Names parseCIDR data groups segment := by
  simp only [groupSegments, mem_flatMap, generateGroupIpMap,
    mem_foldl_addGroup_iff, not_mem_nil, false_or]
  constructor
  · rintro ⟨id, named, group, isIn, notZero, sameId, isSegment⟩
    rw [← apart group isIn id named sameId] at named
    exact ⟨group, isIn, notZero, named, isSegment⟩
  · rintro ⟨group, isIn, notZero, named, isSegment⟩
    exact ⟨group.id, named, group, isIn, notZero, rfl, isSegment⟩

/-- One of the segments contains the address, if there are any. -/
def AcceptsAddress (isNamed contains : IpSegment -> Prop) : Prop :=
  (∀ segment, ¬ isNamed segment) ∨ ∃ segment, isNamed segment ∧ contains segment

/-- No segments are replaced by the two that contain every address. -/
theorem exists_orEmptySegments_iff {ips : List IpSegment} {isNamed contains : IpSegment -> Prop}
    (mem_iff : ∀ segment, segment ∈ ips ↔ isNamed segment)
    (containsAll : contains emptyIpSegment ∨ contains emptyIp6Segment) :
    (∃ segment ∈ orEmptySegments ips, contains segment) ↔ AcceptsAddress isNamed contains := by
  unfold AcceptsAddress orEmptySegments
  simp only [← mem_iff, ← eq_nil_iff_forall_not_mem]
  by_cases none : ips = []
  · simpa [none] using containsAll
  · rw [if_neg none, or_iff_right none]

theorem mem_addNodes_iff (make : PortSegment -> PortSegment -> MatchNode words)
    (srcPorts dstPorts : List PortSegment) (link : List (MatchNode words))
    (node : MatchNode words) : node ∈ addNodes make srcPorts dstPorts link ↔
      node ∈ link ∨ ∃ src ∈ srcPorts, ∃ dst ∈ dstPorts, node = make src dst := by
  have inner (src : PortSegment) (link : List (MatchNode words)) :
      node ∈ dstPorts.foldl (fun link dst => make src dst :: link) link ↔
        node ∈ link ∨ ∃ dst ∈ dstPorts, node = make src dst := by
    induction dstPorts generalizing link with
    | nil => simp
    | cons dst dstPorts ih =>
      rw [foldl_cons, ih]
      simp only [mem_cons, exists_eq_or_imp]
      exact or_assoc.trans or_left_comm
  unfold addNodes
  induction srcPorts generalizing link with
  | nil => simp
  | cons src srcPorts ih =>
    refine (ih _).trans ?_
    rw [inner, or_assoc]
    simp only [mem_cons, exists_eq_or_imp]

/-- The first ACL becomes the second one by adding these nodes. -/
structure Adds (nodes : MatchNode matchedFieldLen -> Prop)
    (nodes6 : MatchNode matchedField6Len -> Prop) (before after : Acl) : Prop where
  tapType : after.tapType = before.tapType
  proto : after.proto = before.proto
  mem_iff : ∀ node, node ∈ after.fieldLink ↔ node ∈ before.fieldLink ∨ nodes node
  mem6_iff : ∀ node, node ∈ after.field6Link ↔ node ∈ before.field6Link ∨ nodes6 node

/-- A loop adds what its rounds add to an ACL of the same rule. -/
theorem adds_foldl {Item : Type} {step : Acl -> Item -> Acl}
    {nodes : Item -> MatchNode matchedFieldLen -> Prop}
    {nodes6 : Item -> MatchNode matchedField6Len -> Prop} {rule : Acl}
    (each : ∀ a item, a.tapType = rule.tapType -> a.proto = rule.proto ->
      Adds (nodes item) (nodes6 item) a (step a item))
    (items : List Item) {a : Acl} (sameTap : a.tapType = rule.tapType)
    (sameProto : a.proto = rule.proto) :
    Adds (fun node => ∃ item ∈ items, nodes item node)
      (fun node => ∃ item ∈ items, nodes6 item node)
      a (items.foldl step a) := by
  induction items generalizing a with
  | nil => exact ⟨rfl, rfl, by simp, by simp⟩
  | cons item items ih =>
    have first := each a item sameTap sameProto
    have rest := ih (first.tapType.trans sameTap) (first.proto.trans sameProto)
    refine ⟨rest.tapType.trans first.tapType, rest.proto.trans first.proto, ?_, ?_⟩
    · intro node
      rw [foldl_cons, rest.mem_iff, first.mem_iff, or_assoc]
      simp only [mem_cons, exists_eq_or_imp]
    · intro node
      rw [foldl_cons, rest.mem6_iff, first.mem6_iff, or_assoc]
      simp only [mem_cons, exists_eq_or_imp]

/-- The nodes of two segments of one family. -/
def IsNodeOf {words : Nat} (family : Bool)
    (make : IpSegment -> IpSegment -> PortSegment -> PortSegment -> MatchNode words)
    (srcPorts dstPorts : List PortSegment) (srcIp dstIp : IpSegment)
    (node : MatchNode words) : Prop :=
  srcIp.ipv6 = family ∧ dstIp.ipv6 = family ∧
    ∃ src ∈ srcPorts, ∃ dst ∈ dstPorts, node = make srcIp dstIp src dst

theorem adds_addSegments {rule a : Acl} (sameTap : a.tapType = rule.tapType)
    (sameProto : a.proto = rule.proto) (srcPorts dstPorts : List PortSegment)
    (srcIp dstIp : IpSegment) : Adds (IsNodeOf false rule.matchNode srcPorts dstPorts srcIp dstIp)
      (IsNodeOf true rule.match6Node srcPorts dstPorts srcIp dstIp)
      a (addSegments srcPorts dstPorts a srcIp dstIp) := by
  have sameNode : a.matchNode = rule.matchNode := by
    funext srcIp dstIp src dst
    simp only [matchNode, matchAssignments, maskAssignments, sameTap, sameProto]
  have sameNode6 : a.match6Node = rule.match6Node := by
    funext srcIp dstIp src dst
    simp only [match6Node, match6Assignments, mask6Assignments, sameTap, sameProto]
  unfold addSegments IsNodeOf
  cases srcFamily : srcIp.ipv6 <;> cases dstFamily : dstIp.ipv6
  · exact ⟨rfl, rfl, by simp [mem_addNodes_iff, sameNode], by simp⟩
  · exact ⟨rfl, rfl, by simp, by simp⟩
  · exact ⟨rfl, rfl, by simp, by simp⟩
  · exact ⟨rfl, rfl, by simp, by simp [mem_addNodes_iff, sameNode6]⟩

/-- Every choice of segments has its nodes, and there are no other nodes. -/
theorem compile_spec (groupIpMap : GroupIpMap) (acl : Acl) {srcPorts dstPorts : List PortSegment}
    (srcResult : portSegments acl.srcPortRange = some srcPorts)
    (dstResult : portSegments acl.dstPortRange = some dstPorts) :
    let srcIps := orEmptySegments (groupSegments groupIpMap acl.srcGroups)
    let dstIps := orEmptySegments (groupSegments groupIpMap acl.dstGroups)
    ∃ compiled, acl.compile groupIpMap = some compiled ∧ (∀ node, node ∈ compiled.fieldLink ↔
        ∃ srcIp ∈ srcIps, ∃ dstIp ∈ dstIps,
          IsNodeOf false acl.matchNode srcPorts dstPorts srcIp dstIp node) ∧
      ∀ node, node ∈ compiled.field6Link ↔ ∃ srcIp ∈ srcIps, ∃ dstIp ∈ dstIps,
          IsNodeOf true acl.match6Node srcPorts dstPorts srcIp dstIp node := by
  intro srcIps dstIps
  have added := @adds_foldl _ _ _ _ acl (fun a srcIp sameTap sameProto => adds_foldl
      (fun a dstIp sameTap sameProto =>
        adds_addSegments sameTap sameProto srcPorts dstPorts srcIp dstIp)
      dstIps sameTap sameProto)
    srcIps acl.reset rfl rfl
  refine ⟨_, ?_, fun node => (added.mem_iff node).trans ?_,
    fun node => (added.mem6_iff node).trans ?_⟩
  · change (portSegments acl.srcPortRange).bind _ = _
    rw [srcResult, Option.bind_some]
    change (portSegments acl.dstPortRange).bind _ = _
    rw [dstResult, Option.bind_some]
  · exact or_iff_right not_mem_nil
  · exact or_iff_right not_mem_nil

/-- One end of a packet. -/
structure PacketEnd (Address : Type) where
  ip : Address
  epc : BitVec 16
  port : UInt16

def srcEnd (epc : BitVec 16) : PacketEnd (BitVec 32) :=
  ⟨key.srcIp, epc, key.srcPort⟩

def dstEnd (epc : BitVec 16) : PacketEnd (BitVec 32) :=
  ⟨key.dstIp, epc, key.dstPort⟩

def srcEnd6 (epc : BitVec 16) : PacketEnd (BitVec 64 × BitVec 64) :=
  ⟨key.src6Ip, epc, key.srcPort⟩

def dstEnd6 (epc : BitVec 16) : PacketEnd (BitVec 64 × BitVec 64) :=
  ⟨key.dst6Ip, epc, key.dstPort⟩

end

/-- A packet from one end to another, read against the ACL itself. -/
def Acl.Accepts {Address : Type} (a : Acl) (parseCIDR : String -> Option ParsedCidr)
    (data : List IpGroupData) (contains : IpSegment -> Address -> BitVec 16 -> Prop)
    (key : Datatype.LookupKey) (src dst : PacketEnd Address) : Prop :=
  a.AcceptsKind key ∧
    AcceptsAddress (Names parseCIDR data a.srcGroups) (contains · src.ip src.epc) ∧
    AcceptsAddress (Names parseCIDR data a.dstGroups) (contains · dst.ip dst.epc) ∧
    AcceptsPort a.srcPortRange src.port ∧ AcceptsPort a.dstPortRange dst.port

/-- One of the nodes matches the field of a key. -/
def MatchesSome {words : Nat} (link : List (MatchNode words)) (field : MatchedField words) : Prop :=
  ∃ node ∈ link, (field.and node.matchedMask).equal node.matched

instance {words : Nat} (link : List (MatchNode words)) (field : MatchedField words) :
    Decidable (MatchesSome link field) :=
  inferInstanceAs (Decidable (∃ node ∈ link, _))

/-- Segments can be chosen for each part by itself. -/
theorem matchesSome_iff {words : Nat} {family : Bool}
    {make : IpSegment -> IpSegment -> PortSegment -> PortSegment -> MatchNode words}
    {srcIps dstIps : List IpSegment}
    {link : List (MatchNode words)} (mem_iff : ∀ node, node ∈ link ↔
      ∃ srcIp ∈ srcIps, ∃ dstIp ∈ dstIps, IsNodeOf family make srcPorts dstPorts srcIp dstIp node)
    {field : MatchedField words} {kind : Prop} {srcIn dstIn : IpSegment -> Prop} {src dst : UInt16}
    (matches_iff : ∀ srcIp dstIp srcPort dstPort,
      (field.and (make srcIp dstIp srcPort dstPort).matchedMask).equal
          (make srcIp dstIp srcPort dstPort).matched ↔
        kind ∧ srcIn srcIp ∧ dstIn dstIp ∧ srcPort.Matches src ∧ dstPort.Matches dst) :
    MatchesSome link field ↔ kind ∧ (∃ srcIp ∈ srcIps, srcIp.ipv6 = family ∧ srcIn srcIp) ∧
        (∃ dstIp ∈ dstIps, dstIp.ipv6 = family ∧ dstIn dstIp) ∧
        (∃ srcPort ∈ srcPorts, srcPort.Matches src) ∧
        ∃ dstPort ∈ dstPorts, dstPort.Matches dst := by
  unfold MatchesSome
  constructor
  · rintro ⟨node, isIn, isMatch⟩
    obtain ⟨srcIp, srcMem, dstIp, dstMem, srcFamily, dstFamily, srcPort,
      srcPortMem, dstPort, dstPortMem, rfl⟩ := (mem_iff node).mp isIn
    obtain ⟨isKind, srcInside, dstInside, srcMatch, dstMatch⟩ :=
      (matches_iff srcIp dstIp srcPort dstPort).mp isMatch
    exact ⟨isKind, ⟨srcIp, srcMem, srcFamily, srcInside⟩,
      ⟨dstIp, dstMem, dstFamily, dstInside⟩, ⟨srcPort, srcPortMem, srcMatch⟩,
      ⟨dstPort, dstPortMem, dstMatch⟩⟩
  · rintro ⟨isKind, ⟨srcIp, srcMem, srcFamily, srcInside⟩,
      ⟨dstIp, dstMem, dstFamily, dstInside⟩, ⟨srcPort, srcPortMem, srcMatch⟩,
      ⟨dstPort, dstPortMem, dstMatch⟩⟩
    refine ⟨make srcIp dstIp srcPort dstPort, (mem_iff _).mpr ?_,
      (matches_iff _ _ _ _).mpr ⟨isKind, srcInside, dstInside, srcMatch, dstMatch⟩⟩
    exact ⟨srcIp, srcMem, dstIp, dstMem, srcFamily, dstFamily, srcPort,
      srcPortMem, dstPort, dstPortMem, rfl⟩

/-- The protocol fits into the part of a field, the ids of the groups into 16
bits, and a range of ports that is named has ports. -/
structure Acl.Compilable (acl : Acl) (data : List IpGroupData) : Prop where
  fits : acl.Fits
  srcApart : ToldApart data acl.srcGroups
  dstApart : ToldApart data acl.dstGroups
  srcUsable : Usable acl.srcPortRange
  dstUsable : Usable acl.dstPortRange

theorem contains_emptyIpSegment (ip : BitVec 32) (epc : BitVec 16) :
    emptyIpSegment.Contains ip epc :=
  ⟨rfl, BitVec.and_zero, .inl rfl⟩

theorem contains6_emptyIp6Segment (ip : BitVec 64 × BitVec 64) (epc : BitVec 16) :
    emptyIp6Segment.Contains6 ip epc :=
  ⟨rfl, BitVec.and_zero, BitVec.and_zero, .inl rfl⟩

/-- The nodes of a compiled ACL match a packet, in either direction, exactly if
the ACL accepts it in that direction. -/
theorem compile_matches_iff (parseCIDR : String -> Option ParsedCidr) (data : List IpGroupData)
    (acl : Acl) (compilable : acl.Compilable data) :
    ∃ compiled, acl.compile (generateGroupIpMap parseCIDR data) = some compiled ∧
      ∀ (key : Datatype.LookupKey) (srcEpc dstEpc : BitVec 16), key.tapType.toNat < 256 ->
        let fields := key.generateMatchedField srcEpc dstEpc
        (key.isIpv6 = false ->
          let accepts := acl.Accepts parseCIDR data IpSegment.Contains key
          (MatchesSome compiled.fieldLink fields.forwardMatched ↔
            accepts (srcEnd key srcEpc) (dstEnd key dstEpc)) ∧
          (MatchesSome compiled.fieldLink fields.backwardMatched ↔
            accepts (dstEnd key dstEpc) (srcEnd key srcEpc))) ∧
        (key.isIpv6 = true ->
          let accepts := acl.Accepts parseCIDR data IpSegment.Contains6 key
          (MatchesSome compiled.field6Link fields.forwardMatched6 ↔
            accepts (srcEnd6 key srcEpc) (dstEnd6 key dstEpc)) ∧
          (MatchesSome compiled.field6Link fields.backwardMatched6 ↔
            accepts (dstEnd6 key dstEpc) (srcEnd6 key srcEpc))) := by
  obtain ⟨fits, srcApart, dstApart, srcUsable, dstUsable⟩ := compilable
  obtain ⟨srcPorts, srcResult, srcCovers⟩ := portSegments_spec srcUsable
  obtain ⟨dstPorts, dstResult, dstCovers⟩ := portSegments_spec dstUsable
  obtain ⟨compiled, result, mem_iff, mem6_iff⟩ := compile_spec
    (generateGroupIpMap parseCIDR data) acl srcResult dstResult
  refine ⟨compiled, result, fun key srcEpc dstEpc keyTap => ?_⟩
  have addresses (groups : List (BitVec 32)) (apart : ToldApart data groups)
      (contains : IpSegment -> Prop)
      (containsAll : contains emptyIpSegment ∨ contains emptyIp6Segment) :=
    exists_orEmptySegments_iff (@mem_groupSegments_iff parseCIDR _ _ apart) containsAll
  constructor
  · intro isV4
    have direction (stale : MatchedField matchedFieldLen) (src dst : PacketEnd (BitVec 32)) :
        MatchesSome compiled.fieldLink (stale.setAll matchedLayout
          (key.assignments src.ip dst.ip src.epc dst.epc src.port dst.port)) ↔
        acl.Accepts parseCIDR data IpSegment.Contains key src dst := by
      rw [matchesSome_iff mem_iff fun srcIp dstIp srcPort dstPort =>
        matchNode_matches_iff srcIp dstIp srcPort dstPort fits keyTap stale
          src.ip dst.ip src.epc dst.epc src.port dst.port]
      refine and_congr_right' (and_congr ?_ (and_congr ?_
        (and_congr (srcCovers src.port) (dstCovers dst.port))))
      · exact addresses _ srcApart (·.Contains src.ip src.epc) (.inl (contains_emptyIpSegment _ _))
      · exact addresses _ dstApart (·.Contains dst.ip dst.epc) (.inl (contains_emptyIpSegment _ _))
    simp only [Datatype.LookupKey.generateMatchedField, isV4]
    exact ⟨direction _ (srcEnd key srcEpc) (dstEnd key dstEpc),
      direction _ (dstEnd key dstEpc) (srcEnd key srcEpc)⟩
  · intro isV6
    have direction (stale : MatchedField matchedField6Len)
        (src dst : PacketEnd (BitVec 64 × BitVec 64)) :
        MatchesSome compiled.field6Link (stale.setAll matched6Layout
          (key.assignments6 src.ip dst.ip src.epc dst.epc src.port dst.port)) ↔
        acl.Accepts parseCIDR data IpSegment.Contains6 key src dst := by
      rw [matchesSome_iff mem6_iff fun srcIp dstIp srcPort dstPort =>
        match6Node_matches_iff srcIp dstIp srcPort dstPort fits keyTap stale
          src.ip dst.ip src.epc dst.epc src.port dst.port]
      refine and_congr_right' (and_congr ?_ (and_congr ?_
        (and_congr (srcCovers src.port) (dstCovers dst.port))))
      · exact addresses _ srcApart (·.Contains6 src.ip src.epc)
          (.inr (contains6_emptyIp6Segment _ _))
      · exact addresses _ dstApart (·.Contains6 dst.ip dst.epc)
          (.inr (contains6_emptyIp6Segment _ _))
    simp only [Datatype.LookupKey.generateMatchedField, isV6]
    exact ⟨direction _ (srcEnd6 key srcEpc) (dstEnd6 key dstEpc),
      direction _ (dstEnd6 key dstEpc) (srcEnd6 key srcEpc)⟩

/-- A packet from a network of a group to one of five ports. -/
theorem compile_matches_iff_web :
    let acl : Acl := { srcGroups := [10], dstPortRange := [⟨80, 84⟩] }
    let data : List IpGroupData := [⟨10, 7, ["10.0.0.0/8"]⟩]
    let parseCIDR := fun _ => some (ParsedCidr.v4 0x0a000000 8)
    let key : Datatype.LookupKey := { srcIp := 0x0a010203, dstPort := 83 }
    ∃ compiled, acl.compile (generateGroupIpMap parseCIDR data) = some compiled ∧
      MatchesSome compiled.fieldLink (key.generateMatchedField 7 0).forwardMatched := by
  intro acl data parseCIDR key
  have srcApart : ToldApart data acl.srcGroups := by
    intro group isGroup id isId _
    rw [List.mem_singleton.mp isGroup, List.mem_singleton.mp isId]
  have dstApart : ToldApart data acl.dstGroups := fun _ _ _ isIn => absurd isIn List.not_mem_nil
  obtain ⟨compiled, result, matches_iff⟩ := compile_matches_iff parseCIDR data acl
    ⟨⟨by decide⟩, srcApart, dstApart, .inl rfl,
      .inr ⟨⟨80, 84⟩, List.mem_singleton_self _, by decide⟩⟩
  have accepts : acl.Accepts parseCIDR data IpSegment.Contains key
      (srcEnd key 7) (dstEnd key 0) := by
    refine ⟨⟨.inl rfl, .inl rfl⟩, .inr ⟨_, ⟨_, List.mem_singleton_self _,
      by decide, by decide, List.mem_singleton_self _⟩, by decide, by decide,
      .inr rfl⟩, .inl ?_, .inl rfl,
      .inr ⟨_, List.mem_singleton_self _, by decide, by decide⟩⟩
    rintro segment ⟨group, _, _, isIn, _⟩
    exact List.not_mem_nil isIn
  exact ⟨compiled, result, ((matches_iff key 7 0 (by decide)).1 rfl).1.mpr accepts⟩

/-- A range without a port matches every port, a wide tap type matches no
packet, and the segments of a group with the same low bits are read. -/
theorem compile_changes_meaning :
    (let acl : Acl := { srcPortRange := [⟨2, 1⟩] }
     let key : Datatype.LookupKey := {}
     ∃ compiled, acl.compile (fun _ => []) = some compiled ∧
      MatchesSome compiled.fieldLink (key.generateMatchedField 0 0).forwardMatched ∧
      ¬ acl.Accepts (fun _ => none) [] IpSegment.Contains key (srcEnd key 0) (dstEnd key 0)) ∧
    (let acl : Acl := { tapType := 256 }
     let key : Datatype.LookupKey := { tapType := 256 }
     ∃ compiled, acl.compile (fun _ => []) = some compiled ∧
      ¬ MatchesSome compiled.fieldLink (key.generateMatchedField 0 0).forwardMatched ∧
      acl.Accepts (fun _ => none) [] IpSegment.Contains key (srcEnd key 0) (dstEnd key 0)) ∧
    (let acl : Acl := { srcGroups := [1] }
     let data : List IpGroupData := [⟨0x10001, 0, ["10.0.0.0/8"]⟩]
     let parseCIDR := fun _ => some (ParsedCidr.v4 0x0a000000 8)
     let key : Datatype.LookupKey := { srcIp := 0x0b000000 }
     ∃ compiled, acl.compile (generateGroupIpMap parseCIDR data) = some compiled ∧
      ¬ MatchesSome compiled.fieldLink (key.generateMatchedField 0 0).forwardMatched ∧
      acl.Accepts parseCIDR data IpSegment.Contains key (srcEnd key 0) (dstEnd key 0)) := by
  have noGroups (parseCIDR : String -> Option ParsedCidr)
      (data : List IpGroupData) (segment : IpSegment) :
      ¬ Names parseCIDR data [] segment := by
    rintro ⟨group, _, _, isIn, _⟩
    exact List.not_mem_nil isIn
  refine ⟨⟨_, rfl, by decide +kernel, ?_⟩, ⟨_, rfl, by decide +kernel, ?_⟩,
    ⟨_, rfl, by decide +kernel, ?_⟩⟩
  · rintro ⟨_, _, _, noRange | ⟨range, isIn, inside⟩, _⟩
    · cases noRange
    · rw [List.mem_singleton.mp isIn] at inside
      revert inside
      decide
  · exact ⟨⟨.inr rfl, .inl rfl⟩, .inl (noGroups _ _), .inl (noGroups _ _), .inl rfl, .inl rfl⟩
  · refine ⟨⟨.inl rfl, .inl rfl⟩, .inl ?_, .inl (noGroups _ _), .inl rfl, .inl rfl⟩
    rintro segment ⟨group, isGroup, _, isIn, _⟩
    rw [List.mem_singleton.mp isGroup] at isIn
    revert isIn
    decide

end Metaflow.Policy
