import Metaflow.Datatype.LookupKey
import Metaflow.Policy.Acl
import Metaflow.Policy.IpSegment
import Metaflow.Policy.PortSegment

/-!
# Compiling ACLs

`acl.go` and `generateAclBits` of `ddbs.go`: an ACL becomes one node for every
choice of a source and a destination segment of addresses and of ports.
-/

namespace Metaflow.Policy

open Datatype Library

namespace Acl

/-- One half of `generatePortSegment`. -/
def portSegments (ranges : List PortRange) : Option (List PortSegment) :=
  (ranges.mapM newPortSegments).map fun segments =>
    if segments.flatten = [] then [allPortSegment] else segments.flatten

/-- The value of `SetMask`. -/
def maskValue {words : Nat} {Flag : Type} (layout : FieldLayout words Flag) (flag : Flag)
    (value : BitVec 64) : Flag × BitVec 64 :=
  (flag, if value ≠ 0 then layout.mask flag else value)

section Nodes

variable (a : Acl) (srcIps dstIps : IpSegment) (srcPort dstPort : PortSegment)

/-- What `generateMatchedField` writes into the field of a node. -/
def matchAssignments : List (MatchFlag × BitVec 64) :=
  [(.tapType, a.tapType.setWidth 64), (.srcIp, srcIps.ip.setWidth 64),
    (.srcEpc, srcIps.epcId.setWidth 64),
    (.dstIp, dstIps.ip.setWidth 64),
    (.dstEpc, dstIps.epcId.setWidth 64),
    (.srcPort, portValue srcPort.port),
    (.dstPort, portValue dstPort.port),
    (.proto, if a.proto = protoAll then 0 else a.proto.setWidth 64)]

/-- What `generateMatchedField` writes into the mask of a node. -/
def maskAssignments : List (MatchFlag × BitVec 64) :=
  [maskValue matchedLayout .tapType (a.tapType.setWidth 64), (.srcIp, srcIps.mask.setWidth 64),
    maskValue matchedLayout .srcEpc (srcIps.epcId.setWidth 64),
    (.dstIp, dstIps.mask.setWidth 64),
    maskValue matchedLayout .dstEpc (dstIps.epcId.setWidth 64),
    (.srcPort, portValue srcPort.mask),
    (.dstPort, portValue dstPort.mask),
    (.proto, if a.proto = protoAll then 0
      else (maskValue matchedLayout .proto 0xff).2)]

/-- The node of `generateMatchedField` for two segments of ports. -/
def matchNode : MatchNode matchedFieldLen where
  matched := MatchedField.blank.setAll matchedLayout
    (a.matchAssignments srcIps dstIps srcPort dstPort)
  matchedMask := MatchedField.blank.setAll matchedLayout
    (a.maskAssignments srcIps dstIps srcPort dstPort)

/-- What `generateMatchedField6` writes into the field of a node. -/
def match6Assignments : List (MatchFlag6 × BitVec 64) :=
  [(.tapType, a.tapType.setWidth 64), (.srcIp0, srcIps.ip0), (.srcIp1, srcIps.ip1),
    (.srcEpc, srcIps.epcId.setWidth 64),
    (.dstIp0, dstIps.ip0),
    (.dstIp1, dstIps.ip1),
    (.dstEpc, dstIps.epcId.setWidth 64),
    (.srcPort, portValue srcPort.port),
    (.dstPort, portValue dstPort.port),
    (.proto, if a.proto = protoAll then 0 else a.proto.setWidth 64)]

/-- What `generateMatchedField6` writes into the mask of a node. -/
def mask6Assignments : List (MatchFlag6 × BitVec 64) :=
  [maskValue matched6Layout .tapType (a.tapType.setWidth 64), (.srcIp0, srcIps.mask0),
    (.srcIp1, srcIps.mask1),
    maskValue matched6Layout .srcEpc (srcIps.epcId.setWidth 64),
    (.dstIp0, dstIps.mask0),
    (.dstIp1, dstIps.mask1),
    maskValue matched6Layout .dstEpc (dstIps.epcId.setWidth 64),
    (.srcPort, portValue srcPort.mask),
    (.dstPort, portValue dstPort.mask),
    maskValue matched6Layout .proto (if a.proto = protoAll then 0 else 0xff)]

/-- The node of `generateMatchedField6` for two segments of ports. -/
def match6Node : MatchNode matchedField6Len where
  matched := MatchedField.blank.setAll matched6Layout
    (a.match6Assignments srcIps dstIps srcPort dstPort)
  matchedMask := MatchedField.blank.setAll matched6Layout
    (a.mask6Assignments srcIps dstIps srcPort dstPort)

end Nodes

/-- The loops over the ports; each node is put before the ones there are. -/
def addNodes {words : Nat} (node : PortSegment -> PortSegment -> MatchNode words)
    (srcPorts dstPorts : List PortSegment)
    (link : List (MatchNode words)) : List (MatchNode words) :=
  srcPorts.foldl (fun link srcPort =>
    dstPorts.foldl (fun link dstPort => node srcPort dstPort :: link) link) link

/-- The loop bodys of `generateMatched`. -/
def addSegments (srcPorts dstPorts : List PortSegment) (a : Acl) (srcIp dstIp : IpSegment) : Acl :=
  if srcIp.ipv6 ≠ dstIp.ipv6 then a
  else if srcIp.ipv6 then
    { a with field6Link :=
        addNodes (a.match6Node srcIp dstIp) srcPorts dstPorts a.field6Link }
  else
    { a with fieldLink :=
        addNodes (a.matchNode srcIp dstIp) srcPorts dstPorts a.fieldLink }

def generateMatched (a : Acl) (srcIps dstIps : List IpSegment) : Option Acl := do
  let srcPorts ← portSegments a.srcPortRange
  let dstPorts ← portSegments a.dstPortRange
  some (srcIps.foldl (fun a srcIp =>
    dstIps.foldl (fun a dstIp => addSegments srcPorts dstPorts a srcIp dstIp) a)
    a)

/-- The segments of some groups. -/
def groupSegments (groupIpMap : GroupIpMap) (groups : List (BitVec 32)) : List IpSegment :=
  groups.flatMap fun group => groupIpMap (group.setWidth 16)

/-- No segment stands for all addresses. -/
def orEmptySegments (ips : List IpSegment) : List IpSegment :=
  if ips = [] then [emptyIpSegment, emptyIp6Segment] else ips

/-- `Reset` -/
def reset (a : Acl) : Acl :=
  { a with fieldLink := [], field6Link := [] }

/-- The ACL is reset and given its nodes, as by `UpdateAcls` and
`generateAclBits`. -/
def compile (groupIpMap : GroupIpMap) (acl : Acl) : Option Acl :=
  acl.reset.generateMatched (orEmptySegments (groupSegments groupIpMap acl.srcGroups))
    (orEmptySegments (groupSegments groupIpMap acl.dstGroups))

end Acl

end Metaflow.Policy
