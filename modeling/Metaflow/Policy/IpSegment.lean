import Metaflow.Library.Run

/-!
# Segments of addresses

`ip_segment.go` and the groups of `ddbs.go`: the addresses of a group are
given as texts, and each text that is an address with a length of its network
becomes a segment with a value and a mask.
-/

namespace Metaflow.Policy

/-- What `net.ParseCIDR` reads: the network address and the number of ones of
its mask. -/
inductive ParsedCidr where
  | v4 (ip : BitVec 32) (maskSize : Fin 33)
  | v6 (ip0 ip1 : BitVec 64) (maskSize : Fin 129)
  deriving DecidableEq

/-- `uint32(math.MaxUint32) << (32 - maskSize)` -/
def netmask (maskSize : BitVec 32) : BitVec 32 :=
  BitVec.allOnes 32 <<< (32 - maskSize).toNat

/-- `net.CIDRMask` for 128 bits -/
def cidrMask6 (maskSize : Fin 129) : BitVec 64 × BitVec 64 :=
  (BitVec.allOnes 64 <<< (64 - maskSize.val), BitVec.allOnes 64 <<< (128 - max maskSize.val 64))

structure IpSegment where
  ip : BitVec 32 := 0
  mask : BitVec 32 := 0
  ip0 : BitVec 64 := 0
  ip1 : BitVec 64 := 0
  mask0 : BitVec 64 := 0
  mask1 : BitVec 64 := 0
  epcId : BitVec 16 := 0
  ipv6 : Bool := false
  deriving DecidableEq

/-- `emptyIpSegment` -/
def emptyIpSegment : IpSegment := {}

/-- `emptyIp6Segment` -/
def emptyIp6Segment : IpSegment := { ipv6 := true }

/-- A text that is no network makes no segment. -/
def newIpSegment (parseCIDR : String -> Option ParsedCidr) (ips : String)
    (epcId : BitVec 16) : Option IpSegment :=
  match parseCIDR ips with
  | some (.v6 ip0 ip1 maskSize) =>
    let mask := cidrMask6 maskSize
    some
      { epcId := epcId
        ipv6 := true
        ip0 := ip0 &&& mask.1
        ip1 := ip1 &&& mask.2
        mask0 := mask.1
        mask1 := mask.2 }
  | some (.v4 ip maskSize) =>
    let mask := netmask (BitVec.ofNat 32 maskSize)
    some { epcId := epcId, ip := ip &&& mask, mask := mask }
  | none => none

/-- The fields of the groups that the tables are made of. -/
structure IpGroupData where
  id : BitVec 32
  epcId : BitVec 32
  ips : List String

/-- `groupIpMap` -/
abbrev GroupIpMap := BitVec 16 -> List IpSegment

/-- The loop body of `generateGroupIpMap`. -/
def addGroup (parseCIDR : String -> Option ParsedCidr) (groupIpMap : GroupIpMap)
    (data : IpGroupData) : GroupIpMap :=
  if data.id ≠ 0 then
    let groupId := data.id.setWidth 16
    let segments := data.ips.filterMap fun ips =>
      newIpSegment parseCIDR ips (data.epcId.setWidth 16)
    Function.update groupIpMap groupId (groupIpMap groupId ++ segments)
  else groupIpMap

def generateGroupIpMap (parseCIDR : String -> Option ParsedCidr)
    (data : List IpGroupData) : GroupIpMap :=
  data.foldl (addGroup parseCIDR) fun _ => []

end Metaflow.Policy
