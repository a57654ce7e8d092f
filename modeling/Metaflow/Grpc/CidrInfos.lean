import Metaflow.Grpc.PlatformData
import Metaflow.Library.BestMatch
import Metaflow.Library.Slices
import Metaflow.Net.IPNet

/-!
# The CIDRs of the platform table

`grpc_platformdata.go`: each CIDR goes into the list of its EPC, and a WAN CIDR
also into the list of EPC 0. The lists are slices: one that was made by
appending to another may share its array.
-/

namespace Metaflow.Grpc.Cidrs

open Library

/-- `EPC_FROM_DEEPFLOW` -/
def epcFromDeepflow : Int32 := -1

/-- `EPC_FROM_INTERNET` -/
def epcFromInternet : Int32 := -2

inductive CidrType where
  | wan
  | lan
  deriving DecidableEq

/-- A CIDR as the controller sends it. -/
structure TridentCidr where
  prefixText : String
  type : CidrType
  epcId : Int32
  subnetId : UInt32
  regionId : UInt32
  azId : UInt32

/-- What is known of a CIDR. `hitCount` names a hit counter. -/
structure CidrInfo where
  cidr : Net.IPNet
  epcID : Int32
  subnetID : UInt32
  regionID : UInt32
  azID : UInt32
  isWan : Bool
  hitCount : Nat
  deriving DecidableEq

/-- `Cidr.Mask.Size()` -/
def CidrInfo.maskSize (info : CidrInfo) : Nat :=
  info.cidr.mask.ones

/-- What the language leaves open: the room of a new array, the order of a map,
and the order of equal elements behind a sort. -/
structure Runtime where
  grow : Nat -> Nat
  order : Nat -> List Int32 -> List Int32
  order_perm : ∀ step keys, (order step keys).Perm keys
  sort : List CidrInfo -> List CidrInfo
  sort_perm : ∀ infos, (sort infos).Perm infos
  sort_falling : ∀ infos, (sort infos).Pairwise (falling CidrInfo.maskSize)

/-- A `map[int32][]*CidrInfo` with the arrays of its lists. -/
structure CidrMap where
  heap : Heap CidrInfo := .empty
  slices : Int32 -> Option HeapSlice := fun _ => none
  keys : List Int32 := []

namespace CidrMap

/-- Set the list of a key. -/
def set (m : CidrMap) (key : Int32) (heap : Heap CidrInfo) (slice : HeapSlice) : CidrMap where
  heap := heap
  slices := Function.update m.slices key (some slice)
  keys := if (m.slices key).isSome then m.keys else m.keys ++ [key]

/-- Make a list unless the key has one. -/
def ensure (m : CidrMap) (key : Int32) (cap : Nat) : CidrMap :=
  match m.slices key with
  | some _ => m
  | none =>
    let made := m.heap.make [] cap
    m.set key made.1 made.2

/-- `m[target] = append(m[source], info)` -/
def appendTo (rt : Runtime) (m : CidrMap) (target source : Int32) (info : CidrInfo) : CidrMap :=
  let appended := ((m.slices source).getD .nil).append rt.grow m.heap info
  m.set target appended.1 appended.2

/-- Sort the list of a key. -/
def sortKey (rt : Runtime) (m : CidrMap) (key : Int32) : CidrMap :=
  match m.slices key with
  | some slice => { m with heap := slice.sortBy rt.sort m.heap }
  | none => m

/-- Sort all lists. -/
def sortAll (rt : Runtime) (step : Nat) (m : CidrMap) : CidrMap :=
  (rt.order step m.keys).foldl (sortKey rt) m

/-- The elements of the list of a key. -/
def read (m : CidrMap) (key : Int32) : List CidrInfo :=
  match m.slices key with
  | some slice => slice.read m.heap
  | none => []

end CidrMap

structure CidrTables where
  epcIDIPV4CidrInfos : CidrMap := {}
  epcIDIPV6CidrInfos : CidrMap := {}
  /-- the region of the first CIDR of an EPC -/
  epcIDBaseInfos : Int32 -> Option UInt32 := fun _ => none
  hitCounters : Nat := 0

/-- The family of a text: whether a point comes before a colon. -/
def isIPV4 (ipStr : String) : Bool :=
  match ipStr.toList.find? fun c => c == '.' || c == ':' with
  | some c => c == '.'
  | none => false

/-- The entry of an IPv4 CIDR. The list of EPC 0 is made from the list of the
CIDR's EPC. -/
def addIPV4 (rt : Runtime) (m : CidrMap) (info : CidrInfo) : CidrMap :=
  let m := (m.ensure info.epcID 1).appendTo rt info.epcID info.epcID info
  if info.isWan then (m.ensure 0 128).appendTo rt 0 info.epcID info else m

/-- The entry of an IPv6 CIDR. -/
def addIPV6 (rt : Runtime) (m : CidrMap) (info : CidrInfo) : CidrMap :=
  let m := (m.ensure info.epcID 1).appendTo rt info.epcID info.epcID info
  if info.isWan then (m.ensure 0 128).appendTo rt 0 0 info else m

/-- The new `CidrInfo` of a CIDR whose text can be read. -/
def newCidrInfo (cidr : Net.IPNet) (hitCount : Nat) (tridentCidr : TridentCidr) : CidrInfo where
  cidr := cidr
  epcID := if tridentCidr.epcId = 0 then epcFromDeepflow else tridentCidr.epcId
  subnetID := tridentCidr.subnetId
  regionID := tridentCidr.regionId
  azID := tridentCidr.azId
  isWan := tridentCidr.type == .wan
  hitCount := hitCount

/-- Enter a new `CidrInfo` and sort all lists. -/
def CidrTables.enter (rt : Runtime) (t : CidrTables) (ipv4 : Bool)
    (info : CidrInfo) : CidrTables where
  epcIDIPV4CidrInfos := CidrMap.sortAll rt t.hitCounters
    (if ipv4 then addIPV4 rt t.epcIDIPV4CidrInfos info
      else t.epcIDIPV4CidrInfos)
  epcIDIPV6CidrInfos := CidrMap.sortAll rt t.hitCounters
    (if ipv4 then t.epcIDIPV6CidrInfos
      else addIPV6 rt t.epcIDIPV6CidrInfos info)
  epcIDBaseInfos :=
    if (t.epcIDBaseInfos info.epcID).isSome then t.epcIDBaseInfos
    else Function.update t.epcIDBaseInfos info.epcID (some info.regionID)
  hitCounters := t.hitCounters + 1

/-- A CIDR whose text cannot be read is left out. -/
def updateCidrInfos (rt : Runtime) (parseCIDR : String -> Option Net.IPNet) (t : CidrTables)
    (tridentCidr : TridentCidr) : CidrTables :=
  match parseCIDR tridentCidr.prefixText with
  | none => t
  | some cidr =>
    t.enter rt (isIPV4 tridentCidr.prefixText) (newCidrInfo cidr t.hitCounters tridentCidr)

/-- The tables of a platform table behind its caches. -/
structure PlatformTables extends CidrTables where
  epcIDIPV4Infos : UInt64 -> Option Info
  epcIDIPV6Infos : UInt32 -> BitVec 128 -> Option Info

/-- The first CIDR of an EPC that contains the address. -/
def CidrMap.queryCidr (m : CidrMap) (epcID : Int32) (ip : Net.IP) : Option Info :=
  ((m.read epcID).find? fun cidrInfo => cidrInfo.cidr.contains ip).map
    fun cidrInfo =>
      { subnetID := cidrInfo.subnetID
        regionID := cidrInfo.regionID
        azID := cidrInfo.azID
        hitCount := cidrInfo.hitCount }

namespace PlatformTables

variable (t : PlatformTables) (epcID : Int16) (ipv6 : BitVec 128)

def queryIPV4Cidr (ipv4 : UInt32) : Option Info :=
  t.epcIDIPV4CidrInfos.queryCidr epcID.toInt32 (.v4 ipv4.toBitVec)

def queryIPV6Cidr : Option Info :=
  t.epcIDIPV6CidrInfos.queryCidr epcID.toInt32 (.v6 ipv6)

def queryIPV4Infos (ipv4 : UInt32) : Option Info :=
  match t.epcIDIPV4Infos (ipv4Key epcID ipv4) with
  | some info => some info
  | none => t.queryIPV4Cidr epcID ipv4

def queryIPV6Infos : Option Info :=
  match t.epcIDIPV6Infos epcID.toInt32.toUInt32 ipv6 with
  | some info => some info
  | none => t.queryIPV6Cidr epcID ipv6

def findEpcInWan (isIPv4 : Bool) (ip4 : UInt32) (ip6 : BitVec 128) : Int32 :=
  if isIPv4 then
    match t.queryIPV4Infos 0 ip4 with
    | some info => info.epcID
    | none => epcFromInternet
  else
    match t.queryIPV6Infos 0 ip6 with
    | some info => info.epcID
    | none => epcFromInternet

end PlatformTables

end Metaflow.Grpc.Cidrs
