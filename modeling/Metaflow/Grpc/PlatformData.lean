import Metaflow.Hmap.Lru.U64Lru
import Mathlib.Data.UInt

/-!
# The platform table

`grpc_platformdata.go`: a query for an IPv4 address looks into an LRU cache, the
table of addresses and the subnets of its EPC; what it finds, or that it found
nothing, goes into the cache. A reload replaces tables and cache. The building
of tables, the decoding and the hash function are parameters. Hit and miss
counters are named by their index.
-/

namespace Metaflow.Grpc

open Library
open Hmap.Lru

/-- `LruSlotSize` -/
def lruSlotSize : Int := 16384

/-- `LruCap` -/
def lruCap : Nat := 131072

/-- What is known of an address. `hitCount` names a hit counter. -/
structure Info where
  epcID : Int32 := 0
  l2EpcID : UInt32 := 0
  host : UInt32 := 0
  hostStr : String := ""
  hostID : UInt32 := 0
  mac : UInt64 := 0
  regionID : UInt32 := 0
  deviceType : UInt32 := 0
  deviceID : UInt32 := 0
  subnetID : UInt32 := 0
  podNodeID : UInt32 := 0
  podNSID : UInt32 := 0
  podGroupID : UInt32 := 0
  podID : UInt32 := 0
  podClusterID : UInt32 := 0
  azID : UInt32 := 0
  isVip : Bool := false
  isWan : Bool := false
  hitCount : Nat
  deriving DecidableEq

/-- An IPv4 network of package `net`. -/
structure IPNet where
  ip : UInt32
  mask : UInt32

def IPNet.contains (network : IPNet) (ip : UInt32) : Bool :=
  network.ip &&& network.mask == ip &&& network.mask

/-- What is known of a subnet. -/
structure CidrInfo where
  cidr : IPNet
  epcID : Int32
  regionID : UInt32
  subnetID : UInt32
  azID : UInt32
  isWan : Bool
  hitCount : Nat

/-- The tables that a reload replaces. -/
structure Tables where
  epcIDIPV4Infos : UInt64 -> Option Info
  epcIDIPV4CidrInfos : Int32 -> Option (List CidrInfo)

/-- `uint64(epcID)<<32 | uint64(ipv4)`, where `epcID` is extended with its sign.
-/
def ipv4Key (epcID : Int16) (ipv4 : UInt32) : UInt64 :=
  epcID.toInt64.toUInt64 <<< 32 ||| ipv4.toUInt64

/-- The first subnet of the EPC that contains the address. -/
def Tables.queryIPV4Cidr (t : Tables) (epcID : Int16) (ipv4 : UInt32) : Option Info :=
  match t.epcIDIPV4CidrInfos epcID.toInt32 with
  | none => none
  | some cidrInfos =>
    (cidrInfos.find? fun cidrInfo => cidrInfo.cidr.contains ipv4).map
      fun cidrInfo =>
        { subnetID := cidrInfo.subnetID
          regionID := cidrInfo.regionID
          azID := cidrInfo.azID
          hitCount := cidrInfo.hitCount }

/-- The table of addresses, and the subnets if it does not have the key. The
flag says that it has. -/
def Tables.queryTables (t : Tables) (epcID : Int16) (ipv4 : UInt32) : Option Info × Bool :=
  match t.epcIDIPV4Infos (ipv4Key epcID ipv4) with
  | some info => (some info, true)
  | none => (t.queryIPV4Cidr epcID ipv4, false)

/-- The status of a response. -/
inductive Status where
  | success
  | failed
  | heartbeat
  deriving DecidableEq

/-- The name of a status in messages. -/
def Status.name : Status -> String
  | .success => "SUCCESS"
  | .failed => "FAILED"
  | .heartbeat => "HEARTBEAT"

/-- What `Reload` reads of the response of the controller. -/
structure SyncResponse (Bytes : Type) where
  status : Status
  versionPlatformData : UInt64
  platformData : Option Bytes

variable {Bytes PlatformData : Type} [Inhabited PlatformData]

/-- `Reload` up to the new platform data: an error, no data if the version is
loaded already, or the new version with its data. A response without data stands
for empty data. -/
def newPlatformData (unmarshal : Bytes -> Except String PlatformData)
    (versionPlatformData : UInt64) (requested : Except String (SyncResponse Bytes)) :
    Except String (Option (UInt64 × PlatformData)) := do
  let response ← requested
  if response.status ≠ .success then
    throw ("grpc response failed. responseStatus is " ++ response.status.name)
  else if response.versionPlatformData = versionPlatformData then
    return none
  else
    match response.platformData with
    | none => return some (response.versionPlatformData, default)
    | some plarformCompressed => do
        let platformData ← unmarshal plarformCompressed
        return some (response.versionPlatformData, platformData)

/-- An entry of the tables or a miss counter; another type is one that the type
switches do not expect. -/
inductive LruItem where
  | info (info : Info)
  | missCount (address : Nat)
  | unexpected

instance : Inhabited LruItem := ⟨.unexpected⟩

/-- `lruItem.(*Info)`, `none` for any other type. -/
def LruItem.asInfo : LruItem -> Option Info
  | .info found => some found
  | .missCount _ => none
  | .unexpected => none

/-- The tables, their version, the number of hit counters made so far, the
counters and the cache. -/
structure PlatformInfoTable extends Tables where
  versionPlatformData : UInt64
  hitCounters : Nat
  hitCounts : Nat -> UInt64
  missCounters : Nat
  missCounts : Nat -> UInt64
  epcIDIPV4Lru : U64LRU LruItem

/-- Blocks that the block pool hands to a new cache. -/
abbrev Blocks := Nat -> Int -> Node ListKind (U64LRUNode LruItem)

namespace PlatformInfoTable

/-- `NewPlatformInfoTable` -/
def new (blocks : Blocks) : PlatformInfoTable where
  epcIDIPV4Infos _ := none
  epcIDIPV4CidrInfos _ := none
  versionPlatformData := 0
  hitCounters := 0
  hitCounts _ := 0
  missCounters := 0
  missCounts _ := 0
  epcIDIPV4Lru := RingLru.new lruCap blocks

/-- `atomic.AddUint64(info.HitCount, 1)` -/
def addHit (t : PlatformInfoTable) (hitCount : Nat) : PlatformInfoTable :=
  { t with
    hitCounts := Function.update t.hitCounts hitCount
      (t.hitCounts hitCount + 1) }

def ipv4InfoStat (t : PlatformInfoTable) : LruItem -> PlatformInfoTable
  | .info info => t.addHit info.hitCount
  | .missCount address =>
    { t with
      missCounts := Function.update t.missCounts address
        (t.missCounts address + 1) }
  | .unexpected => t

section Model

variable (jenkins : UInt64 -> BitVec 32)

variable (t : PlatformInfoTable) (epcID : Int16) (ipv4 : UInt32)

def ipv4InfoAddLru (info : Option Info) (key : UInt64) : Option PlatformInfoTable :=
  match info with
  | some info => do
      let epcIDIPV4Lru ← U64LRU.add jenkins lruSlotSize t.epcIDIPV4Lru key (.info info)
      some ({ t with epcIDIPV4Lru := epcIDIPV4Lru }.addHit info.hitCount)
  | none => do
      let epcIDIPV4Lru ← U64LRU.add jenkins lruSlotSize t.epcIDIPV4Lru key
        (.missCount t.missCounters)
      some
        { t with
          missCounters := t.missCounters + 1
          missCounts := Function.update t.missCounts t.missCounters 1
          epcIDIPV4Lru := epcIDIPV4Lru }

/-- The answer of the cache, and the tables with the key made the most recent
one. -/
def lruGet (key : UInt64) : Option (PlatformInfoTable × Option LruItem) :=
  (U64LRU.get jenkins lruSlotSize t.epcIDIPV4Lru key false).map
    fun (epcIDIPV4Lru, lruValue) =>
      ({ t with epcIDIPV4Lru := epcIDIPV4Lru }, lruValue)

def queryIPV4Infos : Option (PlatformInfoTable × Option Info) := do
  let key := ipv4Key epcID ipv4
  match ← t.lruGet jenkins key with
  | (t, none) => do
      let (info, _) := t.queryTables epcID ipv4
      let t ← t.ipv4InfoAddLru jenkins info key
      some (t, info)
  | (t, some lruValue) => some (t.ipv4InfoStat lruValue, lruValue.asInfo)

/-- The first half of `queryIPV4InfosPair`, for each address. The flag says that
the cache or the table had the key. -/
def queryIPV4InfosHalf : Option (PlatformInfoTable × Option Info × Bool) := do
  let key := ipv4Key epcID ipv4
  match ← t.lruGet jenkins key with
  | (t, none) =>
    let (info, ok) := t.queryTables epcID ipv4
    some (t, info, ok)
  | (t, some lruValue) => some (t.ipv4InfoStat lruValue, lruValue.asInfo, true)

/-- The second half of `queryIPV4InfosPair` for one address. -/
def addUnlessOk (ok : Bool) (info : Option Info) (key : UInt64) : Option PlatformInfoTable :=
  if !ok then t.ipv4InfoAddLru jenkins info key else some t

def queryIPV4InfosPair (epcID0 : Int16) (ipv40 : UInt32) (epcID1 : Int16) (ipv41 : UInt32) :
    Option (PlatformInfoTable × Option Info × Option Info) := do
  let (t, info0, ok0) ← t.queryIPV4InfosHalf jenkins epcID0 ipv40
  let (t, info1, ok1) ← t.queryIPV4InfosHalf jenkins epcID1 ipv41
  let t ← t.addUnlessOk jenkins ok0 info0 (ipv4Key epcID0 ipv40)
  let t ← t.addUnlessOk jenkins ok1 info1 (ipv4Key epcID1 ipv41)
  some (t, info0, info1)

end Model

variable (unmarshal : Bytes -> Except String PlatformData)
  (buildTables : PlatformData -> Nat -> Tables × Nat)

/-- `Reload`. `buildTables` makes the tables, with new hit counters from the
given one on, and the number behind them. -/
def reload (t : PlatformInfoTable) (requested : Except String (SyncResponse Bytes))
    (blocks : Blocks) : PlatformInfoTable × Except String Unit :=
  match newPlatformData unmarshal t.versionPlatformData requested with
  | .error message => (t, .error message)
  | .ok none => (t, .ok ())
  | .ok (some (newVersion, platformData)) =>
    let (tables, hitCounters) := buildTables platformData t.hitCounters
    ({ t with
      toTables := tables
      versionPlatformData := newVersion
      hitCounters := hitCounters
      epcIDIPV4Lru := RingLru.new lruCap blocks }, .ok ())

end PlatformInfoTable

/-- The calls a table receives. -/
inductive Op (Bytes : Type) where
  | reload (requested : Except String (SyncResponse Bytes)) (blocks : Blocks)
  | queryIPV4Infos (epcID : Int16) (ipv4 : UInt32)
  | queryIPV4InfosPair
      (epcID0 : Int16) (ipv40 : UInt32) (epcID1 : Int16) (ipv41 : UInt32)

/-- What the calls return. -/
inductive Answer where
  | reloaded (result : Except String Unit)
  | info (info : Option Info)
  | infosPair (info0 info1 : Option Info)

variable (jenkins : UInt64 -> BitVec 32)
  (unmarshal : Bytes -> Except String PlatformData)
  (buildTables : PlatformData -> Nat -> Tables × Nat)

/-- One call. -/
def PlatformInfoTable.step (t : PlatformInfoTable) : Op Bytes -> Option (PlatformInfoTable × Answer)
  | .reload requested blocks =>
    let (t, result) := t.reload unmarshal buildTables requested blocks
    some (t, .reloaded result)
  | .queryIPV4Infos epcID ipv4 =>
    (t.queryIPV4Infos jenkins epcID ipv4).map fun (t, found) =>
      (t, .info found)
  | .queryIPV4InfosPair epcID0 ipv40 epcID1 ipv41 =>
    (t.queryIPV4InfosPair jenkins epcID0 ipv40 epcID1 ipv41).map
      fun (t, info0, info1) => (t, .infosPair info0 info1)

end Metaflow.Grpc
