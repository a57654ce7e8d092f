import Metaflow.Datatype.PortRange
import Metaflow.Library.LruCacheOps
import Metaflow.Library.Run

/-!
# The fast path of the agent's policy

`fast_path.rs`: computed policies are kept in caches of the `lru` crate, one for
each combination of queue index and tap type. The calls on the caches are a
parameter. `none` is a panic or the end of the process.
-/

namespace Metaflow.AgentPolicy

open Library
open Datatype (PortRange)

inductive TapType where
  | any
  | isp (number : UInt8)
  | tor
  | max
  deriving DecidableEq

/-- `u16::from(tap_type)` -/
def TapType.toU16 : TapType -> Nat
  | any => 0
  | isp number => number.toNat
  | tor => 3
  | max => 256

inductive IpAddr where
  | v4 (address : BitVec 32)
  | v6 (address : BitVec 128)
  deriving DecidableEq

/-- The fields of `LookupKey` that the fast path reads. -/
structure LookupKey where
  srcMac : BitVec 64 := 0
  dstMac : BitVec 64 := 0
  srcIp : IpAddr := .v4 0
  dstIp : IpAddr := .v4 0
  srcPort : UInt16 := 0
  dstPort : UInt16 := 0
  l2End0 : Bool := false
  l2End1 : Bool := false
  l3End0 : Bool := false
  l3End1 : Bool := false
  proto : UInt8 := 0
  tapType : TapType := .any
  fastIndex : Nat := 0

/-- The queue index and the tap type of a packet. -/
structure Origin where
  fastIndex : Nat
  tapType : TapType
  deriving DecidableEq

def LookupKey.origin (key : LookupKey) : Origin :=
  ⟨key.fastIndex, key.tapType⟩

/-- A shared value. `origin` is that of the packet for which it was allocated;
the code has no such field and no function reads it. -/
structure Arc (α : Type) where
  value : α
  origin : Origin

def epcFromInternet : Int := -2

structure EndpointInfo where
  realIp : IpAddr := .v4 0
  l2EpcId : Int := 0
  l3EpcId : Int := 0
  l2End : Bool := false
  l3End : Bool := false
  isDevice : Bool := false
  isVipInterface : Bool := false
  isVip : Bool := false
  isLocalMac : Bool := false
  isLocalIp : Bool := false

structure EndpointData where
  srcInfo : EndpointInfo := {}
  dstInfo : EndpointInfo := {}

inductive L3L2End where
  | falseFalse
  | falseTrue
  | trueFalse
  | trueTrue
  deriving DecidableEq

namespace L3L2End

/-- The values below `Max`, in their order. -/
def all : List L3L2End := [falseFalse, falseTrue, trueFalse, trueTrue]

/-- The pair of the L2 and the L3 end. -/
def ends : L3L2End -> Bool × Bool
  | falseFalse => (false, false)
  | falseTrue => (true, false)
  | trueFalse => (false, true)
  | trueTrue => (true, true)

def ofEnds : Bool × Bool -> L3L2End
  | (false, false) => falseFalse
  | (true, false) => falseTrue
  | (false, true) => trueFalse
  | (true, true) => trueTrue

end L3L2End

def EndpointInfo.setL3L2End (info : EndpointInfo) (ends : L3L2End) : EndpointInfo :=
  let (l2End, l3End) := ends.ends
  { info with
    l2End := l2End
    l3End := l3End
    l3EpcId :=
      if l2End ∧ l3End ∧ info.l2EpcId ≠ 0 ∧ info.l3EpcId = epcFromInternet
      then info.l2EpcId
      else info.l3EpcId
    isVipInterface := info.isVipInterface && l2End }

structure EndpointStore where
  datas : L3L2End -> L3L2End -> Arc EndpointData

namespace EndpointStore

/-- The two loops of `EndpointStore::from`: the ends are set on the data of the
round before. -/
def fill (origin : Origin) (state : EndpointData × EndpointStore)
    (ends : L3L2End × L3L2End) : EndpointData × EndpointStore :=
  let data : EndpointData :=
    { srcInfo := state.1.srcInfo.setL3L2End ends.1
      dstInfo := state.1.dstInfo.setL3L2End ends.2 }
  (data, { datas := fun src dst =>
    if src = ends.1 ∧ dst = ends.2 then ⟨data, origin⟩
    else state.2.datas src dst })

def ofData (origin : Origin) (data : EndpointData) : EndpointStore :=
  (((L3L2End.all.flatMap fun src => L3L2End.all.map fun dst => (src, dst)).foldl
    (fill origin) (data, { datas := fun _ _ => ⟨{}, origin⟩ }))).2

def get (store : EndpointStore) (l2End0 l2End1 l3End0 l3End1 : Bool) : Arc EndpointData :=
  store.datas (L3L2End.ofEnds (l2End0, l3End0)) (L3L2End.ofEnds (l2End1, l3End1))

end EndpointStore

section Policies

variable (NpbAction : Type)

structure PolicyData where
  npbActions : List NpbAction := []
  aclId : UInt32 := 0
  actionFlags : UInt16 := 0

structure PolicyTableItem where
  store : EndpointStore
  protocolTable : UInt8 -> Option (Arc (PolicyData NpbAction))

/-- The calls on a `TableLruCache`, which is `LruCache<u128, PolicyTableItem>`. -/
abbrev TableLruCacheOps (C : Type) : Type :=
  LruCacheOps (BitVec 128) (PolicyTableItem NpbAction) C

def maxQueueCount : Nat := 16

def maxTapType : Nat := 256

def maxFastPath : Nat := maxTapType * (maxQueueCount + 1)

end Policies

/-- The fields of `FastPath` that lookups use, over the type of the caches. -/
structure FastPath (C : Type) where
  netmaskTable : Nat -> BitVec 32 := fun _ => 0
  interestTable : Nat -> PortRange := fun _ => ⟨0, 0⟩
  policyTable : Nat -> Option C := fun _ => none
  policyTableFlushFlags : Nat -> Bool := fun _ => false
  mapSize : { size : Nat // 0 < size }
  policyCount : Nat := 0

variable {NpbAction C : Type}

/-- The index into the table of caches. -/
def Origin.slot (origin : Origin) : Nat :=
  origin.fastIndex * origin.tapType.toU16

namespace FastPath

variable (ops : TableLruCacheOps NpbAction C)
  (merge : List NpbAction -> UInt32 -> Option (PolicyData NpbAction))
  (path : FastPath C) (key : LookupKey)

def generateMaskIp : Option (BitVec 32 × BitVec 32) :=
  match key.srcIp, key.dstIp with
  | .v4 src, .v4 dst =>
    some (src &&& path.netmaskTable (src >>> 16).toNat,
      dst &&& path.netmaskTable (dst >>> 16).toNat)
  | .v6 src, .v6 dst =>
    let fold (address : BitVec 128) : BitVec 32 :=
      address.setWidth 32 ^^^ (address >>> 32).setWidth 32 ^^^
        (address >>> 64).setWidth 32 ^^^ (address >>> 96).setWidth 32
    some (fold src, fold dst)
  | _, _ => none

/-- One half of the map key. -/
def endKey (maskedIp : BitVec 32) (mac : BitVec 64) (port : UInt16) : BitVec 64 :=
  (maskedIp.setWidth 64 <<< 32) ||| ((mac &&& 0xffff) <<< 16) |||
    port.toBitVec.setWidth 64

def generateMapKey : Option (BitVec 64 × BitVec 64) :=
  (path.generateMaskIp key).map fun (srcMaskedIp, dstMaskedIp) =>
    (endKey srcMaskedIp key.srcMac key.srcPort, endKey dstMaskedIp key.dstMac key.dstPort)

def interestTableMap : LookupKey :=
  { key with
    srcPort := (path.interestTable key.srcPort.toNat).min
    dstPort := (path.interestTable key.dstPort.toNat).min }

/-- The loop of `table_flush_check` over the tap types. -/
def clearTables (table : Nat -> Option C) (fastIndex : Nat) : Nat -> Option C :=
  (List.range maxTapType).foldl
    (fun table tapType =>
      Function.update table (fastIndex * tapType) ((table (fastIndex * tapType)).map ops.clear))
    table

/-- The first half of `table_flush_check`. -/
def flushTables (fastIndex : Nat) : FastPath C :=
  if path.policyTableFlushFlags fastIndex then
    { path with
      policyTable := clearTables ops path.policyTable fastIndex
      policyTableFlushFlags :=
        Function.update path.policyTableFlushFlags fastIndex false }
  else path

/-- Whether the packet's table is new. -/
def tableFlushCheck : Option (FastPath C × Bool) :=
  if key.fastIndex ≤ maxQueueCount ∧ key.origin.slot < maxFastPath then
    let path := path.flushTables ops key.fastIndex
    match path.policyTable key.origin.slot with
    | some _ => some (path, false)
    | none =>
      some ({ path with
        policyTable := Function.update path.policyTable key.origin.slot
          (some (ops.new path.mapSize)) },
        true)
  else none

/-- Set the policy of a protocol in the item of a key, or put a new item. -/
def storePolicy (origin : Origin) (proto : UInt8) (policy : PolicyData NpbAction)
    (key : BitVec 128) (endpoints : EndpointData)
    (state : C × Nat) : C × Nat :=
  match ops.find? state.1 key with
  | some item =>
    (ops.set state.1 key { item with
      protocolTable :=
        Function.update item.protocolTable proto (some ⟨policy, origin⟩) },
      state.2)
  | none =>
    (ops.put state.1 key {
      store := .ofData origin endpoints
      protocolTable :=
        Function.update (fun _ => none) proto (some ⟨policy, origin⟩) },
      state.2 + 1)

/-- The policy of both directions; `merge` is `merge_npb_action` on a new policy
and `format_npb_action`. -/
def combine (forward backward : PolicyData NpbAction) : Option (PolicyData NpbAction) :=
  let aclId := max forward.aclId backward.aclId
  if 0 < aclId then merge (forward.npbActions ++ backward.npbActions) aclId
  else some {}

def addPolicy (packet : LookupKey) (forward backward : PolicyData NpbAction)
    (endpoints : EndpointData) : Option (FastPath C × LookupKey) := do
  let (path, _) ← path.tableFlushCheck ops packet
  let packet := path.interestTableMap packet
  let (key0, key1) ← path.generateMapKey packet
  let table ← path.policyTable packet.origin.slot
  let policy ← combine merge forward backward
  let store := storePolicy ops packet.origin packet.proto policy
  let stored := store (key0 ++ key1) endpoints (table, path.policyCount)
  let stored :=
    if key0 = key1 then stored
    else store (key1 ++ key0) ⟨endpoints.dstInfo, endpoints.srcInfo⟩ stored
  some ({ path with
    policyTable :=
      Function.update path.policyTable packet.origin.slot (some stored.1)
    policyCount := stored.2 }, packet)

/-- What a lookup finds. -/
structure Found (NpbAction : Type) where
  policy : Arc (PolicyData NpbAction)
  endpoints : Arc EndpointData

/-- The part of `get_policy` behind the flush check. -/
def lookup (packet : LookupKey) : Option (FastPath C × Option (Found NpbAction)) := do
  let (key0, key1) ← path.generateMapKey packet
  let table ← path.policyTable packet.origin.slot
  some ({ path with
    policyTable := Function.update path.policyTable packet.origin.slot
      (some (ops.touch table (key0 ++ key1))) },
    do
      let item ← ops.find? table (key0 ++ key1)
      let policy ← item.protocolTable packet.proto
      some
        { policy := policy
          endpoints := item.store.get packet.l2End0 packet.l2End1 packet.l3End0 packet.l3End1 })

def getPolicy (packet : LookupKey) :
    Option (FastPath C × LookupKey × Option (Found NpbAction)) := do
  let (path, isEmpty) ← path.tableFlushCheck ops packet
  if isEmpty then some (path, packet, none)
  else do
    let packet := path.interestTableMap packet
    let (path, found) ← path.lookup ops packet
    some (path, packet, found)

end FastPath

end Metaflow.AgentPolicy
