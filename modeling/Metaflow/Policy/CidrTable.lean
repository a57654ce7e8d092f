import Metaflow.Library.BestMatch
import Metaflow.Library.GroupTable
import Metaflow.Net.IPNet

/-!
# The CIDRs of the labeler

`cloud_platform_labeler.go`: one list of CIDRs for each EPC, with the WAN CIDRs
in the list of `EPC_FROM_DEEPFLOW`, and one for each tunnel, sorted by falling
mask lengths and scanned for the first CIDR with the address.
-/

namespace Metaflow
namespace Datatype

open Net

/-- `EPC_FROM_DEEPFLOW` -/
def epcFromDeepflow : Int32 := -1

/-- `CIDR_TYPE_WAN` -/
def cidrTypeWan : UInt8 := 1

structure Cidr where
  ipNet : IPNet
  tunnelId : UInt32
  epcId : Int32
  type : UInt8
  isVIP : Bool
  deriving DecidableEq

namespace Cidr

def isWan (cidr : Cidr) : Bool :=
  cidr.type == cidrTypeWan

/-- `cidr.IpNet.Mask.Size()` -/
def maskSize (cidr : Cidr) : Nat :=
  cidr.ipNet.mask.ones

end Cidr

/-- What the CIDRs tell of an endpoint. -/
structure EndpointInfo where
  l3EpcId : Int32 := 0
  isVIP : Bool := false
  deriving DecidableEq

end Datatype

namespace Policy

open Library Net
open Datatype (EndpointInfo epcFromDeepflow)

/-- The CIDR tables of `CloudPlatformLabeler`. -/
structure CidrTables where
  epcCidrMapData : Int32 -> List Datatype.Cidr := fun _ => []
  tunnelIdCidrMapData : UInt32 -> List Datatype.Cidr := fun _ => []

/-- The EPC in whose list a CIDR is kept. -/
def tableEpc (cidr : Datatype.Cidr) : Int32 :=
  if cidr.isWan then epcFromDeepflow else cidr.epcId

/-- `sort.SliceStable` by falling mask lengths -/
def sortCidrs (cidrs : List Datatype.Cidr) : List Datatype.Cidr :=
  cidrs.insertionSort (falling Datatype.Cidr.maskSize)

/-- The first CIDR of a list with the address. -/
def firstCidr (cidrs : List Datatype.Cidr) (ip : IP) : Option Datatype.Cidr :=
  cidrs.find? fun cidr => cidr.ipNet.contains ip

namespace CidrTables

def updateCidr (_l : CidrTables) (cidrs : List Datatype.Cidr) : CidrTables :=
  let epcCidr := cidrs.foldl (fun table cidr =>
    addToGroup table (tableEpc cidr) cidr) fun _ => []
  let tunnelCidr := cidrs.foldl (fun table cidr =>
    if cidr.tunnelId > 0 then addToGroup table cidr.tunnelId cidr
    else table) fun _ => []
  { epcCidrMapData := fun epc => sortCidrs (epcCidr epc)
    tunnelIdCidrMapData := fun tunnelId => sortCidrs (tunnelCidr tunnelId) }

/-- The CIDR that the scan of an EPC stops at. -/
def cidrOf (l : CidrTables) (ip : IP) (epc : Int32) : Option Datatype.Cidr :=
  firstCidr (l.epcCidrMapData epc) ip

/-- The EPC and the VIP flag of an endpoint, and whether a CIDR was found. -/
def setEpcByCidr (l : CidrTables) (ip : IP) (epc : Int32)
    (endpointInfo : EndpointInfo) : EndpointInfo × Bool :=
  match l.cidrOf ip epc with
  | some cidr => ({ endpointInfo with l3EpcId := cidr.epcId, isVIP := cidr.isVIP }, true)
  | none => (endpointInfo, false)

end CidrTables

/-- A lookup of `EPC_FROM_DEEPFLOW` searches the WAN CIDRs, any other one the
other CIDRs of its EPC. -/
def IsMeant (epc : Int32) (cidr : Datatype.Cidr) : Prop :=
  if epc = epcFromDeepflow then cidr.isWan
  else cidr.isWan = false ∧ cidr.epcId = epc

instance (epc : Int32) : DecidablePred (IsMeant epc) := fun cidr => by
  unfold IsMeant
  infer_instance

/-- A CIDR that the lookup is meant for and that has the address. -/
def Hits (epc : Int32) (ip : IP) (cidr : Datatype.Cidr) : Bool :=
  decide (IsMeant epc cidr) && cidr.ipNet.contains ip

/-- The scan of a sorted list of the CIDRs that pass a filter. -/
theorem findsFirstBest_sortCidrs (keep : Datatype.Cidr -> Bool) (cidrs : List Datatype.Cidr)
    (ip : IP) :
    FindsFirstBest Datatype.Cidr.maskSize (fun cidr => keep cidr && cidr.ipNet.contains ip) cidrs
      (firstCidr (sortCidrs (cidrs.filter keep)) ip) :=
  (find?_insertionSort _).of_filter

variable (l : CidrTables) (cidrs : List Datatype.Cidr)

theorem epcCidrMapData_updateCidr (epc : Int32) : (l.updateCidr cidrs).epcCidrMapData epc =
      sortCidrs (cidrs.filter fun cidr => decide (tableEpc cidr = epc)) := by
  simp only [CidrTables.updateCidr, foldl_addToGroup_all, List.nil_append]

/-- The scan of an EPC, among the CIDRs in the order they were given. -/
theorem findsFirstBest_cidrOf (ip : IP) (epc : Int32) : FindsFirstBest Datatype.Cidr.maskSize
      (fun cidr => decide (tableEpc cidr = epc) && cidr.ipNet.contains ip) cidrs
      ((l.updateCidr cidrs).cidrOf ip epc) := by
  rw [CidrTables.cidrOf, epcCidrMapData_updateCidr]
  exact findsFirstBest_sortCidrs _ cidrs ip

/-- A CIDR that stands in the list of the WAN CIDRs and is none. -/
def IsStray (ip : IP) (cidr : Datatype.Cidr) : Prop :=
  cidr.isWan = false ∧ cidr.epcId = epcFromDeepflow ∧ cidr.ipNet.contains ip

/-- A lookup finds a longest CIDR it is meant for, unless it searches the WAN
CIDRs and one of `EPC_FROM_DEEPFLOW` that is no WAN CIDR has the address and
comes before them. -/
theorem cidrOf_updateCidr_iff (l : CidrTables) (cidrs : List Datatype.Cidr) (ip : IP)
    (epc : Int32) :
    FindsBest Datatype.Cidr.maskSize (Hits epc ip) cidrs ((l.updateCidr cidrs).cidrOf ip epc) ↔
      (epc = epcFromDeepflow ->
        ∀ before stray after, cidrs = before ++ stray :: after -> IsStray ip stray ->
          (∃ wan ∈ before, wan.isWan ∧ wan.ipNet.contains ip ∧ stray.maskSize ≤ wan.maskSize) ∨
          ∃ wan ∈ after, wan.isWan ∧ wan.ipNet.contains ip ∧ stray.maskSize < wan.maskSize) := by
  have sameHits : Hits epc ip = fun cidr => decide (IsWanted Datatype.Cidr.isWan
      Datatype.Cidr.epcId epcFromDeepflow epc cidr) && cidr.ipNet.contains ip := by
    funext cidr
    simp [Hits, IsMeant, IsWanted]
  rw [sameHits]
  exact (findsFirstBest_cidrOf l cidrs ip epc).findsWanted_iff

/-- 10.0.0.0/8 of EPC 7 (WAN) and 10.1.0.0/16 of no EPC (LAN): the search for
10.1.2.3 finds the LAN CIDR. -/
theorem cidrOf_finds_stray :
    let wan : Datatype.Cidr := ⟨⟨.v4 0x0a000000, cidrMask4 8⟩, 0, 7, 1, false⟩
    let lan : Datatype.Cidr := ⟨⟨.v4 0x0a010000, cidrMask4 16⟩, 0, -1, 2, false⟩
    let l := CidrTables.updateCidr {} [wan, lan]
    l.cidrOf (.v4 0x0a010203) epcFromDeepflow = some lan ∧
      Hits epcFromDeepflow (.v4 0x0a010203) lan = false ∧
      Hits epcFromDeepflow (.v4 0x0a010203) wan = true ∧
      l.setEpcByCidr (.v4 0x0a010203) epcFromDeepflow {} = ({ l3EpcId := -1 }, true) := by
  decide +kernel

end Policy
end Metaflow
