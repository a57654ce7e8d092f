import Metaflow.AgentPolicy.NetmaskTable
import Metaflow.Library.BestMatch
import Metaflow.Library.GroupTable

/-!
# The CIDRs of the agent's labeler

`labeler.rs`: one sorted list of CIDRs for each EPC, with the WAN CIDRs in the
list of `EPC_FROM_DEEPFLOW`. CIDRs without an EPC have this EPC too, so LAN
CIDRs stray into that list.
-/

namespace Metaflow.AgentPolicy

open Library Net

/-- `EPC_FROM_DEEPFLOW` -/
def epcFromDeepflow : BitVec 32 := -1

/-- Whether a CIDR is one of the wide area network. -/
inductive CidrType where
  | wan
  | lan
  deriving DecidableEq

/-- What the labeler reads of a CIDR. -/
structure LabelerCidr (N M : Type) extends Cidr N M where
  tunnelId : BitVec 32
  cidrType : CidrType
  isVip : Bool

section Model

variable {N M : Type} (ops : IpNetOps N M)

namespace LabelerCidr

/-- `netmask_len` -/
def netmaskLen (cidr : LabelerCidr N M) : Nat :=
  match cidr.ip with
  | .v4 net => ops.prefixLen net
  | .v6 net => ops.prefixLen6 net

/-- Whether the CIDR is kept for all EPCs. -/
def isWan (cidr : LabelerCidr N M) : Bool :=
  cidr.cidrType = .wan

/-- The EPC in whose list a CIDR is kept. -/
def tableEpc (cidr : LabelerCidr N M) : BitVec 32 :=
  if cidr.isWan then epcFromDeepflow else cidr.epcId

end LabelerCidr

/-- The tables of `Labeler` that `update_cidr_table` fills. -/
structure LabelerCidrs (N M : Type) where
  epcCidrTable : BitVec 32 -> List (LabelerCidr N M)
  tunnelCidrTable : BitVec 32 -> List (LabelerCidr N M)

namespace LabelerCidrs

/-- The tables for a list of CIDRs. -/
def updateCidrTable (cidrs : List (LabelerCidr N M)) : LabelerCidrs N M where
  epcCidrTable epc :=
    (cidrs.foldl (fun table item => addToGroup table item.tableEpc item) (fun _ => []) epc)
      |>.insertionSort (falling (LabelerCidr.netmaskLen ops))
  tunnelCidrTable tunnelId :=
    (cidrs.foldl (fun table item =>
        if item.tunnelId > 0 then addToGroup table item.tunnelId item else table)
      (fun _ => []) tunnelId).insertionSort (falling (LabelerCidr.netmaskLen ops))

/-- The EPC of an address of an EPC, and whether there is one. -/
def setEpcByCidr (self : LabelerCidrs N M) (ip : IpAddr) (epcId : BitVec 32)
    (endpoint : EndpointInfo) : EndpointInfo × Bool :=
  match (self.epcCidrTable epcId).find? fun cidr => ops.contains cidr.ip ip with
  | some cidr => ({ endpoint with l3EpcId := cidr.epcId.toInt, isVip := cidr.isVip }, true)
  | none => (endpoint, false)

end LabelerCidrs

/-- A CIDR with the address that a lookup is meant for: a WAN CIDR for
`EPC_FROM_DEEPFLOW`, else one of the EPC that is no WAN CIDR. -/
def LabelerCidr.hits (epcId : BitVec 32) (ip : IpAddr) (cidr : LabelerCidr N M) : Bool :=
  decide (IsWanted LabelerCidr.isWan (·.epcId) epcFromDeepflow epcId cidr) &&
    ops.contains cidr.ip ip

/-- The endpoint gets the EPC of a longest CIDR that is meant, or is left as it
is if there is none. -/
def AssignsEpc (cidrs : List (LabelerCidr N M)) (ip : IpAddr) (epcId : BitVec 32)
    (endpoint : EndpointInfo) : EndpointInfo × Bool -> Prop
  | (assigned, true) => ∃ best,
      IsBest (LabelerCidr.netmaskLen ops) (LabelerCidr.hits ops epcId ip) cidrs best ∧
        assigned.l3EpcId = best.epcId.toInt
  | (assigned, false) => assigned = endpoint ∧ ∀ cidr ∈ cidrs, cidr.hits ops epcId ip = false

end Model

variable {N M : Type} {ops : IpNetOps N M} {cidrs : List (LabelerCidr N M)} {ip : IpAddr}
  {epcId : BitVec 32} {cidr found : LabelerCidr N M}

theorem findsFirstBest_find? (ops : IpNetOps N M) (cidrs : List (LabelerCidr N M))
    (ip : IpAddr) (epcId : BitVec 32) :
    FindsFirstBest (LabelerCidr.netmaskLen ops)
      (fun cidr => decide (cidr.tableEpc = epcId) && ops.contains cidr.ip ip) cidrs
      (((LabelerCidrs.updateCidrTable ops cidrs).epcCidrTable epcId).find?
        (ops.contains ·.ip ip)) := by
  simp only [LabelerCidrs.updateCidrTable, foldl_addToGroup_all, List.nil_append]
  exact (find?_insertionSort _).of_filter

theorem tableEpc_eq_iff : cidr.tableEpc = epcId ↔
    IsWanted LabelerCidr.isWan (fun cidr => cidr.epcId) epcFromDeepflow epcId cidr ∨
      epcId = epcFromDeepflow ∧ cidr.isWan = false ∧ cidr.epcId = epcFromDeepflow :=
  inList_iff LabelerCidr.isWan (fun cidr => cidr.epcId) epcFromDeepflow epcId cidr

theorem tableEpc_of_hits (hit : cidr.hits ops epcId ip) :
    (decide (cidr.tableEpc = epcId) && ops.contains cidr.ip ip) = true := by
  obtain ⟨wanted, contains⟩ := Bool.and_eq_true_iff.mp hit
  exact Bool.and_eq_true_iff.mpr
    ⟨decide_eq_true (tableEpc_eq_iff.mpr (Or.inl (of_decide_eq_true wanted))), contains⟩

/-- The CIDR that is found is a longest one of those the lookup is meant for, or
a stray one. -/
theorem isBest_or_stray
    (first : IsFirstBest (LabelerCidr.netmaskLen ops)
      (fun cidr => decide (cidr.tableEpc = epcId) && ops.contains cidr.ip ip) cidrs found) :
    IsBest (LabelerCidr.netmaskLen ops) (LabelerCidr.hits ops epcId ip) cidrs found ∨
      epcId = epcFromDeepflow ∧ found.epcId = epcFromDeepflow := by
  obtain ⟨inTable, contains⟩ := Bool.and_eq_true_iff.mp first.matched
  rcases tableEpc_eq_iff.mp (of_decide_eq_true inTable) with wanted | stray
  · exact Or.inl ⟨first.isBest.mem, Bool.and_eq_true_iff.mpr ⟨decide_eq_true wanted, contains⟩,
      fun other mem hit => first.isBest.largest other mem (tableEpc_of_hits hit)⟩
  · exact Or.inr ⟨stray.1, stray.2.2⟩

/-- A lookup assigns the EPC of a longest CIDR it is meant for, unless it
searches the WAN CIDRs, a stray CIDR comes before them, and no longest WAN CIDR
has the EPC of the stray one. -/
theorem setEpcByCidr_assigns_iff (ops : IpNetOps N M) (cidrs : List (LabelerCidr N M))
    (ip : IpAddr) (epcId : BitVec 32) (endpoint : EndpointInfo) :
    AssignsEpc ops cidrs ip epcId endpoint
        ((LabelerCidrs.updateCidrTable ops cidrs).setEpcByCidr ops ip epcId endpoint) ↔
      (epcId = epcFromDeepflow ->
        ∀ before stray after, cidrs = before ++ stray :: after ->
          stray.isWan = false ∧ stray.epcId = epcFromDeepflow ∧ ops.contains stray.ip ip ->
          (∃ wan ∈ before, wan.isWan ∧ ops.contains wan.ip ip ∧
            stray.netmaskLen ops ≤ wan.netmaskLen ops) ∨
          ∃ wan ∈ after, wan.isWan ∧ ops.contains wan.ip ip ∧
            stray.netmaskLen ops < wan.netmaskLen ops) ∨
      ∃ best, IsBest (LabelerCidr.netmaskLen ops)
          (LabelerCidr.hits ops epcFromDeepflow ip) cidrs best ∧
        best.epcId = epcFromDeepflow ∧ epcId = epcFromDeepflow := by
  have finds := findsFirstBest_find? ops cidrs ip epcId
  refine Iff.trans ?_ (or_congr_left finds.findsWanted_iff)
  unfold LabelerCidrs.setEpcByCidr
  cases answer : ((LabelerCidrs.updateCidrTable ops cidrs).epcCidrTable epcId).find?
      (ops.contains ·.ip ip) with
  | none =>
    rw [answer] at finds
    have nothing : ∀ cidr ∈ cidrs, cidr.hits ops epcId ip = false := fun cidr mem =>
      Bool.eq_false_iff.mpr fun hit =>
        Bool.eq_false_iff.mp (finds cidr mem) (tableEpc_of_hits hit)
    exact iff_of_true ⟨rfl, nothing⟩ (Or.inl nothing)
  | some found =>
    rw [answer] at finds
    have cases := isBest_or_stray finds
    constructor
    · rintro ⟨best, isBest, sameEpc⟩
      refine cases.imp_right fun ⟨isWan, isStray⟩ => ?_
      subst isWan
      exact ⟨best, isBest, (BitVec.eq_of_toInt_eq sameEpc).symm.trans isStray, rfl⟩
    · rintro (isBest | ⟨best, isBest, bestEpc, rfl⟩)
      · exact ⟨found, isBest, rfl⟩
      · rcases cases with isBest | ⟨-, isStray⟩
        · exact ⟨found, isBest, rfl⟩
        · exact ⟨best, isBest, congrArg BitVec.toInt (isStray.trans bestEpc.symm)⟩

/-- 10.0.0.0/8 of EPC 7 (WAN) and 10.1.0.0/16 of no EPC (LAN): 10.1.2.3 gets no
EPC in a search of the WAN CIDRs. -/
theorem setEpcByCidr_assigns_stray :
    let wan : LabelerCidr Ipv4Net Ipv6Net := ⟨⟨.v4 ⟨0x0a000000, 8, by decide⟩, 7⟩, 0, .wan, false⟩
    let lan : LabelerCidr Ipv4Net Ipv6Net :=
      ⟨⟨.v4 ⟨0x0a010000, 16, by decide⟩, epcFromDeepflow⟩, 0, .lan, false⟩
    let tables := LabelerCidrs.updateCidrTable prefixNets [wan, lan]
    wan.hits prefixNets epcFromDeepflow (.v4 0x0a010203) = true ∧
      lan.hits prefixNets epcFromDeepflow (.v4 0x0a010203) = false ∧
      (tables.setEpcByCidr prefixNets (.v4 0x0a010203) epcFromDeepflow {}).1.l3EpcId = -1 := by
  decide +kernel

end Metaflow.AgentPolicy
