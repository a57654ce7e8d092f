import Metaflow.Library.BestMatch
import Metaflow.Net.IPNet

/-!
# The addresses of the WAN interfaces

`cloud_platform_labeler.go`: the IPv4 addresses of the WAN interfaces are kept
in one table for each mask length, and a bitmap tells which tables have
entries. A lookup tries the tables from the longest mask on.
-/

namespace Metaflow
namespace Datatype

open Net

/-- `IF_TYPE_WAN` -/
def ifTypeWan : UInt8 := 3

/-- An address with the length of its mask, which `newPlatformData` cuts to the
bits of the address. -/
structure IpNet where
  rawIp : IP
  netmask : Nat
  bounded : netmask ≤ match rawIp with
    | .v4 _ => 32
    | .v6 _ => 128
  deriving DecidableEq

structure PlatformData where
  id : UInt32
  epcId : Int32
  ifType : UInt8
  ips : List IpNet
  deriving DecidableEq

end Datatype

namespace Policy

open Library Net

/-- Map a bit value mod 37 to its position. -/
def lookup : List Nat :=
  [32, 0, 1, 26, 2, 23, 27, 0, 3, 16, 24, 30, 28, 11, 0, 13, 4, 7, 17, 0,
    25, 22, 31, 15, 29, 10, 12, 6, 0, 21,
    14, 9, 5, 20, 8, 19, 18]

/-- `bit.CountTrailingZeros32` -/
def countTrailingZeros32 (x : BitVec 32) : Nat :=
  lookup.getD ((-x &&& x).toNat % 37) 0

/-- The tables of IPv4 addresses of `CloudPlatformLabeler`. -/
structure IpTables where
  ipTables : Nat -> BitVec 32 -> Option Datatype.PlatformData :=
    fun _ _ => none
  netmaskBitmap : BitVec 32 := 0

namespace IpTables

/-- The loop body over the addresses of a WAN interface. Those in 16 bytes go to
another table. -/
def addIpData (platformData : Datatype.PlatformData) (l : IpTables)
    (ipData : Datatype.IpNet) : IpTables :=
  match ipData.rawIp with
  | .v4 ip =>
    let netmask := 32 - ipData.netmask
    { ipTables := Function.update l.ipTables netmask
        (Function.update (l.ipTables netmask) ip (some platformData))
      netmaskBitmap := l.netmaskBitmap ||| (1 : BitVec 32) <<< netmask }
  | .v6 _ => l

/-- The loop body of `GenerateIpData`. -/
def addPlatformData (l : IpTables) (platformData : Datatype.PlatformData) : IpTables :=
  if platformData.ifType ≠ Datatype.ifTypeWan then l
  else platformData.ips.foldl (addIpData platformData) l

/-- `GenerateIpData` and `UpdateIpTable`: the tables are new, the bits of the
old ones stay. -/
def updateIpTable (l : IpTables) (platformDatas : List Datatype.PlatformData) : IpTables :=
  platformDatas.foldl addPlatformData { netmaskBitmap := l.netmaskBitmap }

/-- The loop of `GetDataByIp4`; `none` if it is out of fuel. -/
def scanTables (l : IpTables) (ip : BitVec 32) :
    Nat -> BitVec 32 -> Option (Option Datatype.PlatformData)
  | 0, _ => none
  | fuel + 1, netmaskBitmap =>
    if netmaskBitmap > 0 then
      let i := countTrailingZeros32 netmaskBitmap
      match l.ipTables i (ip &&& BitVec.allOnes 32 <<< i) with
      | some info => some (some info)
      | none => l.scanTables ip fuel (netmaskBitmap ^^^ (1 : BitVec 32) <<< i)
    else some none

/-- The loop has at most one round for each bit, and one to leave it. -/
def getDataByIp4 (l : IpTables) (ip : BitVec 32) : Option (Option Datatype.PlatformData) :=
  l.scanTables ip 33 l.netmaskBitmap

end IpTables

theorem neg_and_self (nonzero : x ≠ 0) : -x &&& x = BitVec.twoPow 32 x.ctz.toNat := by
  have present := BitVec.getLsbD_true_ctz_of_ne_zero nonzero
  have small : x.ctz.toNat < 32 := BitVec.lt_of_getLsbD present
  apply BitVec.eq_of_getLsbD_eq
  intro position inside
  rw [BitVec.getLsbD_and, BitVec.getLsbD_neg, BitVec.getLsbD_twoPow]
  rcases Nat.lt_trichotomy position x.ctz.toNat with below | rfl | above
  · have clear := @BitVec.getLsbD_false_of_lt_ctz _ _ x below
    simp [clear, Nat.ne_of_gt below]
  · have noneBelow : ¬ ∃ j < x.ctz.toNat, x.getLsbD j = true := by
      rintro ⟨j, below, set⟩
      rw [@BitVec.getLsbD_false_of_lt_ctz _ _ x below] at set
      cases set
    simp [noneBelow, small, present]
  · have someBelow : ∃ j < position, x.getLsbD j = true := ⟨_, above, present⟩
    simp [someBelow, inside, Nat.ne_of_lt above]

/-- The table of the bit values is right. -/
theorem countTrailingZeros32_eq (nonzero : x ≠ 0) : countTrailingZeros32 x = x.ctz.toNat := by
  have small : x.ctz.toNat < 32 := BitVec.lt_of_getLsbD (BitVec.getLsbD_true_ctz_of_ne_zero nonzero)
  have each : ∀ position < 32,
      lookup.getD ((BitVec.twoPow 32 position).toNat % 37) 0 = position := by decide +kernel
  rw [countTrailingZeros32, neg_and_self nonzero, each _ small]

/-- The answer of a scan: what the probe of the lowest bit that finds something
finds. -/
def FirstBit {β : Type} (bits : BitVec 32) (probe : Nat -> Option β) : Option β -> Prop
  | some value => ∃ i, bits.getLsbD i ∧ probe i = some value ∧
      ∀ j < i, bits.getLsbD j -> probe j = none
  | none => ∀ i, bits.getLsbD i -> probe i = none

theorem getLsbD_clear_ctz {bits : BitVec 32} (nonzero : bits ≠ 0) (position : Nat) :
    (bits ^^^ (1 : BitVec 32) <<< bits.ctz.toNat).getLsbD position =
      (bits.getLsbD position && decide (position ≠ bits.ctz.toNat)) := by
  have present := BitVec.getLsbD_true_ctz_of_ne_zero nonzero
  have small : bits.ctz.toNat < 32 := BitVec.lt_of_getLsbD present
  have isBit : (1 : BitVec 32) <<< bits.ctz.toNat = BitVec.twoPow 32 bits.ctz.toNat := rfl
  rw [isBit, BitVec.getLsbD_xor, BitVec.getLsbD_twoPow]
  by_cases same : position = bits.ctz.toNat <;> simp [same, present, small, Ne.symm]

/-- The lowest bit is probed before the others. -/
theorem FirstBit.of_clear {β : Type} {bits : BitVec 32} {probe : Nat -> Option β}
    {answer : Option β} (nonzero : bits ≠ 0) (nothing : probe bits.ctz.toNat = none)
    (first : FirstBit (bits ^^^ (1 : BitVec 32) <<< bits.ctz.toNat) probe answer) :
    FirstBit bits probe answer := by
  have isClear := getLsbD_clear_ctz nonzero
  cases answer with
  | none =>
    intro i set
    by_cases same : i = bits.ctz.toNat
    · rw [same, nothing]
    · exact first i (by rw [isClear, set]; simp [same])
  | some value =>
    obtain ⟨i, set, found, noneBelow⟩ := first
    rw [isClear, Bool.and_eq_true] at set
    refine ⟨i, set.1, found, fun j below setBelow => ?_⟩
    by_cases same : j = bits.ctz.toNat
    · rw [same, nothing]
    · exact noneBelow j below (by rw [isClear, setBelow]; simp [same])

namespace IpTables

/-- What a lookup tries for a bit of the bitmap. -/
def probe (l : IpTables) (ip : BitVec 32) (i : Nat) : Option Datatype.PlatformData :=
  l.ipTables i (ip &&& BitVec.allOnes 32 <<< i)

variable (l : IpTables) (ip : BitVec 32)

/-- The scan ends and finds the first entry; each round clears one bit more. -/
theorem scanTables_spec {fuel : Nat} {bits : BitVec 32} (positive : 0 < fuel)
    (clear : ∀ position, position + fuel < 33 -> bits.getLsbD position = false) :
    ∃ answer, l.scanTables ip fuel bits = some answer ∧ FirstBit bits (l.probe ip) answer := by
  induction fuel generalizing bits with
  | zero => exact absurd positive (Nat.lt_irrefl 0)
  | succ fuel ih =>
    unfold scanTables
    by_cases nonzero : bits = 0
    · refine ⟨none, by simp [nonzero], fun i set => ?_⟩
      simp [nonzero] at set
    · have isPositive : bits > 0 := by bv_omega
      have present := BitVec.getLsbD_true_ctz_of_ne_zero nonzero
      simp only [isPositive, if_true, countTrailingZeros32_eq nonzero]
      cases found : l.probe ip bits.ctz.toNat with
      | some info =>
        refine ⟨some info, ?_, bits.ctz.toNat, present, found, ?_⟩
        · rw [probe] at found
          rw [found]
        · intro j below set
          rw [@BitVec.getLsbD_false_of_lt_ctz _ _ bits below] at set
          cases set
      | none =>
        have last : ¬ bits.ctz.toNat + (fuel + 1) < 33 := by
          intro low
          rw [clear _ low] at present
          cases present
        have small : bits.ctz.toNat < 32 := BitVec.lt_of_getLsbD present
        obtain ⟨answer, isAnswer, first⟩ := @ih
          (bits ^^^ (1 : BitVec 32) <<< bits.ctz.toNat) (by omega) (by
            intro position low
            rw [getLsbD_clear_ctz nonzero]
            by_cases same : position = bits.ctz.toNat
            · simp [same]
            · have below : position < bits.ctz.toNat := by omega
              simp [@BitVec.getLsbD_false_of_lt_ctz _ _ bits below])
        refine ⟨answer, ?_, first.of_clear nonzero found⟩
        rw [probe] at found
        rw [found]
        exact isAnswer

theorem getDataByIp4_spec :
    ∃ answer, l.getDataByIp4 ip = some answer ∧ FirstBit l.netmaskBitmap (l.probe ip) answer :=
  l.scanTables_spec ip (by omega) fun position low => by omega

end IpTables

/-- An IPv4 address of a WAN interface. -/
structure WanNetwork where
  owner : Datatype.PlatformData
  ip : BitVec 32
  maskLen : Nat
  bounded : maskLen ≤ 32

namespace WanNetwork

def ofIpNet (owner : Datatype.PlatformData) : Datatype.IpNet -> Option WanNetwork
  | ⟨.v4 ip, netmask, bounded⟩ => some ⟨owner, ip, netmask, bounded⟩
  | ⟨.v6 _, _, _⟩ => none

def contains (ip : BitVec 32) (network : WanNetwork) : Bool :=
  network.ip &&& leadingOnes 32 network.maskLen == ip &&& leadingOnes 32 network.maskLen

/-- The tables can find the network at an address: it is the first one and has a
bit in the bitmap. -/
def Served (ip : BitVec 32) (network : WanNetwork) : Bool :=
  decide (0 < network.maskLen) && network.ip == ip &&& leadingOnes 32 network.maskLen

end WanNetwork

def wanNetworks (platformDatas : List Datatype.PlatformData) : List WanNetwork :=
  (platformDatas.filter fun platformData =>
      decide (platformData.ifType = Datatype.ifTypeWan)).flatMap
    fun platformData => platformData.ips.filterMap (WanNetwork.ofIpNet platformData)

namespace IpTables

variable (networks : List WanNetwork) (l : IpTables) (platformDatas : List Datatype.PlatformData)

def addNetwork (network : WanNetwork) : IpTables :=
  { ipTables := Function.update l.ipTables (32 - network.maskLen)
      (Function.update (l.ipTables (32 - network.maskLen)) network.ip
        (some network.owner))
    netmaskBitmap :=
      l.netmaskBitmap ||| (1 : BitVec 32) <<< (32 - network.maskLen) }

theorem updateIpTable_eq : l.updateIpTable platformDatas =
      (wanNetworks platformDatas).foldl addNetwork { netmaskBitmap := l.netmaskBitmap } := by
  rw [wanNetworks, List.foldl_flatMap, List.foldl_filter, updateIpTable]
  congr 1
  funext l platformData
  by_cases isWan : platformData.ifType = Datatype.ifTypeWan
  · rw [addPlatformData, if_neg (not_not.mpr isWan), List.foldl_filterMap,
      if_pos (by simpa using isWan)]
    refine List.foldl_ext _ _ _ fun l ipData _ => ?_
    obtain ⟨rawIp, netmask, bounded⟩ := ipData
    cases rawIp <;> rfl
  · simp [addPlatformData, isWan]

variable (i : Nat) (ip : BitVec 32)

/-- The table of a mask length has the last interface with the address. -/
theorem ipTables_foldl : (networks.foldl addNetwork l).ipTables i ip =
      ((networks.reverse.find? fun network =>
        decide (32 - network.maskLen = i) && network.ip == ip).map
          WanNetwork.owner).or (l.ipTables i ip) := by
  induction networks generalizing l with
  | nil => simp
  | cons network rest ih =>
    rw [List.foldl_cons, ih, List.reverse_cons, List.find?_append, Option.map_or, Option.or_assoc]
    congr 1
    by_cases sameTable : 32 - network.maskLen = i
    · subst sameTable
      by_cases sameIp : network.ip = ip
      · subst sameIp
        simp [addNetwork]
      · simp [addNetwork, sameIp, Function.update_of_ne (Ne.symm sameIp)]
    · simp [addNetwork, sameTable, Function.update_of_ne (Ne.symm sameTable)]

/-- The bitmap has the bits of all mask lengths but 0. -/
theorem netmaskBitmap_foldl (mem : network ∈ networks) (positive : 0 < network.maskLen) :
    (networks.foldl addNetwork l).netmaskBitmap.getLsbD (32 - network.maskLen) := by
  have kept : ∀ (networks : List WanNetwork) (l : IpTables) (i : Nat),
      l.netmaskBitmap.getLsbD i -> (networks.foldl addNetwork l).netmaskBitmap.getLsbD i := by
    intro networks
    induction networks with
    | nil => exact fun _ _ set => set
    | cons head rest ih =>
      intro l i set
      exact ih _ i (by simp [addNetwork, set])
  induction networks generalizing l with
  | nil => cases mem
  | cons head rest ih =>
    rcases List.mem_cons.mp mem with rfl | mem
    · refine kept rest (l.addNetwork network) _ ?_
      have small : 32 - network.maskLen < 32 := by omega
      have isBit : (1 : BitVec 32) <<< (32 - network.maskLen) =
          BitVec.twoPow 32 (32 - network.maskLen) := rfl
      simp only [addNetwork]
      rw [BitVec.getLsbD_or, isBit, BitVec.getLsbD_twoPow]
      simp [small]
    · exact ih _ mem

/-- What a lookup tries for a bit is the last interface with the masked
address. -/
theorem probe_updateIpTable (i : Nat) : (l.updateIpTable platformDatas).probe ip i =
      ((wanNetworks platformDatas).reverse.find? fun network =>
        decide (32 - network.maskLen = i) &&
          network.ip == ip &&& BitVec.allOnes 32 <<< i).map WanNetwork.owner := by
  rw [probe, updateIpTable_eq, ipTables_foldl]
  exact Option.or_none

/-- A network that the tables can find is found by the bit of its mask. -/
theorem probe_ne_none_of_served {platformDatas : List Datatype.PlatformData}
    {ip : BitVec 32} (mem : network ∈ wanNetworks platformDatas) (served : network.Served ip) :
    (l.updateIpTable platformDatas).netmaskBitmap.getLsbD (32 - network.maskLen) ∧
      (l.updateIpTable platformDatas).probe ip (32 - network.maskLen) ≠ none := by
  obtain ⟨positive, isFirst⟩ := Bool.and_eq_true_iff.mp served
  constructor
  · rw [updateIpTable_eq]
    exact netmaskBitmap_foldl _ _ mem (by simpa using positive)
  · rw [probe_updateIpTable]
    simp only [ne_eq, Option.map_eq_none_iff, List.find?_eq_none, List.mem_reverse, not_forall]
    refine ⟨network, mem, not_not.mpr ?_⟩
    rw [decide_eq_true rfl, Bool.true_and]
    exact isFirst

/-- A lookup finds the last of the longest networks that the tables can
find. -/
theorem findsFirstBest_getDataByIp4 : ∃ network,
      (l.updateIpTable platformDatas).getDataByIp4 ip = some (network.map WanNetwork.owner) ∧
      FindsFirstBest WanNetwork.maskLen (WanNetwork.Served ip)
        (wanNetworks platformDatas).reverse network := by
  obtain ⟨answer, isAnswer, first⟩ := (l.updateIpTable platformDatas).getDataByIp4_spec ip
  cases answer with
  | none =>
    refine ⟨none, isAnswer, fun network mem => ?_⟩
    by_contra served
    obtain ⟨set, found⟩ := probe_ne_none_of_served (l := l)
      (List.mem_reverse.mp mem) (by simpa using served)
    exact found (first _ set)
  | some info =>
    obtain ⟨i, set, found, noneBelow⟩ := first
    have small : i < 32 := BitVec.lt_of_getLsbD set
    rw [probe_updateIpTable, Option.map_eq_some_iff] at found
    obtain ⟨network, isNetwork, rfl⟩ := found
    obtain ⟨isHere, before, after, isSplit, notBefore⟩ := List.find?_eq_some_iff_append.mp isNetwork
    obtain ⟨sameLen, sameIp⟩ := Bool.and_eq_true_iff.mp isHere
    obtain rfl : 32 - network.maskLen = i := by simpa using sameLen
    have longest : ∀ other ∈ (wanNetworks platformDatas).reverse,
        other.Served ip -> other.maskLen ≤ network.maskLen := by
      intro other mem served
      obtain ⟨otherSet, otherFound⟩ := probe_ne_none_of_served (l := l)
        (List.mem_reverse.mp mem) served
      by_contra longer
      have := other.bounded
      exact otherFound (noneBelow _ (by omega) otherSet)
    refine ⟨some network, isAnswer, ⟨?_, before, after, isSplit, ?_, ?_⟩⟩
    · have positive : 0 < network.maskLen := by omega
      rw [WanNetwork.Served, decide_eq_true positive, Bool.true_and]
      exact sameIp
    · intro other mem served
      refine Nat.lt_of_le_of_ne (longest other (by simp [isSplit, mem]) served) ?_
      intro same
      have isLater := notBefore other mem
      rw [same, decide_eq_true rfl, Bool.true_and, ← same, Bool.not_eq_true'] at isLater
      rw [WanNetwork.Served, leadingOnes, isLater, Bool.and_false] at served
      cases served
    · exact fun other mem served =>
        longest other (by simp [isSplit, mem]) served

end IpTables

theorem WanNetwork.contains_of_served {ip : BitVec 32} {network : WanNetwork}
    (served : network.Served ip) : network.contains ip := by
  obtain ⟨_, isFirst⟩ := Bool.and_eq_true_iff.mp served
  rw [WanNetwork.contains, eq_of_beq isFirst, BitVec.and_assoc, BitVec.and_self]
  exact beq_self_eq_true _

/-- The answer is an interface with a longest network that contains the address,
or there is none. -/
def IsLongestOwner (networks : List WanNetwork) (ip : BitVec 32) :
    Option Datatype.PlatformData -> Prop
  | some platformData => ∃ network,
      IsBest WanNetwork.maskLen (WanNetwork.contains ip) networks network ∧
        network.owner = platformData
  | none => ∀ network ∈ networks, network.contains ip = false

/-- A lookup answers with an interface of the longest network with the address
if no network has it, or if the last of the longest networks that the tables can
find belongs to such an interface. -/
theorem getDataByIp4_updateIpTable_iff (l : IpTables)
    (platformDatas : List Datatype.PlatformData) (ip : BitVec 32) :
    ∃ answer, (l.updateIpTable platformDatas).getDataByIp4 ip = some answer ∧
      (IsLongestOwner (wanNetworks platformDatas) ip answer ↔
        ((∃ network ∈ wanNetworks platformDatas, network.contains ip) ->
          ∃ network longest,
            IsFirstBest WanNetwork.maskLen (WanNetwork.Served ip)
              (wanNetworks platformDatas).reverse network ∧
            IsBest WanNetwork.maskLen (WanNetwork.contains ip) (wanNetworks platformDatas) longest ∧
            longest.owner = network.owner)) := by
  obtain ⟨network, isAnswer, finds⟩ := l.findsFirstBest_getDataByIp4 platformDatas ip
  refine ⟨_, isAnswer, ?_⟩
  cases network with
  | none =>
    constructor
    · rintro nothing ⟨network, mem, has⟩
      rw [nothing network mem] at has
      cases has
    · intro served network mem
      by_contra has
      obtain ⟨other, _, first, _⟩ := served ⟨network, mem, by simpa using has⟩
      have isServed := first.matched
      rw [finds other first.isBest.mem] at isServed
      cases isServed
  | some network =>
    have first : IsFirstBest WanNetwork.maskLen (WanNetwork.Served ip)
      (wanNetworks platformDatas).reverse network := finds
    constructor
    · rintro ⟨longest, best, sameOwner⟩ _
      exact ⟨network, longest, first, best, sameOwner⟩
    · intro served
      obtain ⟨other, longest, otherFirst, best, sameOwner⟩ := served
        ⟨network, List.mem_reverse.mp first.isBest.mem, WanNetwork.contains_of_served first.matched⟩
      obtain rfl := otherFirst.unique first
      exact ⟨longest, best, sameOwner⟩

/-- A WAN interface with 10.0.0.5/24: nothing is found for 10.0.0.7, which is in
its network. -/
theorem getDataByIp4_misses_hostAddress :
    let wan : Datatype.PlatformData :=
      ⟨1, 7, Datatype.ifTypeWan, [⟨.v4 0x0a000005, 24, by decide⟩]⟩
    (IpTables.updateIpTable {} [wan]).getDataByIp4 0x0a000007 = some none ∧
      ((wanNetworks [wan]).any fun network => network.contains 0x0a000007) := by
  decide +kernel

/-- Lookups are right if every interface is given with the first address of its
network and no network has all addresses. -/
theorem isLongestOwner_of_firstAddresses (l : IpTables)
    (platformDatas : List Datatype.PlatformData) (ip : BitVec 32)
    (firstAddresses : ∀ network ∈ wanNetworks platformDatas,
      0 < network.maskLen ∧ network.ip &&& leadingOnes 32 network.maskLen = network.ip) :
    ∃ answer, (l.updateIpTable platformDatas).getDataByIp4 ip = some answer ∧
      IsLongestOwner (wanNetworks platformDatas) ip answer := by
  have served : ∀ network ∈ wanNetworks platformDatas, network.contains ip ->
      network.Served ip := by
    intro network mem has
    obtain ⟨positive, isFirst⟩ := firstAddresses network mem
    rw [WanNetwork.contains, isFirst] at has
    rw [WanNetwork.Served, decide_eq_true positive, Bool.true_and]
    exact has
  obtain ⟨network, isAnswer, finds⟩ := l.findsFirstBest_getDataByIp4 platformDatas ip
  refine ⟨_, isAnswer, ?_⟩
  cases network with
  | none =>
    intro network mem
    by_contra has
    have isServed := served network mem (by simpa using has)
    rw [finds network (List.mem_reverse.mpr mem)] at isServed
    cases isServed
  | some network =>
    have best := IsFirstBest.isBest finds
    refine ⟨network, ⟨List.mem_reverse.mp best.mem,
      WanNetwork.contains_of_served best.matched, ?_⟩, rfl⟩
    exact fun other mem has =>
      best.largest other (List.mem_reverse.mpr mem) (served other mem has)

/-- An address of two networks of different lengths. -/
theorem isLongestOwner_of_firstAddresses_wan :
    let narrow : Datatype.PlatformData :=
      ⟨1, 7, Datatype.ifTypeWan, [⟨.v4 0x0a000000, 24, by decide⟩]⟩
    let wide : Datatype.PlatformData :=
      ⟨2, 8, Datatype.ifTypeWan, [⟨.v4 0x0a000000, 16, by decide⟩]⟩
    ∃ answer, (IpTables.updateIpTable {} [narrow, wide]).getDataByIp4 0x0a000000 = some answer ∧
      IsLongestOwner (wanNetworks [narrow, wide]) 0x0a000000 answer :=
  isLongestOwner_of_firstAddresses _ _ _ (by decide +kernel)

end Policy
end Metaflow
