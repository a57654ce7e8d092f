import Metaflow.Grpc.WanCidrs

/-!
# The EPC of an address in the WAN CIDRs

`findEpcInWan` searches the list of EPC 0, which is never the list of the WAN
CIDRs once there is one, and an address that is found gets the EPC 0.
-/

namespace Metaflow.Grpc.Cidrs

open Library CidrMap

/-- The EPC of a WAN CIDR of the longest mask with the address, or there is none
and the address is in the internet. -/
def RightEpc (wan : List CidrInfo) (ip : Net.IP) (epc : Int32) : Prop :=
  (∃ cidrInfo, IsBest CidrInfo.maskSize (fun info => info.cidr.contains ip) wan
      cidrInfo ∧ epc = cidrInfo.epcID) ∨
    (∀ cidrInfo ∈ wan, cidrInfo.cidr.contains ip = false) ∧ epc = epcFromInternet

/-- The table of addresses has the right EPC, or it does not have the address
and no WAN CIDR has it. -/
def RightWithoutCidrs (wan : List CidrInfo) (ip : Net.IP) : Option Info -> Prop
  | some info => RightEpc wan ip info.epcID
  | none => ∀ cidrInfo ∈ wan, cidrInfo.cidr.contains ip = false

/-- The EPC of the answer of a search. -/
def answeredEpc (info : Option Info) : Int32 :=
  match info with
  | some info => info.epcID
  | none => epcFromInternet

variable (t : PlatformTables) (ip4 : UInt32) (ip6 : BitVec 128)

theorem PlatformTables.findEpcInWan_ipv4 :
    t.findEpcInWan true ip4 ip6 = answeredEpc ((t.epcIDIPV4Infos (ipv4Key 0 ip4)).or
        (t.epcIDIPV4CidrInfos.queryCidr 0 (.v4 ip4.toBitVec))) := by
  simp only [findEpcInWan, queryIPV4Infos, if_true]
  cases t.epcIDIPV4Infos (ipv4Key 0 ip4) <;> rfl

theorem PlatformTables.findEpcInWan_ipv6 : t.findEpcInWan false ip4 ip6 =
      answeredEpc ((t.epcIDIPV6Infos 0 ip6).or (t.epcIDIPV6CidrInfos.queryCidr 0 (.v6 ip6))) := by
  have zero : (0 : Int16).toInt32.toUInt32 = 0 := by decide
  simp only [findEpcInWan, queryIPV6Infos, zero, Bool.false_eq_true, if_false]
  cases t.epcIDIPV6Infos 0 ip6 <;> rfl

/-- A search that comes to the WAN CIDRs is right only if it finds none. -/
theorem rightEpc_iff {m : CidrMap}
    (isWan : (m.read 0).Perm wan) (notZero : ∀ cidrInfo ∈ wan, cidrInfo.epcID ≠ 0) :
    RightEpc wan ip (answeredEpc (entry.or (m.queryCidr 0 ip))) ↔
      RightWithoutCidrs wan ip entry := by
  cases entry with
  | some info => exact .rfl
  | none =>
    rw [Option.none_or]
    cases found : (m.read 0).find? fun info => info.cidr.contains ip with
    | none =>
      have nothing : ∀ cidrInfo ∈ wan, cidrInfo.cidr.contains ip = false := fun cidrInfo mem => by
        simpa using List.find?_eq_none.mp found cidrInfo (isWan.mem_iff.mpr mem)
      rw [queryCidr, found]
      exact iff_of_true (.inr ⟨nothing, rfl⟩) nothing
    | some cidrInfo =>
      have mem := isWan.mem_iff.mp (List.mem_of_find?_eq_some found)
      have has := List.find?_some found
      have notNothing : ¬ ∀ info ∈ wan, info.cidr.contains ip = false :=
        fun nothing => by simp [nothing cidrInfo mem] at has
      rw [queryCidr, found]
      refine iff_of_false ?_ notNothing
      rintro (⟨best, isBest, zero⟩ | ⟨nothing, _⟩)
      · exact notZero best isBest.mem zero.symm
      · exact notNothing nothing

theorem epcID_ne_zero_of_mem_wanCidrs
    (mem : cidrInfo ∈ wanCidrs ipv4 (enteredFrom parseCIDR 0 cidrs)) : cidrInfo.epcID ≠ 0 := by
  obtain ⟨entry, entryMem, rfl⟩ := List.mem_map.mp mem
  exact epcID_ne_zero (List.mem_of_mem_filter entryMem)

/-- The list of EPC 0 of the IPv4 CIDRs is the list of the WAN CIDRs only if
there is none. -/
theorem read_zero_perm_iff (holds : Holds4 m entered) :
    (m.read 0).Perm (wanCidrs true entered) ↔ wanCidrs true entered = [] := by
  rcases holds.zero with ⟨isNone, empty⟩ | ⟨slice, epc, isSlice, ofEpc, more, some⟩
  · simp [CidrMap.read, isNone, empty]
  · refine iff_of_false (fun perm => ?_) some
    have length := len_eq holds.owned.ok isSlice
    have all : ∀ info ∈ wanCidrs true entered,
        decide (info.epcID = epc) = true := by
      intro info mem
      have inList := perm.mem_iff.mpr mem
      simp only [CidrMap.read, isSlice] at inList
      simpa using ofEpc info (List.mem_of_mem_take inList)
    rw [List.countP_eq_length.mpr all, length, perm.length_eq] at more
    exact Nat.lt_irrefl _ more

/-- The lists of EPC 0 are those of the WAN CIDRs, and every EPC is found, if
there is no IPv4 WAN CIDR and no address is searched in a WAN CIDR that has it.
-/
theorem findEpcInWan_right_iff (rt : Runtime) (parseCIDR : String -> Option Net.IPNet)
    (cidrs : List TridentCidr) (epcIDIPV4Infos : UInt64 -> Option Info)
    (epcIDIPV6Infos : UInt32 -> BitVec 128 -> Option Info) :
    let wan4 := wanCidrs true (enteredFrom parseCIDR 0 cidrs)
    let wan6 := wanCidrs false (enteredFrom parseCIDR 0 cidrs)
    let t : PlatformTables :=
      { toCidrTables := buildCidrs rt parseCIDR cidrs
        epcIDIPV4Infos := epcIDIPV4Infos
        epcIDIPV6Infos := epcIDIPV6Infos }
    ((t.epcIDIPV4CidrInfos.read 0).Perm wan4 ∧ (t.epcIDIPV6CidrInfos.read 0).Perm wan6 ∧
      (∀ ip4 ip6, RightEpc wan4 (.v4 ip4.toBitVec) (t.findEpcInWan true ip4 ip6)) ∧
      ∀ ip4 ip6, RightEpc wan6 (.v6 ip6) (t.findEpcInWan false ip4 ip6)) ↔
    (wan4 = [] ∧
      (∀ ip4, RightWithoutCidrs wan4 (.v4 ip4.toBitVec) (epcIDIPV4Infos (ipv4Key 0 ip4))) ∧
      ∀ ip6, RightWithoutCidrs wan6 (.v6 ip6) (epcIDIPV6Infos 0 ip6)) := by
  intro wan4 wan6 t
  obtain ⟨holds4, holds6⟩ := holds_buildCidrs rt parseCIDR cidrs
  have search4 := t.findEpcInWan_ipv4
  have search6 := t.findEpcInWan_ipv6
  have isWan4 := read_zero_perm_iff holds4
  constructor
  · rintro ⟨perm4, _, right4, right6⟩
    refine ⟨isWan4.mp perm4, fun ip4 => ?_, fun ip6 => ?_⟩
    · rw [← rightEpc_iff perm4 fun _ mem => epcID_ne_zero_of_mem_wanCidrs mem, ← search4 ip4 0]
      exact right4 ip4 0
    · rw [← rightEpc_iff holds6.zero
        fun _ mem => epcID_ne_zero_of_mem_wanCidrs mem, ← search6 0 ip6]
      exact right6 0 ip6
  · rintro ⟨empty, right4, right6⟩
    have perm4 := isWan4.mpr empty
    refine ⟨perm4, holds6.zero, fun ip4 ip6 => ?_, fun ip4 ip6 => ?_⟩
    · rw [search4]
      exact (rightEpc_iff perm4 fun _ mem => epcID_ne_zero_of_mem_wanCidrs mem).mpr (right4 ip4)
    · rw [search6]
      exact (rightEpc_iff holds6.zero
        fun _ mem => epcID_ne_zero_of_mem_wanCidrs mem).mpr (right6 ip6)

/-- A runtime that doubles arrays, keeps the order in which keys were entered
and sorts stably. -/
def plainRuntime : Runtime where
  grow len := 2 * len
  order _ keys := keys
  order_perm _ _ := .rfl
  sort infos := infos.insertionSort (falling CidrInfo.maskSize)
  sort_perm infos := List.perm_insertionSort _ infos
  sort_falling infos := List.pairwise_insertionSort _ infos

/-- WAN CIDRs of the EPCs 7 and 8: the list of EPC 0 has the second one twice,
an address of the second one gets EPC 0, and one of the first one is said to be
in the internet. -/
theorem findEpcInWan_loses_epc :
    let parseCIDR := fun text : String =>
      if text = "10.0.0.0/8" then
        some (Net.IPNet.mk (.v4 0x0a000000) (Net.cidrMask4 8))
      else some (Net.IPNet.mk (.v4 0x0b000000) (Net.cidrMask4 8))
    let t : PlatformTables :=
      { toCidrTables := buildCidrs plainRuntime parseCIDR
          [⟨"10.0.0.0/8", .wan, 7, 1, 1, 1⟩, ⟨"11.0.0.0/8", .wan, 8, 2, 1, 1⟩]
        epcIDIPV4Infos := fun _ => none
        epcIDIPV6Infos := fun _ _ => none }
    (t.epcIDIPV4CidrInfos.read 0).map CidrInfo.epcID = [8, 8] ∧
      t.findEpcInWan true 0x0b000001 0 = 0 ∧
      t.findEpcInWan true 0x0a000001 0 = epcFromInternet := by
  decide +kernel

end Metaflow.Grpc.Cidrs
