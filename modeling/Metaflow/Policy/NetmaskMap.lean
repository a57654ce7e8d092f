import Metaflow.Library.BitField
import Metaflow.Policy.IpSegment

/-!
# The netmasks of the fast path

`fastpath.go`: an address is looked up under the longest mask of all networks
that meet its upper 16 bits, from one table for each kind of data and one with
the longest of the three.
-/

namespace Metaflow.Policy

open Library
open BitVec

/-- `STANDARD_NETMASK` -/
def standardNetmask : BitVec 32 := netmask 16

/-- One mask for each upper half of an address. -/
abbrev MaskMap := BitVec 16 -> BitVec 32

/-- `uint16(ip >> 16)` -/
def upperHalf (ip : BitVec 32) : BitVec 16 :=
  (ip >>> 16).setWidth 16

/-- Keep the longer mask. -/
def raiseMask (maskMap : MaskMap) (slot : BitVec 16) (mask : BitVec 32) : MaskMap :=
  if maskMap slot < mask then Function.update maskMap slot mask else maskMap

/-- The loop over the slots of a network; `netIp` may wrap, so it ends after as
many rounds as there are slots at the latest. -/
def raiseSlots (mask minNetIp maxNetIp : BitVec 32) : Nat -> BitVec 32 -> MaskMap -> MaskMap
  | 0, _, maskMap => maskMap
  | rounds + 1, netIp, maskMap =>
    if netIp ≤ maxNetIp ∧ minNetIp ≤ netIp then
      raiseSlots mask minNetIp maxNetIp rounds (netIp + 0x10000)
        (raiseMask maskMap (upperHalf netIp) mask)
    else maskMap

/-- The statements that the three kinds of data share: enter a network. -/
def addNetwork (maskMap : MaskMap) (ip maskSize : BitVec 32) : MaskMap :=
  let mask := netmask maskSize
  if mask < standardNetmask then
    let minNetIp := ip &&& mask
    let maxNetIp := (minNetIp ||| ~~~mask) &&& standardNetmask
    raiseSlots standardNetmask minNetIp maxNetIp 0x10000 minNetIp maskMap
  else
    let minNetIp := ip &&& standardNetmask
    raiseSlots mask minNetIp minNetIp 0x10000 minNetIp maskMap

/-- A network of an interface; the address is `none` unless it has 4 bytes. -/
structure IpNet where
  rawIp : Option (BitVec 32)
  netmask : BitVec 32

/-- The networks of an interface. -/
structure PlatformData where
  ips : List IpNet

/-- The address as `To4` gives it, and the ones and bits of the mask, both 0 if
the ones are not the leading bits. -/
structure Cidr where
  ip4 : Option (BitVec 32)
  maskSize : Nat
  bits : Nat

def addIpNet (maskMap : MaskMap) (network : IpNet) : MaskMap :=
  match network.rawIp with
  | some ip => addNetwork maskMap ip network.netmask
  | none => maskMap

/-- The loop body over the addresses of a group. A group of all addresses is not
entered. -/
def addRaw (parseCIDR : String -> Option ParsedCidr) (epcId : BitVec 32) (maskMap : MaskMap)
    (raw : String) : MaskMap :=
  match parseCIDR raw with
  | some (.v4 ip4 maskSize) =>
    if ip4 = 0 ∧ epcId = 0 ∧ maskSize = 0 then maskMap
    else addNetwork maskMap ip4 (BitVec.ofNat 32 maskSize)
  | some (.v6 ..) => maskMap
  | none => maskMap

/-- The loop body over the CIDRs. One at the address 0 is not entered. -/
def addCidr (maskMap : MaskMap) (d : Cidr) : MaskMap :=
  match d.ip4 with
  | some ip4 =>
    if d.maskSize = 0 ∧ d.bits = 0 then maskMap
    else if ip4 = 0 then maskMap
    else addNetwork maskMap ip4 (BitVec.ofNat 32 d.maskSize)
  | none => maskMap

def addPlatformData (maskMap : MaskMap) (d : PlatformData) : MaskMap :=
  d.ips.foldl addIpNet maskMap

def addIpGroupData (parseCIDR : String -> Option ParsedCidr) (maskMap : MaskMap)
    (d : IpGroupData) : MaskMap :=
  d.ips.foldl (addRaw parseCIDR d.epcId) maskMap

/-- The tables of the fast path. -/
structure NetmaskMaps where
  maskMapFromPlatformData : MaskMap := fun _ => 0
  maskMapFromIpGroupData : MaskMap := fun _ => 0
  maskMapFromCidrData : MaskMap := fun _ => 0
  ipNetmaskMap : MaskMap := fun _ => 0

namespace NetmaskMaps

def makeIpNetmaskMap (f : NetmaskMaps) : NetmaskMaps :=
  { f with
    ipNetmaskMap := fun i =>
      let mask := f.maskMapFromPlatformData i
      let mask :=
        if mask < f.maskMapFromIpGroupData i then f.maskMapFromIpGroupData i
        else mask
      if mask < f.maskMapFromCidrData i then f.maskMapFromCidrData i
      else mask }

def generateIpNetmaskMapFromPlatformData (f : NetmaskMaps)
    (data : List PlatformData) : NetmaskMaps :=
  { f with
    maskMapFromPlatformData :=
      data.foldl addPlatformData fun _ => 0 }.makeIpNetmaskMap

def generateIpNetmaskMapFromIpGroupData (parseCIDR : String -> Option ParsedCidr) (f : NetmaskMaps)
    (data : List IpGroupData) : NetmaskMaps :=
  { f with
    maskMapFromIpGroupData :=
      data.foldl (addIpGroupData parseCIDR) fun _ => 0 }.makeIpNetmaskMap

def generateIpNetmaskMapFromCidrData (f : NetmaskMaps) (data : List Cidr) : NetmaskMaps :=
  { f with
    maskMapFromCidrData := data.foldl addCidr fun _ => 0 }.makeIpNetmaskMap

/-- An address under its mask, as `generateMaskedIp` computes it. -/
def maskedIp (f : NetmaskMaps) (ip : BitVec 32) : BitVec 32 :=
  ip &&& f.ipNetmaskMap (upperHalf ip)

end NetmaskMaps

/-- The table has masks of leading ones. -/
def Netmasks (maskMap : MaskMap) : Prop :=
  ∀ slot, IsNetmask (maskMap slot)

theorem isNetmask_netmask (maskSize : BitVec 32) : IsNetmask (netmask maskSize) :=
  ⟨_, rfl⟩

/-- What a part of a loop does to a table: masks grow, and stay masks. -/
structure Grows (before after : MaskMap) : Prop where
  le : ∀ slot, before slot ≤ after slot
  netmasks : Netmasks before -> Netmasks after

variable (maskMap : MaskMap)

theorem Grows.refl : Grows maskMap maskMap :=
  ⟨fun _ => BitVec.le_refl _, id⟩

theorem Grows.trans (first : Grows before middle) (second : Grows middle after) :
    Grows before after :=
  ⟨fun slot => BitVec.le_trans (first.le slot) (second.le slot), second.netmasks ∘ first.netmasks⟩

theorem raiseMask_apply (slot other : BitVec 16) (mask : BitVec 32) :
    raiseMask maskMap slot mask other =
      if other = slot ∧ maskMap slot < mask then mask else maskMap other := by
  unfold raiseMask
  by_cases shorter : maskMap slot < mask <;> simp [shorter, Function.update_apply]

theorem grows_raiseMask (slot : BitVec 16) (isNetmask : IsNetmask mask) :
    Grows maskMap (raiseMask maskMap slot mask) where
  le other := by
    rw [raiseMask_apply]
    split_ifs with raised
    · rw [raised.1]
      exact BitVec.le_of_lt raised.2
    · exact BitVec.le_refl _
  netmasks areNetmasks other := by
    rw [raiseMask_apply]
    split_ifs
    · exact isNetmask
    · exact areNetmasks other

theorem le_raiseMask (slot : BitVec 16) (mask : BitVec 32) :
    mask ≤ raiseMask maskMap slot mask slot := by
  rw [raiseMask_apply]
  split_ifs with raised
  · exact BitVec.le_refl _
  · exact BitVec.not_lt.mp fun shorter => raised ⟨rfl, shorter⟩

theorem grows_raiseSlots (isNetmask : IsNetmask mask)
    (minNetIp maxNetIp : BitVec 32) (rounds : Nat) (netIp : BitVec 32) (maskMap : MaskMap) :
    Grows maskMap (raiseSlots mask minNetIp maxNetIp rounds netIp maskMap) := by
  induction rounds generalizing netIp maskMap with
  | zero => exact .refl maskMap
  | succ rounds ih =>
    rw [raiseSlots]
    split_ifs
    · exact (grows_raiseMask maskMap _ isNetmask).trans (ih _ _)
    · exact .refl maskMap

/-- The mask of the network is in the table, or it is too short to matter. -/
def Entered (maskMap : MaskMap) (ip maskSize : BitVec 32) : Prop :=
  netmask maskSize < standardNetmask ∨ netmask maskSize ≤ maskMap (upperHalf ip)

theorem Entered.of_le {before after : MaskMap}
    (entered : Entered before ip maskSize) (le : ∀ slot, before slot ≤ after slot) :
    Entered after ip maskSize :=
  entered.imp_right fun stored => BitVec.le_trans stored (le _)

theorem grows_addNetwork (ip maskSize : BitVec 32) :
    Grows maskMap (addNetwork maskMap ip maskSize) := by
  unfold addNetwork
  by_cases short : netmask maskSize < standardNetmask
  · simp only [if_pos short]
    exact grows_raiseSlots (isNetmask_netmask 16) _ _ _ _ _
  · simp only [if_neg short]
    exact grows_raiseSlots (isNetmask_netmask maskSize) _ _ _ _ _

theorem getLsbD_standardNetmask (position : Nat) (inside : position < 32) :
    standardNetmask.getLsbD position = decide (16 ≤ position) := by
  have size : (32 - 16 : BitVec 32).toNat = 16 := rfl
  rw [standardNetmask, netmask, size, getLsbD_shiftLeft, getLsbD_allOnes]
  by_cases low : position < 16
  · simp [low, Nat.not_le_of_lt low]
  · have small : position - 16 < 32 := by omega
    simp [inside, low, small, Nat.le_of_not_lt low]

theorem upperHalf_eq_iff (ip other : BitVec 32) :
    upperHalf ip = upperHalf other ↔ ip &&& standardNetmask = other &&& standardNetmask := by
  have bits : ∀ number : BitVec 32, ∀ position < 16, (upperHalf number).getLsbD position =
        (number &&& standardNetmask).getLsbD (16 + position) := by
    intro number position small
    have isOne := getLsbD_standardNetmask (16 + position) (by omega)
    rw [upperHalf, getLsbD_setWidth, getLsbD_ushiftRight, getLsbD_and, isOne]
    simp [small]
  constructor
  · intro same
    refine eq_of_getLsbD_eq fun position inside => ?_
    rcases Nat.lt_or_ge position 16 with low | high
    · rw [getLsbD_and, getLsbD_and, getLsbD_standardNetmask position inside,
        decide_eq_false (Nat.not_le_of_lt low), Bool.and_false, Bool.and_false]
    · obtain ⟨rest, rfl⟩ := Nat.exists_eq_add_of_le high
      rw [← bits ip rest (by omega), same, bits other rest (by omega)]
  · intro same
    refine eq_of_getLsbD_eq fun position inside => ?_
    rw [bits ip position inside, same, bits other position inside]

theorem entered_addNetwork (ip maskSize : BitVec 32) :
    Entered (addNetwork maskMap ip maskSize) ip maskSize := by
  by_cases short : netmask maskSize < standardNetmask
  · exact .inl short
  · refine .inr ?_
    have sameSlot : upperHalf (ip &&& standardNetmask) = upperHalf ip := by
      rw [upperHalf_eq_iff, BitVec.and_assoc, BitVec.and_self]
    unfold addNetwork
    simp only [if_neg short]
    rw [raiseSlots, if_pos ⟨BitVec.le_refl _, BitVec.le_refl _⟩, sameSlot]
    exact BitVec.le_trans (le_raiseMask maskMap _ _)
      ((grows_raiseSlots (isNetmask_netmask maskSize) _ _ _ _ _).le _)

section Loops

variable {δ : Type}

theorem grows_foldl (grows : ∀ maskMap d, Grows maskMap (step maskMap d)) (data : List δ)
    (maskMap : MaskMap) : Grows maskMap (data.foldl step maskMap) := by
  induction data generalizing maskMap with
  | nil => exact .refl maskMap
  | cons d data ih => exact (grows maskMap d).trans (ih _)

/-- What a round brings about stays, if growing keeps it. -/
theorem holds_foldl (grows : ∀ maskMap d, Grows maskMap (step maskMap d)) (holds : MaskMap -> Prop)
    (keeps : ∀ before after, (∀ slot, before slot ≤ after slot) -> holds before -> holds after)
    (enters : ∀ maskMap, holds (step maskMap d)) {data : List δ} (isIn : d ∈ data)
    (maskMap : MaskMap) : holds (data.foldl step maskMap) := by
  obtain ⟨before, after, rfl⟩ := List.append_of_mem isIn
  rw [List.foldl_append, List.foldl_cons]
  exact keeps _ _ (grows_foldl grows after _).le (enters _)

theorem entered_foldl (grows : ∀ maskMap d, Grows maskMap (step maskMap d))
    {ip maskSize : BitVec 32} (enters : ∀ maskMap, Entered (step maskMap d) ip maskSize)
    {data : List δ} (isIn : d ∈ data) (maskMap : MaskMap) :
    Entered (data.foldl step maskMap) ip maskSize :=
  holds_foldl grows (Entered · ip maskSize) (fun _ _ le entered => entered.of_le le) enters isIn
    maskMap

end Loops

theorem grows_addIpNet (network : IpNet) : Grows maskMap (addIpNet maskMap network) := by
  unfold addIpNet
  cases network.rawIp with
  | none => exact .refl maskMap
  | some ip => exact grows_addNetwork maskMap ip network.netmask

theorem grows_addPlatformData (d : PlatformData) : Grows maskMap (addPlatformData maskMap d) :=
  grows_foldl grows_addIpNet d.ips maskMap

theorem entered_platformData {data : List PlatformData} (isData : d ∈ data)
    {network : IpNet} (isNetwork : network ∈ d.ips)
    (isIp : network.rawIp = some ip) (maskMap : MaskMap) :
    Entered (data.foldl addPlatformData maskMap) ip network.netmask := by
  refine entered_foldl grows_addPlatformData (fun maskMap => ?_) isData maskMap
  refine entered_foldl grows_addIpNet (fun maskMap => ?_) isNetwork maskMap
  rw [addIpNet, isIp]
  exact entered_addNetwork maskMap ip network.netmask

section Groups

variable (parseCIDR : String -> Option ParsedCidr)

variable (epcId : BitVec 32) (maskMap : MaskMap)

theorem grows_addRaw (raw : String) : Grows maskMap (addRaw parseCIDR epcId maskMap raw) := by
  unfold addRaw
  split
  · split_ifs
    · exact .refl maskMap
    · exact grows_addNetwork maskMap _ _
  · exact .refl maskMap
  · exact .refl maskMap

theorem grows_addIpGroupData (d : IpGroupData) :
    Grows maskMap (addIpGroupData parseCIDR maskMap d) :=
  grows_foldl (grows_addRaw parseCIDR d.epcId) d.ips maskMap

/-- The network of all addresses, which is passed, is too short to matter. -/
theorem entered_addRaw (parsed : parseCIDR raw = some (.v4 ip4 maskSize)) (maskMap : MaskMap) :
    Entered (addRaw parseCIDR epcId maskMap raw) ip4 (BitVec.ofNat 32 maskSize) := by
  unfold addRaw
  simp only [parsed]
  split_ifs with skipped
  · obtain ⟨_, _, rfl⟩ := skipped
    exact .inl (by decide)
  · exact entered_addNetwork maskMap _ _

theorem entered_ipGroupData {data : List IpGroupData} (isData : d ∈ data)
    {raw : String} (isRaw : raw ∈ d.ips)
    (parsed : parseCIDR raw = some (.v4 ip4 maskSize)) (maskMap : MaskMap) :
    Entered (data.foldl (addIpGroupData parseCIDR) maskMap) ip4 (BitVec.ofNat 32 maskSize) := by
  refine entered_foldl (grows_addIpGroupData parseCIDR) (fun maskMap => ?_) isData maskMap
  exact entered_foldl (grows_addRaw parseCIDR d.epcId)
    (entered_addRaw parseCIDR d.epcId parsed) isRaw maskMap

end Groups

theorem grows_addCidr (d : Cidr) : Grows maskMap (addCidr maskMap d) := by
  unfold addCidr
  split
  · split_ifs
    · exact .refl maskMap
    · exact .refl maskMap
    · exact grows_addNetwork maskMap _ _
  · exact .refl maskMap

theorem entered_cidrData {data : List Cidr} (isData : d ∈ data) {ip4 : BitVec 32}
    (isIp : d.ip4 = some ip4) (notZero : ip4 ≠ 0) (hasBits : d.bits ≠ 0) (maskMap : MaskMap) :
    Entered (data.foldl addCidr maskMap) ip4 (BitVec.ofNat 32 d.maskSize) := by
  refine entered_foldl grows_addCidr (fun maskMap => ?_) isData maskMap
  unfold addCidr
  simp only [isIp, hasBits, and_false, if_false, notZero]
  exact entered_addNetwork maskMap _ _

/-- The address lies in the network. -/
def InNetwork (ip maskSize address : BitVec 32) : Prop :=
  address &&& netmask maskSize = ip &&& netmask maskSize

theorem standardNetmask_isNetmask : IsNetmask standardNetmask :=
  isNetmask_netmask 16

/-- Addresses with one upper half that agree under its mask are in the same
entered networks. -/
theorem inNetwork_iff_of_entered {maskMap : MaskMap} (netmasks : Netmasks maskMap)
    (entered : Entered maskMap ip maskSize) (sameHalf : upperHalf address = upperHalf other)
    (sameMasked : address &&& maskMap (upperHalf address) = other &&& maskMap (upperHalf other)) :
    InNetwork ip maskSize address ↔ InNetwork ip maskSize other := by
  have isNetmask := isNetmask_netmask maskSize
  by_cases short : netmask maskSize < standardNetmask
  · have contained := isNetmask.and_eq_of_le standardNetmask_isNetmask (BitVec.le_of_lt short)
    have same := and_eq_and_of_and_eq contained ((upperHalf_eq_iff address other).mp sameHalf)
    rw [InNetwork, InNetwork, same]
  · by_cases inSlot : upperHalf address = upperHalf ip
    · have stored := entered.resolve_left short
      rw [← sameHalf, inSlot] at sameMasked
      have contained := isNetmask.and_eq_of_le (netmasks _) stored
      rw [InNetwork, InNetwork, and_eq_and_of_and_eq contained sameMasked]
    · have contained := standardNetmask_isNetmask.and_eq_of_le isNetmask (BitVec.not_lt.mp short)
      have outside : ∀ number, upperHalf number ≠ upperHalf ip ->
          ¬ InNetwork ip maskSize number := fun number differs inside =>
        differs ((upperHalf_eq_iff number ip).mpr (and_eq_and_of_and_eq contained inside))
      exact iff_of_false (outside address inSlot) (outside other (sameHalf ▸ inSlot))

/-- The data of the last update of each kind. -/
structure NetmaskData where
  platform : List PlatformData := []
  ipGroups : List IpGroupData := []
  cidrs : List Cidr := []

/-- `UpdateInterfaceData`, `UpdateIpGroupData` and `UpdateCidr` -/
inductive NetmaskUpdate where
  | platform (data : List PlatformData)
  | ipGroups (data : List IpGroupData)
  | cidrs (data : List Cidr)

def NetmaskData.update (latest : NetmaskData) : NetmaskUpdate -> NetmaskData
  | .platform data => { latest with platform := data }
  | .ipGroups data => { latest with ipGroups := data }
  | .cidrs data => { latest with cidrs := data }

section Runs

variable (parseCIDR : String -> Option ParsedCidr)

def NetmaskMaps.update (f : NetmaskMaps) : NetmaskUpdate -> NetmaskMaps
  | .platform data => f.generateIpNetmaskMapFromPlatformData data
  | .ipGroups data => f.generateIpNetmaskMapFromIpGroupData parseCIDR data
  | .cidrs data => f.generateIpNetmaskMapFromCidrData data

/-- The tables after some updates. -/
def netmaskMapsAfter (updates : List NetmaskUpdate) : NetmaskMaps :=
  updates.foldl (NetmaskMaps.update parseCIDR) {}

/-- The data after some updates. -/
def netmaskDataAfter (updates : List NetmaskUpdate) : NetmaskData :=
  updates.foldl NetmaskData.update {}

/-- The tables are those of the latest data. -/
structure Reflects (f : NetmaskMaps) (latest : NetmaskData) : Prop where
  platform_eq : f.maskMapFromPlatformData = latest.platform.foldl addPlatformData fun _ => 0
  ipGroups_eq : f.maskMapFromIpGroupData =
    latest.ipGroups.foldl (addIpGroupData parseCIDR) fun _ => 0
  cidrs_eq : f.maskMapFromCidrData = latest.cidrs.foldl addCidr fun _ => 0
  made : f.makeIpNetmaskMap = f

variable {parseCIDR}

theorem Reflects.update (reflects : Reflects parseCIDR f latest) (update : NetmaskUpdate) :
    Reflects parseCIDR (f.update parseCIDR update) (latest.update update) := by
  obtain ⟨platform_eq, ipGroups_eq, cidrs_eq, _⟩ := reflects
  cases update with
  | platform data => exact ⟨rfl, ipGroups_eq, cidrs_eq, rfl⟩
  | ipGroups data => exact ⟨platform_eq, rfl, cidrs_eq, rfl⟩
  | cidrs data => exact ⟨platform_eq, ipGroups_eq, rfl, rfl⟩

theorem reflects_after (updates : List NetmaskUpdate) :
    Reflects parseCIDR (netmaskMapsAfter parseCIDR updates) (netmaskDataAfter updates) := by
  have initially : Reflects parseCIDR {} {} := ⟨rfl, rfl, rfl, rfl⟩
  unfold netmaskMapsAfter netmaskDataAfter
  generalize ({} : NetmaskMaps) = f at initially ⊢
  generalize ({} : NetmaskData) = latest at initially ⊢
  induction updates generalizing f latest with
  | nil => exact initially
  | cons update updates ih => exact ih _ _ (initially.update update)

/-- The longest of three masks. -/
theorem NetmaskMaps.grows_makeIpNetmaskMap (f : NetmaskMaps) :
    (∀ slot, f.maskMapFromPlatformData slot ≤ f.makeIpNetmaskMap.ipNetmaskMap slot) ∧
    (∀ slot, f.maskMapFromIpGroupData slot ≤ f.makeIpNetmaskMap.ipNetmaskMap slot) ∧
    (∀ slot, f.maskMapFromCidrData slot ≤ f.makeIpNetmaskMap.ipNetmaskMap slot) := by
  refine ⟨fun slot => ?_, fun slot => ?_, fun slot => ?_⟩ <;>
    simp only [makeIpNetmaskMap, le_def, lt_def] <;>
    split_ifs <;> omega

theorem NetmaskMaps.netmasks_makeIpNetmaskMap {f : NetmaskMaps}
    (platform : Netmasks f.maskMapFromPlatformData)
    (ipGroups : Netmasks f.maskMapFromIpGroupData) (cidrs : Netmasks f.maskMapFromCidrData) :
    Netmasks f.makeIpNetmaskMap.ipNetmaskMap := by
  intro slot
  simp only [makeIpNetmaskMap]
  split_ifs
  · exact cidrs slot
  · exact ipGroups slot
  · exact cidrs slot
  · exact platform slot

theorem netmasks_zero : Netmasks fun _ => 0 :=
  fun _ => isNetmask_zero

theorem Reflects.netmasks {f : NetmaskMaps}
    (reflects : Reflects parseCIDR f latest) : Netmasks f.ipNetmaskMap := by
  rw [← reflects.made]
  apply NetmaskMaps.netmasks_makeIpNetmaskMap
  · rw [reflects.platform_eq]
    exact (grows_foldl grows_addPlatformData _ _).netmasks netmasks_zero
  · rw [reflects.ipGroups_eq]
    exact (grows_foldl (grows_addIpGroupData parseCIDR) _ _).netmasks netmasks_zero
  · rw [reflects.cidrs_eq]
    exact (grows_foldl grows_addCidr _ _).netmasks netmasks_zero

variable (parseCIDR)

/-- After any updates, addresses with one upper half that are equal under the
stored mask lie in the same networks of interfaces and groups, and in the same
CIDRs but for those at the address 0. -/
theorem sameNetworks_of_maskedIp (updates : List NetmaskUpdate) {address other : BitVec 32}
    (sameHalf : upperHalf address = upperHalf other)
    (sameMasked : (netmaskMapsAfter parseCIDR updates).maskedIp address =
      (netmaskMapsAfter parseCIDR updates).maskedIp other) :
    (∀ d ∈ (netmaskDataAfter updates).platform, ∀ network ∈ d.ips, ∀ ip,
      network.rawIp = some ip ->
        (InNetwork ip network.netmask address ↔ InNetwork ip network.netmask other)) ∧
    (∀ d ∈ (netmaskDataAfter updates).ipGroups, ∀ raw ∈ d.ips,
      ∀ ip maskSize, parseCIDR raw = some (.v4 ip maskSize) ->
        (InNetwork ip (BitVec.ofNat 32 maskSize) address ↔
          InNetwork ip (BitVec.ofNat 32 maskSize) other)) ∧
    (∀ d ∈ (netmaskDataAfter updates).cidrs, ∀ ip, d.ip4 = some ip ->
      ip ≠ 0 -> d.bits = 32 ->
        (InNetwork ip (BitVec.ofNat 32 d.maskSize) address ↔
          InNetwork ip (BitVec.ofNat 32 d.maskSize) other)) := by
  have reflects := @reflects_after parseCIDR updates
  generalize netmaskMapsAfter parseCIDR updates = f at sameMasked reflects
  generalize netmaskDataAfter updates = latest at reflects
  obtain ⟨platformLe, ipGroupsLe, cidrsLe⟩ := f.grows_makeIpNetmaskMap
  rw [reflects.made] at platformLe ipGroupsLe cidrsLe
  rw [reflects.platform_eq] at platformLe
  rw [reflects.ipGroups_eq] at ipGroupsLe
  rw [reflects.cidrs_eq] at cidrsLe
  have agree : ∀ ip maskSize, Entered f.ipNetmaskMap ip maskSize ->
      (InNetwork ip maskSize address ↔ InNetwork ip maskSize other) :=
    fun ip maskSize entered => inNetwork_iff_of_entered reflects.netmasks
      entered sameHalf sameMasked
  refine ⟨?_, ?_, ?_⟩
  · intro d isData network isNetwork ip isIp
    exact agree _ _ ((entered_platformData isData isNetwork isIp _).of_le platformLe)
  · intro d isData raw isRaw ip maskSize parsed
    exact agree _ _ ((entered_ipGroupData parseCIDR isData isRaw parsed _).of_le ipGroupsLe)
  · intro d isData ip isIp notZero bits
    exact agree _ _ ((entered_cidrData isData isIp notZero (by rw [bits]; decide) _).of_le cidrsLe)

end Runs

/-- Two addresses of 10.1.2.0/24, the network of an interface. -/
theorem sameNetworks_of_maskedIp_interface :
    InNetwork 0x0a010200 24 0x0a010203 ↔ InNetwork 0x0a010200 24 0x0a010204 :=
  (sameNetworks_of_maskedIp (fun _ => none) [.platform [⟨[⟨some 0x0a010200, 24⟩]⟩]] (by decide)
    (by decide +kernel)).1 _ (List.mem_singleton_self _)
    _ (List.mem_singleton_self _) _ rfl

end Metaflow.Policy
