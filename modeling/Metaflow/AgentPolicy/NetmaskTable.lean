import Metaflow.AgentPolicy.FastPath
import Metaflow.Net.IPNet
import Metaflow.Policy.NetmaskMap

/-!
# The netmask table of the agent

`fast_path.rs`: the longest mask of the networks that meet an upper half of
addresses. Masks shorter than 16 bits are kept, so addresses with different
upper halves can be equal under their masks.
-/

namespace Metaflow.AgentPolicy

open Library Net
open Policy (MaskMap raiseMask upperHalf)

/-- A network of the library `ipnet`, given by its types for IPv4 and IPv6. -/
inductive IpNet (N M : Type) where
  | v4 (net : N)
  | v6 (net : M)

/-- The calls on the networks of the library. -/
structure IpNetOps (N M : Type) where
  network : N -> BitVec 32
  netmask : N -> BitVec 32
  prefixLen : N -> Nat
  /-- `prefix_len` of an IPv6 network. -/
  prefixLen6 : M -> Nat
  contains : IpNet N M -> IpAddr -> Bool

/-- What is assumed of the calls. -/
structure IpNetOps.Lawful (ops : IpNetOps N M) : Prop where
  prefixLen_le : ∀ net, ops.prefixLen net ≤ 32
  netmask_eq : ∀ net, ops.netmask net = leadingOnes 32 (ops.prefixLen net)
  network_and : ∀ net, ops.network net &&& ops.netmask net = ops.network net
  contains_v4 : ∀ net ip, ops.contains (.v4 net) (.v4 ip) =
    decide (ip &&& ops.netmask net = ops.network net)

/-- An address of a platform interface with its mask length. -/
structure IpSubnet where
  rawIp : IpAddr
  netmask : Nat

/-- The addresses of a platform interface. -/
structure Interface where
  ips : List IpSubnet

/-- An IP group. -/
structure IpGroupData (N M : Type) where
  epcId : BitVec 32
  ips : List (IpNet N M)

/-- A CIDR. -/
structure Cidr (N M : Type) where
  ip : IpNet N M
  epcId : BitVec 32

/-- The loop over the slots of a network, from `start` to `end`. -/
def raiseSlots (mask : BitVec 32) (start : Nat) (maskLen : Nat) (table : MaskMap) : MaskMap :=
  let count := if maskLen < 16 then 1 <<< (16 - maskLen) else 1
  (List.range count).foldl
    (fun table step => raiseMask table (BitVec.ofNat 16 (start + step)) mask) table

/-- A shift by all 32 bits or by a negative number is an overflow. -/
def addSubnet (table : MaskMap) (ip : IpSubnet) : Option MaskMap :=
  match ip.rawIp with
  | .v4 ipv4 =>
    if ip.netmask = 0 ∨ 32 < ip.netmask then none
    else
      let mask := leadingOnes 32 ip.netmask
      some (raiseSlots mask ((ipv4 &&& mask) >>> 16).toNat ip.netmask table)
  | .v6 _ => some table

/-- `generate_mask_from_interface` -/
def generateMaskFromInterface (interfaces : List Interface) : Option MaskMap :=
  interfaces.foldlM (fun table iface => iface.ips.foldlM addSubnet table) fun _ => 0

section Tables

variable {N M : Type} (ops : IpNetOps N M)

/-- The resource of the internet matches all addresses and is not entered. -/
def cidrToMask (epcId : BitVec 32) (table : MaskMap) : IpNet N M -> MaskMap
  | .v4 addr =>
    if ops.network addr = 0 ∧ epcId = 0 ∧ ops.prefixLen addr = 0 then table
    else
      raiseSlots (ops.netmask addr) (ops.network addr >>> 16).toNat (ops.prefixLen addr) table
  | .v6 _ => table

/-- `generate_mask_table_from_group` -/
def generateMaskTableFromGroup (groups : List (IpGroupData N M)) : MaskMap :=
  groups.foldl (fun table group => group.ips.foldl (cidrToMask ops group.epcId) table) fun _ => 0

/-- `generate_mask_table_from_cidr` -/
def generateMaskTableFromCidr (cidrs : List (Cidr N M)) : MaskMap :=
  cidrs.foldl (fun table cidr => cidrToMask ops cidr.epcId table cidr.ip) fun _ => 0

/-- `max` -/
def longer (mask other : BitVec 32) : BitVec 32 :=
  if mask < other then other else mask

/-- `generate_mask_table` after the three other functions. -/
def generateMaskTable (interfaces : List Interface) (groups : List (IpGroupData N M))
    (cidrs : List (Cidr N M)) : Option MaskMap := do
  let maskFromInterface <- generateMaskFromInterface interfaces
  return fun i => longer (maskFromInterface i)
    (longer (generateMaskTableFromGroup ops groups i) (generateMaskTableFromCidr ops cidrs i))

end Tables

/-- An address under its mask. -/
def maskedIp (table : MaskMap) (ip : BitVec 32) : BitVec 32 :=
  ip &&& table (upperHalf ip)

/-- The addresses of a key that the fast path looks up. -/
theorem generateMaskIp_eq {path : FastPath C} {key : LookupKey}
    (isTable : ∀ slot : BitVec 16, path.netmaskTable slot.toNat = table slot)
    (isSrc : key.srcIp = .v4 src) (isDst : key.dstIp = .v4 dst) :
    path.generateMaskIp key = some (maskedIp table src, maskedIp table dst) := by
  have half : ∀ ip : BitVec 32, (upperHalf ip).toNat = (ip >>> 16).toNat := by
    intro ip
    rw [upperHalf, BitVec.toNat_setWidth, BitVec.toNat_ushiftRight, Nat.shiftRight_eq_div_pow]
    have small := ip.isLt
    omega
  simp only [FastPath.generateMaskIp, isSrc, isDst, maskedIp, ← isTable, half]

/-- A block of addresses: the first one and the number of bits they share. -/
structure Ipv4Block where
  network : BitVec 32
  prefixLen : Nat

namespace Ipv4Block

/-- `ip` is an address of the block. -/
def Contains (block : Ipv4Block) (ip : BitVec 32) : Prop :=
  ip &&& leadingOnes 32 block.prefixLen = block.network

/-- Some address of the block has the upper half of `ip`. -/
def Meets (block : Ipv4Block) (ip : BitVec 32) : Prop :=
  ip &&& leadingOnes 32 (min block.prefixLen 16) =
    block.network &&& leadingOnes 32 (min block.prefixLen 16)

/-- The mask fits and leaves the first address as it is. -/
structure Proper (block : Ipv4Block) : Prop where
  inside : block.prefixLen ≤ 32
  aligned : block.network &&& leadingOnes 32 block.prefixLen = block.network

instance (block : Ipv4Block) (ip : BitVec 32) : Decidable (block.Meets ip) :=
  inferInstanceAs (Decidable (_ = _))

end Ipv4Block

/-- The network that is entered for an address of an interface. -/
def IpSubnet.block? (ip : IpSubnet) : Option Ipv4Block :=
  match ip.rawIp with
  | .v4 ipv4 => some ⟨ipv4 &&& leadingOnes 32 ip.netmask, ip.netmask⟩
  | .v6 _ => none

section Blocks

variable {N M : Type} (ops : IpNetOps N M)

/-- The network that is entered for one of the library. -/
def IpNetOps.block? (epcId : BitVec 32) : IpNet N M -> Option Ipv4Block
  | .v4 net =>
    if ops.network net = 0 ∧ epcId = 0 ∧ ops.prefixLen net = 0 then none
    else some ⟨ops.network net, ops.prefixLen net⟩
  | .v6 _ => none

/-- All networks that are entered. -/
def enteredBlocks (interfaces : List Interface) (groups : List (IpGroupData N M))
    (cidrs : List (Cidr N M)) : List Ipv4Block :=
  interfaces.flatMap (fun iface => iface.ips.filterMap IpSubnet.block?) ++
    (groups.flatMap (fun group => group.ips.filterMap (ops.block? group.epcId)) ++
      cidrs.filterMap fun cidr => ops.block? cidr.epcId cidr.ip)

end Blocks

theorem toNat_leadingOnes (inside : ones ≤ 32) :
    (leadingOnes 32 ones).toNat + 2 ^ (32 - ones) = 2 ^ 32 := by
  have open' := toNat_not_leadingOnes inside
  have positive := Nat.two_pow_pos (32 - ones)
  have small := (leadingOnes 32 ones).isLt
  rw [BitVec.toNat_not] at open'
  omega

/-- The masks are ordered as their lengths are. -/
theorem leadingOnes_le_iff (inside : ones ≤ 32) (others : more ≤ 32) :
    leadingOnes 32 ones ≤ leadingOnes 32 more ↔ ones ≤ more := by
  have first := toNat_leadingOnes inside
  have second := toNat_leadingOnes others
  have powers : 2 ^ (32 - more) ≤ 2 ^ (32 - ones) ↔ 32 - more ≤ 32 - ones :=
    Nat.pow_le_pow_iff_right (by decide)
  rw [BitVec.le_def]
  omega

/-- The shorter mask remains of two. -/
theorem leadingOnes_and_leadingOnes (shorter : ones ≤ more) (inside : more ≤ 32) :
    leadingOnes 32 ones &&& leadingOnes 32 more = leadingOnes 32 ones :=
  IsNetmask.and_eq_of_le ⟨_, rfl⟩ ⟨_, rfl⟩ ((leadingOnes_le_iff (by omega) inside).mpr shorter)

/-- Addresses that agree under a mask agree under a shorter one. -/
theorem and_leadingOnes_of_le (shorter : ones ≤ more) (inside : more ≤ 32)
    (same : ip &&& leadingOnes 32 more = other &&& leadingOnes 32 more) :
    ip &&& leadingOnes 32 ones = other &&& leadingOnes 32 ones := by
  rw [← leadingOnes_and_leadingOnes shorter inside, BitVec.and_comm (leadingOnes 32 ones),
    ← BitVec.and_assoc, ← BitVec.and_assoc, same]

/-- A block meets the upper halves of its addresses. -/
theorem Ipv4Block.Contains.meets {block : Ipv4Block} (contains : block.Contains ip)
    (proper : block.Proper) : block.Meets ip :=
  and_leadingOnes_of_le (Nat.min_le_left _ _) proper.inside (contains.trans proper.aligned.symm)

theorem le_longer (mask other : BitVec 32) :
    mask ≤ longer mask other ∧ other ≤ longer mask other := by
  unfold longer
  split_ifs with shorter
  · exact ⟨BitVec.le_of_lt shorter, BitVec.le_refl _⟩
  · exact ⟨BitVec.le_refl _, BitVec.not_lt.mp shorter⟩

theorem longer_eq (mask other : BitVec 32) :
    longer mask other = mask ∨ longer mask other = other := by
  unfold longer
  split_ifs
  · exact .inr rfl
  · exact .inl rfl

theorem longer_longer_self (mask other : BitVec 32) :
    longer (longer mask other) other = longer mask other := by
  unfold longer
  split_ifs with first second
  · exact absurd second (BitVec.lt_irrefl _)
  · rfl
  · rfl

/-- What raising a mask in one slot does to any slot. -/
theorem raiseMask_apply (table : MaskMap) (slot other : BitVec 16) (mask : BitVec 32) :
    raiseMask table slot mask other =
      if other = slot then longer (table other) mask else table other := by
  unfold raiseMask longer
  by_cases same : other = slot
  · subst same
    split_ifs <;> simp_all
  · split_ifs <;> simp [same]

/-- Each slot of a list has the mask if it was shorter, other slots are kept. -/
theorem foldl_raiseMask (slots : List (BitVec 16)) (table : MaskMap) (mask : BitVec 32)
    (other : BitVec 16) :
    slots.foldl (fun table slot => raiseMask table slot mask) table other =
      if other ∈ slots then longer (table other) mask else table other := by
  induction slots generalizing table with
  | nil => rfl
  | cons slot slots ih =>
    rw [List.foldl_cons, ih, raiseMask_apply]
    by_cases same : other = slot
    · by_cases more : other ∈ slots <;> simp [same, longer_longer_self]
    · simp [same]

/-- The loop over the slots of a block visits those that the block meets. -/
theorem visited_iff {block : Ipv4Block} (proper : block.Proper) (ip : BitVec 32) :
    (∃ step, step < (if block.prefixLen < 16 then 1 <<< (16 - block.prefixLen) else 1) ∧
      BitVec.ofNat 16 ((block.network >>> 16).toNat + step) = upperHalf ip) ↔ block.Meets ip := by
  obtain ⟨network, prefixLen⟩ := block
  obtain ⟨inside, aligned⟩ := proper
  simp only [Ipv4Block.Meets] at inside aligned ⊢
  have size : (if prefixLen < 16 then 1 <<< (16 - prefixLen) else 1) =
      2 ^ (16 - min prefixLen 16) := by
    split_ifs with short
    · rw [Nat.shiftLeft_eq, Nat.one_mul, Nat.min_eq_left (by omega)]
    · rw [Nat.min_eq_right (by omega)]
      rfl
  generalize isCount : 16 - min prefixLen 16 = bits at size
  have positive := Nat.two_pow_pos bits
  have whole : 2 ^ (32 - min prefixLen 16) = 65536 * 2 ^ bits := by
    rw [show 32 - min prefixLen 16 = 16 + bits by omega, Nat.pow_add]
  have halves : 2 ^ bits ∣ 65536 := Nat.pow_dvd_pow 2 (show bits ≤ 16 by omega)
  have begins : 2 ^ bits ∣ network.toNat / 65536 := by
    have divides : 2 ^ (32 - prefixLen) ∣ network.toNat := by
      rw [← aligned, toNat_and_leadingOnes]
      exact dvd_blockBase
    by_cases short : prefixLen ≤ 16
    · rw [Nat.min_eq_left short] at whole
      rw [whole] at divides
      exact Nat.dvd_div_of_mul_dvd divides
    · rw [show bits = 0 by omega]
      exact Nat.one_dvd _
  obtain ⟨quotient, isMultiple⟩ := begins
  have below : network.toNat / 65536 + 2 ^ bits ≤ 65536 :=
    add_le_of_dvd ⟨quotient, isMultiple⟩ halves (by have := network.isLt; omega)
  have agree : ip &&& leadingOnes 32 (min prefixLen 16) =
        network &&& leadingOnes 32 (min prefixLen 16) ↔
      ip.toNat / 65536 / 2 ^ bits = quotient := by
    rw [and_leadingOnes_eq_iff, whole, blockBase, blockBase, Nat.mul_left_inj (by omega),
      ← Nat.div_div_eq_div_mul, ← Nat.div_div_eq_div_mul, isMultiple,
      Nat.mul_div_cancel_left _ positive]
  have slot : upperHalf ip = BitVec.ofNat 16 (ip.toNat / 65536) := by
    rw [upperHalf, ← BitVec.ofNat_toNat, BitVec.toNat_ushiftRight, Nat.shiftRight_eq_div_pow]
  have first : (network >>> 16).toNat = network.toNat / 65536 := by
    rw [BitVec.toNat_ushiftRight, Nat.shiftRight_eq_div_pow]
  have small : ip.toNat / 65536 < 65536 := by
    have := ip.isLt
    omega
  rw [size, agree, slot, first, isMultiple]
  rw [isMultiple] at below
  constructor
  · rintro ⟨step, inRange, same⟩
    have equal := congrArg BitVec.toNat same
    rw [BitVec.toNat_ofNat, BitVec.toNat_ofNat, Nat.mod_eq_of_lt (by omega),
      Nat.mod_eq_of_lt (by omega)] at equal
    rw [← equal, Nat.mul_add_div positive, Nat.div_eq_of_lt inRange, Nat.add_zero]
  · intro same
    refine ⟨ip.toNat / 65536 % 2 ^ bits, Nat.mod_lt _ positive, ?_⟩
    rw [← same, Nat.div_add_mod]

/-- The loop enters the mask of a block where the block is met. -/
theorem raiseSlots_apply {block : Ipv4Block} (proper : block.Proper) (table : MaskMap)
    (ip : BitVec 32) :
    raiseSlots (leadingOnes 32 block.prefixLen) (block.network >>> 16).toNat block.prefixLen table
        (upperHalf ip) =
      if block.Meets ip then longer (table (upperHalf ip)) (leadingOnes 32 block.prefixLen)
      else table (upperHalf ip) := by
  rw [raiseSlots, ← List.foldl_map (f := fun step =>
    BitVec.ofNat 16 ((block.network >>> 16).toNat + step))
    (g := fun table slot => raiseMask table slot (leadingOnes 32 block.prefixLen)),
    foldl_raiseMask]
  refine if_congr ?_ rfl rfl
  rw [← visited_iff proper, List.mem_map]
  simp only [List.mem_range]

/-- A table has the longest mask of the blocks that meet an upper half. -/
structure Longest (table : MaskMap) (blocks : List Ipv4Block) : Prop where
  proper : ∀ block ∈ blocks, block.Proper
  atLeast : ∀ block ∈ blocks, ∀ ip, block.Meets ip ->
    leadingOnes 32 block.prefixLen ≤ table (upperHalf ip)
  attained : ∀ ip, table (upperHalf ip) = 0 ∨
    ∃ block ∈ blocks, block.Meets ip ∧ table (upperHalf ip) = leadingOnes 32 block.prefixLen

/-- A table becomes one that has some more blocks entered. -/
def Adds (blocks : List Ipv4Block) (table after : MaskMap) : Prop :=
  ∀ given, Longest table given -> Longest after (given ++ blocks)

theorem longest_nil : Longest (fun _ => 0) [] :=
  ⟨by simp, by simp, fun _ => .inl rfl⟩

/-- The masks of such a table are netmasks. -/
theorem Longest.isNetmask (longest : Longest table blocks) (slot : BitVec 16) :
    IsNetmask (table slot) := by
  obtain ⟨ip, rfl⟩ : ∃ ip, upperHalf ip = slot := by
    refine ⟨slot.setWidth 32 <<< 16, ?_⟩
    have small := slot.isLt
    rw [← BitVec.toNat_inj, upperHalf, BitVec.toNat_setWidth, BitVec.toNat_ushiftRight,
      BitVec.toNat_shiftLeft, BitVec.toNat_setWidth, Nat.shiftLeft_eq, Nat.shiftRight_eq_div_pow]
    omega
  rcases longest.attained ip with isZero | ⟨block, -, -, isLength⟩
  · rw [isZero]
    exact isNetmask_zero
  · exact ⟨_, isLength⟩

theorem adds_nil (table : MaskMap) : Adds [] table table := by
  intro given longest
  rwa [List.append_nil]

theorem Adds.append (first : Adds blocks table middle) (second : Adds more middle after) :
    Adds (blocks ++ more) table after := by
  intro given longest
  rw [← List.append_assoc]
  exact second _ (first given longest)

/-- The loop over the slots enters its block. -/
theorem adds_raiseSlots {block : Ipv4Block} (proper : block.Proper) (table : MaskMap) :
    Adds [block] table (raiseSlots (leadingOnes 32 block.prefixLen)
      (block.network >>> 16).toNat block.prefixLen table) := by
  intro given longest
  constructor
  · intro other isOther
    rcases List.mem_append.mp isOther with old | new
    · exact longest.proper other old
    · exact List.mem_singleton.mp new ▸ proper
  · intro other isOther ip meets
    rw [raiseSlots_apply proper]
    rcases List.mem_append.mp isOther with old | new
    · have before := longest.atLeast other old ip meets
      split_ifs
      · exact BitVec.le_trans before (le_longer _ _).1
      · exact before
    · obtain rfl := List.mem_singleton.mp new
      rw [if_pos meets]
      exact (le_longer _ _).2
  · intro ip
    rw [raiseSlots_apply proper]
    have kept : table (upperHalf ip) = 0 ∨ ∃ other ∈ given ++ [block], other.Meets ip ∧
        table (upperHalf ip) = leadingOnes 32 other.prefixLen := by
      refine (longest.attained ip).imp_right ?_
      rintro ⟨other, isOther, known⟩
      exact ⟨other, List.mem_append_left _ isOther, known⟩
    split_ifs with meets
    · rcases longer_eq (table (upperHalf ip)) (leadingOnes 32 block.prefixLen) with old | new
      · rwa [old]
      · exact .inr ⟨block, by simp, meets, new⟩
    · exact kept

/-- A loop whose steps enter blocks enters all of them. -/
theorem adds_foldl {blocksOf : α -> List Ipv4Block}
    (steps : ∀ table item, Adds (blocksOf item) table (step table item)) (items : List α)
    (table : MaskMap) : Adds (items.flatMap blocksOf) table (items.foldl step table) := by
  induction items generalizing table with
  | nil => exact adds_nil table
  | cons item items ih =>
    rw [List.flatMap_cons, List.foldl_cons]
    exact (steps table item).append (ih _)

/-- So does one whose steps may fail, if it does not. -/
theorem adds_foldlM {blocksOf : α -> List Ipv4Block} {step : MaskMap -> α -> Option MaskMap}
    (steps : ∀ table item after, step table item = some after -> Adds (blocksOf item) table after)
    {items : List α} (ran : items.foldlM step table = some after) :
    Adds (items.flatMap blocksOf) table after := by
  induction items generalizing table with
  | nil =>
    obtain rfl := Option.some.inj ran
    exact adds_nil table
  | cons item items ih =>
    rw [List.foldlM_cons] at ran
    obtain ⟨middle, stepped, remaining⟩ := Option.bind_eq_some_iff.mp ran
    rw [List.flatMap_cons]
    exact (steps table item middle stepped).append (ih remaining)

theorem filterMap_eq_flatMap (blockOf : α -> Option β) (items : List α) :
    items.filterMap blockOf = items.flatMap fun item => (blockOf item).toList := by
  induction items with
  | nil => rfl
  | cons item items ih => cases found : blockOf item <;> simp [found, ih]

/-- The subnet of an interface is entered. -/
theorem adds_addSubnet (added : addSubnet table ip = some after) :
    Adds ip.block?.toList table after := by
  obtain ⟨rawIp, netmask⟩ := ip
  cases rawIp with
  | v6 ip =>
    obtain rfl := Option.some.inj added
    exact adds_nil table
  | v4 ip =>
    simp only [addSubnet] at added
    split_ifs at added with fails
    rw [← Option.some.inj added]
    have inside : netmask ≤ 32 := by omega
    refine adds_raiseSlots ⟨inside, ?_⟩ table
    rw [BitVec.and_assoc, BitVec.and_self]

/-- The longer ones of the masks of two tables. -/
theorem Longest.longer (first : Longest table blocks) (second : Longest other more) :
    Longest (fun slot => AgentPolicy.longer (table slot) (other slot)) (blocks ++ more) := by
  constructor
  · intro block isBlock
    exact (List.mem_append.mp isBlock).elim (first.proper block) (second.proper block)
  · intro block isBlock ip meets
    rcases List.mem_append.mp isBlock with old | new
    · exact BitVec.le_trans (first.atLeast block old ip meets) (le_longer _ _).1
    · exact BitVec.le_trans (second.atLeast block new ip meets) (le_longer _ _).2
  · intro ip
    rcases longer_eq (table (upperHalf ip)) (other (upperHalf ip)) with isFirst | isSecond
    · simp only [isFirst]
      refine (first.attained ip).imp_right ?_
      rintro ⟨block, isBlock, known⟩
      exact ⟨block, List.mem_append_left _ isBlock, known⟩
    · simp only [isSecond]
      refine (second.attained ip).imp_right ?_
      rintro ⟨block, isBlock, known⟩
      exact ⟨block, List.mem_append_right _ isBlock, known⟩

section Library

variable {N M : Type} {ops : IpNetOps N M} (lawful : ops.Lawful)
include lawful

/-- The block of a network of the library. -/
theorem IpNetOps.Lawful.proper (net : N) :
    Ipv4Block.Proper ⟨ops.network net, ops.prefixLen net⟩ :=
  ⟨lawful.prefixLen_le net, lawful.netmask_eq net ▸ lawful.network_and net⟩

theorem adds_cidrToMask (epcId : BitVec 32) (table : MaskMap) (ip : IpNet N M) :
    Adds (ops.block? epcId ip).toList table (cidrToMask ops epcId table ip) := by
  cases ip with
  | v6 net => exact adds_nil table
  | v4 net =>
    rw [IpNetOps.block?, cidrToMask]
    split_ifs
    · exact adds_nil table
    · rw [lawful.netmask_eq]
      exact adds_raiseSlots (lawful.proper net) table

/-- The table has the longest masks of all networks that are entered. -/
theorem longest_generateMaskTable {interfaces : List Interface} {groups : List (IpGroupData N M)}
    {cidrs : List (Cidr N M)}
    (generated : generateMaskTable ops interfaces groups cidrs = some table) :
    Longest table (enteredBlocks ops interfaces groups cidrs) := by
  obtain ⟨fromInterface, isFirst, result⟩ := Option.bind_eq_some_iff.mp generated
  rw [← Option.some.inj result]
  have interfacesAdded : Adds (interfaces.flatMap fun iface =>
      iface.ips.filterMap IpSubnet.block?) (fun _ => 0) fromInterface := by
    refine adds_foldlM (fun table iface after ran => ?_) isFirst
    rw [filterMap_eq_flatMap]
    exact adds_foldlM (fun _ _ _ added => adds_addSubnet added) ran
  have groupsAdded : Adds (groups.flatMap fun group =>
      group.ips.filterMap (ops.block? group.epcId)) (fun _ => 0)
      (generateMaskTableFromGroup ops groups) := by
    refine adds_foldl (fun table group => ?_) groups _
    rw [filterMap_eq_flatMap]
    exact adds_foldl (adds_cidrToMask lawful group.epcId) group.ips table
  have cidrsAdded : Adds (cidrs.filterMap fun cidr => ops.block? cidr.epcId cidr.ip) (fun _ => 0)
      (generateMaskTableFromCidr ops cidrs) := by
    rw [filterMap_eq_flatMap]
    exact adds_foldl (fun table cidr => adds_cidrToMask lawful cidr.epcId table cidr.ip) cidrs _
  exact (interfacesAdded [] longest_nil).longer
    ((groupsAdded [] longest_nil).longer (cidrsAdded [] longest_nil))

/-- Whether a network tells addresses with one masked address apart depends on
what its own address stands for. -/
theorem contains_congr_iff (areNetmasks : ∀ slot, IsNetmask (table slot))
    (entered : ∀ ip, ops.contains (.v4 net) (.v4 ip) -> ops.netmask net ≤ table (upperHalf ip)) :
    (∀ ip other, maskedIp table ip = maskedIp table other ->
        ops.contains (.v4 net) (.v4 ip) = ops.contains (.v4 net) (.v4 other)) ↔
      ∀ ip, maskedIp table ip = ops.network net -> ops.contains (.v4 net) (.v4 ip) := by
  simp only [lawful.contains_v4, decide_eq_true_eq] at entered
  simp only [lawful.contains_v4, decide_eq_true_eq, decide_eq_decide]
  have isNetmask : IsNetmask (ops.netmask net) := ⟨_, lawful.netmask_eq net⟩
  have own := lawful.network_and net
  constructor
  · intro alike ip masked
    have absorbed := isNetmask.and_eq_of_le (areNetmasks _) (entered _ own)
    have fixed : maskedIp table (ops.network net) = ops.network net := by
      rw [maskedIp]
      nth_rewrite 1 [← own]
      rw [BitVec.and_assoc, absorbed]
      exact own
    exact (alike _ ip (fixed.trans masked.symm)).mp own
  · intro covered
    have carried : ∀ ip other, maskedIp table ip = maskedIp table other ->
        ip &&& ops.netmask net = ops.network net ->
        other &&& ops.netmask net = ops.network net := by
      intro ip other same contains
      have absorbed := isNetmask.and_eq_of_le (areNetmasks _) (entered ip contains)
      have under : maskedIp table other &&& ops.netmask net = ops.network net := by
        rw [← same, maskedIp, BitVec.and_assoc, BitVec.and_comm (table _), absorbed]
        exact contains
      rcases Nat.le_total (ops.netmask net).toNat (table (upperHalf other)).toNat with short | long
      · rwa [maskedIp, BitVec.and_assoc, BitVec.and_comm (table _),
          isNetmask.and_eq_of_le (areNetmasks _) short] at under
      · rw [maskedIp, BitVec.and_assoc, (areNetmasks _).and_eq_of_le isNetmask long] at under
        exact covered other under
    exact fun ip other same => ⟨carried ip other same, carried other ip same.symm⟩

/-- No address outside a network is masked to its address exactly if each
shorter one that begins with it has a longer one meet every upper half outside.
-/
theorem masked_covered_iff {blocks : List Ipv4Block} (longest : Longest table blocks)
    (entered : 0 < ops.prefixLen net -> ⟨ops.network net, ops.prefixLen net⟩ ∈ blocks) :
    (∀ ip, maskedIp table ip = ops.network net -> ops.contains (.v4 net) (.v4 ip)) ↔
      ∀ shorter ∈ ⟨0, 0⟩ :: blocks, shorter.network = ops.network net ->
        shorter.prefixLen < ops.prefixLen net -> ∀ ip, shorter.Contains ip ->
          ops.contains (.v4 net) (.v4 ip) = false ->
          ∃ longer ∈ blocks, shorter.prefixLen < longer.prefixLen ∧ longer.Meets ip := by
  have proper := longest.proper
  have inside := lawful.prefixLen_le net
  have own := lawful.network_and net
  simp only [lawful.contains_v4, decide_eq_true_eq, decide_eq_false_iff_not, lawful.netmask_eq]
    at own ⊢
  constructor
  · intro covered shorter isShorter begins short ip contains outside
    by_contra none
    have noLonger : ∀ block ∈ blocks, block.Meets ip -> block.prefixLen ≤ shorter.prefixLen :=
      fun block isBlock meets => Nat.le_of_not_lt fun longer => none ⟨block, isBlock, longer, meets⟩
    have isMask : table (upperHalf ip) = leadingOnes 32 shorter.prefixLen := by
      rcases List.mem_cons.mp isShorter with rfl | isBlock
      · rcases longest.attained ip with isZero | ⟨block, isBlock, meets, isLength⟩
        · exact isZero
        · rw [isLength, Nat.le_zero.mp (noLonger block isBlock meets)]
      · have atLeast := longest.atLeast shorter isBlock ip (contains.meets (proper _ isBlock))
        rcases longest.attained ip with isZero | ⟨block, isOther, meets, isLength⟩
        · rw [isZero] at atLeast ⊢
          exact BitVec.le_antisymm (BitVec.le_def.mpr (Nat.zero_le _)) atLeast
        · rw [isLength] at atLeast ⊢
          rw [leadingOnes_le_iff (proper _ isBlock).inside (proper _ isOther).inside] at atLeast
          rw [Nat.le_antisymm (noLonger block isOther meets) atLeast]
    refine outside (covered ip ?_)
    rw [maskedIp, isMask, ← begins]
    exact contains
  · intro separated ip masked
    by_contra outside
    have notInside : ∀ length, length ≤ 32 -> table (upperHalf ip) = leadingOnes 32 length ->
        length < ops.prefixLen net := by
      intro length small isLength
      by_contra long
      rw [maskedIp, isLength] at masked
      refine outside ?_
      rw [← own, ← masked]
      rw [BitVec.and_assoc, BitVec.and_comm (leadingOnes 32 length),
        leadingOnes_and_leadingOnes (by omega) small]
    rcases longest.attained ip with isZero | ⟨block, isBlock, meets, isLength⟩
    · have first : ops.network net = 0 := by
        rw [← masked, maskedIp, isZero]
        exact BitVec.and_zero
      have short := notInside 0 (by omega) (isZero.trans rfl)
      obtain ⟨longer, isLonger, longerThan, meets⟩ := separated ⟨0, 0⟩ (by simp) first.symm short
        ip (BitVec.and_zero) outside
      have atLeast := longest.atLeast longer isLonger ip meets
      rw [isZero, show (0 : BitVec 32) = leadingOnes 32 0 from rfl,
        leadingOnes_le_iff (proper _ isLonger).inside (by omega)] at atLeast
      simp only at longerThan
      omega
    · have short := notInside _ (proper _ isBlock).inside isLength
      by_cases upper : block.prefixLen ≤ 16
      · have contains : block.Contains ip := by
          rw [Ipv4Block.Meets, Nat.min_eq_left upper, (proper _ isBlock).aligned] at meets
          exact meets
        have begins : block.network = ops.network net := by
          rw [← masked, maskedIp, isLength]
          exact contains.symm
        obtain ⟨longer, isLonger, longerThan, longerMeets⟩ :=
          separated block (List.mem_cons_of_mem _ isBlock) begins short ip contains outside
        have atLeast := longest.atLeast longer isLonger ip longerMeets
        rw [isLength,
          leadingOnes_le_iff (proper _ isLonger).inside (proper _ isBlock).inside] at atLeast
        omega
      · have ownMeets : Ipv4Block.Meets ⟨ops.network net, ops.prefixLen net⟩ ip := by
          rw [Ipv4Block.Meets, Nat.min_eq_right (by simp only; omega)]
          simp only [← masked, maskedIp, isLength]
          rw [BitVec.and_assoc, BitVec.and_comm (leadingOnes 32 block.prefixLen),
            leadingOnes_and_leadingOnes (by omega) (proper _ isBlock).inside]
        have atLeast := longest.atLeast _ (entered (by omega)) ip ownMeets
        rw [isLength, leadingOnes_le_iff inside (proper _ isBlock).inside] at atLeast
        omega

/-- Addresses with one masked address are in the same networks of the groups
exactly if, for each of these networks and each shorter one that is entered (or
that of all addresses) with the same first address, the addresses of the shorter
one outside the network have an upper half that a network longer than the
shorter one meets. -/
theorem sameGroups_iff {interfaces : List Interface} {groups : List (IpGroupData N M)}
    {cidrs : List (Cidr N M)}
    (generated : generateMaskTable ops interfaces groups cidrs = some table) :
    (∀ ip other, maskedIp table ip = maskedIp table other ->
      ∀ group ∈ groups, ∀ net, IpNet.v4 net ∈ group.ips ->
        ops.contains (.v4 net) (.v4 ip) = ops.contains (.v4 net) (.v4 other)) ↔
      ∀ group ∈ groups, ∀ net, IpNet.v4 net ∈ group.ips ->
        ∀ shorter ∈ ⟨0, 0⟩ :: enteredBlocks ops interfaces groups cidrs,
          shorter.network = ops.network net -> shorter.prefixLen < ops.prefixLen net ->
          ∀ ip, shorter.Contains ip -> ops.contains (.v4 net) (.v4 ip) = false ->
            ∃ longer ∈ enteredBlocks ops interfaces groups cidrs,
              shorter.prefixLen < longer.prefixLen ∧ longer.Meets ip := by
  have longest := longest_generateMaskTable lawful generated
  have areNetmasks : ∀ slot, IsNetmask (table slot) := longest.isNetmask
  have isEntered : ∀ group ∈ groups, ∀ net, IpNet.v4 net ∈ group.ips -> 0 < ops.prefixLen net ->
      ⟨ops.network net, ops.prefixLen net⟩ ∈ enteredBlocks ops interfaces groups cidrs := by
    intro group isGroup net isNet positive
    refine List.mem_append_right _ (List.mem_append_left _ (List.mem_flatMap.mpr
      ⟨group, isGroup, List.mem_filterMap.mpr ⟨_, isNet, ?_⟩⟩))
    rw [IpNetOps.block?, if_neg (by omega)]
  have masks : ∀ group ∈ groups, ∀ net, IpNet.v4 net ∈ group.ips ->
      ∀ ip, ops.contains (.v4 net) (.v4 ip) -> ops.netmask net ≤ table (upperHalf ip) := by
    intro group isGroup net isNet ip contains
    rw [lawful.contains_v4, decide_eq_true_eq] at contains
    rw [lawful.netmask_eq] at contains ⊢
    rcases Nat.eq_zero_or_pos (ops.prefixLen net) with isZero | positive
    · rw [isZero]
      exact BitVec.le_def.mpr (Nat.zero_le _)
    · exact longest.atLeast _ (isEntered group isGroup net isNet positive) ip
        (Ipv4Block.Contains.meets contains (lawful.proper net))
  have covered : ∀ group ∈ groups, ∀ net, IpNet.v4 net ∈ group.ips -> _ :=
    fun group isGroup net isNet =>
      (contains_congr_iff lawful areNetmasks (masks group isGroup net isNet)).trans
        (masked_covered_iff lawful longest (isEntered group isGroup net isNet))
  constructor
  · intro alike group isGroup net isNet
    exact (covered group isGroup net isNet).mp
      fun ip other same => alike ip other same group isGroup net isNet
  · intro separated ip other same group isGroup net isNet
    exact (covered group isGroup net isNet).mpr (separated group isGroup net isNet) ip other same

end Library

/-- A network given by an address and a mask length. -/
structure Ipv4Net where
  addr : BitVec 32
  prefixLen : Nat
  inside : prefixLen ≤ 32

/-- The same for IPv6. -/
structure Ipv6Net where
  addr : BitVec 128
  prefixLen : Nat

/-- The calls on these networks. -/
def prefixNets : IpNetOps Ipv4Net Ipv6Net where
  network net := net.addr &&& leadingOnes 32 net.prefixLen
  netmask net := leadingOnes 32 net.prefixLen
  prefixLen net := net.prefixLen
  prefixLen6 net := net.prefixLen
  contains
    | .v4 net, .v4 ip =>
      ip &&& leadingOnes 32 net.prefixLen = net.addr &&& leadingOnes 32 net.prefixLen
    | .v6 net, .v6 ip =>
      ip &&& leadingOnes 128 net.prefixLen = net.addr &&& leadingOnes 128 net.prefixLen
    | _, _ => false

/-- They have what is assumed. -/
theorem lawful_prefixNets : prefixNets.Lawful where
  prefixLen_le net := net.inside
  netmask_eq _ := rfl
  network_and net := by
    simp only [prefixNets]
    rw [BitVec.and_assoc, BitVec.and_self]
  contains_v4 _ _ := rfl

/-- The networks 10.0.0.0/15 and 10.0.0.0/24 and the addresses 10.1.0.7 and 10.0.0.5. -/
theorem maskedIp_mixes_groups :
    let net : IpNet Ipv4Net Ipv6Net := .v4 ⟨0x0a000000, 24, by decide⟩
    ((generateMaskTable prefixNets [] [⟨1, [.v4 ⟨0x0a000000, 15, by decide⟩, net]⟩] []).map
      fun table => (maskedIp table 0x0a010007, maskedIp table 0x0a000005)) =
        some (0x0a000000, 0x0a000000) ∧
      prefixNets.contains net (.v4 0x0a000005) = true ∧
      prefixNets.contains net (.v4 0x0a010007) = false := by
  decide +kernel

/-- A subnet 10.0.0.0/24 and a group with 10.1.0.0/16 and 10.1.2.0/24. -/
theorem sameGroups_iff_twoNets :
    let groups : List (IpGroupData Ipv4Net Ipv6Net) :=
      [⟨1, [.v4 ⟨0x0a010000, 16, by decide⟩, .v4 ⟨0x0a010200, 24, by decide⟩]⟩]
    ∃ table, generateMaskTable prefixNets [⟨[⟨.v4 0x0a000001, 24⟩]⟩] groups [] = some table ∧
      ∀ ip other, maskedIp table ip = maskedIp table other ->
        ∀ group ∈ groups, ∀ net, IpNet.v4 net ∈ group.ips ->
          prefixNets.contains (.v4 net) (.v4 ip) = prefixNets.contains (.v4 net) (.v4 other) := by
  intro groups
  obtain ⟨table, generated⟩ : ∃ table,
      generateMaskTable prefixNets [⟨[⟨.v4 0x0a000001, 24⟩]⟩] groups [] = some table := ⟨_, rfl⟩
  refine ⟨table, generated, (sameGroups_iff lawful_prefixNets generated).mpr ?_⟩
  intro group isGroup net isNet shorter isShorter begins short
  obtain rfl := List.mem_singleton.mp isGroup
  simp only [List.mem_cons, IpNet.v4.injEq, List.not_mem_nil, or_false] at isNet
  rcases isNet with rfl | rfl
  · exact absurd short (by revert shorter; decide)
  · exact absurd short (by revert shorter; decide)

end Metaflow.AgentPolicy
