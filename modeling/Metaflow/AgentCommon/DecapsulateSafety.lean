import Metaflow.AgentCommon.Decapsulate

/-!
# When tunnels are unpacked inside the packet

The exact condition on a packet under which `decapsulate` and `decapsulate_v6`
do not panic and give an offset inside it.
-/

namespace Metaflow.AgentCommon

open Library
open Library.Bytes

/-- An unpacking that returns, with an offset inside the packet. -/
def IsSafe (packet : List UInt8) (l2Len : Nat) (outcome : Option Decapsulated) : Prop :=
  ∃ result, outcome = some result ∧ (result.offset ≠ 0 -> l2Len + result.offset ≤ packet.length)

namespace TunnelInfo

section Safety

variable {self : TunnelInfo} {packet l3Packet : List UInt8} {l2Len : Nat}

theorem isSafe_untouched : IsSafe packet l2Len (some (self.untouched packet)) :=
  ⟨_, rfl, fun offset => absurd rfl offset⟩

theorem isSafe_unpacked_iff :
    IsSafe packet l2Len (some (self.unpacked left offset)) ↔
      (offset ≠ 0 -> l2Len + offset ≤ packet.length) := by
  constructor
  · rintro ⟨_, ⟨⟩, inside⟩
    exact inside
  · intro inside
    exact ⟨_, rfl, inside⟩

theorem not_isSafe_none : ¬ IsSafe packet l2Len none := by
  rintro ⟨_, ⟨⟩, -⟩

section Guards

variable {condition : Prop} {_ : Decidable condition}

theorem isSafe_guard : IsSafe packet l2Len (if condition then rest else none) ↔
      condition ∧ IsSafe packet l2Len rest := by
  split <;> simp_all [not_isSafe_none]

theorem isSafe_return :
    IsSafe packet l2Len (if condition then some (self.untouched packet) else rest) ↔
      condition ∨ IsSafe packet l2Len rest := by
  split <;> simp_all [isSafe_untouched]

end Guards

variable {isIpv6 : Bool} {readId : Option Nat} {tunnelTypes : TunnelTypeBitmap}

variable {tunnelType : TunnelType}

theorem keepOutermost_isSome_iff (macs : 12 ≤ packet.length) (addresses : 20 ≤ l3Packet.length)
    (addresses6 : isIpv6 = true -> 40 ≤ l3Packet.length) :
    (self.keepOutermost packet l3Packet isIpv6 tunnelType readId).isSome ↔
      (self.tier = 0 -> readId.isSome) := by
  by_cases outermost : self.tier = 0
  · simp only [keepOutermost, outermost, decapsulateMac, decapsulateAddr, decapsulateV6Addr,
      if_true,
      Option.bind_eq_bind, true_implies, word_of_le (show 8 + 4 ≤ packet.length by omega),
      word_of_le (show 2 + 4 ≤ packet.length by omega), Option.bind_some]
    cases isIpv6 with
    | false =>
      rw [if_neg Bool.false_ne_true, word_of_le (by omega), word_of_le (by omega)]
      simp only [Option.bind_some]
      exact isSome_bind_of_forall fun _ => rfl
    | true =>
      have long := addresses6 rfl
      rw [if_pos rfl, word_of_le (by omega), word_of_le (by omega)]
      simp only [Option.bind_some]
      exact isSome_bind_of_forall fun _ => rfl
  · simp [keepOutermost, outermost]

/-- Whether an unpacking is safe does not depend on the tunnel kept. -/
theorem isSafe_keep_iff
    (inside : l2Len + 44 ≤ packet.length) (inside6 : isIpv6 = true -> l2Len + 40 ≤ packet.length)
    (same : ∀ kept, IsSafe packet l2Len (next kept) ↔ condition) : IsSafe packet l2Len
      (self.keepOutermost packet (packet.drop l2Len) isIpv6 tunnelType readId >>= next) ↔
    (self.tier = 0 -> readId.isSome) ∧ condition := by
  have length := @List.length_drop _ l2Len packet
  rw [← @keepOutermost_isSome_iff self packet (packet.drop l2Len) isIpv6 readId tunnelType
    (by omega) (by omega) (fun over6 => by have long := inside6 over6; omega)]
  cases self.keepOutermost packet (packet.drop l2Len) isIpv6 tunnelType readId with
  | none => simp [not_isSafe_none]
  | some kept => simpa using same kept

theorem decapsulateVxlanAt_isSafe (inside : l2Len ≤ packet.length)
    (long : l2Len + 50 ≤ packet.length -> l2Len + udpOffset + 16 ≤ packet.length)
    (header6 : isIpv6 = true -> 40 ≤ udpOffset) :
    IsSafe packet l2Len (self.decapsulateVxlanAt packet l2Len udpOffset isIpv6) := by
  have length := @List.length_drop _ l2Len packet
  simp only [decapsulateVxlanAt, suffixFrom_of_le inside, byte_eq, wordLe_eq, word_eq,
    bind_guard, some_bind]
  rw [isSafe_return]
  by_cases short : (packet.drop l2Len).length < 42 + 8
  · exact Or.inl short
  refine Or.inr (isSafe_guard.mpr ⟨by omega, isSafe_guard.mpr ⟨by omega, ?_⟩⟩)
  split
  · rw [isSafe_keep_iff (by omega) (fun over6 => by have udp := header6 over6; omega) fun _ =>
      isSafe_unpacked_iff, if_pos (by omega)]
    exact ⟨fun _ => rfl, by omega⟩
  · exact isSafe_untouched

/-- An ERSPAN header is inside the packet. Type I has none. -/
def ErspanFits (l3Packet : List UInt8) (flags greProtocolType ipHeaderSize : Nat) : Prop :=
  let start := ipHeaderSize + greHeaderSize flags
  if greProtocolType = leErspanProtoTypeII then
    flags ≠ 0 -> start + 8 ≤ l3Packet.length
  else
    start + erspanIIISize (byteAt l3Packet (start + 11)) ≤ l3Packet.length

/-- The made-up Ethernet header fits in front of the inner packet, and the GRE
header is inside. -/
def TencentFits (l3Packet : List UInt8) (flags ipHeaderSize : Nat) : Prop :=
  greVersion flags ≤ 1 -> greHasKey flags = true ->
    14 ≤ greHeaderSize flags + ipHeaderSize ∧ greHeaderSize flags + ipHeaderSize ≤ l3Packet.length

def TebFits (l3Packet : List UInt8) (flags ipHeaderSize : Nat) : Prop :=
  greVersion flags = 0 -> greHasKey flags = true ->
    greHeaderSize flags + ipHeaderSize ≤ l3Packet.length

/-- The condition of the protocol type, if its tunnels are unpacked. -/
def GreTypeFits (l3Packet : List UInt8) (tunnelTypes : TunnelTypeBitmap)
    (flags greProtocolType ipHeaderSize : Nat) : Prop :=
  if (greProtocolType = leErspanProtoTypeII ∨ greProtocolType = leErspanProtoTypeIII) ∧
      tunnelTypes.has .erspanOrTeb = true then
    ErspanFits l3Packet flags greProtocolType ipHeaderSize
  else if (greProtocolType = leIpv4ProtoTypeI ∨ greProtocolType = leIpv6ProtoTypeI) ∧
      tunnelTypes.has .tencentGre = true then
    TencentFits l3Packet flags ipHeaderSize
  else if greProtocolType = leTebProto ∧ tunnelTypes.has .erspanOrTeb = true then
    TebFits l3Packet flags ipHeaderSize
  else True

/-- The options of the IP header, the fixed part of the GRE header and what
follows are inside. -/
def GreFits (l3Packet : List UInt8) (tunnelTypes : TunnelTypeBitmap) : Prop :=
  let headerSize := ipHeaderSize (byteAt l3Packet 0)
  headerSize + 4 ≤ l3Packet.length ∧
  GreTypeFits l3Packet tunnelTypes (wordAt l3Packet headerSize 2)
    (Library.littleEndian (window l3Packet (headerSize + 2) 2)) headerSize

section Gre

theorem erspanIIISize_bounds (flag : UInt8) : 12 ≤ erspanIIISize flag := by
  rw [erspanIIISize]
  split <;> decide

theorem greHeaderSize_bounds (flags : Nat) : 4 ≤ greHeaderSize flags ∧
      (greHasKey flags = true -> greKeyOffset flags + 4 ≤ greHeaderSize flags) := by
  rw [greHeaderSize, calcGreOptionSize, greKeyOffset]
  refine ⟨Nat.le_add_right .., fun hasKey => ?_⟩
  rw [if_pos hasKey]
  split_ifs <;> omega

theorem length_pseudoMacs (greProtocolType : Nat) (isKey : key.length = 4) :
    (pseudoMacs greProtocolType key).length = 14 := by
  have type : (if greProtocolType = leIpv4ProtoTypeI then [0x08, 0x00]
      else ([0x86, 0xdd] : List UInt8)).length = 2 := by
    split <;> rfl
  rw [pseudoMacs]
  simp only [List.length_append, List.length_drop, List.length_take, type, isKey]
  rfl

variable (inside : l2Len + 44 ≤ packet.length)
include inside

theorem suffixFrom_eq : suffixFrom packet l2Len = some (packet.drop l2Len) :=
  suffixFrom_of_le (by omega)

theorem decapsulateErspanIII_isSafe_iff :
    IsSafe packet l2Len (self.decapsulateErspanIII packet (packet.drop l2Len) start) ↔
    start + erspanIIISize (byteAt (packet.drop l2Len) (start + 11)) ≤
      (packet.drop l2Len).length := by
  have length := @List.length_drop _ l2Len packet
  have size := erspanIIISize_bounds (byteAt (packet.drop l2Len) (start + 11))
  simp only [decapsulateErspanIII, byte_eq, bind_guard, some_bind]
  rw [isSafe_keep_iff inside (by simp) fun _ =>
    isSafe_guard.trans (and_congr_right' isSafe_unpacked_iff)]
  simp only [word_eq, Option.isSome_map, isSome_guard, Option.isSome_some, and_true]
  omega

theorem decapsulateErspan_isSafe_iff (header : headerSize + 4 ≤ (packet.drop l2Len).length)
    (isErspan : greProtocolType = leErspanProtoTypeII ∨ greProtocolType = leErspanProtoTypeIII) :
    IsSafe packet l2Len (self.decapsulateErspan packet l2Len flags greProtocolType headerSize) ↔
    ErspanFits (packet.drop l2Len) flags greProtocolType headerSize := by
  have length := @List.length_drop _ l2Len packet
  simp only [decapsulateErspan, suffixFrom_eq inside, some_bind, ErspanFits]
  split_ifs with second none third
  · rw [isSafe_keep_iff inside (by simp) fun _ => isSafe_unpacked_iff]
    exact iff_of_true ⟨fun _ => rfl, by omega⟩ fun flagged => absurd none flagged
  · rw [isSafe_keep_iff inside (by simp) fun _ => isSafe_unpacked_iff]
    simp only [word_eq, Option.isSome_map, isSome_guard, Option.isSome_some, and_true]
    omega
  · exact decapsulateErspanIII_isSafe_iff inside
  · exact absurd (isErspan.resolve_left second) third

theorem decapsulateTencentGre_isSafe_iff :
    IsSafe packet l2Len (self.decapsulateTencentGre packet l2Len flags greProtocolType headerSize) ↔
    TencentFits (packet.drop l2Len) flags headerSize := by
  have length := @List.length_drop _ l2Len packet
  have bounds := greHeaderSize_bounds flags
  simp only [decapsulateTencentGre, TencentFits, suffixFrom_eq inside,
    subSize, range, write, bind_guard, some_bind]
  rw [isSafe_return, isSafe_keep_iff inside (by simp) fun _ => by
    simp only [isSafe_guard, isSafe_unpacked_iff]
    exact Iff.rfl]
  simp only [word_eq, isSome_guard, Option.isSome_some, and_true]
  cases hasKey : greHasKey flags with
  | false => simp
  | true =>
    have keyInside := bounds.2 hasKey
    simp only [Bool.true_eq_false, or_false, true_implies]
    by_cases key : headerSize + greKeyOffset flags + 4 ≤ (packet.drop l2Len).length
    · rw [length_pseudoMacs greProtocolType (length_of_range (range_of_le key))]
      omega
    · omega

theorem decapsulateTeb_isSafe_iff :
    IsSafe packet l2Len (self.decapsulateTeb packet l2Len flags headerSize) ↔
    TebFits (packet.drop l2Len) flags headerSize := by
  have length := @List.length_drop _ l2Len packet
  have bounds := greHeaderSize_bounds flags
  simp only [decapsulateTeb, TebFits, suffixFrom_eq inside, some_bind]
  rw [isSafe_return, isSafe_keep_iff inside (by simp) fun _ => isSafe_unpacked_iff]
  simp only [word_eq, isSome_guard, Option.isSome_some, and_true]
  cases hasKey : greHasKey flags with
  | false => simp
  | true =>
    have keyInside := bounds.2 hasKey
    simp only [Bool.true_eq_false, or_false, true_implies]
    omega

theorem decapsulateGre_isSafe_iff (tunnelTypes : TunnelTypeBitmap) :
    IsSafe packet l2Len (self.decapsulateGre packet l2Len tunnelTypes) ↔
      GreFits (packet.drop l2Len) tunnelTypes := by
  have length := @List.length_drop _ l2Len packet
  simp only [decapsulateGre, GreFits, suffixFrom_eq inside,
    byte_of_lt (show 0 < (packet.drop l2Len).length by omega), word_eq, wordLe_eq,
    bind_guard, some_bind, isSafe_guard]
  generalize ipHeaderSize (byteAt (packet.drop l2Len) 0) = headerSize
  have fixed : headerSize + 2 ≤ (packet.drop l2Len).length ∧
      headerSize + 2 + 2 ≤ (packet.drop l2Len).length ↔
        headerSize + 4 ≤ (packet.drop l2Len).length := by omega
  rw [← and_assoc, fixed]
  refine and_congr_right fun header => ?_
  rw [decapsulateGreType, GreTypeFits]
  split_ifs with erspan tencent teb
  · exact decapsulateErspan_isSafe_iff inside header erspan.1
  · exact decapsulateTencentGre_isSafe_iff inside
  · exact decapsulateTeb_isSafe_iff inside
  · exact iff_of_true isSafe_untouched trivial

end Gre

/-- Layer 2 is not longer than the outer header, and moves inside. -/
def IpipFits (packet : List UInt8) (l2Len headerSize : Nat) : Prop :=
  l2Len ≤ headerSize ∧ 2 ≤ l2Len + headerSize ∧ l2Len + headerSize ≤ packet.length

section Ipip

variable (inside : l2Len + 44 ≤ packet.length)
  (inside6 : underlayIpv6 = true -> l2Len + 64 ≤ packet.length)
  (isSize : underlayIpHeaderSize (packet.drop l2Len) underlayIpv6 = some headerSize)
include inside inside6 isSize

theorem decapsulateIpip_isSafe_iff :
    IsSafe packet l2Len (self.decapsulateIpip packet l2Len underlayIpv6 overlayIpv6) ↔
    IpipFits packet l2Len headerSize := by
  have length := @List.length_drop _ l2Len packet
  have headerLength : (window packet 0 l2Len).length = l2Len :=
    length_of_range (range_of_le (show 0 + l2Len ≤ packet.length by omega))
  have typeLength : (overlayEthType overlayIpv6).length = 2 := by
    cases overlayIpv6 <;> rfl
  simp only [decapsulateIpip, suffixFrom_eq inside, isSize,
    subSize, range, write, bind_guard, some_bind]
  rw [isSafe_keep_iff inside (fun over6 => by have long := inside6 over6; omega) fun _ => by
    simp only [isSafe_guard, isSafe_unpacked_iff]
    exact Iff.rfl]
  simp only [headerLength, typeLength, List.length_append, List.length_take, List.length_drop,
    IpipFits,
    Option.isSome_some, implies_true, true_and]
  omega

theorem decapsulateIpipIf_isSafe_iff (tunnelTypes : TunnelTypeBitmap) :
    IsSafe packet l2Len (self.decapsulateIpipIf packet l2Len tunnelTypes underlayIpv6 overlayIpv6) ↔
    (tunnelTypes.has .ipip = true -> IpipFits packet l2Len headerSize) := by
  rw [decapsulateIpipIf]
  split_ifs with enabled
  · simp only [enabled, true_implies]
    exact decapsulateIpip_isSafe_iff inside inside6 isSize
  · exact iff_of_true isSafe_untouched (fun has => absurd has enabled)

end Ipip

/-- The condition of a protocol over IPv4, if its tunnels are unpacked. -/
def ProtocolFits (packet : List UInt8) (l2Len : Nat)
    (tunnelTypes : TunnelTypeBitmap) : IpProtocol -> Prop
  | .gre => GreFits (packet.drop l2Len) tunnelTypes
  | .ipv4 | .ipv6 =>
    tunnelTypes.has .ipip = true -> IpipFits packet l2Len (ipHeaderSize (byteAt packet l2Len))
  | _ => True

/-- The same over IPv6, whose header has a fixed size. -/
def V6ProtocolFits (packet : List UInt8) (l2Len : Nat)
    (tunnelTypes : TunnelTypeBitmap) : IpProtocol -> Prop
  | .ipv4 | .ipv6 => tunnelTypes.has .ipip = true -> IpipFits packet l2Len 40
  | _ => True

/-- The protocol at an offset behind layer 2. -/
def protocolAt (packet : List UInt8) (offset : Nat) : IpProtocol :=
  (IpProtocol.tryFrom (byteAt packet offset)).getD .unknown

theorem byteAt_drop (offset : Nat) :
    byteAt (packet.drop l2Len) offset = byteAt packet (l2Len + offset) := by
  rw [byteAt, byteAt, List.getD_eq_getElem?_getD, List.getElem?_drop, List.getD_eq_getElem?_getD]

section

variable (tunnelTypes : TunnelTypeBitmap)

variable (protocol : IpProtocol)

theorem decapsulateProtocol_isSafe_iff (inside : l2Len + 44 ≤ packet.length) :
    IsSafe packet l2Len (self.decapsulateProtocol packet l2Len tunnelTypes protocol) ↔
    ProtocolFits packet l2Len tunnelTypes protocol := by
  have size : underlayIpHeaderSize (packet.drop l2Len) false =
      some (ipHeaderSize (byteAt packet l2Len)) := by
    have first : 0 < (packet.drop l2Len).length := by
      rw [List.length_drop]
      omega
    rw [underlayIpHeaderSize, if_neg Bool.false_ne_true, byte_of_lt first, byteAt_drop]
    rfl
  cases protocol with
  | udp =>
    refine iff_of_true ?_ trivial
    rw [decapsulateProtocol]
    split_ifs
    · exact decapsulateVxlanAt_isSafe (by omega) (by omega) (by simp)
    · exact isSafe_untouched
  | gre => exact decapsulateGre_isSafe_iff inside tunnelTypes
  | ipv4 | ipv6 => exact decapsulateIpipIf_isSafe_iff inside (by simp) size tunnelTypes
  | _ => exact iff_of_true isSafe_untouched trivial

theorem decapsulateV6Protocol_isSafe_iff (inside : l2Len + 64 ≤ packet.length) :
    IsSafe packet l2Len (self.decapsulateV6Protocol packet l2Len tunnelTypes protocol) ↔
    V6ProtocolFits packet l2Len tunnelTypes protocol := by
  cases protocol with
  | udp =>
    refine iff_of_true ?_ trivial
    rw [decapsulateV6Protocol]
    split_ifs
    · exact decapsulateVxlanAt_isSafe (by omega) (by omega) (by simp)
    · exact isSafe_untouched
  | ipv4 | ipv6 => exact decapsulateIpipIf_isSafe_iff (by omega) (fun _ => inside) rfl tunnelTypes
  | _ => exact iff_of_true isSafe_untouched trivial

end

/-- The packets that `decapsulate` unpacks inside, or leaves alone. -/
def Fits (self : TunnelInfo) (packet : List UInt8) (l2Len : Nat)
    (tunnelTypes : TunnelTypeBitmap) : Prop :=
  tunnelTypes.isEmpty = true ∨ self.tier = 2 ∨
  packet.length < l2Len + 44 ∨
  ProtocolFits packet l2Len tunnelTypes (protocolAt packet (l2Len + 9))

/-- The packets that `decapsulate_v6` unpacks inside, or leaves alone. -/
def V6Fits (self : TunnelInfo) (packet : List UInt8) (l2Len : Nat)
    (tunnelTypes : TunnelTypeBitmap) : Prop :=
  tunnelTypes.isEmpty = true ∨ self.tier = 2 ∨
  packet.length < l2Len + 64 ∨
  V6ProtocolFits packet l2Len tunnelTypes (protocolAt packet (l2Len + 6))

theorem decapsulateWith_isSafe_iff {fits : IpProtocol -> Prop}
    (inside : l2Len ≤ packet.length) (proto : protoOffset < shortest)
    (unpacks : ∀ protocol, l2Len + shortest ≤ packet.length ->
      (IsSafe packet l2Len (unpack protocol) ↔ fits protocol)) :
    IsSafe packet l2Len (self.decapsulateWith packet l2Len tunnelTypes
      shortest protoOffset unpack) ↔
    (tunnelTypes.isEmpty = true ∨ self.tier = 2 ∨ packet.length < l2Len + shortest ∨
      fits (protocolAt packet (l2Len + protoOffset))) := by
  have length := @List.length_drop _ l2Len packet
  rw [decapsulateWith]
  by_cases none : tunnelTypes.isEmpty = true ∨ self.tier = 2
  · rw [if_pos (by simpa using none)]
    exact iff_of_true isSafe_untouched (none.imp_right Or.inl)
  · obtain ⟨some, below⟩ := not_or.mp none
    rw [if_neg (by simpa using none), suffixFrom_of_le inside]
    simp only [some_bind, some, below, Bool.false_eq_true, false_or]
    by_cases short : packet.length < l2Len + shortest
    · rw [if_pos (by omega)]
      exact iff_of_true isSafe_untouched (Or.inl short)
    · rw [if_neg (by omega), byte_of_lt (by omega), some_bind, unpacks _ (by omega), byteAt_drop]
      simp only [short, false_or, protocolAt]

/-- Both unpackings return with an offset inside the packet on exactly the
packets that fit. -/
theorem decapsulate_safe_iff (self : TunnelInfo) (packet : List UInt8) (l2Len : Nat)
    (inside : l2Len ≤ packet.length) (tunnelTypes : TunnelTypeBitmap) :
    (IsSafe packet l2Len (self.decapsulate packet l2Len tunnelTypes) ↔
      self.Fits packet l2Len tunnelTypes) ∧
    (IsSafe packet l2Len (self.decapsulateV6 packet l2Len tunnelTypes) ↔
      self.V6Fits packet l2Len tunnelTypes) :=
  ⟨decapsulateWith_isSafe_iff inside (by decide) fun protocol =>
      decapsulateProtocol_isSafe_iff tunnelTypes protocol,
    decapsulateWith_isSafe_iff inside (by decide) fun protocol =>
      decapsulateV6Protocol_isSafe_iff tunnelTypes protocol⟩

/-- A packet of IP in IP over Ethernet is unpacked. -/
theorem decapsulate_safe_ipip :
    let packet : List UInt8 := List.replicate 14 0 ++ [0x45] ++
      List.replicate 8 0 ++ [4] ++ List.replicate 50 0
    let tunnelTypes : TunnelTypeBitmap := ⟨0b100⟩
    14 ≤ packet.length ∧
    IsSafe packet 14 (({} : TunnelInfo).decapsulate packet 14 tunnelTypes) := by
  intro packet tunnelTypes
  have inside : 14 ≤ packet.length := by decide
  refine ⟨inside, (decapsulate_safe_iff {} packet 14 inside tunnelTypes).1.mpr ?_⟩
  have proto : protocolAt packet (14 + 9) = .ipv4 := by decide
  refine Or.inr (Or.inr (Or.inr ?_))
  rw [proto]
  exact fun _ => ⟨by decide, by decide, by decide⟩

/-- Packets that do not fit: IP in IP behind two tags, and GRE behind an IP
header whose options are cut off. -/
theorem decapsulate_panics :
    (({} : TunnelInfo).decapsulate
      (List.replicate 22 0 ++ [0x45] ++ List.replicate 8 0 ++ [4] ++
        List.replicate 50 0) 22 ⟨0b100⟩).isNone ∧
    (({} : TunnelInfo).decapsulate
      (List.replicate 14 0 ++ [0x4f] ++ List.replicate 8 0 ++ [47] ++
        List.replicate 40 0) 14 ⟨0b1000⟩).isNone ∧
    (({} : TunnelInfo).decapsulateV6
      (List.replicate 48 0 ++ [0x60] ++ List.replicate 5 0 ++ [4] ++
        List.replicate 60 0) 48 ⟨0b100⟩).isNone := by
  decide

end Safety

end TunnelInfo
end Metaflow.AgentCommon
