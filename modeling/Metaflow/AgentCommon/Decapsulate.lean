import Metaflow.AgentCommon.PacketUpdate

/-!
# Tunnels

`decapsulate` and `decapsulate_v6` of `common/decapsulate.rs`. `none` is a
panic: an index or a slice outside the packet, or a difference below zero.
The tier is a byte in the source; it is not raised above the limit of 2.
-/

namespace Metaflow.AgentCommon

open Library.Bytes

/-- The number of a tunnel type. -/
def TunnelType.toNat : TunnelType -> Nat
  | .none => 0
  | .vxlan => 1
  | .ipip => 2
  | .tencentGre => 3
  | .erspanOrTeb => 4

/-- A set of tunnel types. -/
structure TunnelTypeBitmap where
  word : BitVec 16

namespace TunnelTypeBitmap

def has (self : TunnelTypeBitmap) (tunnelType : TunnelType) : Bool :=
  self.word &&& ((1 : BitVec 16) <<< tunnelType.toNat) ≠ 0

def isEmpty (self : TunnelTypeBitmap) : Bool := self.word = 0

end TunnelTypeBitmap

/-- An offset from layer 3 on, 0 if nothing was unpacked, with the tunnel and
the packet as they are left. -/
structure Decapsulated where
  offset : Nat
  tunnel : TunnelInfo
  packet : List UInt8

/-- `GRE_FLAGS_VER_MASK` and the flags of the optional fields. -/
def greVersion (flags : Nat) : Nat := flags % 8

def greHasSeq (flags : Nat) : Bool := flags.testBit 12

def greHasKey (flags : Nat) : Bool := flags.testBit 13

def greHasCsum (flags : Nat) : Bool := flags.testBit 15

def calcGreOptionSize (flags : Nat) : Nat :=
  (if greHasKey flags then 4 else 0) + (if greHasSeq flags then 4 else 0) +
    (if greHasCsum flags then 4 else 0)

/-- The GRE header with its optional fields. -/
def greHeaderSize (flags : Nat) : Nat := 4 + calcGreOptionSize flags

/-- Where the key stands in a GRE header. -/
def greKeyOffset (flags : Nat) : Nat := if greHasCsum flags then 8 else 4

/-- The protocol types, with their bytes swapped as they are read. -/
def leIpv4ProtoTypeI : Nat := 0x0008

def leIpv6ProtoTypeI : Nat := 0xdd86

def leErspanProtoTypeII : Nat := 0xbe88

def leErspanProtoTypeIII : Nat := 0xeb22

def leTebProto : Nat := 0x5865

/-- The UDP ports of VXLAN, read the same way. -/
def isVxlanPort (port : Nat) : Bool :=
  port = 0xb512 || port = 0x1821 || port = 0x801a

namespace TunnelInfo

variable (self : TunnelInfo) (packet : List UInt8) (l2Len : Nat)

def decapsulateAddr (l3Packet : List UInt8) : Option TunnelInfo := do
  let src <- word l3Packet 12 4
  let dst <- word l3Packet 16 4
  some { self with src := BitVec.ofNat 32 src, dst := BitVec.ofNat 32 dst }

def decapsulateV6Addr (l3Packet : List UInt8) : Option TunnelInfo := do
  let src <- word l3Packet 20 4
  let dst <- word l3Packet 36 4
  some
    { self with
      src := BitVec.ofNat 32 src
      dst := BitVec.ofNat 32 dst
      isIpv6 := true }

def decapsulateMac : Option TunnelInfo := do
  let macSrc <- word packet 8 4
  let macDst <- word packet 2 4
  some
    { self with
      macSrc := BitVec.ofNat 32 macSrc
      macDst := BitVec.ofNat 32 macDst }

/-- Only the outermost tunnel is kept: its addresses, type and id. -/
def keepOutermost (packet l3Packet : List UInt8) (isIpv6 : Bool)
    (tunnelType : TunnelType) (readId : Option Nat) : Option TunnelInfo :=
  if self.tier = 0 then do
    let self <- if isIpv6 then self.decapsulateV6Addr l3Packet
      else self.decapsulateAddr l3Packet
    let self <- self.decapsulateMac packet
    let id <- readId
    some { self with tunnelType := tunnelType, id := BitVec.ofNat 32 id }
  else some self

/-- The end of an unpacking. -/
def unpacked (offset : Nat) : Decapsulated where
  offset := offset
  tunnel := { self with tier := self.tier + 1 }
  packet := packet

/-- Nothing is unpacked. -/
def untouched : Decapsulated where
  offset := 0
  tunnel := self
  packet := packet

/-- The UDP header is at `udpOffset` of layer 3, in front of that of VXLAN. -/
def decapsulateVxlanAt (l2Len udpOffset : Nat) (isIpv6 : Bool) : Option Decapsulated := do
  let l3Packet <- suffixFrom packet l2Len
  if l3Packet.length < 42 + 8 then some (self.untouched packet)
  else
    let dstPort <- wordLe l3Packet (udpOffset + 2) 2
    let flags <- byte l3Packet (udpOffset + 8)
    if isVxlanPort dstPort && decide (flags = 8) then
      let self <- self.keepOutermost packet l3Packet isIpv6 .vxlan
        ((word l3Packet (udpOffset + 12) 4).map (· / 256))
      some (self.unpacked packet (udpOffset + 8 + 8))
    else some (self.untouched packet)

def decapsulateVxlan : Option Decapsulated :=
  self.decapsulateVxlanAt packet l2Len 20 false

def decapsulateV6Vxlan : Option Decapsulated :=
  self.decapsulateVxlanAt packet l2Len 40 true

/-- ERSPAN III may have a subheader. -/
def erspanIIISize (flag : UInt8) : Nat :=
  if flag.toNat % 2 = 0 then 12 else 20

def decapsulateErspanIII (packet l3Packet : List UInt8) (start : Nat) : Option Decapsulated := do
  let self <- self.keepOutermost packet l3Packet false .erspanOrTeb
    ((word l3Packet start 4).map (· % 0x400))
  let flag <- byte l3Packet (start + 11)
  some (self.unpacked packet (start + erspanIIISize flag))

def decapsulateErspan (l2Len flags greProtocolType ipHeaderSize : Nat) : Option Decapsulated := do
  let l3Packet <- suffixFrom packet l2Len
  if greProtocolType = leErspanProtoTypeII then
    if flags = 0 then
      let self <- self.keepOutermost packet l3Packet false .erspanOrTeb (some self.id.toNat)
      some (self.unpacked packet (ipHeaderSize + 4))
    else
      let start := ipHeaderSize + greHeaderSize flags
      let self <- self.keepOutermost packet l3Packet false .erspanOrTeb
        ((word l3Packet start 4).map (· % 0x400))
      some (self.unpacked packet (start + 8))
  else if greProtocolType = leErspanProtoTypeIII then
    self.decapsulateErspanIII packet l3Packet (ipHeaderSize + greHeaderSize flags)
  else some (self.untouched packet)

/-- The Ethernet header that is made up for the inner packet: the key ends
both addresses. -/
def pseudoMacs (greProtocolType : Nat) (key : List UInt8) : List UInt8 :=
  [0, 0, 0, 0] ++ key.drop 2 ++ [0, 0, 0, 0] ++ key.take 2 ++
    (if greProtocolType = leIpv4ProtoTypeI then [0x08, 0x00]
      else [0x86, 0xdd])

/-- The source splits off layer 3, writes there, and the packet has changed
with it. -/
def decapsulateTencentGre (l2Len flags greProtocolType ipHeaderSize : Nat) : Option Decapsulated :=
  if 1 < greVersion flags ∨ greHasKey flags = false then
    some (self.untouched packet)
  else do
    let l3Packet <- suffixFrom packet l2Len
    let keyOffset := ipHeaderSize + greKeyOffset flags
    let self <- self.keepOutermost packet l3Packet false .tencentGre (word l3Packet keyOffset 4)
    let overlayOffset <- subSize (greHeaderSize flags + ipHeaderSize) 14
    let key <- range l3Packet keyOffset 4
    let l3Packet <- write l3Packet overlayOffset (pseudoMacs greProtocolType key)
    some (self.unpacked (packet.take l2Len ++ l3Packet) overlayOffset)

def decapsulateTeb (l2Len flags ipHeaderSize : Nat) : Option Decapsulated :=
  if greVersion flags ≠ 0 ∨ greHasKey flags = false then
    some (self.untouched packet)
  else do
    let l3Packet <- suffixFrom packet l2Len
    let self <- self.keepOutermost packet l3Packet false .erspanOrTeb
      (word l3Packet (ipHeaderSize + greKeyOffset flags) 4)
    some (self.unpacked packet (greHeaderSize flags + ipHeaderSize))

/-- The `match` on the protocol type in `decapsulate_gre`. -/
def decapsulateGreType (tunnelTypes : TunnelTypeBitmap)
    (flags greProtocolType ipHeaderSize : Nat) : Option Decapsulated :=
  if (greProtocolType = leErspanProtoTypeII ∨ greProtocolType = leErspanProtoTypeIII) ∧
      tunnelTypes.has .erspanOrTeb = true then
    self.decapsulateErspan packet l2Len flags greProtocolType ipHeaderSize
  else if (greProtocolType = leIpv4ProtoTypeI ∨ greProtocolType = leIpv6ProtoTypeI) ∧
      tunnelTypes.has .tencentGre = true then
    self.decapsulateTencentGre packet l2Len flags greProtocolType ipHeaderSize
  else if greProtocolType = leTebProto ∧ tunnelTypes.has .erspanOrTeb = true then
    self.decapsulateTeb packet l2Len flags ipHeaderSize
  else some (self.untouched packet)

/-- The size of an IPv4 header by its first byte. -/
def ipHeaderSize (first : UInt8) : Nat := first.toNat % 16 * 4

def decapsulateGre (tunnelTypes : TunnelTypeBitmap) : Option Decapsulated := do
  let l3Packet <- suffixFrom packet l2Len
  let first <- byte l3Packet 0
  let flags <- word l3Packet (ipHeaderSize first) 2
  let greProtocolType <- wordLe l3Packet (ipHeaderSize first + 2) 2
  self.decapsulateGreType packet l2Len tunnelTypes flags greProtocolType (ipHeaderSize first)

/-- The size of the outer header; options of IPv6 are not supported. -/
def underlayIpHeaderSize (l3Packet : List UInt8) (underlayIpv6 : Bool) : Option Nat :=
  if underlayIpv6 then some 40 else (byte l3Packet 0).map ipHeaderSize

/-- The type of the inner packet. -/
def overlayEthType (overlayIpv6 : Bool) : List UInt8 :=
  if overlayIpv6 then [0x86, 0xdd] else [0x08, 0x00]

/-- The outer header is overwritten: layer 2 moves in front of the inner
packet. -/
def decapsulateIpip (underlayIpv6 overlayIpv6 : Bool) : Option Decapsulated := do
  let l3Packet <- suffixFrom packet l2Len
  let headerSize <- underlayIpHeaderSize l3Packet underlayIpv6
  let self <- self.keepOutermost packet l3Packet underlayIpv6 .ipip (some 0)
  let start <- subSize (l2Len + headerSize) l2Len
  let l2Header <- range packet 0 l2Len
  let moved <- write packet start l2Header
  let typeOffset <- subSize (start + l2Len) 2
  let moved <- write moved typeOffset (overlayEthType overlayIpv6)
  let offset <- subSize start l2Len
  some (self.unpacked moved offset)

/-- IP in IP, if it is to be unpacked. -/
def decapsulateIpipIf (tunnelTypes : TunnelTypeBitmap) (underlayIpv6 overlayIpv6 : Bool) :
    Option Decapsulated :=
  if tunnelTypes.has .ipip then
    self.decapsulateIpip packet l2Len underlayIpv6 overlayIpv6
  else some (self.untouched packet)

/-- The `match` on the protocol in `decapsulate`. -/
def decapsulateProtocol (tunnelTypes : TunnelTypeBitmap) (protocol : IpProtocol) :
    Option Decapsulated :=
  match protocol with
  | .udp =>
    if tunnelTypes.has .vxlan then self.decapsulateVxlan packet l2Len
    else some (self.untouched packet)
  | .gre => self.decapsulateGre packet l2Len tunnelTypes
  | .ipv4 => self.decapsulateIpipIf packet l2Len tunnelTypes false false
  | .ipv6 => self.decapsulateIpipIf packet l2Len tunnelTypes false true
  | _ => some (self.untouched packet)

/-- The `match` on the protocol in `decapsulate_v6`. -/
def decapsulateV6Protocol
    (tunnelTypes : TunnelTypeBitmap) (protocol : IpProtocol) : Option Decapsulated :=
  match protocol with
  | .udp =>
    if tunnelTypes.has .vxlan then self.decapsulateV6Vxlan packet l2Len
    else some (self.untouched packet)
  | .ipv4 => self.decapsulateIpipIf packet l2Len tunnelTypes true false
  | .ipv6 => self.decapsulateIpipIf packet l2Len tunnelTypes true true
  | _ => some (self.untouched packet)

/-- The checks in front of the protocol, whose number is at `protoOffset` of
layer 3. The number is `TUNNEL_TIER_LIMIT`. -/
def decapsulateWith (tunnelTypes : TunnelTypeBitmap) (shortest protoOffset : Nat)
    (unpack : IpProtocol -> Option Decapsulated) : Option Decapsulated :=
  if tunnelTypes.isEmpty || decide (self.tier = 2) then
    some (self.untouched packet)
  else do
    let l3Packet <- suffixFrom packet l2Len
    if l3Packet.length < shortest then some (self.untouched packet)
    else
      let protocol <- byte l3Packet protoOffset
      unpack ((IpProtocol.tryFrom protocol).getD .unknown)

/-- The shortest packet has GRE, and ERSPAN III with its subheader. -/
def decapsulate (tunnelTypes : TunnelTypeBitmap) : Option Decapsulated :=
  self.decapsulateWith packet l2Len tunnelTypes (20 + 4 + 12 + 8) 9
    (self.decapsulateProtocol packet l2Len tunnelTypes)

def decapsulateV6 (tunnelTypes : TunnelTypeBitmap) : Option Decapsulated :=
  self.decapsulateWith packet l2Len tunnelTypes (40 + 4 + 12 + 8) 6
    (self.decapsulateV6Protocol packet l2Len tunnelTypes)

end TunnelInfo
end Metaflow.AgentCommon
