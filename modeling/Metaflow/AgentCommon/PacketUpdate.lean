import Metaflow.Library.Bytes
import Metaflow.AgentCommon.MetaPacket

/-!
# The packet parser

`MetaPacket::update` of `common/meta_packet.rs`. `none` is a panic: an index
outside the packet, a difference below zero, or an unreachable place. An error
leaves the packet as far as it has been filled in. Where the source lets
`size_checker` go below zero and returns, the model compares first. Offsets do
not wrap: one outside the machine range is outside the packet.
-/

namespace Metaflow.AgentCommon

open Library.Bytes
open Library (bigEndian)
open AgentPolicy (IpAddr)

/-- `EthernetType::try_from`, where every other number is unknown. -/
def EthernetType.ofU16 : Nat -> EthernetType
  | 0 => .llc
  | 0x0800 => .ipv4
  | 0x0806 => .arp
  | 0x86dd => .ipv6
  | 0x2000 => .ciscoDiscovery
  | 0x01a2 => .nortelDiscovery
  | 0x6558 => .transparentEthernetBridging
  | 0x8100 => .dot1Q
  | 0x880b => .ppp
  | 0x8863 => .pppoeDiscovery
  | 0x8864 => .pppoeSession
  | 0x8847 => .mplsUnicast
  | 0x8848 => .mplsMulticast
  | 0x888e => .eapol
  | 0x88a8 => .qinQ
  | 0x88cc => .linkLayerDiscovery
  | 0x9000 => .ethernetCtp
  | _ => .unknown

/-- `IpProtocol::try_from` -/
def IpProtocol.tryFrom (byte : UInt8) : Option IpProtocol :=
  match byte.toNat with
  | 0 => some .ipv6HopByHop
  | 1 => some .icmpv4
  | 2 => some .igmp
  | 4 => some .ipv4
  | 6 => some .tcp
  | 17 => some .udp
  | 27 => some .rudp
  | 41 => some .ipv6
  | 43 => some .ipv6Routing
  | 44 => some .ipv6Fragment
  | 47 => some .gre
  | 50 => some .esp
  | 51 => some .ah
  | 58 => some .icmpv6
  | 59 => some .noNextHeader
  | 60 => some .ipv6Destination
  | 89 => some .ospf
  | 94 => some .ipip
  | 97 => some .etherIp
  | 112 => some .vrrp
  | 132 => some .sstp
  | 136 => some .udpLite
  | 137 => some .mplsInIp
  | 255 => some .unknown
  | _ => none

namespace HeaderType

/-- The source has no size for an invalid header. -/
def minPacketSize : HeaderType -> Option Nat
  | invalid => none
  | eth => some 14
  | arp => some 42
  | ipv4 => some 34
  | ipv4Icmp => some 42
  | ipv6 => some 34
  | ipv4Tcp => some 54
  | ipv4Udp => some 42
  | ipv6Tcp => some 54
  | ipv6Udp => some 42

end HeaderType

/-- `is_unicast_link_local` -/
def isUnicastLinkLocal (address : BitVec 128) : Bool :=
  (address >>> 112) &&& 0xffc0 = 0xfe80

/-- A difference of sizes. -/
def subSize (left right : Nat) : Option Nat :=
  if right ≤ left then some (left - right) else none

namespace MetaPacket

def empty : MetaPacket where
  offsetMac0 := 6
  offsetMac1 := 0
  offsetIp0 := 26
  offsetIp1 := 30
  offsetPort0 := 34
  offsetPort1 := 36

/-- The answer of `update`, and the packet that it leaves. -/
abbrev Updated := Except String Unit × MetaPacket

def packetTruncated : String := "packet truncated"

/-- The error of a protocol number without a name. -/
def unknownProtocol (byte : UInt8) : String :=
  "parse ip_protocol failed: No discriminant in enum `IpProtocol` matches " ++
    "the value `" ++ toString byte ++ "`"

/-- The options that `update_tcp_opt` tells apart. -/
inductive TcpOptionNumber where
  | eol
  | nop
  | mss
  | wscale
  | sackPermitted
  | sack
  | other

def TcpOptionNumber.new (byte : UInt8) : TcpOptionNumber :=
  match byte.toNat with
  | 0 => .eol
  | 1 => .nop
  | 2 => .mss
  | 3 => .wscale
  | 4 => .sackPermitted
  | 5 => .sack
  | _ => .other

/-- How a round over the options ends. -/
inductive OptionRound where
  | returns
  | goesOn (self : MetaPacket) (offset : Nat)

/-- The option of the segment size, flag `TCP_OPT_FLAG_MSS`. -/
def readMss (self : MetaPacket) (packet : List UInt8) (offset : Nat) : Option OptionRound := do
  let mss <- word packet (offset + 2) 2
  some (.goesOn
    { self with
      tcpOptMssOffset := offset + 2
      tcpOptionsFlag := self.tcpOptionsFlag ||| 0b10
      tcpData := { self.tcpData with mss := BitVec.ofNat 16 mss } }
    (offset + 4))

/-- The option of the window scale, flag `TCP_OPT_FLAG_WIN_SCALE`. -/
def readWinScale (self : MetaPacket) (packet : List UInt8) (offset : Nat) : Option OptionRound := do
  let winScale <- byte packet (offset + 2)
  some (.goesOn
    { self with
      tcpOptWinScaleOffset := offset + 2
      tcpOptionsFlag := self.tcpOptionsFlag ||| 0b1
      tcpData := { self.tcpData with winScale := winScale.toBitVec } }
    (offset + 3))

def readSack (self : MetaPacket) (packet : List UInt8)
    (offset assumeLength : Nat) : Option OptionRound := do
  let sack <- range packet (offset + 2) (assumeLength - 2)
  some (.goesOn
    { self with
      tcpOptSackOffset := offset + 2
      tcpOptionsFlag :=
        self.tcpOptionsFlag ||| BitVec.ofNat 8 (assumeLength - 2)
      tcpData := { self.tcpData with sack := some sack } }
    (offset + assumeLength))

/-- The length of an option that says its own. -/
def assumeLength (length : UInt8) : Nat :=
  max length.toNat 2

/-- One round of the loop in `update_tcp_opt`; the options end at `stop`. -/
def readTcpOption (self : MetaPacket) (packet : List UInt8)
    (stop offset : Nat) : Option OptionRound := do
  let length <- byte packet (offset + 1)
  let kind <- byte packet offset
  match TcpOptionNumber.new kind with
  | .eol => some .returns
  | .nop => some (.goesOn self (offset + 1))
  | .mss =>
    if stop < offset + 4 then some .returns
    else readMss self packet offset
  | .wscale =>
    if stop < offset + 3 then some .returns
    else readWinScale self packet offset
  | .sackPermitted =>
    some (.goesOn
      { self with
        tcpOptionsFlag := self.tcpOptionsFlag ||| 0b100
        tcpData := { self.tcpData with sackPermitted := true } }
      (offset + 2))
  | .sack =>
    if stop < offset + assumeLength length then some .returns
    else if 32 < assumeLength length - 2 then some .returns
    else readSack self packet offset (assumeLength length)
  | .other => some (.goesOn self (offset + assumeLength length))

/-- The rounds of `update_tcp_opt`. -/
def readTcpOptions (packet : List UInt8) (stop : Nat) :
    (fuel : Nat) -> (offset : Nat) -> MetaPacket -> Option MetaPacket
  | 0, offset, self => if offset + 1 < stop then none else some self
  | fuel + 1, offset, self =>
    if offset + 1 < stop then
      match readTcpOption self packet stop offset with
      | none => none
      | some .returns => some self
      | some (.goesOn self offset) => readTcpOptions packet stop fuel offset self
    else some self

variable (self : MetaPacket) (packet : List UInt8) (dstEndpoint : Bool)

def updateTcpOpt : Option MetaPacket := do
  let size <- self.headerType.minPacketSize
  let offset := size + self.l2L3OptSize
  let payloadOffset := offset + self.l4OptSize
  readTcpOptions packet payloadOffset payloadOffset offset self

/-- The state of the loop in `update_ip6_opt`. -/
structure Ip6Options where
  nextHeader : UInt8
  optionOffset : Nat
  sizeChecker : Nat
  lastOption : Nat
  fragmentOption : Nat

/-- How a round over the extension headers ends. -/
inductive Ip6Round where
  | breaks
  | returns (options : Ip6Options)
  | goesOn (options : Ip6Options)

def readAuthentication (options : Ip6Options) : Option Ip6Round :=
  if options.sizeChecker < 2 then some .breaks
  else do
    let nextHeader <- byte packet options.optionOffset
    let units <- byte packet (options.optionOffset + 1)
    let length := (units.toNat + 2) * 4
    if options.sizeChecker < length then some .breaks
    else
      some (.goesOn
        { nextHeader := nextHeader
          optionOffset := options.optionOffset + length
          sizeChecker := options.sizeChecker - length
          lastOption := options.optionOffset
          fragmentOption := options.fragmentOption })

def readExtension (options : Ip6Options) : Option Ip6Round :=
  if options.sizeChecker < 8 then some .breaks
  else do
    let nextHeader <- byte packet options.optionOffset
    let units <- byte packet (options.optionOffset + 1)
    let length := units.toNat
    if options.sizeChecker - 8 < length * 8 then some .breaks
    else
      some (.goesOn
        { nextHeader := nextHeader
          optionOffset := options.optionOffset + (length * 8 + 8)
          sizeChecker := options.sizeChecker - 8 - length * 8
          lastOption := options.optionOffset
          fragmentOption := options.fragmentOption })

def readFragment (options : Ip6Options) : Option Ip6Round :=
  if options.sizeChecker < 8 then some .breaks
  else do
    let nextHeader <- byte packet options.optionOffset
    some (.goesOn
      { nextHeader := nextHeader
        optionOffset := options.optionOffset + 8
        sizeChecker := options.sizeChecker - 8
        lastOption := options.optionOffset
        fragmentOption := options.optionOffset })

/-- One round of the loop in `update_ip6_opt`. -/
def readIp6Option (options : Ip6Options) : Option Ip6Round :=
  match IpProtocol.tryFrom options.nextHeader with
  | some .ah => readAuthentication packet options
  | some .ipv6Destination => readExtension packet options
  | some .ipv6HopByHop => readExtension packet options
  | some .ipv6Routing => readExtension packet options
  | some .ipv6Fragment => readFragment packet options
  | some .icmpv6 => some (.returns { options with lastOption := options.optionOffset })
  | some .esp =>
    some (.returns
      { options with
        lastOption := options.optionOffset
        optionOffset := options.optionOffset + options.sizeChecker })
  | _ => some (.returns options)

/-- The rounds of `update_ip6_opt`; `some none` is a way out of the loop by
`break`. -/
def readIp6Options (packet : List UInt8) : (fuel : Nat) -> Ip6Options -> Option (Option Ip6Options)
  | 0, _ => none
  | fuel + 1, options =>
    match readIp6Option packet options with
    | none => none
    | some .breaks => some none
    | some (.returns options) => some (some options)
    | some (.goesOn options) => readIp6Options packet fuel options

/-- What `update_ip6_opt` finds. -/
structure Ip6Scan where
  /-- The first header, which the packet keeps. -/
  firstHeader : UInt8
  nextHeader : UInt8
  optionsLength : Nat
  lastOption : Nat
  fragmentOption : Nat

/-- `update_ip6_opt` on a packet without offsets of options. -/
def updateIp6Opt (l2OptSize : Nat) : Option Ip6Scan := do
  let firstHeader <- byte packet (20 + l2OptSize)
  let originalOffset := 54 + l2OptSize
  let sizeChecker <- subSize packet.length originalOffset
  let outcome <- readIp6Options packet (packet.length + 1)
    ⟨firstHeader, originalOffset, sizeChecker, 0, 0⟩
  match outcome with
  | none => some ⟨firstHeader, firstHeader, 0, 0, 0⟩
  | some options =>
    some
      ⟨firstHeader, options.nextHeader, options.optionOffset - originalOffset, options.lastOption,
        options.fragmentOption⟩

/-- The length behind the headers: `self.packet_len - (packet.len() -
size_checker as usize)`. -/
def payloadSize (sizeChecker : Nat) : Option Nat := do
  let headers <- subSize packet.length sizeChecker
  subSize self.packetLen headers

/-- A wrong length is raised to that of the shortest packet. -/
def raisePacketLen (shortest : Nat) : MetaPacket :=
  { self with packetLen := max self.packetLen shortest }

def setPayloadLen (length : Nat) : MetaPacket :=
  { self with payloadLen := length % 0x10000 }

/-- What TCP and UDP have in common. -/
def setTransport (payload : Nat) (headerType : HeaderType) : MetaPacket :=
  { self.setPayloadLen payload with
    l4PayloadLen := payload
    headerType := headerType }

/-- The end of `update` for TCP and UDP, whose header types pass its test: the
ports, and the original length if the packet is more than `PACKET_MAX_PADDING`
shorter. -/
def updatePorts (originalLength : Nat) : Option Updated := do
  let offset0 := self.offsetPort0 + self.l2L3OptSize
  let offset1 := self.offsetPort1 + self.l2L3OptSize
  let srcPort <- word packet offset0 2
  let dstPort <- word packet offset1 2
  some (.ok (),
    { self with
      offsetPort0 := if dstEndpoint then offset1 else offset0
      offsetPort1 := if dstEndpoint then offset0 else offset1
      lookupKey :=
        { self.lookupKey with
          srcPort := BitVec.ofNat 16 srcPort
          dstPort := BitVec.ofNat 16 dstPort }
      packetLen := if self.packetLen + 16 < originalLength then originalLength
        else self.packetLen })

/-- Destination unreachable, source quench, redirect and parameter problem quote
the packet they are about. -/
def hasIcmpRest (type : UInt8) : Bool :=
  type = 3 || type = 4 || type = 5 || type = 12

/-- The branch for ICMP; the rest has `FIELD_LEN_ICMP_REST` bytes. -/
def updateIcmpv4 (sizeChecker : Nat) : Option Updated :=
  let self := self.raisePacketLen (42 + self.l2L3OptSize)
  if sizeChecker < 8 then some (.ok (), self)
  else do
    let type <- byte packet (34 + self.l2L3OptSize)
    if hasIcmpRest type && decide (sizeChecker - 8 < 28) then
      some (.ok (), { self with l4OptSize := 0 })
    else
      let rest := if hasIcmpRest type then 28 else 0
      let payload <- self.payloadSize packet (sizeChecker - 8 - rest)
      some (.ok (),
        { self.setPayloadLen payload with
          l4OptSize := if hasIcmpRest type then 28 else self.l4OptSize
          headerType := .ipv4Icmp })

/-- The header type of a transport protocol over IPv4 or IPv6. -/
def transportHeader (over4 over6 : HeaderType) : HeaderType :=
  if self.headerType = .ipv6 then over6 else over4

/-- The length of the shortest packet of a transport protocol. -/
def transportSize (ethType : EthernetType) (over4 over6 : HeaderType) : Option Nat :=
  match ethType with
  | .ipv4 => over4.minPacketSize
  | .ipv6 => over6.minPacketSize
  | _ => none

def updateUdp (originalLength : Nat) (ethType : EthernetType)
    (sizeChecker : Nat) : Option Updated := do
  let shortest <- transportSize ethType .ipv4Udp .ipv6Udp
  let self := self.raisePacketLen (shortest + self.l2L3OptSize)
  if sizeChecker < 8 then some (.ok (), self)
  else
    let payload <- self.payloadSize packet (sizeChecker - 8)
    updatePorts (self.setTransport payload (self.transportHeader .ipv4Udp .ipv6Udp))
      packet dstEndpoint originalLength

def setTcpData (tcpData : MetaPacketTcpHeader) : MetaPacket :=
  { self with tcpData := tcpData }

/-- The fields of the TCP header, and its options if it has any. -/
def updateTcpData (dataOffset : Nat) : Option MetaPacket := do
  let winSize <- word packet (48 + self.l2L3OptSize) 2
  let flags <- byte packet (47 + self.l2L3OptSize)
  let seq <- word packet (38 + self.l2L3OptSize) 4
  let ack <- word packet (42 + self.l2L3OptSize) 4
  let self := self.setTcpData
    { self.tcpData with
      dataOffset := dataOffset
      winSize := BitVec.ofNat 16 winSize
      flags := flags.toBitVec &&& TcpFlags.mask
      seq := BitVec.ofNat 32 seq
      ack := BitVec.ofNat 32 ack }
  if 5 < dataOffset then self.updateTcpOpt packet else some self

def setDataOffset (dataOffset l4OptSize : Nat) : MetaPacket :=
  { self with
    dataOffsetIhlOrFl4b :=
      self.dataOffsetIhlOrFl4b ||| BitVec.ofNat 8 (dataOffset * 16)
    l4OptSize := l4OptSize }

def updateTcp (originalLength : Nat) (ethType : EthernetType)
    (sizeChecker : Nat) : Option Updated := do
  let shortest <- transportSize ethType .ipv4Tcp .ipv6Tcp
  let self := self.raisePacketLen (shortest + self.l2L3OptSize)
  if sizeChecker < 20 then some (.ok (), { self with npbIgnoreL4 := true })
  else
    let offsetByte <- byte packet (46 + self.l2L3OptSize)
    let dataOffset := offsetByte.toNat / 16
    let l4OptSize := dataOffset * 4 - 20
    let self := self.setDataOffset dataOffset l4OptSize
    if sizeChecker - 20 < l4OptSize then
      some (.ok (), { self with npbIgnoreL4 := true })
    else
      let payload <- self.payloadSize packet (sizeChecker - 20 - l4OptSize)
      let self <- updateTcpData (self.setTransport payload (self.transportHeader .ipv4Tcp .ipv6Tcp))
        packet dataOffset
      updatePorts self packet dstEndpoint originalLength

/-- A neighbour advertisement of an address that is not link-local; there is no
case for IPv4. -/
def isNeighborAdvert (type : UInt8) : Option Bool :=
  match self.lookupKey.srcIp with
  | .v6 address => some (decide (type = 136) && !isUnicastLinkLocal address)
  | .v4 _ => none

def updatePayloadLen (sizeChecker : Nat) : Option Updated := do
  let payload <- self.payloadSize packet sizeChecker
  some (.ok (), self.setPayloadLen payload)

def updateIcmpv6 (sizeChecker : Nat) : Option Updated :=
  if 0 < sizeChecker then do
    let offset <- subSize (54 + self.l2L3OptSize) 20
    let type <- byte packet offset
    let advert <- self.isNeighborAdvert type
    updatePayloadLen { self with ndReplyOrArpRequest := advert } packet sizeChecker
  else updatePayloadLen self packet sizeChecker

/-- The second `match` of `update` and what follows it. -/
def updateTransport (originalLength : Nat) (ethType : EthernetType) (proto : IpProtocol)
    (sizeChecker : Nat) : Option Updated :=
  match proto with
  | .icmpv4 => self.updateIcmpv4 packet sizeChecker
  | .udp => self.updateUdp packet dstEndpoint originalLength ethType sizeChecker
  | .tcp => self.updateTcp packet dstEndpoint originalLength ethType sizeChecker
  | .icmpv6 => self.updateIcmpv6 packet sizeChecker
  | _ => self.updatePayloadLen packet sizeChecker

def updateArp (sizeChecker : Nat) : Option Updated :=
  if sizeChecker < 28 then some (.ok (), self)
  else do
    let spaOffset := 28 + self.vlanTagSize
    let tpaOffset := 38 + self.vlanTagSize
    let srcIp <- word packet spaOffset 4
    let dstIp <- word packet tpaOffset 4
    let operation <- word packet (20 + self.vlanTagSize) 2
    some (.ok (),
      { self with
        headerType := .arp
        lookupKey :=
          { self.lookupKey with
            srcIp := .v4 (BitVec.ofNat 32 srcIp)
            dstIp := .v4 (BitVec.ofNat 32 dstIp) }
        ndReplyOrArpRequest := decide (operation = 1)
        offsetIp0 := if dstEndpoint then tpaOffset else spaOffset
        offsetIp1 := if dstEndpoint then spaOffset else tpaOffset })

/-- What the fixed part of an IPv6 header and its options say. -/
structure Ip6Header where
  srcIp : Nat
  dstIp : Nat
  ttl : UInt8
  payload : Nat
  label : Nat
  scan : Ip6Scan

def readIp6Header (vlanTagSize sizeChecker : Nat) : Option Ip6Header := do
  let srcIp <- word packet (22 + vlanTagSize) 16
  let dstIp <- word packet (38 + vlanTagSize) 16
  let ttl <- byte packet (21 + vlanTagSize)
  let payload <- word packet (18 + vlanTagSize) 2
  let label <- word packet (18 + vlanTagSize) 4
  let scan <- updateIp6Opt packet vlanTagSize
  some
    { srcIp := srcIp
      dstIp := dstIp
      ttl := ttl
      payload := if payload = 0 then sizeChecker % 0x10000 else payload
      label := label
      scan := scan }

/-- What is known before the protocol is looked at. The number is
`IPV6_HEADER_ADJUST`. -/
def setIp6Header (header : Ip6Header) : MetaPacket :=
  let srcOffset := 22 + self.vlanTagSize
  let dstOffset := 38 + self.vlanTagSize
  { self with
    headerType := .ipv6
    offsetIp0 := if dstEndpoint then dstOffset else srcOffset
    offsetIp1 := if dstEndpoint then srcOffset else dstOffset
    lookupKey :=
      { self.lookupKey with
        srcIp := .v6 (BitVec.ofNat 128 header.srcIp)
        dstIp := .v6 (BitVec.ofNat 128 header.dstIp) }
    ttl := header.ttl
    l2L3OptSize := 20 + self.vlanTagSize
    dataOffsetIhlOrFl4b :=
      self.dataOffsetIhlOrFl4b ||| BitVec.ofNat 8 (header.label / 0x10000 % 16)
    nextHeader := header.scan.firstHeader
    offsetIpv6LastOption := header.scan.lastOption
    offsetIpv6FragmentOption := header.scan.fragmentOption }

def setIp6Protocol (header : Ip6Header) (proto : IpProtocol) : MetaPacket :=
  { self with
    l2L3OptSize := self.l2L3OptSize + header.scan.optionsLength
    packetLen := header.payload + 34 + self.vlanTagSize + 20
    lookupKey := { self.lookupKey with proto := proto } }

def setL3PayloadLen (length : Nat) : MetaPacket :=
  { self with l3PayloadLen := length }

def updateIpv6 (originalLength sizeChecker : Nat) : Option Updated :=
  if sizeChecker < 20 then some (.ok (), self)
  else do
    let sizeChecker := sizeChecker - 20
    let header <- readIp6Header packet self.vlanTagSize sizeChecker
    let self := self.setIp6Header dstEndpoint header
    match IpProtocol.tryFrom header.scan.nextHeader with
    | none => some (.error (unknownProtocol header.scan.nextHeader), self)
    | some proto =>
      let self := self.setIp6Protocol header proto
      if sizeChecker < header.scan.optionsLength then some (.ok (), self)
      else
        let sizeChecker := sizeChecker - header.scan.optionsLength
        updateTransport (self.setL3PayloadLen sizeChecker) packet
          dstEndpoint originalLength .ipv6 proto sizeChecker

/-- What an IPv4 header says in front of its options. -/
structure Ip4Header where
  ihl : Nat
  srcIp : Nat
  dstIp : Nat
  ttl : UInt8
  totalLength : Nat

def readIp4Header (sizeChecker : Nat) : Option Ip4Header := do
  let version <- byte packet (14 + self.vlanTagSize)
  let srcIp <- word packet (self.offsetIp0 + self.vlanTagSize) 4
  let dstIp <- word packet (self.offsetIp1 + self.vlanTagSize) 4
  let ttl <- byte packet (22 + self.vlanTagSize)
  let totalLength <- word packet (16 + self.vlanTagSize) 2
  some
    { ihl := version.toNat % 16
      srcIp := srcIp
      dstIp := dstIp
      ttl := ttl
      totalLength := if totalLength = 0 then sizeChecker + 20
        else totalLength }

/-- The options of an IPv4 header; a wrong header length leaves none. -/
def Ip4Header.optSize (header : Ip4Header) : Nat :=
  header.ihl * 4 - 20

def setIp4Header (header : Ip4Header) : MetaPacket :=
  let srcOffset := self.offsetIp0 + self.vlanTagSize
  let dstOffset := self.offsetIp1 + self.vlanTagSize
  { self with
    headerType := .ipv4
    dataOffsetIhlOrFl4b := BitVec.ofNat 8 header.ihl
    offsetIp0 := if dstEndpoint then dstOffset else srcOffset
    offsetIp1 := if dstEndpoint then srcOffset else dstOffset
    lookupKey :=
      { self.lookupKey with
        srcIp := .v4 (BitVec.ofNat 32 header.srcIp)
        dstIp := .v4 (BitVec.ofNat 32 header.dstIp) }
    ttl := header.ttl
    packetLen := max (header.totalLength + 14 + self.vlanTagSize)
      (34 + self.vlanTagSize) }

def setProto (proto : IpProtocol) : MetaPacket :=
  { self with lookupKey := { self.lookupKey with proto := proto } }

def setIp4Sizes (optSize l3PayloadLen : Nat) : MetaPacket :=
  { self with
    l2L3OptSize := self.vlanTagSize + optSize
    l3PayloadLen := l3PayloadLen }

/-- The protocol of an IPv4 packet, and whether it is a fragment. -/
def updateIp4Protocol (originalLength sizeChecker : Nat) : Option Updated := do
  let protoByte <- byte packet (23 + self.vlanTagSize)
  match IpProtocol.tryFrom protoByte with
  | none => some (.error (unknownProtocol protoByte), self)
  | some proto =>
    let self := self.setProto proto
    let fragment <- word packet (20 + self.vlanTagSize) 2
    if fragment % 0x1000 ≠ 0 then
      some (.ok (),
        { self with
          npbIgnoreL4 := true
          l4PayloadLen := self.l3PayloadLen })
    else
      updateTransport self packet dstEndpoint originalLength .ipv4 proto sizeChecker

def updateIpv4 (originalLength sizeChecker : Nat) : Option Updated :=
  if sizeChecker < 20 then some (.ok (), self)
  else do
    let sizeChecker := sizeChecker - 20
    let header <- self.readIp4Header packet sizeChecker
    let self := self.setIp4Header dstEndpoint header
    if sizeChecker < header.optSize then
      some (.ok (), { self with npbIgnoreL4 := true })
    else
      let sizeChecker := sizeChecker - header.optSize
      let l3PayloadLen <- self.payloadSize packet sizeChecker
      updateIp4Protocol (self.setIp4Sizes header.optSize l3PayloadLen) packet
        dstEndpoint originalLength sizeChecker

/-- What is behind the MAC addresses. -/
structure EtherHeader where
  ethType : EthernetType
  vlanTagSize : Nat
  sizeChecker : Nat

/-- A tag in front of another one: one tag is counted, and its type is read
again. -/
def readInnerTag (sizeChecker : Nat) : Option (Except String EtherHeader × MetaPacket) :=
  if sizeChecker < 4 then some (.error packetTruncated, self)
  else do
    let vlanTag <- word packet 20 2
    let ethType <- word packet 16 2
    some (.ok ⟨.ofU16 ethType, 4, sizeChecker - 4⟩,
      { self with vlan := BitVec.ofNat 16 (vlanTag % 0x1000) })

def readOuterTag (sizeChecker : Nat) : Option (Except String EtherHeader × MetaPacket) :=
  if sizeChecker < 4 then some (.error packetTruncated, self)
  else do
    let vlanTag <- word packet 14 2
    let ethType <- word packet 16 2
    let self := { self with vlan := BitVec.ofNat 16 (vlanTag % 0x1000) }
    if EthernetType.ofU16 ethType = .dot1Q then
      self.readInnerTag packet (sizeChecker - 4)
    else some (.ok ⟨.ofU16 ethType, 4, sizeChecker - 4⟩, self)

def readEtherHeader : Option (Except String EtherHeader × MetaPacket) :=
  if packet.length < 14 then some (.error packetTruncated, self)
  else do
    let ethType <- word packet 12 2
    if EthernetType.ofU16 ethType = .dot1Q then
      self.readOuterTag packet (packet.length - 14)
    else some (.ok ⟨.ofU16 ethType, 0, packet.length - 14⟩, self)

def setEtherHeader (header : EtherHeader) (srcMac dstMac : Nat) : MetaPacket :=
  { self with
    lookupKey :=
      { self.lookupKey with
        ethType := header.ethType
        srcMac := BitVec.ofNat 48 srcMac
        dstMac := BitVec.ofNat 48 dstMac }
    headerType := .eth
    vlanTagSize := header.vlanTagSize
    offsetMac0 := if dstEndpoint then self.offsetMac1 else self.offsetMac0
    offsetMac1 := if dstEndpoint then self.offsetMac0 else self.offsetMac1 }

/-- The first `match` of `update`. -/
def updateNetwork (originalLength : Nat) (header : EtherHeader) : Option Updated :=
  match header.ethType with
  | .arp => self.updateArp packet dstEndpoint header.sizeChecker
  | .ipv6 => self.updateIpv6 packet dstEndpoint originalLength header.sizeChecker
  | .ipv4 => self.updateIpv4 packet dstEndpoint originalLength header.sizeChecker
  | _ => some (.ok (), self)

/-- What is known before the packet is looked at. -/
def setArrival (srcEndpoint dstEndpoint : Bool) (timestamp : Duration) : MetaPacket :=
  { self with
    lookupKey :=
      { self.lookupKey with
        timestamp := timestamp
        l2End0 := srcEndpoint
        l2End1 := dstEndpoint }
    packetLen := packet.length }

def update (srcEndpoint dstEndpoint : Bool) (timestamp : Duration)
    (originalLength : Nat) : Option Updated := do
  let self := self.setArrival packet srcEndpoint dstEndpoint timestamp
  match <- self.readEtherHeader packet with
  | (.error message, self) => some (.error message, self)
  | (.ok header, self) =>
    let srcMac <- word packet 6 6
    let dstMac <- word packet 0 6
    updateNetwork (self.setEtherHeader dstEndpoint header srcMac dstMac)
      packet dstEndpoint originalLength header

end MetaPacket
end Metaflow.AgentCommon
