import Metaflow.AgentPolicy.FastPath

/-!
# Packets of the agent

The types of `common/enums.rs`, `lookup_key.rs`, `decapsulate.rs` and
`meta_packet.rs` that the parser and the flow map share. Times are in
nanoseconds, addresses are numbers in network order.
-/

namespace Metaflow.AgentCommon

open AgentPolicy (TapType IpAddr EndpointData)

inductive EthernetType where
  | llc
  | ipv4
  | arp
  | ipv6
  | ciscoDiscovery
  | nortelDiscovery
  | transparentEthernetBridging
  | dot1Q
  | ppp
  | pppoeDiscovery
  | pppoeSession
  | mplsUnicast
  | mplsMulticast
  | eapol
  | qinQ
  | linkLayerDiscovery
  | ethernetCtp
  | unknown
  deriving DecidableEq

inductive IpProtocol where
  | ipv6HopByHop
  | icmpv4
  | igmp
  | ipv4
  | tcp
  | udp
  | rudp
  | ipv6
  | ipv6Routing
  | ipv6Fragment
  | gre
  | esp
  | ah
  | icmpv6
  | noNextHeader
  | ipv6Destination
  | ospf
  | ipip
  | etherIp
  | vrrp
  | sstp
  | udpLite
  | mplsInIp
  | unknown
  deriving DecidableEq

inductive HeaderType where
  | invalid
  | eth
  | arp
  | ipv4
  | ipv4Icmp
  | ipv6
  | ipv4Tcp
  | ipv4Udp
  | ipv6Tcp
  | ipv6Udp
  deriving DecidableEq

inductive TunnelType where
  | none
  | vxlan
  | ipip
  | tencentGre
  | erspanOrTeb
  deriving DecidableEq

inductive TridentType where
  | unknown
  | process
  | vm
  | publicCloud
  | analyzer
  | physicalMachine
  | dedicatedPhysicalMachine
  | hostPod
  | vmPod
  | tunnelDecapsulation
  | hyperVCompute
  | hyperVNetwork
  deriving DecidableEq

inductive PacketDirection where
  | clientToServer
  | serverToClient
  deriving DecidableEq

def PacketDirection.reversed : PacketDirection -> PacketDirection
  | clientToServer => serverToClient
  | serverToClient => clientToServer

/-- The bits of `TcpFlags`. -/
abbrev TcpFlags := BitVec 8

namespace TcpFlags

def fin : TcpFlags := 0x01

def syn : TcpFlags := 0x02

def rst : TcpFlags := 0x04

def psh : TcpFlags := 0x08

def ack : TcpFlags := 0x10

def urg : TcpFlags := 0x20

def mask : TcpFlags := 0x3f

/-- All the bits of the second set are in the first. -/
def contains (flags other : TcpFlags) : Bool :=
  flags &&& other == other

/-- The flag sets that occur in a regular connection. -/
def valid : List TcpFlags :=
  [syn, syn ||| ack, fin, fin ||| ack, fin ||| psh ||| ack, rst, rst ||| ack,
    rst ||| psh ||| ack, ack, psh ||| ack, psh ||| ack ||| urg]

def isInvalid (flags : TcpFlags) : Bool :=
  flags &&& mask ∉ valid

end TcpFlags

/-- A `std::time::Duration` in nanoseconds. -/
abbrev Duration := Nat

/-- The fields of `LookupKey` that parser and flow map use. -/
structure LookupKey where
  timestamp : Duration := 0
  srcMac : BitVec 48 := 0
  dstMac : BitVec 48 := 0
  srcIp : IpAddr := .v4 0
  dstIp : IpAddr := .v4 0
  srcPort : BitVec 16 := 0
  dstPort : BitVec 16 := 0
  ethType : EthernetType := .llc
  l2End0 : Bool := false
  l2End1 : Bool := false
  proto : IpProtocol := .unknown
  tapType : TapType := .any

/-- The outermost tunnel of a packet, and how many there were. -/
structure TunnelInfo where
  src : BitVec 32 := 0
  dst : BitVec 32 := 0
  macSrc : BitVec 32 := 0
  macDst : BitVec 32 := 0
  id : BitVec 32 := 0
  tunnelType : TunnelType := .none
  tier : Nat := 0
  isIpv6 : Bool := false

structure MetaPacketTcpHeader where
  seq : BitVec 32 := 0
  ack : BitVec 32 := 0
  winSize : BitVec 16 := 0
  mss : BitVec 16 := 0
  flags : TcpFlags := 0
  dataOffset : Nat := 0
  winScale : BitVec 8 := 0
  sackPermitted : Bool := false
  sack : Option (List UInt8) := none

/-- A packet with what the parser has found out about it. `tapPort` is the
word of a `TapPort`. -/
structure MetaPacket where
  lookupKey : LookupKey := {}
  packetLen : Nat := 0
  vlanTagSize : Nat := 0
  ttl : UInt8 := 0
  endpointData : Option EndpointData := none
  offsetIp0 : Nat := 0
  offsetIp1 : Nat := 0
  offsetMac0 : Nat := 0
  offsetMac1 : Nat := 0
  offsetPort0 : Nat := 0
  offsetPort1 : Nat := 0
  offsetIpv6LastOption : Nat := 0
  offsetIpv6FragmentOption : Nat := 0
  headerType : HeaderType := .invalid
  l2L3OptSize : Nat := 0
  l4OptSize : Nat := 0
  l3PayloadLen : Nat := 0
  l4PayloadLen : Nat := 0
  npbIgnoreL4 : Bool := false
  ndReplyOrArpRequest : Bool := false
  tunnel : Option TunnelInfo := none
  dataOffsetIhlOrFl4b : BitVec 8 := 0
  nextHeader : UInt8 := 0
  tcpOptionsFlag : BitVec 8 := 0
  tcpOptWinScaleOffset : Nat := 0
  tcpOptMssOffset : Nat := 0
  tcpOptSackOffset : Nat := 0
  tcpData : MetaPacketTcpHeader := {}
  tapPort : BitVec 64 := 0
  payloadLen : Nat := 0
  vlan : BitVec 16 := 0
  direction : PacketDirection := .clientToServer

end Metaflow.AgentCommon
