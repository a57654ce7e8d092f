import Mathlib.Data.Prod.Lex
import Metaflow.AgentCommon.MetaPacket
import Metaflow.Library.Buckets
import Metaflow.Library.OrderedSet

/-!
# Flow nodes and their keys

`flow_node.rs` and parts of `common/flow.rs`: the keys of a flow and of its next
visit, the statistics of its directions and the test whether a packet belongs to
it.
-/

namespace Metaflow.FlowGenerator

open AgentCommon
open AgentPolicy (TapType IpAddr EndpointInfo EndpointData)

/-- The two words of the key of a bucket. -/
structure FlowMapKey where
  lhs : BitVec 64 := 0
  rhs : BitVec 64 := 0
  deriving DecidableEq

namespace FlowMapKey

/-- `u32::from_le_bytes` of the octets that a number spells in network
order. -/
def fromLeBytes (octets : BitVec 32) : BitVec 32 :=
  octets.extractLsb' 0 8 ++ octets.extractLsb' 8 8 ++
    octets.extractLsb' 16 8 ++ octets.extractLsb' 24 8

/-- The four groups of an IPv6 address, each read in little endian. -/
def foldIpv6 (address : BitVec 128) : BitVec 32 :=
  [96, 64, 32, 0].foldl (fun hash low => hash ^^^ fromLeBytes (address.extractLsb' low 32)) 0

/-- The larger word first. -/
def unordered {width : Nat} (src dst : BitVec width) : BitVec 64 :=
  if dst ≤ src then src.setWidth 64 <<< width ||| dst.setWidth 64
  else dst.setWidth 64 <<< width ||| src.setWidth 64

/-- Addresses of two families do not occur together. -/
def l3Hash (lookupKey : LookupKey) : Option (BitVec 64) :=
  match lookupKey.srcIp, lookupKey.dstIp with
  | .v4 src, .v4 dst => some (unordered (fromLeBytes src) (fromLeBytes dst))
  | .v6 src, .v6 dst => some (unordered (foldIpv6 src) (foldIpv6 dst))
  | _, _ => none

def l4Hash (lookupKey : LookupKey) : BitVec 64 :=
  unordered lookupKey.srcPort lookupKey.dstPort

/-- `u16::from(tap_type) << 24 | tap_port` -/
def tapWord (lookupKey : LookupKey) (tapPort : BitVec 64) : BitVec 64 :=
  BitVec.ofNat 64 lookupKey.tapType.toU16 <<< 24 ||| tapPort

def macWord (lookupKey : LookupKey) : BitVec 64 :=
  lookupKey.srcMac.setWidth 64 ^^^ lookupKey.dstMac.setWidth 64

def new (lookupKey : LookupKey) (tapPort : BitVec 64) : Option FlowMapKey :=
  match lookupKey.ethType with
  | .ipv4 | .ipv6 => do
      let lhs <- l3Hash lookupKey
      some ⟨lhs, tapWord lookupKey tapPort <<< 32 ||| l4Hash lookupKey⟩
  | .arp => do
      let lhs <- l3Hash lookupKey
      some ⟨lhs, tapWord lookupKey tapPort <<< 32 ||| macWord lookupKey⟩
  | _ => some ⟨tapWord lookupKey tapPort, macWord lookupKey⟩

end FlowMapKey

/-- When the node of a bucket is to be visited. -/
structure FlowTimeKey where
  timestampKey : Nat
  mapKey : FlowMapKey := {}

/-- The number of values of a `u64`. -/
def u64Size : Nat := 0x10000000000000000

/-- `as_nanos() as u64` -/
def nanosAsU64 (time : Duration) : Nat :=
  time % u64Size

namespace FlowTimeKey

/-- The derived order compares the fields in turn. -/
def rank (key : FlowTimeKey) : Nat ×ₗ Nat ×ₗ Nat :=
  toLex (key.timestampKey, toLex (key.mapKey.lhs.toNat, key.mapKey.rhs.toNat))

theorem rank_injective : Function.Injective rank := by
  rintro ⟨time, lhs, rhs⟩ ⟨time', lhs', rhs'⟩ same
  obtain ⟨rfl, sameLhs, sameRhs⟩ : time = time' ∧ lhs.toNat = lhs'.toNat ∧
      rhs.toNat = rhs'.toNat := by simpa [rank] using same
  rw [BitVec.eq_of_toNat_eq sameLhs, BitVec.eq_of_toNat_eq sameRhs]

instance : LinearOrder FlowTimeKey :=
  LinearOrder.lift' rank rank_injective

def new (timestamp : Duration) (mapKey : FlowMapKey) : FlowTimeKey :=
  ⟨nanosAsU64 timestamp, mapKey⟩

variable (time : Nat) (key : FlowTimeKey)

/-- A key with the default bucket bounds a range by the time alone. -/
theorem default_le_iff : ⟨time, {}⟩ ≤ key ↔ time ≤ key.timestampKey := by
  have ranked : (⟨time, {}⟩ : FlowTimeKey) ≤ key ↔ rank ⟨time, {}⟩ ≤ rank key := Iff.rfl
  have least : toLex (0, 0) ≤ toLex (key.mapKey.lhs.toNat, key.mapKey.rhs.toNat) := by
    rw [Prod.Lex.le_iff]
    simp only [ofLex_toLex]
    omega
  rw [ranked, Prod.Lex.le_iff]
  simp only [rank, ofLex_toLex]
  constructor
  · rintro (earlier | ⟨same, -⟩)
    · exact earlier.le
    · exact same.le
  · intro ordered
    rcases ordered.lt_or_eq with earlier | same
    · exact Or.inl earlier
    · exact Or.inr ⟨same, least⟩

theorem lt_default_iff : key < ⟨time, {}⟩ ↔ key.timestampKey < time := by
  rw [← not_le, default_le_iff, not_le]

end FlowTimeKey

/-- A pair indexed by `PacketDirection as usize`. -/
structure PerDirection (α : Type) where
  src : α
  dst : α

namespace PerDirection

variable {α : Type}

def get (pair : PerDirection α) : PacketDirection -> α
  | .clientToServer => pair.src
  | .serverToClient => pair.dst

def set (pair : PerDirection α) (direction : PacketDirection) (value : α) : PerDirection α :=
  match direction with
  | .clientToServer => { pair with src := value }
  | .serverToClient => { pair with dst := value }

def swap (pair : PerDirection α) : PerDirection α :=
  ⟨pair.dst, pair.src⟩

end PerDirection

inductive CloseType where
  | unknown
  | tcpFin
  | tcpServerRst
  | timeout
  | forcedReport
  | clientSynRepeat
  | serverHalfClose
  | tcpClientRst
  | serverSynAckRepeat
  | clientHalfClose
  | clientSourcePortReuse
  | serverReset
  | serverQueueLack
  | clientEstablishReset
  | serverEstablishReset
  | max
  deriving DecidableEq

inductive FlowState where
  | raw
  | opening1
  | opening2
  | established
  | closingTx1
  | closingTx2
  | closingRx1
  | closingRx2
  | closed
  | reset
  | exception
  | serverReset
  | serverCandidateQueueLack
  | clientL4PortReuse
  | syn1
  | synAck1
  | establishReset
  | max
  deriving DecidableEq

structure FlowKey where
  tapType : TapType
  tapPort : BitVec 64
  macSrc : BitVec 48
  macDst : BitVec 48
  ipSrc : IpAddr
  ipDst : IpAddr
  portSrc : BitVec 16
  portDst : BitVec 16
  proto : IpProtocol

def FlowKey.reverse (key : FlowKey) : FlowKey :=
  { key with
    macSrc := key.macDst
    macDst := key.macSrc
    ipSrc := key.ipDst
    ipDst := key.ipSrc
    portSrc := key.portDst
    portDst := key.portSrc }

/-- The statistics of one direction: of the current report, of the whole flow,
and of the endpoint. -/
structure FlowMetricsPeer where
  byteCount : Nat := 0
  packetCount : Nat := 0
  totalByteCount : Nat := 0
  totalPacketCount : Nat := 0
  first : Duration := 0
  last : Duration := 0
  l3EpcId : Int := 0
  isL2End : Bool := false
  tcpFlags : TcpFlags := 0

/-- A flow as it is reported. `packets` are the packets that went into it: the
code has no such field and no function reads it. -/
structure Flow where
  flowKey : FlowKey
  flowMetricsPeers : PerDirection FlowMetricsPeer
  tunnelType : TunnelType := .none
  flowId : BitVec 64
  synSeq : BitVec 32 := 0
  synackSeq : BitVec 32 := 0
  lastKeepaliveSeq : BitVec 32 := 0
  lastKeepaliveAck : BitVec 32 := 0
  startTime : Duration
  endTime : Duration := 0
  duration : Duration := 0
  flowStatTime : Duration
  ethType : EthernetType
  closeType : CloseType := .unknown
  isActiveService : Bool := false
  isNewFlow : Bool := true
  reversed : Bool := false
  packets : List MetaPacket := []

namespace Flow

def reverse (flow : Flow) (noStats : Bool) : Flow :=
  { flow with
    reversed := !flow.reversed && !noStats
    flowKey := flow.flowKey.reverse
    flowMetricsPeers := flow.flowMetricsPeers.swap }

def updateCloseType (flow : Flow) (flowState : FlowState) : Flow :=
  let peerDst := flow.flowMetricsPeers.dst
  { flow with
    closeType :=
      match flowState with
      | .exception => .unknown
      | .opening1 => .clientSynRepeat
      | .opening2 => .serverSynAckRepeat
      | .established => .timeout
      | .closingTx1 => .serverHalfClose
      | .closingRx1 => .clientHalfClose
      | .closingTx2 | .closingRx2 | .closed => .tcpFin
      | .reset =>
        if peerDst.tcpFlags.contains .rst then .tcpServerRst
        else .tcpClientRst
      | .syn1 | .clientL4PortReuse => .clientSourcePortReuse
      | .serverReset => .serverReset
      | .synAck1 => .serverQueueLack
      | .serverCandidateQueueLack =>
        if 3 < peerDst.totalPacketCount then .serverQueueLack
        else .tcpClientRst
      | .establishReset =>
        if peerDst.tcpFlags.contains .rst then .serverEstablishReset
        else .clientEstablishReset
      | _ => .unknown }

end Flow

/-- A flow with the bookkeeping of the flow map. -/
structure FlowNode where
  timestampKey : Nat
  flow : Flow
  minArrivedTime : Duration
  recentTime : Duration
  timeout : Duration := 0
  flowState : FlowState := .raw
  endpointDataCache : EndpointData := {}
  nextTcpSeq0 : BitVec 32 := 0
  nextTcpSeq1 : BitVec 32 := 0
  policyInTick : PerDirection Bool
  packetInTick : Bool := true

/-- The timeouts that the flow map reads. -/
structure FlowTimeout where
  opening : Duration := 0
  closing : Duration := 0
  establishedRst : Duration := 0
  exception : Duration := 0
  singleDirection : Duration := 0

/-- The settings in force during one call. -/
structure FlowConfig where
  tridentType : TridentType := .unknown
  collectorEnabled : Bool := true
  packetDelay : Duration := 0
  flushInterval : Duration := 0
  flowTimeout : FlowTimeout := {}
  ignoreTorMac : Bool := false
  ignoreL2End : Bool := false

inductive MatchMac where
  | none
  | dst
  | src
  | all

namespace FlowNode

/-- The counts of a new report. -/
def resetPeer (peer : FlowMetricsPeer) : FlowMetricsPeer :=
  { peer with
    packetCount := 0
    byteCount := 0
    tcpFlags := 0 }

def resetFlowStatInfo (node : FlowNode) : FlowNode :=
  { node with
    policyInTick := ⟨false, false⟩
    packetInTick := false
    flow := { node.flow with
      flowStatTime := 0
      isNewFlow := false
      flowMetricsPeers :=
        ⟨resetPeer node.flow.flowMetricsPeers.src,
          resetPeer node.flow.flowMetricsPeers.dst⟩ } }

def isHyperV (tridentType : TridentType) : Bool :=
  tridentType = .hyperVCompute || tridentType = .hyperVNetwork

def macMatch (packet : MetaPacket) (config : FlowConfig) : MatchMac :=
  let ignoreMac := packet.tunnel.any fun tunnel =>
    isHyperV config.tridentType && decide (tunnel.tier < 2) ||
      tunnel.tunnelType = .tencentGre || tunnel.tunnelType = .ipip
  let isFromIsp := packet.lookupKey.tapType ≠ .tor
  let isFromTrident := packet.lookupKey.tapType = .tor ∧ packet.tapPort.setWidth 32 ≠ 0
  if isFromIsp || ignoreMac || config.ignoreTorMac then .none
  else if !config.ignoreL2End && isFromTrident then
    if !packet.lookupKey.l2End0 && !packet.lookupKey.l2End1 then .none
    else if !packet.lookupKey.l2End0 then .dst
    else .src
  else .all

def macMatchWithDirection (packet : MetaPacket) (flowMacSrc flowMacDst : BitVec 48)
    (matchMac : MatchMac) (direction : PacketDirection) : Bool :=
  let (srcMac, dstMac) := match direction with
    | .clientToServer => (flowMacSrc, flowMacDst)
    | .serverToClient => (flowMacDst, flowMacSrc)
  match matchMac with
  | .dst => dstMac = packet.lookupKey.dstMac
  | .src => srcMac = packet.lookupKey.srcMac
  | .all => dstMac = packet.lookupKey.dstMac ∧
      srcMac = packet.lookupKey.srcMac
  | .none => true

def endpointMatchWithDirection (peers : PerDirection FlowMetricsPeer) (packet : MetaPacket)
    (direction : PacketDirection) : Bool :=
  if packet.tunnel.isNone then true
  else
    match direction with
    | .clientToServer =>
      packet.lookupKey.l2End0 = peers.src.isL2End ∧ packet.lookupKey.l2End1 = peers.dst.isL2End
    | .serverToClient =>
      packet.lookupKey.l2End0 = peers.dst.isL2End ∧ packet.lookupKey.l2End1 = peers.src.isL2End

def sameIps (flowKey : FlowKey) (key : LookupKey) : Bool :=
  flowKey.ipSrc = key.srcIp ∧ flowKey.ipDst = key.dstIp

def sameMacs (flowKey : FlowKey) (key : LookupKey) : Bool :=
  flowKey.macSrc = key.srcMac ∧ flowKey.macDst = key.dstMac

def samePorts (flowKey : FlowKey) (key : LookupKey) : Bool :=
  flowKey.portSrc = key.srcPort ∧ flowKey.portDst = key.dstPort

/-- The key of a packet that goes the other way. -/
def swapped (key : LookupKey) : LookupKey :=
  { key with
    srcMac := key.dstMac
    dstMac := key.srcMac
    srcIp := key.dstIp
    dstIp := key.srcIp
    srcPort := key.dstPort
    dstPort := key.srcPort }

/-- Whether a packet belongs to the flow, and the packet with its direction
in the flow. -/
def matchNode (node : FlowNode) (packet : MetaPacket) (config : FlowConfig) : MetaPacket × Bool :=
  let flow := node.flow
  let flowKey := flow.flowKey
  let key := packet.lookupKey
  let forward : MetaPacket := { packet with direction := .clientToServer }
  let backward : MetaPacket := { packet with direction := .serverToClient }
  let ends direction :=
    endpointMatchWithDirection flow.flowMetricsPeers packet direction &&
      macMatchWithDirection packet flowKey.macSrc flowKey.macDst (macMatch packet config) direction
  if flowKey.tapPort ≠ packet.tapPort ∨ flowKey.tapType ≠ key.tapType then
    (packet, false)
  else if flow.ethType ≠ .ipv4 ∧ key.ethType ≠ .ipv6 then
    if key.ethType ≠ flow.ethType then (packet, false)
    else if sameMacs flowKey key && sameIps flowKey key then (forward, true)
    else if sameMacs flowKey (swapped key) && sameIps flowKey (swapped key)
    then (backward, true)
    else (packet, false)
  else if flow.ethType ≠ key.ethType then (packet, false)
  else if flowKey.proto ≠ key.proto then (packet, false)
  else if flow.tunnelType ≠ (packet.tunnel.map (·.tunnelType)).getD .none ∧
      !isHyperV config.tridentType then (packet, false)
  else if sameIps flowKey key && samePorts flowKey key then
    (forward, ends .clientToServer)
  else if sameIps flowKey (swapped key) && samePorts flowKey (swapped key)
  then (backward, ends .serverToClient)
  else (packet, false)

/-- `position` over the nodes of a bucket; a failed test may leave a direction
in the packet. -/
def position (config : FlowConfig) : List FlowNode -> MetaPacket -> MetaPacket × Option Nat
  | [], packet => (packet, none)
  | node :: rest, packet =>
    match node.matchNode packet config with
    | (packet, true) => (packet, some 0)
    | (packet, false) =>
      let (packet, index) := position config rest packet
      (packet, index.map (· + 1))

end FlowNode

end Metaflow.FlowGenerator
