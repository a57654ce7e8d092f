import Metaflow.FlowGenerator.FlowNode
import Metaflow.Metric.Direction
import Metaflow.ProtocolLogs.Head

/-!
# Flow records

The records that the collectors are given: `TaggedFlow` of `tagged_flow.rs`
with the types of `common/flow.rs` it is made of, as far as the collectors read
or change them. Sums of counts wrap around.
-/

namespace Metaflow.Collector

open AgentCommon
open AgentPolicy (IpAddr)
open FlowGenerator (PerDirection CloseType FlowKey)
open ProtocolLogs (L7Protocol)
open Metaflow.Metric (TapSide)

inductive FlowSource where
  | normal
  | sflow
  | netFlow
  deriving DecidableEq

inductive L4Protocol where
  | unknown
  | tcp
  | udp
  deriving DecidableEq

structure TcpPerfCountsPeer where
  retransCount : BitVec 32 := 0
  zeroWinCount : BitVec 32 := 0

def TcpPerfCountsPeer.sequentialMerge (peer other : TcpPerfCountsPeer) : TcpPerfCountsPeer where
  retransCount := peer.retransCount + other.retransCount
  zeroWinCount := peer.zeroWinCount + other.zeroWinCount

structure TcpPerfStats where
  rttClientMax : BitVec 32 := 0
  rttServerMax : BitVec 32 := 0
  srtMax : BitVec 32 := 0
  artMax : BitVec 32 := 0
  rtt : BitVec 32 := 0
  rttClientSum : BitVec 32 := 0
  rttServerSum : BitVec 32 := 0
  srtSum : BitVec 32 := 0
  artSum : BitVec 32 := 0
  rttClientCount : BitVec 32 := 0
  rttServerCount : BitVec 32 := 0
  srtCount : BitVec 32 := 0
  artCount : BitVec 32 := 0
  countsPeers : PerDirection TcpPerfCountsPeer := ⟨{}, {}⟩
  totalRetransCount : BitVec 32 := 0

/-- The larger of two numbers. -/
def larger (left right : BitVec 32) : BitVec 32 :=
  if left < right then right else left

namespace TcpPerfStats

def sequentialMerge (stats other : TcpPerfStats) : TcpPerfStats where
  rttClientMax := larger stats.rttClientMax other.rttClientMax
  rttServerMax := larger stats.rttServerMax other.rttServerMax
  srtMax := larger stats.srtMax other.srtMax
  artMax := larger stats.artMax other.artMax
  rtt := larger stats.rtt other.rtt
  rttClientSum := stats.rttClientSum + other.rttClientSum
  rttServerSum := stats.rttServerSum + other.rttServerSum
  srtSum := stats.srtSum + other.srtSum
  artSum := stats.artSum + other.artSum
  rttClientCount := stats.rttClientCount + other.rttClientCount
  rttServerCount := stats.rttServerCount + other.rttServerCount
  srtCount := stats.srtCount + other.srtCount
  artCount := stats.artCount + other.artCount
  countsPeers :=
    { src := stats.countsPeers.src.sequentialMerge other.countsPeers.src
      dst := stats.countsPeers.dst.sequentialMerge other.countsPeers.dst }
  totalRetransCount := stats.totalRetransCount + other.totalRetransCount

def reverse (stats : TcpPerfStats) : TcpPerfStats :=
  { stats with
    rttClientSum := stats.rttServerSum
    rttServerSum := stats.rttClientSum
    rttClientCount := stats.rttServerCount
    rttServerCount := stats.rttClientCount
    countsPeers := stats.countsPeers.swap }

end TcpPerfStats

structure L7PerfStats where
  requestCount : BitVec 32 := 0
  responseCount : BitVec 32 := 0
  errClientCount : BitVec 32 := 0
  errServerCount : BitVec 32 := 0
  errTimeout : BitVec 32 := 0
  rrtCount : BitVec 32 := 0
  rrtSum : BitVec 64 := 0
  rrtMax : BitVec 32 := 0

def L7PerfStats.sequentialMerge (stats other : L7PerfStats) : L7PerfStats where
  requestCount := stats.requestCount + other.requestCount
  responseCount := stats.responseCount + other.responseCount
  errClientCount := stats.errClientCount + other.errClientCount
  errServerCount := stats.errServerCount + other.errServerCount
  errTimeout := stats.errTimeout + other.errTimeout
  rrtCount := stats.rrtCount + other.rrtCount
  rrtSum := stats.rrtSum + other.rrtSum
  rrtMax := larger stats.rrtMax other.rrtMax

structure FlowPerfStats where
  tcp : TcpPerfStats := {}
  l7 : L7PerfStats := {}
  l4Protocol : L4Protocol := .unknown
  l7Protocol : L7Protocol := .unknown

namespace FlowPerfStats

def sequentialMerge (stats other : FlowPerfStats) : FlowPerfStats where
  tcp := stats.tcp.sequentialMerge other.tcp
  l7 := stats.l7.sequentialMerge other.l7
  l4Protocol :=
    if stats.l4Protocol = .unknown then other.l4Protocol else stats.l4Protocol
  l7Protocol :=
    if stats.l7Protocol = .unknown ∨ stats.l7Protocol = .other ∧ other.l7Protocol ≠ .unknown then
      other.l7Protocol
    else stats.l7Protocol

def reverse (stats : FlowPerfStats) : FlowPerfStats :=
  { stats with tcp := stats.tcp.reverse }

end FlowPerfStats

/-- The statistics of one direction of a flow, and what is known of the end
that sends it. -/
structure FlowMetricsPeer where
  natRealIp : IpAddr := .v4 0
  byteCount : BitVec 64 := 0
  l3ByteCount : BitVec 64 := 0
  l4ByteCount : BitVec 64 := 0
  packetCount : BitVec 64 := 0
  totalByteCount : BitVec 64 := 0
  totalPacketCount : BitVec 64 := 0
  first : Duration := 0
  last : Duration := 0
  l3EpcId : BitVec 32 := 0
  isL2End : Bool := false
  isL3End : Bool := false
  isActiveHost : Bool := false
  isDevice : Bool := false
  tcpFlags : TcpFlags := 0
  isVipInterface : Bool := false
  isVip : Bool := false
  isLocalMac : Bool := false
  isLocalIp : Bool := false

/-- The counts add up; for the rest the later record counts, but for the NAT
address and the flags. -/
def FlowMetricsPeer.sequentialMerge (peer other : FlowMetricsPeer) : FlowMetricsPeer :=
  { other with
    natRealIp := peer.natRealIp
    byteCount := peer.byteCount + other.byteCount
    l3ByteCount := peer.l3ByteCount + other.l3ByteCount
    l4ByteCount := peer.l4ByteCount + other.l4ByteCount
    packetCount := peer.packetCount + other.packetCount
    totalByteCount := peer.totalByteCount + other.totalByteCount
    totalPacketCount := peer.totalPacketCount + other.totalPacketCount
    tcpFlags := peer.tcpFlags ||| other.tcpFlags }

structure TunnelField where
  txIp0 : BitVec 32 := 0
  txIp1 : BitVec 32 := 0
  rxIp0 : BitVec 32 := 0
  rxIp1 : BitVec 32 := 0
  txMac0 : BitVec 32 := 0
  txMac1 : BitVec 32 := 0
  rxMac0 : BitVec 32 := 0
  rxMac1 : BitVec 32 := 0
  txId : BitVec 32 := 0
  rxId : BitVec 32 := 0
  tunnelType : TunnelType := .none
  tier : BitVec 8 := 0
  isIpv6 : Bool := false

def TunnelField.reverse (tunnel : TunnelField) : TunnelField :=
  { tunnel with
    txIp0 := tunnel.rxIp0
    rxIp0 := tunnel.txIp0
    txIp1 := tunnel.rxIp1
    rxIp1 := tunnel.txIp1
    txMac0 := tunnel.rxMac0
    rxMac0 := tunnel.txMac0
    txMac1 := tunnel.rxMac1
    rxMac1 := tunnel.txMac1
    txId := tunnel.rxId
    rxId := tunnel.txId }

structure Flow where
  flowKey : FlowKey
  flowMetricsPeers : PerDirection FlowMetricsPeer := ⟨{}, {}⟩
  tunnel : TunnelField := {}
  flowId : BitVec 64
  lastKeepaliveSeq : BitVec 32 := 0
  lastKeepaliveAck : BitVec 32 := 0
  startTime : Duration := 0
  endTime : Duration := 0
  duration : Duration := 0
  flowStatTime : Duration
  vlan : BitVec 16 := 0
  ethType : EthernetType := .ipv4
  flowPerfStats : Option FlowPerfStats := none
  closeType : CloseType := .forcedReport
  flowSource : FlowSource := .normal
  isActiveService : Bool := false
  isNewFlow : Bool := false
  reversed : Bool := false
  tapSide : TapSide := .rest

/-- A number that replaces another one unless it is zero. -/
def unlessZero {width : Nat} (old new : BitVec width) : BitVec width :=
  if new ≠ 0 then new else old

namespace Flow

def sequentialMerge (flow other : Flow) : Flow :=
  { flow with
    flowMetricsPeers :=
      { src := flow.flowMetricsPeers.src.sequentialMerge
          other.flowMetricsPeers.src
        dst := flow.flowMetricsPeers.dst.sequentialMerge
          other.flowMetricsPeers.dst }
    endTime := other.endTime
    duration := other.duration
    flowPerfStats :=
      match other.flowPerfStats with
      | none => flow.flowPerfStats
      | some x =>
        match flow.flowPerfStats with
        | none => some x
        | some stats => some (stats.sequentialMerge x)
    closeType := other.closeType
    isActiveService := other.isActiveService
    reversed := other.reversed
    vlan := unlessZero flow.vlan other.vlan
    lastKeepaliveSeq := unlessZero flow.lastKeepaliveSeq other.lastKeepaliveSeq
    lastKeepaliveAck :=
      unlessZero flow.lastKeepaliveAck other.lastKeepaliveAck }

/-- The performance statistics are not reversed here. -/
def reverse (flow : Flow) (noStats : Bool) : Flow :=
  { flow with
    reversed := !flow.reversed && !noStats
    tapSide := .rest
    tunnel := flow.tunnel.reverse
    flowKey := flow.flowKey.reverse
    flowMetricsPeers := flow.flowMetricsPeers.swap }

end Flow

/-- Of the policies of the two ends only the group ids of their actions
matter. -/
structure Tag where
  policyData : PerDirection (List (List (BitVec 16))) := ⟨[], []⟩

def Tag.reverse (tag : Tag) : Tag where
  policyData := tag.policyData.swap

structure TaggedFlow where
  flow : Flow
  tag : Tag := {}

namespace TaggedFlow

def sequentialMerge (tagged other : TaggedFlow) : TaggedFlow :=
  { tagged with flow := tagged.flow.sequentialMerge other.flow }

def reverse (tagged : TaggedFlow) : TaggedFlow where
  flow := tagged.flow.reverse false
  tag := tagged.tag.reverse

end TaggedFlow

end Metaflow.Collector
