import Metaflow.FlowGenerator.FlowNode

/-!
# The flow map

`flow_map.rs`: a flow lives in a bucket of the node map; the time set says when
it is visited next. A packet first moves the time window on, which visits the
flows that are due, and then joins its flow or opens one. Service scores, TCP
state machines, settings, clock and policy are parameters. `none` is a panic: an
`unwrap` of nothing, an overflow or an unimplemented call.
-/

namespace Metaflow.FlowGenerator

open AgentCommon Library
open AgentPolicy (IpAddr EndpointInfo EndpointData)

/-- A `Duration` has a `u64` of seconds. -/
def durationLimit : Nat := u64Size * 1000000000

def addDuration (left right : Duration) : Option Duration :=
  if left + right < durationLimit then some (left + right) else none

def subDuration (left right : Duration) : Option Duration :=
  if right ≤ left then some (left - right) else none

def addU64 (left right : Nat) : Option Nat :=
  if left + right < u64Size then some (left + right) else none

def mulU64 (left right : Nat) : Option Nat :=
  if left * right < u64Size then some (left * right) else none

def timeUnit : Duration := 1000000000

def timeMaxInterval : Duration := 5 * timeUnit

def statisticalInterval : Duration := 1000000000

def queueBatchSize : Nat := 1024

def threadFlowIdMask : BitVec 64 := 0xff

def timerFlowIdMask : BitVec 64 := 0xffffffff

def counterFlowIdMask : BitVec 64 := 0xffffff

/-- `Duration::from_nanos` of the nanoseconds rounded down to whole
intervals. -/
def roundDown (time interval : Duration) : Duration :=
  nanosAsU64 (time / interval * interval)

structure ServiceKey where
  addr : IpAddr
  epcId : BitVec 16
  port : BitVec 16

/-- A transition of a TCP state machine. -/
structure StateValue where
  timeout : Duration
  state : FlowState
  closed : Bool

/-- The service table, whose states are of the type `σ`, and the TCP state
machines. -/
structure Tables (σ : Type) where
  getTcpScore : σ -> Bool -> TcpFlags -> ServiceKey -> ServiceKey -> Option (σ × Nat × Nat)
  getUdpScore : σ -> Bool -> ServiceKey -> ServiceKey -> Option (σ × Nat × Nat)
  stateMachineMaster : FlowState -> TcpFlags -> Option StateValue
  stateMachineSlave : FlowState -> TcpFlags -> Option StateValue

/-- What a call finds outside the map: the settings, the time and the answers of
the policy. -/
structure Context where
  config : FlowConfig := {}
  now : Duration := 0
  lookup : MetaPacket -> Option EndpointData := fun _ => none

structure FlowMap (σ : Type) where
  id : BitVec 32
  nodeMap : Buckets FlowMapKey FlowNode := ∅
  timeSet : OrderedSet FlowTimeKey := .empty
  serviceTable : σ
  startTime : Duration := 0
  startTimeInUnit : Nat := 0
  /-- All flows handed to `output_queue.send_all`. -/
  outputQueue : List Flow := []
  outputBuffer : List Flow := []
  lastQueueFlush : Duration := 0

variable {σ : Type}

def FlowMap.new (id : BitVec 32) (serviceTable : σ) : FlowMap σ :=
  { id := id, serviceTable := serviceTable }

def isClientToServer (srcScore dstScore : Nat) : Bool :=
  srcScore ≤ dstScore

def isActiveService (dstScore : Nat) : Bool :=
  dstScore = 0xff

def EndpointData.reversed (data : EndpointData) : EndpointData :=
  ⟨data.dstInfo, data.srcInfo⟩

def ServiceKey.new (addr : IpAddr) (info : Int) (port : BitVec 16) : ServiceKey :=
  ⟨addr, BitVec.ofInt 16 info, port⟩

section

variable (tables : Tables σ) (context : Context) (node : FlowNode)

def reverseFlow (noStats : Bool) : FlowNode :=
  { node with
    policyInTick := node.policyInTick.swap
    endpointDataCache := EndpointData.reversed node.endpointDataCache
    flow := node.flow.reverse noStats }

/-- The end of both corrections: a flow whose source has the higher score is
reversed. -/
def settleDirection (srcScore dstScore : Nat) (noStats : Bool) : FlowNode × Bool :=
  let reverse := !isClientToServer srcScore dstScore
  let node := if reverse then reverseFlow node noStats else node
  let dstScore := if reverse then srcScore else dstScore
  ({ node with flow := { node.flow with
      isActiveService := isActiveService dstScore } }, reverse)

variable (table : σ) (id : BitVec 32) (packet : MetaPacket)

def MetaPacket.turn (reverse : Bool) : MetaPacket :=
  if reverse then { packet with direction := packet.direction.reversed }
  else packet

/-- The scores of the two ends; the flags count for TCP only. -/
def getScore (proto : IpProtocol) (isFirstPacket : Bool)
    (flags : TcpFlags) (srcKey dstKey : ServiceKey) : Option (σ × Nat × Nat) :=
  match proto with
  | .tcp => tables.getTcpScore table isFirstPacket flags srcKey dstKey
  | .udp => tables.getUdpScore table isFirstPacket srcKey dstKey
  | _ => none

def updateL4Direction (node : FlowNode) (isFirstPacket noStats : Bool) :
    Option (σ × MetaPacket × FlowNode) := do
  let key := packet.lookupKey
  let srcKey := ServiceKey.new key.srcIp node.endpointDataCache.srcInfo.l3EpcId key.srcPort
  let dstKey := ServiceKey.new key.dstIp node.endpointDataCache.dstInfo.l3EpcId key.dstPort
  let (table, srcScore, dstScore) <- getScore tables table key.proto
    isFirstPacket packet.tcpData.flags srcKey dstKey
  let (srcScore, dstScore) :=
    if packet.direction = .serverToClient then (dstScore, srcScore)
    else (srcScore, dstScore)
  let (node, reverse) := settleDirection node srcScore dstScore noStats
  some (table, MetaPacket.turn packet reverse, node)

/-- The node and whether the packet has to be turned with it. Other protocols
are left alone. -/
def updateFlowDirection (node : FlowNode) : Option (σ × FlowNode × Bool) :=
  let key := node.flow.flowKey
  let peers := node.flow.flowMetricsPeers
  if key.proto = .tcp ∨ key.proto = .udp then do
    let srcKey := ServiceKey.new key.ipSrc peers.src.l3EpcId key.portSrc
    let dstKey := ServiceKey.new key.ipDst peers.dst.l3EpcId key.portDst
    let (table, srcScore, dstScore) <- getScore tables table key.proto false 0 srcKey dstKey
    some (table, settleDirection node srcScore dstScore false)
  else some (table, node, false)

/-- `(self.policy_getter).lookup` -/
def policyLookup : MetaPacket :=
  { packet with
    endpointData := (context.lookup packet).or packet.endpointData }

/-- The endpoints of a packet as the flow sees them. -/
def endpointCache : EndpointData :=
  match packet.endpointData, packet.direction with
  | none, _ => node.endpointDataCache
  | some data, .clientToServer => data
  | some data, .serverToClient => EndpointData.reversed data

def FlowMetricsPeer.setEndpoint (peer : FlowMetricsPeer) (info : EndpointInfo) : FlowMetricsPeer :=
  { peer with
    isL2End := info.l2End
    l3EpcId := info.l3EpcId }

def updateEndpointAndPolicyData : FlowNode :=
  let cache := endpointCache node packet
  let peers := node.flow.flowMetricsPeers
  { node with
    endpointDataCache := cache
    flow := { node.flow with
      flowMetricsPeers :=
        ⟨peers.src.setEndpoint cache.srcInfo,
          peers.dst.setEndpoint cache.dstInfo⟩ } }

/-- In the code the shift binds tighter than the mask of the thread. -/
def generateFlowId (timestamp : Duration) (threadId : BitVec 32) (totalFlow : Nat) : BitVec 64 :=
  (BitVec.ofNat 64 timestamp >>> 30 &&& timerFlowIdMask) <<< 32 |||
    threadId.setWidth 64 &&& threadFlowIdMask <<< 24 |||
    BitVec.ofNat 64 totalFlow &&& counterFlowIdMask

/-- The flow of a first packet and the packet with its direction. -/
def initFlow (totalFlow : Nat) : FlowNode × MetaPacket :=
  let packet := { packet with direction := .clientToServer }
  let key := packet.lookupKey
  let flow : Flow :=
    { flowKey :=
        { tapType := key.tapType
          tapPort := packet.tapPort
          macSrc := key.srcMac
          macDst := key.dstMac
          ipSrc := key.srcIp
          ipDst := key.dstIp
          portSrc := key.srcPort
          portDst := key.dstPort
          proto := key.proto }
      tunnelType := (packet.tunnel.map (·.tunnelType)).getD .none
      flowId := generateFlowId key.timestamp id totalFlow
      startTime := key.timestamp
      flowStatTime := roundDown key.timestamp timeUnit
      ethType := key.ethType
      flowMetricsPeers :=
        { src :=
            { totalPacketCount := 1
              packetCount := 1
              totalByteCount := packet.packetLen
              byteCount := packet.packetLen
              first := key.timestamp
              last := key.timestamp
              tcpFlags := packet.tcpData.flags }
          dst := {} } }
  let node : FlowNode :=
    { timestampKey := nanosAsU64 key.timestamp
      flow := flow
      minArrivedTime := key.timestamp
      recentTime := key.timestamp
      policyInTick := ⟨true, false⟩ }
  let packet := policyLookup context packet
  (updateEndpointAndPolicyData node packet, packet)

/-- The packet is one of the flow; see `Flow.packets`. -/
def FlowNode.take : FlowNode :=
  { node with flow := { node.flow with
    packets := node.flow.packets ++ [packet] } }

/-- The time of the latest packet. -/
def FlowNode.touch (timestamp : Duration) : Option FlowNode :=
  if node.recentTime < timestamp then
    (subDuration timestamp node.minArrivedTime).map fun duration =>
      { node with
        recentTime := timestamp
        flow := { node.flow with duration := duration } }
  else some node

/-- The first packet of a report fixes its interval. -/
def FlowNode.startTick (timestamp : Duration) : FlowNode :=
  if node.packetInTick then node
  else
    { node with
      packetInTick := true
      flow := { node.flow with
        flowStatTime := roundDown timestamp statisticalInterval } }

/-- The policy is asked once in a report for each direction. -/
def FlowNode.refreshPolicy : FlowNode :=
  if node.policyInTick.get packet.direction then node
  else
    updateEndpointAndPolicyData
      { node with
        policyInTick := node.policyInTick.set packet.direction true }
      (policyLookup context packet)

/-- One more packet in a direction. -/
def FlowMetricsPeer.count (peer : FlowMetricsPeer)
    (packet : MetaPacket) : Option FlowMetricsPeer := do
  let packetCount <- addU64 peer.packetCount 1
  let totalPacketCount <- addU64 peer.totalPacketCount 1
  let byteCount <- addU64 peer.byteCount packet.packetLen
  let totalByteCount <- addU64 peer.totalByteCount packet.packetLen
  some { peer with
    packetCount := packetCount
    totalPacketCount := totalPacketCount
    byteCount := byteCount
    totalByteCount := totalByteCount
    last := packet.lookupKey.timestamp
    first := if peer.first = 0 then packet.lookupKey.timestamp
      else peer.first }

def FlowNode.countPacket : Option FlowNode := do
  let peers := node.flow.flowMetricsPeers
  let peer <- (peers.get packet.direction).count packet
  some { node with flow := { node.flow with
    flowMetricsPeers := peers.set packet.direction peer
    tunnelType :=
      (packet.tunnel.map (·.tunnelType)).getD node.flow.tunnelType } }

def updateFlow : Option FlowNode := do
  let timestamp := packet.lookupKey.timestamp
  let node <- node.touch timestamp
  let node := (node.startTick timestamp).refreshPolicy context packet
  node.countPacket packet

def updateSynOrSynAckSeq : FlowNode :=
  let tcp := packet.tcpData
  if tcp.flags = TcpFlags.syn then
    { node with flow := { node.flow with synSeq := tcp.seq } }
  else if tcp.flags = TcpFlags.syn ||| TcpFlags.ack ∧ packet.payloadLen = 0
  then { node with flow := { node.flow with synackSeq := tcp.seq } }
  else node

/-- A packet with at most one byte of payload whose sequence number is one
before the expected one. -/
def isKeepalive : Bool :=
  let tcp := packet.tcpData
  decide (packet.payloadLen ≤ 1) &&
    tcp.flags &&& (TcpFlags.syn ||| TcpFlags.fin ||| TcpFlags.rst) = 0 &&
    match packet.direction with
    | .clientToServer => tcp.seq + BitVec.ofNat 32 1 = node.nextTcpSeq0
    | .serverToClient => tcp.seq + BitVec.ofNat 32 1 = node.nextTcpSeq1

def updateTcpKeepaliveSeq : FlowNode :=
  let tcp := packet.tcpData
  let flow :=
    if isKeepalive node packet then
      { node.flow with
        lastKeepaliveSeq := tcp.seq
        lastKeepaliveAck := tcp.ack }
    else node.flow
  match packet.direction with
  | .clientToServer => { node with flow := flow, nextTcpSeq1 := tcp.ack }
  | .serverToClient => { node with flow := flow, nextTcpSeq0 := tcp.ack }

/-- The transition of the master machine, overridden by the slave for packets of
the server. -/
def stateTransition (config : FlowConfig) (state : FlowState) (flags : TcpFlags)
    (direction : PacketDirection) : StateValue :=
  let master := (tables.stateMachineMaster state flags).getD
    ⟨config.flowTimeout.exception, .exception, false⟩
  match direction with
  | .clientToServer => master
  | .serverToClient => (tables.stateMachineSlave state flags).getD master

/-- The node in its next state, and whether the flow has ended. -/
def updateFlowStateMachine (config : FlowConfig) (node : FlowNode)
    (flags : TcpFlags) (direction : PacketDirection) : FlowNode × Bool :=
  let value := stateTransition tables config node.flowState flags direction
  let peers := node.flow.flowMetricsPeers
  ({ node with
      flowState := value.state
      timeout :=
        if peers.src.totalPacketCount = 0 ∨ peers.dst.totalPacketCount = 0
        then config.flowTimeout.singleDirection
        else value.timeout }, value.closed)

def FlowNode.orTcpFlags : FlowNode :=
  let peers := node.flow.flowMetricsPeers
  let peer := peers.get packet.direction
  { node with flow := { node.flow with
    flowMetricsPeers := peers.set packet.direction
      { peer with tcpFlags := peer.tcpFlags ||| packet.tcpData.flags } } }

/-- A SYN or a SYN and ACK corrects the direction. -/
def correctDirection (node : FlowNode) : Option (σ × MetaPacket × FlowNode) :=
  if packet.tcpData.flags &&& TcpFlags.syn ≠ 0 then do
    let (table, packet, node) <- updateL4Direction tables table packet node false false
    some (table, packet, updateSynOrSynAckSeq node packet)
  else some (table, packet, node)

def FlowNode.fail (config : FlowConfig) : FlowNode :=
  { node with
    timeout := config.flowTimeout.exception
    flowState := .exception }

/-- The state machine is given the direction in which the packet came. -/
def updateTcpFlow (node : FlowNode) : Option (σ × FlowNode × Bool) := do
  let direction := packet.direction
  let flags := packet.tcpData.flags
  let node <- updateFlow context (node.orTcpFlags packet) packet
  let (table, packet, node) <- correctDirection tables table packet node
  let node := updateTcpKeepaliveSeq node packet
  some (table,
    if flags.isInvalid then (node.fail context.config, false)
    else updateFlowStateMachine tables context.config node flags direction)

def newTcpNode (totalFlow : Nat) : Option (σ × FlowNode) := do
  let (node, packet) := initFlow context id packet totalFlow
  let (table, packet, node) <- updateL4Direction tables table packet node true true
  let flags := packet.tcpData.flags
  let node := if flags.isInvalid then node.fail context.config else node
  let (node, _) := updateFlowStateMachine tables context.config node flags packet.direction
  some (table, updateSynOrSynAckSeq node packet)

/-- The first packet of a flow of another protocol. -/
def openNode (totalFlow : Nat) : FlowNode × MetaPacket :=
  let (node, packet) := initFlow context id packet totalFlow
  ({ node with
      flowState := .established
      timeout := context.config.flowTimeout.opening }, packet)

def newUdpNode (totalFlow : Nat) : Option (σ × FlowNode) := do
  let (node, packet) := openNode context id packet totalFlow
  let (table, _, node) <- updateL4Direction tables table packet node true true
  some (table, node)

def newOtherNode (totalFlow : Nat) : FlowNode :=
  (openNode context id packet totalFlow).1

def newFlowNode (totalFlow : Nat) : Option (σ × FlowNode) :=
  match packet.lookupKey.proto with
  | .tcp => newTcpNode tables context table id packet totalFlow
  | .udp => newUdpNode tables context table id packet totalFlow
  | _ => some (table, newOtherNode context id packet totalFlow)

end

namespace FlowMap

def pushToFlowStatsQueue (map : FlowMap σ) (flow : Flow) : FlowMap σ :=
  let buffer := map.outputBuffer ++ [flow]
  if queueBatchSize ≤ buffer.length then
    { map with
      outputQueue := map.outputQueue ++ buffer
      outputBuffer := [] }
  else { map with outputBuffer := buffer }

variable (tables : Tables σ) (context : Context)

variable (map : FlowMap σ) (key : FlowMapKey) (packet : MetaPacket)

def flushQueue (now : Duration) : Option (FlowMap σ) := do
  let elapsed <- subDuration now map.lastQueueFlush
  some (if context.config.flushInterval < elapsed then
    { map with
      outputQueue := map.outputQueue ++ map.outputBuffer
      outputBuffer := []
      lastQueueFlush := now }
    else map)

/-- The last report of a flow. -/
def nodeRemovedAftercare (node : FlowNode) (timeout : Duration) : Option (FlowMap σ) := do
  let (table, node, _) <- updateFlowDirection tables map.serviceTable node
  let flow :=
    { node.flow.updateCloseType node.flowState with
      endTime := timeout
      flowStatTime := roundDown timeout statisticalInterval }
  some ({ map with serviceTable := table }.pushToFlowStatsQueue flow)

/-- The flow has packets of an interval that does not contain the given
time. -/
def reportDue (node : FlowNode) (timeout : Duration) : Option Bool :=
  if node.packetInTick then do
    let last <- addDuration node.flow.flowStatTime statisticalInterval
    some (decide (last ≤ timeout) || decide (timeout < node.flow.flowStatTime))
  else some false

/-- A report of a flow that goes on, with what is left of the flow. -/
def report (node : FlowNode) : Option (FlowMap σ × FlowNode × Bool) := do
  let (table, node, reverse) <- updateFlowDirection tables map.serviceTable node
  let map := { map with serviceTable := table }
  let node := { node with flow := { node.flow with
    closeType := .forcedReport } }
  some (if context.config.collectorEnabled then
    (map.pushToFlowStatsQueue node.flow, node.resetFlowStatInfo, reverse)
    else (map, node, reverse))

/-- The flow map, the node, and whether the packet at hand has to be
turned. -/
def nodeUpdatedAftercare (node : FlowNode)
    (timeout : Duration) : Option (FlowMap σ × FlowNode × Bool) := do
  let due <- reportDue node timeout
  if due then report tables context map node else some (map, node, false)

/-- The time at which a flow that goes on is visited again. -/
def updatedTime (timestamp timeout : Duration) : Option Nat := do
  let latest <- addDuration timestamp timeMaxInterval
  some (nanosAsU64 (if latest < timeout then latest else timeout))

/-- A flow that goes on is reported and scheduled again. -/
def reschedule (timestamp timeout : Duration)
    (map : FlowMap σ) (key : FlowTimeKey) (node : FlowNode)
    (rest : List FlowNode) : Option (FlowMap σ) := do
  let (map, node, _) <- nodeUpdatedAftercare tables context map node timeout
  let time <- updatedTime timestamp timeout
  if key ∈ map.timeSet then
    some { map with
      timeSet := (map.timeSet.remove key).insert { key with
        timestampKey := time }
      nodeMap := map.nodeMap.insert key.mapKey
        (rest ++ [{ node with timestampKey := time }]) }
  else none

/-- The loop body over the keys that are due. -/
def solveKey (timestamp : Duration) (map : FlowMap σ) (key : FlowTimeKey) : Option (FlowMap σ) := do
  let nodes <- map.nodeMap.lookup key.mapKey
  let index <- nodes.findIdx? (·.timestampKey = key.timestampKey)
  let node <- nodes[index]?
  let rest := swapRemove nodes index
  let timeout <- addDuration node.recentTime node.timeout
  if timeout ≤ timestamp then
    nodeRemovedAftercare tables
      { map with
        timeSet := map.timeSet.remove key
        nodeMap := map.nodeMap.insert key.mapKey rest } node timeout
  else reschedule tables context timestamp timeout map key node rest

/-- The time window moves on to the second of the delayed time. -/
def moveWindow (timestamp delayed : Duration) : Option (FlowMap σ) := do
  let nextUnit := delayed / timeUnit
  let next <- mulU64 nextUnit timeUnit
  let start <- mulU64 map.startTimeInUnit timeUnit
  let needSolveKeys := map.timeSet.range ⟨start, {}⟩ ⟨next, {}⟩
  let map <- needSolveKeys.foldlM (solveKey tables context timestamp) { map with startTime := next }
  flushQueue context { map with startTimeInUnit := nextUnit } timestamp

/-- The window is not moved by less than a second. -/
def advance (timestamp : Duration) : Option (FlowMap σ) := do
  let delayed <- subDuration timestamp context.config.packetDelay
  let earliest <- subDuration delayed timeUnit
  if earliest < map.startTime then some map
  else moveWindow tables context map timestamp delayed

/-- The flow map and whether the time lies in its window or after it. -/
def injectFlushTicker (timestamp : Duration) : Option (FlowMap σ × Bool) :=
  if timestamp = 0 then
    (advance tables context map context.now).map (·, true)
  else if timestamp < map.startTime then some (map, false)
  else (advance tables context map timestamp).map (·, true)

/-- Both directions have packets in the current report. -/
def answered (node : FlowNode) : Bool :=
  decide (0 < node.flow.flowMetricsPeers.src.packetCount) &&
    decide (0 < node.flow.flowMetricsPeers.dst.packetCount)

/-- `rest` are the other nodes of the bucket. -/
def updateTcpNode (rest : List FlowNode) (node : FlowNode)
    (packet : MetaPacket) : Option (FlowMap σ) := do
  let timeKey : FlowTimeKey := ⟨node.timestampKey, key⟩
  let (table, node, closed) <- updateTcpFlow tables context map.serviceTable packet node
  let map := { map with serviceTable := table }
  if closed then
    nodeRemovedAftercare tables
      { map with
        timeSet := map.timeSet.remove timeKey
        nodeMap := map.nodeMap.insert key rest } node
      packet.lookupKey.timestamp
  else some { map with nodeMap := map.nodeMap.insert key (rest ++ [node]) }

/-- The two protocols differ in the timeout of a flow that has been
answered. -/
def updateAnsweredNode (answeredTimeout : Duration) (context : Context) (map : FlowMap σ)
    (key : FlowMapKey) (rest : List FlowNode) (node : FlowNode)
    (packet : MetaPacket) : Option (FlowMap σ) := do
  let node <- updateFlow context node packet
  let node :=
    if answered node then { node with timeout := answeredTimeout } else node
  some { map with nodeMap := map.nodeMap.insert key (rest ++ [node]) }

def updateUdpNode :
    FlowMap σ -> FlowMapKey -> List FlowNode -> FlowNode -> MetaPacket -> Option (FlowMap σ) :=
  updateAnsweredNode context.config.flowTimeout.closing context

def updateOtherNode :
    FlowMap σ -> FlowMapKey -> List FlowNode -> FlowNode -> MetaPacket -> Option (FlowMap σ) :=
  updateAnsweredNode context.config.flowTimeout.establishedRst context

def updateNode (rest : List FlowNode) (node : FlowNode) (packet : MetaPacket) :
    Option (FlowMap σ) :=
  match packet.lookupKey.proto with
  | .tcp => updateTcpNode tables context map key rest node packet
  | .udp => updateUdpNode context map key rest node packet
  | _ => updateOtherNode context map key rest node packet

/-- A packet of the flow at an index; `matched` is the packet with its direction
in the flow. -/
def joinFlow (nodes : List FlowNode) (index : Nat)
    (packet matched : MetaPacket) : Option (FlowMap σ) := do
  let node <- nodes[index]?
  let (map, node, reverse) <- nodeUpdatedAftercare tables context map node
    packet.lookupKey.timestamp
  updateNode tables context map key (swapRemove nodes index)
    (node.take packet) (MetaPacket.turn matched reverse)

/-- A packet that belongs to no flow opens one. A direction left by a failed
test is overwritten. -/
def openFlow : Option (FlowMap σ) := do
  let (table, node) <- newFlowNode tables context map.serviceTable map.id packet map.timeSet.length
  some { map with
    serviceTable := table
    timeSet := map.timeSet.insert (.new packet.lookupKey.timestamp key)
    nodeMap := map.nodeMap.insert key
      ((map.nodeMap.lookup key).getD [] ++ [node.take packet]) }

/-- The flow of a packet in its bucket, if there is one. -/
def findFlow : Option (List FlowNode × Nat × MetaPacket) := do
  let nodes <- map.nodeMap.lookup key
  let (matched, index) := FlowNode.position context.config nodes packet
  let index <- index
  some (nodes, index, matched)

/-- The part of `inject_meta_packet` behind the flush. -/
def acceptPacket : Option (FlowMap σ) := do
  let key <- FlowMapKey.new packet.lookupKey packet.tapPort
  match findFlow context map key packet with
  | none => openFlow tables context map key packet
  | some (nodes, index, matched) => joinFlow tables context map key nodes index packet matched

def injectMetaPacket : Option (FlowMap σ) := do
  let (map, inWindow) <- injectFlushTicker tables context map packet.lookupKey.timestamp
  if inWindow then acceptPacket tables context map packet else some map

end FlowMap

end Metaflow.FlowGenerator
