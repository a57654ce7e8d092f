import Metaflow.FlowGenerator.FlowMapMoves

/-!
# The bucket of a flow and the packets that belong to it

A flow is looked for in the bucket of the packet's key only. Every packet that
belongs to a flow has the key of the packet that opened it, whichever end the
flow takes for its client.
-/

namespace Metaflow.FlowGenerator

open AgentCommon Library
open FlowMapKey
open FlowNode (swapped sameIps sameMacs samePorts)

namespace FlowMapKey

theorem unordered_comm (src dst : BitVec width) : unordered src dst = unordered dst src := by
  unfold unordered
  split_ifs with dstFirst srcFirst srcFirst
  · rw [BitVec.le_antisymm srcFirst dstFirst]
  · rfl
  · rfl
  · exact absurd (BitVec.le_of_lt (BitVec.not_le.mp dstFirst)) srcFirst

variable (key : LookupKey)

theorem l3Hash_swapped : l3Hash (swapped key) = l3Hash key := by
  simp only [l3Hash, swapped]
  cases key.srcIp <;> cases key.dstIp <;> simp only [unordered_comm]

/-- The ends of a packet may be exchanged. -/
theorem new_swapped (tapPort : BitVec 64) :
    new (swapped key) tapPort = new key tapPort := by
  have ports : l4Hash (swapped key) = l4Hash key := unordered_comm _ _
  have macs : macWord (swapped key) = macWord key := BitVec.xor_comm _ _
  have tap : tapWord (swapped key) tapPort = tapWord key tapPort := rfl
  have ethType : (swapped key).ethType = key.ethType := rfl
  simp only [new, l3Hash_swapped, ports, macs, tap, ethType]

end FlowMapKey

/-- What packets of one bucket share: the ports count for IP, the MAC addresses
for others. -/
structure SameEnds (key other : LookupKey) : Prop where
  ethType : key.ethType = other.ethType
  tapType : key.tapType = other.tapType
  srcIp : key.srcIp = other.srcIp
  dstIp : key.dstIp = other.dstIp
  ports : key.ethType = .ipv4 ∨ key.ethType = .ipv6 ->
    key.srcPort = other.srcPort ∧ key.dstPort = other.dstPort
  macs : key.ethType ≠ .ipv4 -> key.ethType ≠ .ipv6 ->
    key.srcMac = other.srcMac ∧ key.dstMac = other.dstMac

theorem SameEnds.new_eq (same : SameEnds key other) (tapPort : BitVec 64) :
    new key tapPort = new other tapPort := by
  have tap := same.tapType
  have ips : l3Hash key = l3Hash other := by simp only [l3Hash, same.srcIp, same.dstIp]
  simp only [new, tapWord, ips, tap, ← same.ethType]
  split
  case h_1 isIp =>
      obtain ⟨src, dst⟩ := same.ports (.inl isIp)
      simp only [l4Hash, src, dst]
  case h_2 isIp =>
      obtain ⟨src, dst⟩ := same.ports (.inr isIp)
      simp only [l4Hash, src, dst]
  case h_3 isArp =>
      obtain ⟨src, dst⟩ := same.macs (by simp [isArp]) (by simp [isArp])
      simp only [macWord, src, dst]
  case h_4 notIpv4 notIpv6 _ =>
      obtain ⟨src, dst⟩ := same.macs notIpv4 notIpv6
      simp only [macWord, src, dst]

namespace Flow

/-- The key of a packet from the client of the flow to its server. -/
def lookupKey (flow : Flow) : LookupKey where
  srcMac := flow.flowKey.macSrc
  dstMac := flow.flowKey.macDst
  srcIp := flow.flowKey.ipSrc
  dstIp := flow.flowKey.ipDst
  srcPort := flow.flowKey.portSrc
  dstPort := flow.flowKey.portDst
  ethType := flow.ethType
  proto := flow.flowKey.proto
  tapType := flow.flowKey.tapType

/-- The bucket of the flow. -/
def mapKey (flow : Flow) : Option FlowMapKey :=
  FlowMapKey.new flow.lookupKey flow.flowKey.tapPort

/-- A flow that is turned round stays in its bucket. -/
theorem mapKey_reverse (flow : Flow) (noStats : Bool) :
    (flow.reverse noStats).mapKey = flow.mapKey :=
  new_swapped flow.lookupKey flow.flowKey.tapPort

end Flow

theorem mapKey_settleDirection (node : FlowNode) (srcScore dstScore : Nat) (noStats : Bool) :
    (settleDirection node srcScore dstScore noStats).1.flow.mapKey = node.flow.mapKey := by
  unfold settleDirection
  cases isClientToServer srcScore dstScore with
  | true => rfl
  | false => exact node.flow.mapKey_reverse noStats

theorem mapKey_updateL4Direction
    (updated : updateL4Direction tables table packet node isFirstPacket noStats =
      some (table', turned, next)) : next.flow.mapKey = node.flow.mapKey := by
  simp only [updateL4Direction, bind_eq_some, Option.some.injEq, Prod.mk.injEq] at updated
  obtain ⟨_, -, -, -, rfl⟩ := updated
  exact mapKey_settleDirection ..

theorem mapKey_initFlow (context : Context) (id : BitVec 32) (packet : MetaPacket)
    (totalFlow : Nat) : (initFlow context id packet totalFlow).1.flow.mapKey =
      new packet.lookupKey packet.tapPort :=
  rfl

theorem mapKey_updateSynOrSynAckSeq (node : FlowNode) (packet : MetaPacket) :
    (updateSynOrSynAckSeq node packet).flow.mapKey = node.flow.mapKey := by
  simp only [updateSynOrSynAckSeq]
  split_ifs <;> rfl

section

variable {node : FlowNode} {id : BitVec 32}

theorem mapKey_newTcpNode
    (created : newTcpNode tables context table id packet totalFlow = some (table', node)) :
    node.flow.mapKey = new packet.lookupKey packet.tapPort := by
  simp only [newTcpNode, bind_eq_some, Option.some.injEq, Prod.mk.injEq] at created
  obtain ⟨⟨_, turned, settled⟩, isSettled, -, rfl⟩ := created
  rw [← mapKey_initFlow context id packet totalFlow, ← mapKey_updateL4Direction isSettled,
    mapKey_updateSynOrSynAckSeq]
  split <;> rfl

theorem mapKey_newFlowNode
    (created : newFlowNode tables context table id packet totalFlow = some (table', node)) :
    node.flow.mapKey = new packet.lookupKey packet.tapPort := by
  rw [newFlowNode] at created
  split at created
  · exact mapKey_newTcpNode created
  · simp only [newUdpNode, bind_eq_some, Option.some.injEq, Prod.mk.injEq] at created
    obtain ⟨⟨_, _, settled⟩, isSettled, -, rfl⟩ := created
    exact mapKey_updateL4Direction isSettled
  · obtain ⟨-, rfl⟩ : table = table' ∧ newOtherNode context id packet totalFlow = node := by
      simpa using created
    rfl

/-- A packet of a flow has the ends of the flow. -/
theorem sameEnds_of_matchNode (matched : (node.matchNode packet config).2 = true) :
    node.flow.flowKey.tapPort = packet.tapPort ∧ (SameEnds packet.lookupKey node.flow.lookupKey ∨
        SameEnds (swapped packet.lookupKey) node.flow.lookupKey) := by
  simp only [FlowNode.matchNode, sameMacs, sameIps, samePorts, swapped] at matched
  split_ifs at matched
  all_goals grind [SameEnds, Flow.lookupKey, swapped]

theorem new_eq_mapKey (matched : (node.matchNode packet config).2 = true) :
    new packet.lookupKey packet.tapPort = node.flow.mapKey := by
  obtain ⟨tapPort, forward | backward⟩ := sameEnds_of_matchNode matched
  · rw [forward.new_eq, Flow.mapKey, tapPort]
  · rw [← new_swapped, backward.new_eq, Flow.mapKey, tapPort]

end

/-- A flow whose counters, states and endpoints may have changed, and that may
be turned round. -/
structure IsLater (node later : FlowNode) : Prop where
  ethType : later.flow.ethType = node.flow.ethType
  flowKey : later.flow.flowKey = node.flow.flowKey ∨
    later.flow.flowKey = node.flow.flowKey.reverse

theorem IsLater.mapKey (isLater : IsLater node later) : later.flow.mapKey = node.flow.mapKey := by
  rcases isLater.flowKey with same | turned
  · simp only [Flow.mapKey, Flow.lookupKey, same, isLater.ethType]
  · rw [← node.flow.mapKey_reverse false]
    simp only [Flow.mapKey, Flow.lookupKey, turned, isLater.ethType, Flow.reverse]

/-- The packets of a flow have the key of its first packet, and a packet and its
reply share one. -/
theorem new_eq_of_matchNode :
    (∀ {σ : Type} (tables : Tables σ) (context : Context) (table after : σ) (id : BitVec 32)
        (first packet : MetaPacket) (totalFlow : Nat) (node later : FlowNode)
        (config : FlowConfig),
      newFlowNode tables context table id first totalFlow = some (after, node) ->
      IsLater node later -> (later.matchNode packet config).2 = true ->
      FlowMapKey.new packet.lookupKey packet.tapPort =
        FlowMapKey.new first.lookupKey first.tapPort) ∧
    ∀ (key : LookupKey) (tapPort : BitVec 64),
      FlowMapKey.new (swapped key) tapPort = FlowMapKey.new key tapPort := by
  refine ⟨?_, new_swapped⟩
  intro _ tables context table after id first packet totalFlow node later config created isLater
    matched
  rw [new_eq_mapKey matched, isLater.mapKey, mapKey_newFlowNode created]

/-- An echo request and its reply. -/
theorem new_eq_of_matchNode_ping :
    FlowMapKey.new (swapped (FlowMap.ping 2).lookupKey) 0 =
      FlowMapKey.new (FlowMap.ping 1).lookupKey 0 :=
  new_eq_of_matchNode.1 FlowMap.plainTables {} () () 0 (FlowMap.ping 1)
    { FlowMap.ping 2 with lookupKey := swapped (FlowMap.ping 2).lookupKey } 0
    (newOtherNode {} 0 (FlowMap.ping 1) 0) (newOtherNode {} 0 (FlowMap.ping 1) 0) {}
    rfl ⟨rfl, .inl rfl⟩ (by decide)

end Metaflow.FlowGenerator
