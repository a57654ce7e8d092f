import Metaflow.FlowGenerator.FlowMap

/-!
# The account of a flow

The packets of a flow, how many are not yet reported and how many there were.
Every function on nodes is described by what it does to the account; corrections
of the direction do nothing to it.
-/

namespace Metaflow.FlowGenerator

open AgentCommon
open Library

variable {σ : Type}

structure Account where
  flowId : BitVec 64
  startTime : Duration
  packets : List MetaPacket
  packetCount : Nat
  byteCount : Nat
  totalPacketCount : Nat
  totalByteCount : Nat

namespace Account

/-- The packet is one of the flow. -/
def note (account : Account) (packet : MetaPacket) : Account :=
  { account with packets := account.packets ++ [packet] }

/-- One more packet is counted. -/
def count (account : Account) (length : Nat) : Account :=
  { account with
    packetCount := account.packetCount + 1
    byteCount := account.byteCount + length
    totalPacketCount := account.totalPacketCount + 1
    totalByteCount := account.totalByteCount + length }

def take (account : Account) (packet : MetaPacket) : Account :=
  (account.note packet).count packet.packetLen

/-- The counts of the period start again. -/
def report (account : Account) : Account :=
  { account with
    packetCount := 0
    byteCount := 0 }

/-- The account of a flow before its first packet is noted: that packet is
already counted. -/
def first (flowId : BitVec 64) (startTime : Duration) (length : Nat) : Account :=
  ⟨flowId, startTime, [], 1, length, 1, length⟩

end Account

/-- The sum of a count over both directions. -/
def Flow.both (flow : Flow) (count : FlowMetricsPeer -> Nat) : Nat :=
  count flow.flowMetricsPeers.src + count flow.flowMetricsPeers.dst

def Flow.account (flow : Flow) : Account where
  flowId := flow.flowId
  startTime := flow.startTime
  packets := flow.packets
  packetCount := flow.both (·.packetCount)
  byteCount := flow.both (·.byteCount)
  totalPacketCount := flow.both (·.totalPacketCount)
  totalByteCount := flow.both (·.totalByteCount)

/-- The node keeps its place in the time set and its account. -/
structure Keeps (node next : FlowNode) : Prop where
  timestampKey : next.timestampKey = node.timestampKey
  account : next.flow.account = node.flow.account

namespace Keeps

theorem refl (node : FlowNode) : Keeps node node := ⟨rfl, rfl⟩

theorem trans (first : Keeps node middle) (second : Keeps middle next) : Keeps node next :=
  ⟨second.timestampKey.trans first.timestampKey, second.account.trans first.account⟩

end Keeps

theorem account_reverse (flow : Flow) (noStats : Bool) :
    (flow.reverse noStats).account = flow.account := by
  simp only [Flow.account, Flow.both, Flow.reverse, PerDirection.swap, Nat.add_comm]

theorem keeps_reverseFlow (node : FlowNode) (noStats : Bool) :
    Keeps node (reverseFlow node noStats) :=
  ⟨rfl, account_reverse node.flow noStats⟩

theorem keeps_settleDirection (node : FlowNode) (srcScore dstScore : Nat) (noStats : Bool) :
    Keeps node (settleDirection node srcScore dstScore noStats).1 := by
  simp only [settleDirection]
  split
  · exact (keeps_reverseFlow node noStats).trans ⟨rfl, rfl⟩
  · exact ⟨rfl, rfl⟩

theorem keeps_updateL4Direction (updated : updateL4Direction tables table packet node isFirstPacket
      noStats = some (table', packet', next)) : Keeps node next := by
  simp only [updateL4Direction, Option.bind_eq_bind,
    Option.bind_eq_some_iff, Option.some.injEq, Prod.mk.injEq] at updated
  obtain ⟨scores, -, -, -, rfl⟩ := updated
  exact keeps_settleDirection ..

theorem keeps_updateFlowDirection
    (updated : updateFlowDirection tables table node = some (table', next, reverse)) :
    Keeps node next := by
  simp only [updateFlowDirection] at updated
  split at updated
  · simp only [bind_eq_some, Option.some.injEq, Prod.mk.injEq] at updated
    obtain ⟨scores, -, -, same⟩ := updated
    have settled := keeps_settleDirection node scores.2.1 scores.2.2 false
    rwa [same] at settled
  · obtain ⟨-, rfl, -⟩ : table = table' ∧ node = next ∧ false = reverse := by
      simpa using updated
    exact .refl node

/-- The node keeps its place in the time set and counts one more packet. -/
structure Counts (length : Nat) (node next : FlowNode) : Prop where
  timestampKey : next.timestampKey = node.timestampKey
  account : next.flow.account = node.flow.account.count length

namespace Counts

theorem after (counted : Counts length middle next)
    (kept : Keeps node middle) : Counts length node next :=
  ⟨counted.timestampKey.trans kept.timestampKey, by rw [counted.account, kept.account]⟩

theorem before
    (counted : Counts length node middle) (kept : Keeps middle next) : Counts length node next :=
  ⟨kept.timestampKey.trans counted.timestampKey, kept.account.trans counted.account⟩

end Counts

theorem eq_add_of_addU64 (added : addU64 left right = some sum) : sum = left + right := by
  rw [addU64, Option.ite_none_right_eq_some] at added
  exact (Option.some.inj added.2).symm

theorem keeps_touch (touched : node.touch timestamp = some next) : Keeps node next := by
  simp only [FlowNode.touch] at touched
  split at touched
  · obtain ⟨duration, -, rfl⟩ := Option.map_eq_some_iff.mp touched
    exact ⟨rfl, rfl⟩
  · obtain rfl := Option.some.inj touched
    exact .refl node

theorem account_setFlowStatTime (flow : Flow) (time : Duration) :
    ({ flow with flowStatTime := time } : Flow).account = flow.account := rfl

theorem keeps_startTick (node : FlowNode) (timestamp : Duration) :
    Keeps node (node.startTick timestamp) := by
  rw [FlowNode.startTick]
  split
  · exact .refl node
  · exact ⟨rfl, account_setFlowStatTime node.flow _⟩

theorem keeps_refreshPolicy (context : Context) (node : FlowNode) (packet : MetaPacket) :
    Keeps node (node.refreshPolicy context packet) := by
  rw [FlowNode.refreshPolicy]
  split
  · exact .refl node
  · exact ⟨rfl, rfl⟩

theorem counts_countPacket (counted : node.countPacket packet = some next) :
    Counts packet.packetLen node next := by
  simp only [FlowNode.countPacket, FlowMetricsPeer.count, bind_eq_some, Option.some.injEq]
    at counted
  obtain ⟨peer, ⟨packets, morePackets, total, moreTotal, bytes, moreBytes,
    totalBytes, moreTotalBytes, rfl⟩, rfl⟩ := counted
  have isPackets := eq_add_of_addU64 morePackets
  have isTotal := eq_add_of_addU64 moreTotal
  have isBytes := eq_add_of_addU64 moreBytes
  have isTotalBytes := eq_add_of_addU64 moreTotalBytes
  refine ⟨rfl, ?_⟩
  simp only [Flow.account, Flow.both, Account.count, Account.mk.injEq, true_and]
  cases direction : packet.direction <;>
    simp only [direction, PerDirection.get, PerDirection.set] at * <;>
    omega

theorem counts_updateFlow (updated : updateFlow context node packet = some next) :
    Counts packet.packetLen node next := by
  simp only [updateFlow, bind_eq_some] at updated
  obtain ⟨touched, isTouched, counted⟩ := updated
  exact (counts_countPacket counted).after ((keeps_touch isTouched).trans
      ((keeps_startTick touched _).trans (keeps_refreshPolicy context _ packet)))

section

variable (node : FlowNode) (packet : MetaPacket)

theorem keeps_orTcpFlags : Keeps node (node.orTcpFlags packet) := by
  refine ⟨rfl, ?_⟩
  cases direction : packet.direction <;>
    simp [FlowNode.orTcpFlags, Flow.account, Flow.both, PerDirection.get,
      PerDirection.set, direction]

theorem keeps_updateSynOrSynAckSeq : Keeps node (updateSynOrSynAckSeq node packet) := by
  simp only [updateSynOrSynAckSeq]
  split_ifs <;> exact ⟨rfl, rfl⟩

theorem keeps_updateTcpKeepaliveSeq : Keeps node (updateTcpKeepaliveSeq node packet) := by
  simp only [updateTcpKeepaliveSeq]
  cases isKeepalive node packet <;> cases packet.direction <;>
    exact ⟨rfl, rfl⟩

end

theorem keeps_correctDirection
    (corrected : correctDirection tables table packet node = some (table', packet', next)) :
    Keeps node next := by
  simp only [correctDirection] at corrected
  split at corrected
  · simp only [bind_eq_some, Option.some.injEq, Prod.mk.injEq] at corrected
    obtain ⟨⟨_, _, middle⟩, updated, -, -, rfl⟩ := corrected
    exact (keeps_updateL4Direction updated).trans (keeps_updateSynOrSynAckSeq ..)
  · obtain ⟨-, -, rfl⟩ : table = table' ∧ packet = packet' ∧ node = next := by
      simpa using corrected
    exact .refl node

theorem keeps_fail (node : FlowNode) (config : FlowConfig) :
    Keeps node (node.fail config) := ⟨rfl, rfl⟩

theorem keeps_updateFlowStateMachine (tables : Tables σ) (config : FlowConfig) (node : FlowNode)
    (flags : TcpFlags) (direction : PacketDirection) :
    Keeps node (updateFlowStateMachine tables config node flags direction).1 := ⟨rfl, rfl⟩

theorem counts_updateTcpFlow
    (updated : updateTcpFlow tables context table packet node = some (table', next, closed)) :
    Counts packet.packetLen node next := by
  simp only [updateTcpFlow, bind_eq_some, Option.some.injEq, Prod.mk.injEq] at updated
  obtain ⟨counted, isCounted, ⟨_, turned, corrected⟩, isCorrected, -, same⟩ := updated
  have upToHere := ((counts_updateFlow isCounted).after (keeps_orTcpFlags node packet)).before
    ((keeps_correctDirection isCorrected).trans (keeps_updateTcpKeepaliveSeq corrected turned))
  split at same
  · obtain ⟨rfl, -⟩ := Prod.mk.inj same
    exact upToHere.before (keeps_fail ..)
  · have last := keeps_updateFlowStateMachine tables context.config
      (updateTcpKeepaliveSeq corrected turned) packet.tcpData.flags
      packet.direction
    rw [same] at last
    exact upToHere.before last

/-- The node of a flow that has been opened by one packet. -/
structure IsFirst (id : BitVec 32) (packet : MetaPacket) (totalFlow : Nat)
    (node : FlowNode) : Prop where
  timestampKey : node.timestampKey = nanosAsU64 packet.lookupKey.timestamp
  account : node.flow.account =
    .first (generateFlowId packet.lookupKey.timestamp id totalFlow)
      packet.lookupKey.timestamp packet.packetLen

theorem IsFirst.keep {id : BitVec 32}
    (first : IsFirst id packet totalFlow node) (kept : Keeps node next) :
    IsFirst id packet totalFlow next :=
  ⟨kept.timestampKey.trans first.timestampKey, kept.account.trans first.account⟩

section

variable (context : Context) (id : BitVec 32) (packet : MetaPacket) (totalFlow : Nat)

theorem isFirst_initFlow : IsFirst id packet totalFlow (initFlow context id packet totalFlow).1 :=
  ⟨rfl, rfl⟩

theorem isFirst_openNode : IsFirst id packet totalFlow (openNode context id packet totalFlow).1 :=
  (isFirst_initFlow context id packet totalFlow).keep ⟨rfl, rfl⟩

end

theorem isFirst_newTcpNode {id : BitVec 32}
    (created : newTcpNode tables context table id packet totalFlow = some (table', node)) :
    IsFirst id packet totalFlow node := by
  simp only [newTcpNode, bind_eq_some, Option.some.injEq, Prod.mk.injEq] at created
  obtain ⟨⟨_, turned, settled⟩, isSettled, -, rfl⟩ := created
  have upToHere := (isFirst_initFlow context id packet totalFlow).keep
    (keeps_updateL4Direction isSettled)
  refine .keep ?_ (keeps_updateSynOrSynAckSeq ..)
  refine .keep ?_ (keeps_updateFlowStateMachine ..)
  split
  · exact upToHere.keep (keeps_fail ..)
  · exact upToHere

theorem isFirst_newFlowNode {id : BitVec 32}
    (created : newFlowNode tables context table id packet totalFlow = some (table', node)) :
    IsFirst id packet totalFlow node := by
  rw [newFlowNode] at created
  split at created
  · exact isFirst_newTcpNode created
  · simp only [newUdpNode, bind_eq_some, Option.some.injEq, Prod.mk.injEq] at created
    obtain ⟨⟨_, _, settled⟩, isSettled, -, rfl⟩ := created
    exact (isFirst_openNode context id packet totalFlow).keep (keeps_updateL4Direction isSettled)
  · obtain ⟨-, rfl⟩ : table = table' ∧ newOtherNode context id packet totalFlow = node := by
      simpa using created
    exact isFirst_openNode context id packet totalFlow

/-- The records of a flow that goes on, and the account it goes on with. -/
inductive Reports (account : Account) : List Flow -> Account -> Prop
  | nothing : Reports account [] account
  | period
      (record : Flow)
      (isAccount : record.account = account)
      (forced : record.closeType = .forcedReport) :
      Reports account [record] account.report

/-- The last record of a flow. -/
structure Closes (account : Account) (record : Flow) : Prop where
  isAccount : record.account = account
  notForced : record.closeType ≠ .forcedReport

theorem account_resetFlowStatInfo (node : FlowNode) :
    node.resetFlowStatInfo.flow.account = node.flow.account.report := rfl

theorem updateCloseType_ne_forcedReport (flow : Flow) (state : FlowState) :
    (flow.updateCloseType state).closeType ≠ .forcedReport := by
  cases state <;> simp only [Flow.updateCloseType] <;> (try split) <;> simp

namespace FlowMap

/-- All flows that have been reported, in their order. -/
def emitted (map : FlowMap σ) : List Flow :=
  map.outputQueue ++ map.outputBuffer

/-- The call has only used the service table and the output. -/
structure SameTables (map next : FlowMap σ) : Prop where
  id : next.id = map.id
  nodeMap : next.nodeMap = map.nodeMap
  timeSet : next.timeSet = map.timeSet
  startTime : next.startTime = map.startTime
  startTimeInUnit : next.startTimeInUnit = map.startTimeInUnit

theorem pushToFlowStatsQueue_spec (map : FlowMap σ) (flow : Flow) :
    SameTables map (map.pushToFlowStatsQueue flow) ∧
      (map.pushToFlowStatsQueue flow).emitted = map.emitted ++ [flow] := by
  simp only [pushToFlowStatsQueue]
  split <;> exact ⟨⟨rfl, rfl, rfl, rfl, rfl⟩, by simp [emitted]⟩

theorem flushQueue_spec (flushed : flushQueue context map now = some next) :
    SameTables map next ∧ next.emitted = map.emitted := by
  simp only [flushQueue, bind_eq_some, Option.some.injEq] at flushed
  obtain ⟨elapsed, -, rfl⟩ := flushed
  split
  · exact ⟨⟨rfl, rfl, rfl, rfl, rfl⟩, by simp [emitted]⟩
  · exact ⟨⟨rfl, rfl, rfl, rfl, rfl⟩, rfl⟩

/-- The last report has the account of the flow. -/
theorem nodeRemovedAftercare_spec
    (removed : nodeRemovedAftercare tables map node timeout = some next) : SameTables map next ∧
      ∃ record, next.emitted = map.emitted ++ [record] ∧ Closes node.flow.account record := by
  simp only [nodeRemovedAftercare, Option.bind_eq_bind,
    Option.bind_eq_some_iff, Option.some.injEq] at removed
  obtain ⟨⟨table, turned, _⟩, isTurned, rfl⟩ := removed
  obtain ⟨same, pushed⟩ := pushToFlowStatsQueue_spec { map with serviceTable := table }
    { turned.flow.updateCloseType turned.flowState with
      endTime := timeout
      flowStatTime := roundDown timeout statisticalInterval }
  exact ⟨⟨same.1, same.2, same.3, same.4, same.5⟩, _, pushed,
    (keeps_updateFlowDirection isTurned).account,
    updateCloseType_ne_forcedReport turned.flow turned.flowState⟩

variable {after : FlowNode}

theorem report_spec (reported : report tables context map node = some (next, after, reverse)) :
    SameTables map next ∧ after.timestampKey = node.timestampKey ∧
      ∃ records, next.emitted = map.emitted ++ records ∧
        Reports node.flow.account records after.flow.account := by
  simp only [report, bind_eq_some, Option.some.injEq] at reported
  obtain ⟨⟨table, turned, _⟩, isTurned, outcome⟩ := reported
  have kept := keeps_updateFlowDirection isTurned
  split at outcome
  · obtain ⟨same, pushed⟩ := pushToFlowStatsQueue_spec { map with serviceTable := table }
      { turned.flow with closeType := .forcedReport }
    obtain ⟨rfl, rfl, -⟩ : _ = next ∧ _ = after ∧ _ = reverse := by
      simpa using outcome
    refine ⟨⟨same.1, same.2, same.3, same.4, same.5⟩, kept.timestampKey, _, pushed, ?_⟩
    have restarted : ({ turned with
        flow := { turned.flow with closeType := .forcedReport } }
          : FlowNode).resetFlowStatInfo.flow.account =
        node.flow.account.report := by
      rw [account_resetFlowStatInfo, ← kept.account]
      rfl
    rw [restarted]
    exact .period _ kept.account rfl
  · obtain ⟨rfl, rfl, -⟩ : _ = next ∧ _ = after ∧ _ = reverse := by
      simpa using outcome
    refine ⟨⟨rfl, rfl, rfl, rfl, rfl⟩, kept.timestampKey, [], (List.append_nil _).symm, ?_⟩
    have unchanged : ({ turned.flow with
        closeType := .forcedReport } : Flow).account = node.flow.account := kept.account
    rw [unchanged]
    exact .nothing

theorem nodeUpdatedAftercare_spec
    (updated : nodeUpdatedAftercare tables context map node timeout = some (next, after, reverse)) :
    SameTables map next ∧ after.timestampKey = node.timestampKey ∧
      ∃ records, next.emitted = map.emitted ++ records ∧
        Reports node.flow.account records after.flow.account := by
  simp only [nodeUpdatedAftercare, bind_eq_some] at updated
  obtain ⟨due, -, outcome⟩ := updated
  split at outcome
  · exact report_spec outcome
  · obtain ⟨rfl, rfl, -⟩ : map = next ∧ node = after ∧ false = reverse := by
      simpa using outcome
    exact ⟨⟨rfl, rfl, rfl, rfl, rfl⟩, rfl, [], (List.append_nil _).symm, .nothing⟩

end FlowMap

end Metaflow.FlowGenerator
