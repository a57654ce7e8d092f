import Mathlib.Data.BitVec
import Metaflow.Collector.TaggedFlow

/-!
# The totals of merged records

A record also has totals of the whole flow. When two are merged the server takes
those of the later record, and the agent adds them up.
-/

namespace Metaflow.Collector

/-- `SequentialMerge` of the server differs from that of the agent in the totals
only. -/
def FlowMetricsPeer.goSequentialMerge (peer other : FlowMetricsPeer) : FlowMetricsPeer :=
  { peer.sequentialMerge other with
    totalByteCount := other.totalByteCount
    totalPacketCount := other.totalPacketCount }

/-- The bytes and packets that an end has sent in the life of the flow. -/
def FlowMetricsPeer.lifetimeTotals (peer : FlowMetricsPeer) : BitVec 64 × BitVec 64 :=
  (peer.totalByteCount, peer.totalPacketCount)

/-- The totals of a flow: those of its ends, and the retransmissions. -/
def Flow.lifetimeTotals (flow : Flow) :
    (BitVec 64 × BitVec 64) × (BitVec 64 × BitVec 64) × BitVec 32 :=
  (flow.flowMetricsPeers.src.lifetimeTotals, flow.flowMetricsPeers.dst.lifetimeTotals,
    (flow.flowPerfStats.map fun stats => stats.tcp.totalRetransCount).getD 0)

/-- The server ends with the totals of the last record. -/
theorem foldl_goSequentialMerge (first last : FlowMetricsPeer) (between : List FlowMetricsPeer) :
    ((between ++ [last]).foldl .goSequentialMerge first).lifetimeTotals = last.lifetimeTotals := by
  rw [List.foldl_concat]
  rfl

theorem lifetimeTotals_sequentialMerge (flow other : Flow) :
    (flow.sequentialMerge other).lifetimeTotals = flow.lifetimeTotals + other.lifetimeTotals := by
  refine Prod.ext rfl (Prod.ext rfl ?_)
  rcases found : flow.flowPerfStats with _ | stats <;>
    rcases found' : other.flowPerfStats with _ | stats' <;>
    simp [Flow.lifetimeTotals, Flow.sequentialMerge, found, found', FlowPerfStats.sequentialMerge,
      TcpPerfStats.sequentialMerge]

/-- The agent ends with the sums of all totals. -/
theorem lifetimeTotals_foldl (first : Flow) (rest : List Flow) :
    (rest.foldl Flow.sequentialMerge first).lifetimeTotals =
      ((first :: rest).map Flow.lifetimeTotals).sum := by
  induction rest generalizing first with
  | nil => simp
  | cons second rest ih =>
    rw [List.foldl_cons, ih]
    simp only [List.map_cons, List.sum_cons, lifetimeTotals_sequentialMerge, add_assoc]

/-- Merged records have the totals of the last one exactly if those of the
others sum to zero. -/
theorem lifetimeTotals_foldl_iff (first last : Flow) (between : List Flow) :
    ((between ++ [last]).foldl Flow.sequentialMerge first).lifetimeTotals = last.lifetimeTotals ↔
      ((first :: between).map Flow.lifetimeTotals).sum = 0 := by
  rw [List.foldl_concat, lifetimeTotals_sequentialMerge, lifetimeTotals_foldl, add_eq_right]

/-- Two seconds with a packet of 100 bytes each give a total of 300 bytes. -/
theorem lifetimeTotals_foldl_two :
    let record (bytes packets : BitVec 64) : Flow :=
      { flowKey := ⟨.any, 0, 0, 0, .v4 0, .v4 0, 0, 0, .tcp⟩
        flowMetricsPeers := ⟨{ totalByteCount := bytes, totalPacketCount := packets }, {}⟩
        flowId := 1
        flowStatTime := 0 }
    (([] ++ [record 200 2]).foldl Flow.sequentialMerge (record 100 1)).lifetimeTotals =
        (record 300 3).lifetimeTotals ∧
      (record 300 3).lifetimeTotals ≠ (record 200 2).lifetimeTotals := by
  decide

end Metaflow.Collector
