import Metaflow.Collector.TaggedFlow

/-!
# Reports of TCP performance

What `perf/tcp.rs` has measured of a flow and the record it reports. Index 0 of
the source is the side of the first packet, here `src`. For a flow marked
reversed the record is to be that of the exchanged sides.
-/

namespace Metaflow.FlowGenerator

open AgentCommon (Duration)
open Collector (TcpPerfStats)

structure TimeStats where
  count : BitVec 32 := 0
  sum : Duration := 0
  max : Duration := 0
  updated : Bool := false

structure PeriodPerfData where
  art : PerDirection TimeStats := ⟨{}, {}⟩
  srt : PerDirection TimeStats := ⟨{}, {}⟩
  retrans : PerDirection (BitVec 32) := ⟨0, 0⟩
  zeroWinCount : PerDirection (BitVec 32) := ⟨0, 0⟩
  updated : Bool := false

structure PerfData where
  rtt : PerDirection TimeStats := ⟨{}, {}⟩
  retransSum : BitVec 32 := 0
  rttFull : Option Duration := none
  periodData : PeriodPerfData := {}

/-- `as_micros() as u32` -/
def micros (duration : Duration) : BitVec 32 :=
  BitVec.ofNat 32 (duration / 1000)

/-- The maximum, sum and count that a default record gets. -/
def TimeStats.reported (stats : TimeStats) : BitVec 32 × BitVec 32 × BitVec 32 :=
  if stats.updated then (micros stats.max, micros stats.sum, stats.count) else (0, 0, 0)

namespace PerfData

/-- `update_perf_stats` of a default record. -/
def updatePerfStats (perf : PerfData) (flowReversed : Bool) : TcpPerfStats :=
  let (rttClientMax, rttClientSum, rttClientCount) := perf.rtt.src.reported
  let (rttServerMax, rttServerSum, rttServerCount) := perf.rtt.dst.reported
  let stats : TcpPerfStats :=
    { rtt := (perf.rttFull.map micros).getD 0, rttClientMax, rttClientSum, rttClientCount,
      rttServerMax, rttServerSum, rttServerCount }
  let pd := perf.periodData
  if !pd.updated then stats
  else
    let (artMax, artSum, artCount) := (if flowReversed then pd.art.src else pd.art.dst).reported
    let (srtMax, srtSum, srtCount) := (if flowReversed then pd.srt.src else pd.srt.dst).reported
    let stats := { stats with
      countsPeers :=
        ⟨⟨pd.retrans.src, pd.zeroWinCount.src⟩, ⟨pd.retrans.dst, pd.zeroWinCount.dst⟩⟩
      totalRetransCount := perf.retransSum, artMax, artSum, artCount, srtMax, srtSum, srtCount }
    if flowReversed then stats.reverse else stats

/-- The record, and the data that the next period starts with. -/
def copyAndResetData (perf : PerfData) (flowReversed : Bool) : TcpPerfStats × PerfData :=
  (perf.updatePerfStats flowReversed, { perf with
    rtt := ⟨{ perf.rtt.src with updated := false }, { perf.rtt.dst with updated := false }⟩
    rttFull := none
    periodData := {} })

/-- The data with the sides exchanged. -/
def exchange (perf : PerfData) : PerfData :=
  { perf with
    rtt := perf.rtt.swap
    periodData := { perf.periodData with
      art := perf.periodData.art.swap
      srt := perf.periodData.srt.swap
      retrans := perf.periodData.retrans.swap
      zeroWinCount := perf.periodData.zeroWinCount.swap } }

/-- The record of a reversed flow is that of the exchanged sides exactly if both
report the same maximum, and the same sum and count unless there is something
new. -/
theorem copyAndResetData_reversed_iff (perf : PerfData) :
    (perf.copyAndResetData true).1 = (perf.exchange.copyAndResetData false).1 ↔
      perf.rtt.src.reported.1 = perf.rtt.dst.reported.1 ∧
        (perf.periodData.updated = true ∨
          perf.rtt.src.reported.2 = perf.rtt.dst.reported.2) := by
  simp only [copyAndResetData, updatePerfStats, exchange, PerDirection.swap, TcpPerfStats.reverse]
  generalize perf.rtt.src.reported = client, perf.rtt.dst.reported = server
  by_cases anew : perf.periodData.updated = true
  · simp [anew, and_comm, eq_comm]
  · simp [anew, Prod.ext_iff]
    tauto

/-- A handshake of one millisecond, measured at the SYN/ACK. -/
theorem copyAndResetData_reversed_handshake :
    let perf : PerfData := { rtt := ⟨{}, ⟨1, 1000000, 1000000, true⟩⟩ }
    (perf.copyAndResetData true).1.rttClientMax = 0 ∧
      (perf.exchange.copyAndResetData false).1.rttClientMax = 1000 := by
  decide

end PerfData
end Metaflow.FlowGenerator
