import Mathlib.Data.BitVec
import Mathlib.Tactic.Ring
import Metaflow.Collector.FlowAggrMoves

/-!
# Conservation of the aggregated flow records

Over any run, closed by a flush, the accepted records are divided among the
emitted ones, which have the id and the minute of their group and the sums of
its counts.
-/

namespace Metaflow.Collector.FlowAggr

open AgentCommon
open FlowGenerator (PerDirection addDuration subDuration durationLimit)
open Library

/-- The counts of a peer. -/
inductive Count where
  | byte
  | l3Byte
  | l4Byte
  | packet
  | totalByte
  | totalPacket
  deriving DecidableEq

def Count.of : Count -> FlowMetricsPeer -> BitVec 64
  | .byte, peer => peer.byteCount
  | .l3Byte, peer => peer.l3ByteCount
  | .l4Byte, peer => peer.l4ByteCount
  | .packet, peer => peer.packetCount
  | .totalByte, peer => peer.totalByteCount
  | .totalPacket, peer => peer.totalPacketCount

section

variable (count : Count) (direction : PacketDirection) (flow f : TaggedFlow)

theorem Count.of_sequentialMerge (peer other : FlowMetricsPeer) :
    count.of (peer.sequentialMerge other) = count.of peer + count.of other := by
  cases count <;> rfl

/-- The two peers in the direction that does not depend on whether the flow was
reversed. -/
def alignedPeers (flow : Flow) : PerDirection FlowMetricsPeer :=
  if flow.reversed then flow.flowMetricsPeers.swap else flow.flowMetricsPeers

/-- A count of an aligned direction. -/
def alignedCount (count : Count) (direction : PacketDirection) (f : TaggedFlow) : BitVec 64 :=
  count.of ((alignedPeers f.flow).get direction)

theorem alignedCount_align :
    alignedCount count direction (align flow f) = alignedCount count direction flow := by
  unfold align
  split
  · cases reversed : flow.flow.reversed <;>
      simp [alignedCount, alignedPeers, TaggedFlow.reverse, Flow.reverse,
        reversed, PerDirection.swap]
  · rfl

theorem reversed_align : (align flow f).flow.reversed = f.flow.reversed := by
  unfold align
  split
  case isTrue differ =>
      simpa [TaggedFlow.reverse, Flow.reverse] using (Bool.eq_not.mpr differ.symm).symm
  case isFalse same => exact not_not.mp same

theorem alignedCount_mergeInto : alignedCount count direction (mergeInto flow f) =
      alignedCount count direction flow + alignedCount count direction f := by
  rw [← alignedCount_align count direction flow f]
  have merged : (mergeInto flow f).flow.reversed = f.flow.reversed := rfl
  unfold alignedCount alignedPeers
  rw [merged, reversed_align]
  cases f.flow.reversed <;> cases direction <;>
    exact count.of_sequentialMerge _ _

end

/-- The group of a record has records of one id and minute, whose counts the
record sums up. -/
structure Combines (message : TaggedFlow) (records : List TaggedFlow) : Prop where
  nonempty : records ≠ []
  same : ∀ record ∈ records,
    record.flow.flowId = message.flow.flowId ∧ minute record = minute message
  counts : ∀ count direction, alignedCount count direction message =
    (records.map (alignedCount count direction)).sum

variable {records : List TaggedFlow} {f : TaggedFlow} {aggr : FlowAggr}

theorem combines_of_gathers (gathers : aggregation.Gathers flow records) :
    Combines flow records := by
  induction gathers with
  | opening record => exact ⟨by simp, by simp [aggregation], by simp [aggregation]⟩
  | @joining flow records record _ joined ih =>
    refine ⟨by simp, ?_, ?_⟩
    · intro other isIn
      change _ = (mergeInto flow record).flow.flowId ∧
        _ = minute (mergeInto flow record)
      rw [flowId_mergeInto, minute_mergeInto]
      rcases List.mem_append.mp isIn with earlier | isLast
      · exact ih.same other earlier
      · obtain rfl := List.mem_singleton.mp isLast
        exact ⟨joined.1.symm, joined.2.symm⟩
    · intro count direction
      change alignedCount count direction (mergeInto flow record) = _
      rw [alignedCount_mergeInto, ih.counts]
      simp

/-- What is sent for a flow differs from it in the start and the end. -/
theorem sendFlow_eq (isSent : sendFlow f = some message) :
    ∃ startTime endTime, message = { f with flow :=
        { f.flow with startTime := startTime, endTime := endTime } } := by
  unfold sendFlow at isSent
  by_cases forced : f.flow.closeType = .forcedReport
  · simp only [if_pos forced, Option.bind_eq_bind,
      Option.bind_eq_some_iff, Option.some.injEq] at isSent
    obtain ⟨endTime, _, rfl⟩ := isSent
    exact ⟨_, _, rfl⟩
  · simp only [if_neg forced, some_bind, Option.some.injEq] at isSent
    exact ⟨_, _, isSent.symm⟩

theorem combines_of_sent (isSent : aggregation.Sent message records) :
    Combines message records := by
  obtain ⟨flow, isMessage, gathers⟩ := isSent
  have combines := combines_of_gathers gathers
  obtain ⟨startTime, endTime, rfl⟩ := sendFlow_eq isMessage
  exact ⟨combines.nonempty, combines.same, combines.counts⟩

theorem asSecs_div (time : Duration) : asSecs time / secondsInMinute = time / minuteNanos :=
  Nat.div_div_eq_div_mul time 1000000000 60

/-- Both slots end before the largest time. -/
def Roomy (aggr : FlowAggr) : Prop :=
  aggr.slotStartTime + fromSecs (secondsInMinute * minuteSlots) < durationLimit

/-- The slot of a time at or after the start. -/
theorem minuteOf_eq_add (aligned : minuteNanos ∣ start) (notBefore : start ≤ time) :
    minuteOf time = minuteOf start + asSecs (time - start) / secondsInMinute := by
  obtain ⟨minutes, rfl⟩ := aligned
  obtain ⟨rest, rfl⟩ := Nat.exists_eq_add_of_le notBefore
  rw [asSecs_div, Nat.add_sub_cancel_left, minuteOf, minuteOf,
    Nat.mul_add_div (by decide), Nat.mul_div_cancel_left _ (by decide)]

/-- The slots up to the one of a time begin no later than it. -/
theorem add_fromSecs_le (notBefore : start ≤ time)
    (few : count ≤ asSecs (time - start) / secondsInMinute) :
    start + fromSecs (secondsInMinute * count) ≤ time := by
  rw [asSecs_div] at few
  have inside : minuteNanos * count ≤ time - start :=
    (Nat.mul_le_mul_left _ few).trans (Nat.mul_div_le _ _)
  rw [fromSecs_minutes]
  calc start + minuteNanos * count ≤ start + (time - start) := Nat.add_le_add_left inside start
    _ = time := Nat.add_sub_of_le notBefore

/-- The window that ends with the slot of a record that is in time. -/
theorem roomy_of_timely
    (inTime : start + fromSecs (secondsInMinute * (minuteSlots + rest)) ≤ f.flow.flowStatTime)
    (timely : Timely f) : start + fromSecs (secondsInMinute * (rest + 1)) +
      fromSecs (secondsInMinute * minuteSlots) < durationLimit := by
  have sum_eq : secondsInMinute * (rest + 1) + secondsInMinute * minuteSlots =
      secondsInMinute * (minuteSlots + rest) + secondsInMinute := by ring
  calc start + fromSecs (secondsInMinute * (rest + 1)) + fromSecs (secondsInMinute * minuteSlots)
      = start + fromSecs (secondsInMinute * (minuteSlots + rest)) + fromSecs secondsInMinute := by
        rw [Nat.add_assoc, ← fromSecs_add, sum_eq, fromSecs_add, Nat.add_assoc]
    _ ≤ f.flow.flowStatTime + fromSecs secondsInMinute := Nat.add_le_add_right inTime _
    _ < durationLimit := timely

/-- What a round does with the records it accepts. -/
structure Keeps (before : FlowAggr) (records : List TaggedFlow) (answer : Answer)
    (after : FlowAggr) : Prop where
  valid : after.Valid
  roomy : after.Roomy
  dropped_eq : after.dropBeforeWindow = before.dropBeforeWindow + if answer.dropped then 1 else 0
  moves : ∀ earlier, aggregation.Moves (before.ledger earlier) records
    (after.ledger (answer.sent + earlier))

theorem Effect.keeps (effect : Effect before records sent after) (roomy : after.Roomy) :
    Keeps before records ⟨sent, false⟩ after where
  valid := effect.valid
  roomy := roomy
  dropped_eq := by
    rw [effect.dropped_eq]
    exact (BitVec.add_zero _).symm
  moves := effect.moves

section

variable (valid : aggr.Valid) (roomy : aggr.Roomy)
include valid roomy

theorem Valid.merge (now : Duration) (timely : Timely f) :
    ∃ after answer, aggr.merge now f = some (after, answer) ∧
      Keeps aggr (if answer.dropped then [] else [f]) answer after := by
  unfold FlowAggr.merge
  by_cases before : f.flow.flowStatTime < aggr.slotStartTime
  · simp only [if_pos before]
    exact ⟨_, _, rfl, ⟨valid.length_eq, valid.aligned, valid.placed⟩, roomy,
      rfl, (Effect.refl valid).moves⟩
  · have notBefore := Nat.le_of_not_lt before
    have isMinute := minuteOf_eq_add valid.aligned notBefore
    simp only [if_neg before]
    generalize slot_eq :
      asSecs (f.flow.flowStatTime - aggr.slotStartTime) / secondsInMinute = slot at isMinute
    split_ifs with late
    · obtain ⟨rest, rfl⟩ : ∃ rest, slot = minuteSlots + rest := Nat.exists_eq_add_of_le late
      have inTime := add_fromSecs_le notBefore (Nat.le_of_eq slot_eq.symm)
      have count_eq : minuteSlots + rest - minuteSlots + 1 = rest + 1 := by
        rw [Nat.add_sub_cancel_left]
      have lastSlot : rest + 1 + (minuteSlots - 1) = minuteSlots + rest := by
        rw [minuteSlots]
        omega
      obtain ⟨middle, sent, flushed, effect, start_eq, _⟩ :=
        valid.flushSlots now (Nat.lt_of_le_of_lt
          (Nat.le_add_right _ _) (roomy_of_timely inTime timely))
      have isLast : minute f = minuteOf middle.slotStartTime + (minuteSlots - 1) := by
        rw [start_eq, minuteOf_add, Nat.add_assoc, lastSlot]
        exact isMinute
      obtain ⟨after, more, isMerged, effectRest, startRest_eq⟩ :=
        effect.valid.mergeSlot (by decide) isLast timely
      simp only [count_eq, flushed, isMerged, some_bind]
      refine ⟨_, _, rfl, (effect.trans effectRest).keeps ?_⟩
      rw [Roomy, startRest_eq, start_eq]
      exact roomy_of_timely inTime timely
    · have inside := Nat.lt_of_not_le late
      obtain ⟨after, sent, isMerged, effect, start_eq⟩ := valid.mergeSlot inside isMinute timely
      simp only [isMerged, some_bind]
      refine ⟨_, _, rfl, effect.keeps ?_⟩
      rwa [Roomy, start_eq]

/-- The accepted records of a round: stored ones that were not counted as before
the window. -/
def accepted : (Duration × Input) × Answer -> List TaggedFlow
  | ((_, .record f true), answer) => if answer.dropped then [] else [f]
  | _ => []

/-- The sums of times that a round forms exist. -/
def Admits (aggr : FlowAggr) : Duration × Input -> Prop
  | (_, .record f true) => Timely f
  | (_, .record _ false) => True
  | (_, .timeout) =>
    aggr.lastFlushTime + flushTimeout < durationLimit ∧
    aggr.slotStartTime + fromSecs (secondsInMinute * (minuteSlots + 1)) < durationLimit

instance (aggr : FlowAggr) (input : Duration × Input) : Decidable (aggr.Admits input) :=
  match input with
  | (_, .record _ true) => inferInstanceAs (Decidable (_ < _))
  | (_, .record _ false) => inferInstanceAs (Decidable True)
  | (_, .timeout) => inferInstanceAs (Decidable (_ ∧ _))

theorem Valid.flushIfDue (now due : Duration)
    (room : aggr.slotStartTime + fromSecs (secondsInMinute * (minuteSlots + 1)) < durationLimit) :
    ∃ after answer, aggr.flushIfDue now due = some (after, answer) ∧
      Keeps aggr [] answer after := by
  have later : secondsInMinute * (minuteSlots + 1) =
      secondsInMinute + secondsInMinute * minuteSlots := by ring
  rw [later, fromSecs_add, ← Nat.add_assoc] at room
  unfold FlowAggr.flushIfDue
  split_ifs with isDue
  · obtain ⟨after, sent, flushed, effect, _, start_eq⟩ :=
      valid.flushFrontSlotAndRotate now (Nat.lt_of_le_of_lt (Nat.le_add_right _ _) room)
    simp only [flushed, some_bind]
    refine ⟨_, _, rfl, effect.keeps ?_⟩
    rwa [Roomy, start_eq]
  · exact ⟨_, _, rfl, (Effect.refl valid).keeps roomy⟩

theorem Valid.round (admitted : aggr.Admits input) :
    ∃ after answer, aggr.round input = some (after, answer) ∧
      Keeps aggr (accepted (input, answer)) answer after := by
  match input with
  | (now, .record f true) => exact valid.merge roomy now admitted
  | (now, .record f false) => exact ⟨_, _, rfl, (Effect.refl valid).keeps roomy⟩
  | (now, .timeout) =>
    rw [FlowAggr.round, addDuration_of_lt admitted.1, Option.bind_some]
    exact valid.flushIfDue roomy now _ admitted.2

end

variable (time : Duration)

theorem roundToMinute_eq : roundToMinute time = minuteNanos * (time / minuteNanos) := by
  rw [roundToMinute, asSecs_div, Nat.mul_comm, fromSecs_minutes]

theorem dvd_roundToMinute : minuteNanos ∣ roundToMinute time := by
  rw [roundToMinute_eq]
  exact Nat.dvd_mul_right _ _

theorem roundToMinute_le : roundToMinute time ≤ time := by
  rw [roundToMinute_eq]
  exact Nat.mul_div_le _ _

/-- After some rounds the ledger is balanced, and the counter of the dropped
records is right. -/
structure Conserves (aggr : FlowAggr) (trace : List ((Duration × Input) × Answer)) : Prop where
  valid : aggr.Valid
  roomy : aggr.Roomy
  dropped_eq : aggr.dropBeforeWindow = BitVec.ofNat 64 (trace.countP fun entry => entry.2.dropped)
  balanced : aggregation.Balanced (aggr.ledger (trace.flatMap fun entry => entry.2.sent))
    (trace.flatMap accepted)

theorem Conserves.round (conserves : aggr.Conserves trace) (admitted : aggr.Admits input) :
    ∃ after answer, aggr.round input = some (after, answer) ∧
      after.Conserves (trace ++ [(input, answer)]) := by
  obtain ⟨after, answer, isRound, keeps⟩ := conserves.valid.round conserves.roomy admitted
  refine ⟨after, answer, isRound, keeps.valid, keeps.roomy, ?_, ?_⟩
  · rw [keeps.dropped_eq, conserves.dropped_eq, List.countP_append]
    cases dropped : answer.dropped <;> simp [dropped, BitVec.ofNat_add]
  · have balanced := (keeps.moves _).balanced conserves.balanced
    rw [add_comm (answer.sent : Multiset TaggedFlow)] at balanced
    simpa using balanced

theorem conserves_new (created : new start = some aggr)
    (room : start + fromSecs secondsInMinute < durationLimit) : aggr.Conserves [] := by
  simp only [new, subDuration, bind_eq_some, Option.some.injEq] at created
  obtain ⟨earlier, isEarlier, rfl⟩ := created
  have isRest : earlier + fromSecs secondsInMinute = start := by
    by_cases fits : fromSecs secondsInMinute ≤ start
    · rw [if_pos fits] at isEarlier
      rw [← Option.some.inj isEarlier, Nat.sub_add_cancel fits]
    · rw [if_neg fits] at isEarlier
      cases isEarlier
  refine ⟨.of_empty rfl (dvd_roundToMinute earlier), ?_, rfl, ?_⟩
  · have atMost := Nat.add_le_add_right (roundToMinute_le earlier)
      (fromSecs (secondsInMinute * minuteSlots))
    refine Nat.lt_of_le_of_lt atMost ?_
    have twice : secondsInMinute * minuteSlots = secondsInMinute + secondsInMinute := Nat.mul_two _
    rwa [twice, fromSecs_add, ← Nat.add_assoc, isRest]
  · rw [ledger, held_of_empty rfl]
    exact Gathering.balanced_empty

/-- A run of rounds, closed by a flush of all slots: the answers, and what the
flush sends. -/
def runAndFlush (aggr : FlowAggr) (inputs : List (Duration × Input)) (now : Duration) :
    Option (FlowAggr × List Answer × List TaggedFlow) := do
  let (aggr, answers) ← runSteps round aggr inputs
  let (aggr, last) ← aggr.flushSlots now minuteSlots
  some (aggr, answers, last)

/-- The sum of a count over the records of a flow in a minute. -/
def total (flowId : BitVec 64) (slotMinute : Nat) (count : Count) (direction : PacketDirection)
    (records : List TaggedFlow) : BitVec 64 :=
  ((records.filter fun record =>
    record.flow.flowId = flowId ∧ minute record = slotMinute).map
      (alignedCount count direction)).sum

theorem Conserves.flush (conserves : aggr.Conserves trace) (now : Duration) :
    ∃ flushed last, aggr.flushSlots now minuteSlots = some (flushed, last) ∧
      flushed.dropBeforeWindow = aggr.dropBeforeWindow ∧
      Covers Combines ((trace.flatMap fun entry => entry.2.sent) ++ last : List TaggedFlow)
        (trace.flatMap accepted : List TaggedFlow) := by
  obtain ⟨flushed, last, isFlushed, effect, _, empty⟩ :=
    conserves.valid.flushSlots now conserves.roomy
  have balanced := (effect.moves _).balanced conserves.balanced
  rw [ledger, empty le_rfl, add_comm (last : Multiset TaggedFlow),
    Multiset.coe_nil, add_zero] at balanced
  refine ⟨flushed, last, isFlushed, effect.dropped_eq, ?_⟩
  rw [← Multiset.coe_add]
  exact balanced.covers_sent.mono fun _ _ => combines_of_sent

/-- Groups keep the totals of each flow and minute. -/
theorem total_eq_of_covers {emitted : List TaggedFlow}
    (covers : Covers Combines emitted records) (flowId : BitVec 64) (slotMinute : Nat)
    (count : Count) (direction : PacketDirection) :
    total flowId slotMinute count direction emitted =
      total flowId slotMinute count direction records := by
  have selected := covers.filter (fun f => f.flow.flowId = flowId ∧ minute f = slotMinute)
    (fun f => f.flow.flowId = flowId ∧ minute f = slotMinute)
    fun message group combines record isIn => by
      rw [(combines.same record isIn).1, (combines.same record isIn).2]
  have sums := selected.sum_eq (alignedCount count direction)
    (alignedCount count direction) fun _ _ combines =>
      combines.counts count direction
  rw [Multiset.filter_coe, Multiset.filter_coe, Multiset.map_coe,
    Multiset.map_coe, Multiset.sum_coe, Multiset.sum_coe] at sums
  exact sums

/-- If all times that are formed exist, the accepted records are divided among
the emitted ones, and the totals of each flow and minute are conserved. -/
theorem records_conserved {start : Duration} {aggr : FlowAggr} (created : new start = some aggr)
    (room : start + fromSecs secondsInMinute < durationLimit) (inputs : List (Duration × Input))
    (guarded : Guarded Admits round aggr inputs) (now : Duration) :
    ∃ flushed answers last, aggr.runAndFlush inputs now = some (flushed, answers, last) ∧
      answers.length = inputs.length ∧
      flushed.dropBeforeWindow = BitVec.ofNat 64 (answers.countP Answer.dropped) ∧
      Covers Combines (answers.flatMap Answer.sent ++ last : List TaggedFlow)
        ((inputs.zip answers).flatMap accepted : List TaggedFlow) ∧
      ∀ flowId slotMinute count direction,
        total flowId slotMinute count direction (answers.flatMap Answer.sent ++ last) =
        total flowId slotMinute count direction ((inputs.zip answers).flatMap accepted) := by
  obtain ⟨final, answers, ran, length_eq, conserves⟩ :=
    runSteps_of_trace (fun _ _ _ conserves admitted =>
      conserves.round admitted) [] (conserves_new created room) inputs guarded
  rw [List.nil_append] at conserves
  obtain ⟨flushed, last, isFlushed, dropped_eq, covers⟩ := conserves.flush now
  have answers_eq : (inputs.zip answers).map Prod.snd = answers :=
    List.map_snd_zip (Nat.le_of_eq length_eq)
  have sent_eq : (inputs.zip answers).flatMap (fun entry => entry.2.sent) =
      answers.flatMap Answer.sent := by rw [← List.flatMap_map, answers_eq]
  have count_eq : (inputs.zip answers).countP (fun entry => entry.2.dropped) =
      answers.countP Answer.dropped := by
    nth_rewrite 2 [← answers_eq]
    rw [List.countP_map]
    rfl
  rw [sent_eq] at covers
  refine ⟨flushed, answers, last, ?_, length_eq, ?_, covers, total_eq_of_covers covers⟩
  · simp only [runAndFlush, ran, isFlushed, some_bind]
  · rw [dropped_eq, conserves.dropped_eq, count_eq]

/-- A record of the flow 1 with one packet from its source. -/
def packetRecord (time : Duration) (reversed : Bool) : TaggedFlow where
  flow :=
    { flowKey :=
        { tapType := .any
          tapPort := 0
          macSrc := 0
          macDst := 0
          ipSrc := .v4 0
          ipDst := .v4 0
          portSrc := 0
          portDst := 0
          proto := .tcp }
      flowMetricsPeers := ⟨{ packetCount := 1 }, {}⟩
      flowId := 1
      flowStatTime := time
      reversed := reversed }

/-- A new aggregator, two minutes behind the epoch. -/
def startingAggr : FlowAggr where
  slotStartTime := 60000000000
  stashs := [∅, ∅]
  lastFlushTime := 0
  dropBeforeWindow := 0
  out := 0

theorem new_eq_startingAggr : new 120000000000 = some startingAggr := rfl

/-- Two records of one minute and one of the next, with a timeout between
them. -/
def packetInputs : List (Duration × Input) :=
  [(0, .record (packetRecord 61000000000 false) true),
    (0, .record (packetRecord 62000000000 true) true),
    (0, .timeout),
    (0, .record (packetRecord 121000000000 false) true)]

theorem records_conserved_packets :
    ∃ flushed answers last,
      startingAggr.runAndFlush packetInputs 0 = some (flushed, answers, last) ∧
      Covers Combines (answers.flatMap Answer.sent ++ last : List TaggedFlow)
        ((packetInputs.zip answers).flatMap accepted : List TaggedFlow) := by
  obtain ⟨flushed, answers, last, ran, _, _, covers, _⟩ :=
    records_conserved new_eq_startingAggr (by decide) packetInputs (by decide +kernel) 0
  exact ⟨flushed, answers, last, ran, covers⟩

/-- A record of the last minute of all times is stored, but the flush that
should emit it fails. -/
theorem last_record_not_emitted :
    (runSteps round startingAggr
      [(0, .record (packetRecord (durationLimit - 1) false) true)]).isSome ∧
    (startingAggr.runAndFlush
      [(0, .record (packetRecord (durationLimit - 1) false) true)] 0).isNone := by
  decide +kernel

end Metaflow.Collector.FlowAggr
