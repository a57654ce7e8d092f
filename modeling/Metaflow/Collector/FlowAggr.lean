import Metaflow.Collector.TaggedFlow
import Metaflow.FlowGenerator.FlowMap

/-!
# The aggregator of flow records

`flow_aggr.rs`: the records of a flow within one minute are merged into one, in
two slots that a later record moves on. `none` is a panic: an index out of range
or a `Duration` that overflows. `now` is the time of the clock during a call.
-/

namespace Metaflow.Collector

open AgentCommon
open FlowGenerator (CloseType addDuration subDuration)
open Library

def secondsInMinute : Nat := 60

/-- `MINUTE_SLOTS` -/
def minuteSlots : Nat := 2

/-- `Duration::from_secs` -/
def fromSecs (seconds : Nat) : Duration :=
  seconds * 1000000000

/-- `as_secs` -/
def asSecs (time : Duration) : Nat :=
  time / 1000000000

/-- `FLUSH_TIMEOUT` -/
def flushTimeout : Duration := fromSecs (2 * secondsInMinute)

def roundToMinute (time : Duration) : Duration :=
  fromSecs (asSecs time / secondsInMinute * secondsInMinute)

structure FlowAggr where
  slotStartTime : Duration
  stashs : List (HashMap (BitVec 64) TaggedFlow)
  lastFlushTime : Duration
  dropBeforeWindow : BitVec 64
  out : BitVec 64

namespace FlowAggr

/-- `new` at the time `now`, which lies at least a minute behind the epoch. -/
def new (now : Duration) : Option FlowAggr := do
  let earlier ← subDuration now (fromSecs secondsInMinute)
  some
    { slotStartTime := roundToMinute earlier
      stashs := List.replicate minuteSlots ∅
      lastFlushTime := 0
      dropBeforeWindow := 0
      out := 0 }

def setStash (aggr : FlowAggr) (slot : Nat) (stash : HashMap (BitVec 64) TaggedFlow) : FlowAggr :=
  { aggr with stashs := aggr.stashs.set slot stash }

def countOut (aggr : FlowAggr) (count : Nat) : FlowAggr :=
  { aggr with out := aggr.out + BitVec.ofNat 64 count }

/-- A record as `send_flow` hands it to the output. -/
def sendFlow (f : TaggedFlow) : Option TaggedFlow := do
  let startTime :=
    if !f.flow.isNewFlow then roundToMinute f.flow.flowStatTime
    else f.flow.startTime
  let endTime ←
    if f.flow.closeType = .forcedReport then
      (addDuration f.flow.flowStatTime (fromSecs secondsInMinute)).map roundToMinute
    else some f.flow.endTime
  some { f with flow := { f.flow with startTime := startTime, endTime := endTime } }

def flushFrontSlotAndRotate (now : Duration)
    (aggr : FlowAggr) : Option (FlowAggr × List TaggedFlow) :=
  match aggr.stashs with
  | [] => none
  | slotMap :: stashs => do
      let sent ← slotMap.valueList.mapM sendFlow
      let slotStartTime ← addDuration aggr.slotStartTime (fromSecs secondsInMinute)
      some
        ({ aggr with
            stashs := stashs ++ [∅]
            lastFlushTime := now
            slotStartTime := slotStartTime
            out := aggr.out + BitVec.ofNat 64 sent.length },
          sent)

/-- The loop of `flush_slots`. -/
def flushFront (now : Duration) : Nat -> FlowAggr -> Option (FlowAggr × List TaggedFlow)
  | 0, aggr => some (aggr, [])
  | count + 1, aggr => do
      let (aggr, sent) ← aggr.flushFrontSlotAndRotate now
      let (aggr, more) ← flushFront now count aggr
      some (aggr, sent ++ more)

variable (now : Duration) (aggr : FlowAggr) (slot : Nat)

/-- Slots beyond the number there are only move the start. -/
def skipSlots (count : Nat) : Option FlowAggr :=
  (addDuration aggr.slotStartTime (fromSecs (secondsInMinute * count))).map
    fun start => { aggr with slotStartTime := start }

def flushSlots (slotCount : Nat) : Option (FlowAggr × List TaggedFlow) := do
  let (aggr, sent) ← flushFront now (min slotCount minuteSlots) aggr
  if minuteSlots < slotCount then
    (aggr.skipSlots (slotCount - minuteSlots)).map fun aggr => (aggr, sent)
  else some (aggr, sent)

/-- The direction of the flow that is held is adjusted to the new record. -/
def align (flow f : TaggedFlow) : TaggedFlow :=
  if flow.flow.reversed ≠ f.flow.reversed then
    let flow := flow.reverse
    { flow with
      flow := { flow.flow with
        flowPerfStats := flow.flow.flowPerfStats.map FlowPerfStats.reverse } }
  else flow

/-- A record merged into the flow that is held. -/
def mergeInto (flow f : TaggedFlow) : TaggedFlow :=
  (align flow f).sequentialMerge f

/-- Send a record and count it. -/
def send (f : TaggedFlow) : Option (FlowAggr × List TaggedFlow) :=
  (sendFlow f).map fun f => (aggr.countOut 1, [f])

/-- The branch of `merge` for a flow that is in the slot. -/
def mergeHeld (slotMap : HashMap (BitVec 64) TaggedFlow)
    (flow f : TaggedFlow) : Option (FlowAggr × List TaggedFlow) :=
  let flow := mergeInto flow f
  if flow.flow.closeType ≠ .forcedReport then
    (aggr.setStash slot (slotMap.erase f.flow.flowId)).send flow
  else some (aggr.setStash slot (slotMap.insert f.flow.flowId flow), [])

/-- The flow of the slot before is sent when a later one arrives. -/
def sendPrevious (flowId : BitVec 64) : Option (FlowAggr × List TaggedFlow) :=
  if 0 < slot then do
    let slotMap ← aggr.stashs[slot - 1]?
    match slotMap.lookup flowId with
    | some preFlow => (aggr.setStash (slot - 1) (slotMap.erase flowId)).send preFlow
    | none => some (aggr, [])
  else some (aggr, [])

/-- A flow that is not in the slot is sent if it has ended, else stored. -/
def storeNew (slotMap : HashMap (BitVec 64) TaggedFlow)
    (f : TaggedFlow) : Option (FlowAggr × List TaggedFlow) :=
  if f.flow.closeType ≠ .forcedReport then aggr.send f
  else some (aggr.setStash slot (slotMap.insert f.flow.flowId f), [])

/-- The branch of `merge` for a flow that is not in the slot. -/
def mergeNew (slotMap : HashMap (BitVec 64) TaggedFlow)
    (f : TaggedFlow) : Option (FlowAggr × List TaggedFlow) := do
  let (aggr, sent) ← aggr.storeNew slot slotMap f
  let (aggr, more) ← aggr.sendPrevious slot f.flow.flowId
  some (aggr, sent ++ more)

/-- The part of `merge` after the window has been moved. -/
def mergeSlot (f : TaggedFlow) : Option (FlowAggr × List TaggedFlow) := do
  let slotMap ← aggr.stashs[slot]?
  match slotMap.lookup f.flow.flowId with
  | some flow => aggr.mergeHeld slot slotMap flow f
  | none => aggr.mergeNew slot slotMap f

/-- What a call does: the records it sends, and whether it counts its record as
before the window. -/
structure Answer where
  sent : List TaggedFlow
  dropped : Bool

/-- `merge` -/
def merge (f : TaggedFlow) : Option (FlowAggr × Answer) :=
  let flowTime := f.flow.flowStatTime
  if flowTime < aggr.slotStartTime then
    some ({ aggr with dropBeforeWindow := aggr.dropBeforeWindow + 1 }, ⟨[], true⟩)
  else do
    let slot := asSecs (flowTime - aggr.slotStartTime) / secondsInMinute
    if minuteSlots ≤ slot then
      let (aggr, sent) ← aggr.flushSlots now (slot - minuteSlots + 1)
      let (aggr, more) ← aggr.mergeSlot (minuteSlots - 1) f
      some (aggr, ⟨sent ++ more, false⟩)
    else
      let (aggr, sent) ← aggr.mergeSlot slot f
      some (aggr, ⟨sent, false⟩)

/-- A record, or a timeout of the queue. `stored` says whether its tap type is
stored. -/
inductive Input where
  | record (f : TaggedFlow) (stored : Bool)
  | timeout

/-- When the time of the next flush has passed, the first slot is flushed. -/
def flushIfDue (now due : Duration) : Option (FlowAggr × Answer) :=
  if due < now then do
    let (aggr, sent) ← aggr.flushFrontSlotAndRotate now
    some (aggr, ⟨sent, false⟩)
  else some (aggr, ⟨[], false⟩)

/-- One round of the loop of `run`. -/
def round : Duration × Input -> Option (FlowAggr × Answer)
  | (now, .record f stored) => if stored then aggr.merge now f else some (aggr, ⟨[], false⟩)
  | (now, .timeout) => (addDuration aggr.lastFlushTime flushTimeout).bind (aggr.flushIfDue now)

end FlowAggr
end Metaflow.Collector
