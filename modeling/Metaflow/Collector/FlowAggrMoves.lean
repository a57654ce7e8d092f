import Metaflow.Collector.FlowAggr
import Metaflow.Library.Ledger

/-!
# What the calls of the aggregator move

Each call of the aggregator is a sequence of moves of a ledger: a record opens
a flow or joins one of the same id and minute, and flows are sent. The slots
hold flows of their own minutes.
-/

namespace Metaflow.Collector.FlowAggr

open AgentCommon List
open Library.HashMap
open FlowGenerator (CloseType addDuration durationLimit)
open Library

def minuteNanos : Nat := 60000000000

/-- The minute of a time. -/
def minuteOf (time : Duration) : Nat :=
  time / minuteNanos

/-- The minute of a record. -/
def minute (f : TaggedFlow) : Nat :=
  minuteOf f.flow.flowStatTime

/-- A minute can be added to the time of the record. -/
def Timely (f : TaggedFlow) : Prop :=
  f.flow.flowStatTime + fromSecs secondsInMinute < durationLimit

/-- How the aggregator gathers records. -/
def aggregation : Gathering TaggedFlow TaggedFlow TaggedFlow where
  opens f := f
  joins flow f := flow.flow.flowId = f.flow.flowId ∧ minute flow = minute f
  merge := mergeInto
  sends flow message := sendFlow flow = some message

section

variable (flow f : TaggedFlow)

@[simp] theorem flowId_mergeInto : (mergeInto flow f).flow.flowId = flow.flow.flowId := by
  unfold mergeInto align
  split <;> rfl

@[simp] theorem flowStatTime_mergeInto :
    (mergeInto flow f).flow.flowStatTime = flow.flow.flowStatTime := by
  unfold mergeInto align
  split <;> rfl

@[simp] theorem minute_mergeInto : minute (mergeInto flow f) = minute flow := by
  rw [minute, flowStatTime_mergeInto, minute]

end

variable {flow f : TaggedFlow} {aggr : FlowAggr} {slotMap : HashMap (BitVec 64) TaggedFlow}

theorem Timely.mergeInto (timely : Timely flow) (f : TaggedFlow) : Timely (mergeInto flow f) := by
  rwa [Timely, flowStatTime_mergeInto]

theorem Timely.sendFlow (timely : Timely f) : ∃ message, sendFlow f = some message := by
  have added : addDuration f.flow.flowStatTime (fromSecs secondsInMinute) =
      some (f.flow.flowStatTime + fromSecs secondsInMinute) :=
    if_pos timely
  unfold FlowAggr.sendFlow
  by_cases forced : f.flow.closeType = .forcedReport
  · exact ⟨_, by simp only [forced, if_true, added]; rfl⟩
  · exact ⟨_, by simp only [forced, if_false]; rfl⟩

theorem addDuration_of_lt {time more : Duration} (room : time + more < durationLimit) :
    addDuration time more = some (time + more) :=
  if_pos room

/-- A flow in the map of a minute: it is stored under its id and belongs to the
minute. -/
def Placed (slotMinute : Nat) (key : BitVec 64) (flow : TaggedFlow) : Prop :=
  flow.flow.flowId = key ∧ minute flow = slotMinute ∧ Timely flow

/-- There are two slots, the first begins with a minute, and they hold flows of
their minutes. -/
structure Valid (aggr : FlowAggr) : Prop where
  length_eq : aggr.stashs.length = minuteSlots
  aligned : minuteNanos ∣ aggr.slotStartTime
  placed : ∀ slot slotMap, aggr.stashs[slot]? = some slotMap ->
    HashMap.All (Placed (minuteOf aggr.slotStartTime + slot)) slotMap

/-- What the slots hold. -/
def held (aggr : FlowAggr) : Multiset TaggedFlow :=
  (aggr.stashs.map HashMap.values).sum

/-- The ledger of an aggregator that has sent some records. -/
def ledger (aggr : FlowAggr) (sent : Multiset TaggedFlow) : Ledger TaggedFlow TaggedFlow :=
  ⟨aggr.held, sent⟩

variable {slot count : Nat}

/-- One map and the other ones. -/
theorem held_setStash (found : aggr.stashs[slot]? = some slotMap) :
    ∃ others, aggr.held = slotMap.values + others ∧
      ∀ stash, (aggr.setStash slot stash).held = stash.values + others := by
  obtain ⟨inside, rfl⟩ := List.getElem?_eq_some_iff.mp found
  refine ⟨((aggr.stashs.take slot).map values).sum +
    ((aggr.stashs.drop (slot + 1)).map values).sum, ?_, ?_⟩
  · have split : aggr.stashs = aggr.stashs.take slot ++
        aggr.stashs[slot] :: aggr.stashs.drop (slot + 1) := by simp
    rw [held]
    nth_rewrite 1 [split]
    rw [map_append, map_cons, sum_append, sum_cons]
    abel
  · intro stash
    rw [held, setStash, set_eq_take_append_cons_drop, if_pos inside,
      map_append, map_cons, sum_append, sum_cons]
    abel

theorem Valid.setStash (valid : aggr.Valid)
    (placed : All (Placed (minuteOf aggr.slotStartTime + slot)) stash) :
    (aggr.setStash slot stash).Valid where
  length_eq := by
    rw [FlowAggr.setStash, length_set, valid.length_eq]
  aligned := valid.aligned
  placed := by
    intro other slotMap found
    rw [FlowAggr.setStash] at found
    simp only [getElem?_set] at found
    split at found
    · next same =>
        subst same
        split at found
        · obtain rfl := Option.some.inj found
          exact placed
        · cases found
    · exact valid.placed other slotMap found

/-- A call keeps the slots valid and is a sequence of moves that send what it
sends. -/
structure Effect (before : FlowAggr) (records : List TaggedFlow) (sent : List TaggedFlow)
    (after : FlowAggr) : Prop where
  valid : after.Valid
  dropped_eq : after.dropBeforeWindow = before.dropBeforeWindow
  moves : ∀ earlier, aggregation.Moves (before.ledger earlier) records
    (after.ledger (sent + earlier))

theorem Effect.refl (valid : aggr.Valid) : Effect aggr [] [] aggr where
  valid := valid
  dropped_eq := rfl
  moves earlier := by
    rw [Multiset.coe_nil, zero_add]
    exact .refl

theorem Effect.trans {before middle after : FlowAggr} (first : Effect before records sent middle)
    (second : Effect middle more others after) :
    Effect before (records ++ more) (sent ++ others) after where
  valid := second.valid
  dropped_eq := second.dropped_eq.trans first.dropped_eq
  moves earlier := by
    have moved := (first.moves earlier).trans (second.moves (sent + earlier))
    rwa [← add_assoc, add_comm (others : Multiset TaggedFlow), Multiset.coe_add] at moved

/-- A flow is sent that was held. -/
theorem moves_sending (isSent : sendFlow flow = some message)
    (moves : aggregation.Moves before records ⟨flow ::ₘ others, earlier⟩) :
    aggregation.Moves before records ⟨others, ([message] : List TaggedFlow) + earlier⟩ :=
  .sending moves isSent

theorem moves_mapM_sendFlow {flows messages : List TaggedFlow}
    (areSent : flows.mapM sendFlow = some messages) (others earlier : Multiset TaggedFlow) :
    aggregation.Moves ⟨flows + others, earlier⟩ [] ⟨others, messages + earlier⟩ := by
  induction flows generalizing messages earlier with
  | nil =>
    obtain rfl : [] = messages := by simpa using areSent
    simpa using Gathering.Moves.refl
  | cons flow flows ih =>
    simp only [mapM_cons, bind_eq_some, Option.pure_def, Option.some.injEq] at areSent
    obtain ⟨message, isSent, rest, areRest, rfl⟩ := areSent
    have first : aggregation.Moves ⟨(flow :: flows : List TaggedFlow) + others, earlier⟩ []
        ⟨flows + others, message ::ₘ earlier⟩ := by
      rw [← Multiset.cons_coe, Multiset.cons_add]
      exact .sending .refl isSent
    have moved := first.trans (ih areRest (message ::ₘ earlier))
    rwa [Multiset.add_cons, ← Multiset.cons_add, Multiset.cons_coe] at moved

theorem mapM_sendFlow_isSome {flows : List TaggedFlow} (timely : ∀ flow ∈ flows, Timely flow) :
    ∃ messages, flows.mapM sendFlow = some messages := by
  induction flows with
  | nil => exact ⟨[], rfl⟩
  | cons flow flows ih =>
    obtain ⟨message, isSent⟩ := (timely flow mem_cons_self).sendFlow
    obtain ⟨messages, areSent⟩ := ih fun other isIn =>
      timely other (mem_cons_of_mem _ isIn)
    exact ⟨message :: messages, by simp [isSent, areSent]⟩

theorem fromSecs_add (seconds more : Nat) :
    fromSecs (seconds + more) = fromSecs seconds + fromSecs more :=
  Nat.add_mul seconds more 1000000000

theorem fromSecs_minutes (count : Nat) :
    fromSecs (secondsInMinute * count) = minuteNanos * count := by
  have same : 60 * count * 1000000000 = 60000000000 * count := by omega
  exact same

theorem minuteOf_add (time : Duration) (count : Nat) :
    minuteOf (time + fromSecs (secondsInMinute * count)) = minuteOf time + count := by
  rw [fromSecs_minutes, minuteOf, Nat.add_mul_div_left _ _ (by decide), minuteOf]

theorem aligned_add {time : Duration} (aligned : minuteNanos ∣ time) (count : Nat) :
    minuteNanos ∣ time + fromSecs (secondsInMinute * count) := by
  rw [fromSecs_minutes]
  exact Nat.dvd_add aligned (Nat.dvd_mul_right _ _)

/-- The first slot is sent, and the second one takes its place. -/
theorem Valid.flushFrontSlotAndRotate (valid : aggr.Valid) (now : Duration)
    (room : aggr.slotStartTime + fromSecs secondsInMinute < durationLimit) :
    ∃ after sent, aggr.flushFrontSlotAndRotate now = some (after, sent) ∧
      Effect aggr [] sent after ∧ after.stashs = aggr.stashs.tail ++ [∅] ∧
      after.slotStartTime = aggr.slotStartTime + fromSecs secondsInMinute := by
  have placed := valid.placed
  have length_eq := valid.length_eq
  unfold FlowAggr.flushFrontSlotAndRotate
  cases stashs_eq : aggr.stashs with
  | nil => simp [stashs_eq, minuteSlots] at length_eq
  | cons slotMap stashs =>
    rw [stashs_eq] at placed length_eq
    have timely : ∀ flow ∈ slotMap.valueList, Timely flow := by
      intro flow isIn
      obtain ⟨entry, isEntry, rfl⟩ := mem_map.mp isIn
      exact (placed 0 slotMap rfl entry isEntry).2.2
    obtain ⟨sent, areSent⟩ := mapM_sendFlow_isSome timely
    have added : addDuration aggr.slotStartTime (fromSecs secondsInMinute) =
        some (aggr.slotStartTime + fromSecs secondsInMinute) := addDuration_of_lt room
    simp only [areSent, added, some_bind]
    refine ⟨_, sent, rfl, ⟨⟨?_, ?_, ?_⟩, rfl, ?_⟩, rfl, rfl⟩
    · simpa using length_eq
    · exact aligned_add valid.aligned 1
    · intro slot other found
      have start_eq := minuteOf_add aggr.slotStartTime 1
      rw [Nat.mul_one] at start_eq
      simp only [start_eq] at found ⊢
      rcases Nat.lt_or_ge slot stashs.length with inside | outside
      · rw [getElem?_append_left inside] at found
        rw [Nat.add_assoc, Nat.add_comm 1]
        exact placed (slot + 1) other found
      · rw [getElem?_append_right outside] at found
        obtain rfl : ∅ = other := by
          cases rest : slot - stashs.length with
          | zero => simpa [rest] using found
          | succ _ => simp [rest] at found
        exact all_empty _
    · intro earlier
      have before : aggr.held = slotMap.valueList + (stashs.map values).sum := by
        rw [held, stashs_eq, map_cons, sum_cons, values]
      have moved := moves_mapM_sendFlow areSent (stashs.map values).sum earlier
      rw [ledger, before]
      simpa [ledger, held] using moved

theorem Valid.flushFront (valid : aggr.Valid) (now : Duration) (few : count ≤ minuteSlots)
    (room : aggr.slotStartTime + fromSecs (secondsInMinute * count) < durationLimit) :
    ∃ after sent, flushFront now count aggr = some (after, sent) ∧ Effect aggr [] sent after ∧
      after.stashs = aggr.stashs.drop count ++ List.replicate count ∅ ∧
      after.slotStartTime = aggr.slotStartTime + fromSecs (secondsInMinute * count) := by
  induction count generalizing aggr with
  | zero => exact ⟨aggr, [], rfl, .refl valid, by simp, rfl⟩
  | succ count ih =>
    have later : fromSecs (secondsInMinute * (count + 1)) =
        fromSecs secondsInMinute + fromSecs (secondsInMinute * count) := by
      rw [Nat.mul_succ, Nat.add_comm, fromSecs_add]
    rw [later, ← Nat.add_assoc] at room
    obtain ⟨middle, sent, flushed, effect, stashs_eq, start_eq⟩ :=
      valid.flushFrontSlotAndRotate now (Nat.lt_of_le_of_lt (Nat.le_add_right _ _) room)
    rw [← start_eq] at room
    obtain ⟨after, more, flushedRest, effectRest, rest_eq, startRest_eq⟩ :=
      ih effect.valid (Nat.le_of_succ_le few) room
    refine ⟨after, sent ++ more, ?_, effect.trans effectRest, ?_, ?_⟩
    · simp only [FlowAggr.flushFront, flushed, flushedRest, some_bind]
    · have inside : count ≤ aggr.stashs.tail.length := by
        rw [length_tail, valid.length_eq]
        omega
      rw [rest_eq, stashs_eq, drop_append_of_le_length inside,
        drop_tail, append_assoc, singleton_append,
        ← replicate_succ]
    · rw [startRest_eq, start_eq, later, Nat.add_assoc]

section

variable (stashs_eq : aggr.stashs = List.replicate minuteSlots ∅)
include stashs_eq

theorem Valid.of_empty (aligned : minuteNanos ∣ aggr.slotStartTime) : aggr.Valid where
  length_eq := by
    rw [stashs_eq, length_replicate]
  aligned := aligned
  placed := by
    intro slot slotMap found
    rw [stashs_eq] at found
    obtain rfl := (mem_replicate.mp (mem_of_getElem? found)).2
    exact all_empty _

theorem held_of_empty : aggr.held = 0 := by
  rw [held, stashs_eq]
  rfl

/-- Empty slots may begin at any minute. -/
theorem Effect.moveStart (valid : aggr.Valid) (aligned : minuteNanos ∣ start) :
    Effect aggr [] [] { aggr with slotStartTime := start } where
  valid := .of_empty stashs_eq aligned
  dropped_eq := rfl
  moves := (Effect.refl valid).moves

theorem Valid.skipSlots (valid : aggr.Valid)
    (room : aggr.slotStartTime + fromSecs (secondsInMinute * count) < durationLimit) :
    ∃ after, aggr.skipSlots count = some after ∧ Effect aggr [] [] after ∧
      after.slotStartTime = aggr.slotStartTime + fromSecs (secondsInMinute * count) ∧
      after.held = 0 := by
  have added := addDuration_of_lt room
  have aligned := aligned_add valid.aligned count
  rw [FlowAggr.skipSlots, added, Option.map_some]
  generalize aggr.slotStartTime + fromSecs (secondsInMinute * count) = start at aligned ⊢
  exact ⟨_, rfl, .moveStart stashs_eq valid aligned, rfl, held_of_empty stashs_eq⟩

end

section

variable (valid : aggr.Valid)
include valid

/-- After as many slots as there are, nothing is held. -/
theorem stashs_eq_replicate {after : FlowAggr} (isAll : count = minuteSlots)
    (stashs_eq : after.stashs = aggr.stashs.drop count ++ List.replicate count ∅) :
    after.stashs = List.replicate minuteSlots ∅ := by
  rw [stashs_eq, isAll, drop_of_length_le (by rw [valid.length_eq]), nil_append]

/-- The window is moved on by some minutes. -/
theorem Valid.flushSlots (now : Duration)
    (room : aggr.slotStartTime + fromSecs (secondsInMinute * count) < durationLimit) :
    ∃ after sent, aggr.flushSlots now count = some (after, sent) ∧ Effect aggr [] sent after ∧
      after.slotStartTime = aggr.slotStartTime + fromSecs (secondsInMinute * count) ∧
      (minuteSlots ≤ count -> after.held = 0) := by
  unfold FlowAggr.flushSlots
  rcases Nat.lt_or_ge minuteSlots count with many | few
  · obtain ⟨slots, isAll⟩ : ∃ slots, slots = minuteSlots := ⟨_, rfl⟩
    obtain ⟨rest, rfl⟩ : ∃ rest, count = slots + rest :=
      Nat.exists_eq_add_of_le (isAll ▸ Nat.le_of_lt many)
    rw [Nat.mul_add, fromSecs_add, ← Nat.add_assoc] at room ⊢
    obtain ⟨middle, sent, flushed, effect, stashs_eq, start_eq⟩ :=
      valid.flushFront now (Nat.le_of_eq isAll) (Nat.lt_of_le_of_lt (Nat.le_add_right _ _) room)
    have empty := stashs_eq_replicate valid isAll stashs_eq
    rw [← start_eq] at room ⊢
    obtain ⟨after, skipped, moved, moved_eq, nothing⟩ := effect.valid.skipSlots empty room
    refine ⟨after, sent, ?_, by simpa using effect.trans moved, moved_eq, fun _ => nothing⟩
    rw [Nat.min_eq_right (Nat.le_of_lt many), ← isAll, flushed, Nat.add_sub_cancel_left]
    rw [← isAll] at many
    change (if slots < slots + rest then _ else _) = _
    rw [if_pos many, skipped, Option.map_some]
  · obtain ⟨after, sent, flushed, effect, stashs_eq, start_eq⟩ := valid.flushFront now few room
    refine ⟨after, sent, ?_, effect, start_eq, ?_⟩
    · rw [Nat.min_eq_left few, flushed]
      simp only [some_bind, if_neg (Nat.not_lt.mpr few)]
    · intro all
      exact held_of_empty (stashs_eq_replicate valid (Nat.le_antisymm few all) stashs_eq)

theorem Valid.countOut (count : Nat) : (aggr.countOut count).Valid :=
  ⟨valid.length_eq, valid.aligned, valid.placed⟩

end

/-- Whether a record is sent at once or stored, it is held before. -/
theorem ledger_eq_cons {stash : HashMap (BitVec 64) TaggedFlow}
    {others : Multiset TaggedFlow} {flow : TaggedFlow} {rest earlier : Multiset TaggedFlow}
    (held_eq : aggr.held = stash.values + others) (values_eq : stash.values = flow ::ₘ rest) :
    aggr.ledger earlier = ⟨flow ::ₘ (rest + others), earlier⟩ := by
  rw [ledger, held_eq, values_eq, Multiset.cons_add]

variable (valid : aggr.Valid)
include valid

/-- A record of a flow that is in its slot joins it. -/
theorem Valid.mergeHeld (isSlot : aggr.stashs[slot]? = some slotMap)
    (found : slotMap.lookup f.flow.flowId = some flow)
    (isMinute : minute f = minuteOf aggr.slotStartTime + slot) :
    ∃ after sent, aggr.mergeHeld slot slotMap flow f = some (after, sent) ∧
      Effect aggr [f] sent after ∧ after.slotStartTime = aggr.slotStartTime := by
  have placed := valid.placed slot slotMap isSlot
  obtain ⟨sameId, sameMinute, timely⟩ := property_of_lookup placed found
  have joined : aggregation.joins flow f := ⟨sameId, by rw [sameMinute, isMinute]⟩
  obtain ⟨others, held_eq, set_eq⟩ := held_setStash isSlot
  have before := fun earlier => @ledger_eq_cons aggr slotMap others flow _
    earlier held_eq (values_eq_of_lookup found)
  unfold FlowAggr.mergeHeld
  by_cases closing : (mergeInto flow f).flow.closeType ≠ .forcedReport
  · obtain ⟨message, isSent⟩ := (timely.mergeInto f).sendFlow
    simp only [if_pos closing, send, isSent, Option.map_some]
    refine ⟨_, _, rfl, ⟨(valid.setStash (all_erase placed _)).countOut 1, rfl, ?_⟩, rfl⟩
    intro earlier
    rw [before, ledger]
    rw [show (((aggr.setStash slot (slotMap.erase f.flow.flowId)).countOut
      1).held) = _ from set_eq _]
    exact moves_sending isSent (.joining .refl joined)
  · simp only [if_neg closing]
    have placed' : Placed (minuteOf aggr.slotStartTime + slot) f.flow.flowId (mergeInto flow f) :=
      ⟨by rw [flowId_mergeInto, sameId], by rw [minute_mergeInto, sameMinute], timely.mergeInto f⟩
    refine ⟨_, _, rfl, ⟨valid.setStash (all_insert placed placed'), rfl, ?_⟩, rfl⟩
    intro earlier
    rw [before, ledger, set_eq, values_insert, Multiset.cons_add, Multiset.coe_nil, zero_add]
    exact .joining .refl joined

theorem Valid.sendPrevious (inside : slot < minuteSlots) (flowId : BitVec 64) :
    ∃ after sent, aggr.sendPrevious slot flowId = some (after, sent) ∧ Effect aggr [] sent after ∧
      after.slotStartTime = aggr.slotStartTime := by
  unfold FlowAggr.sendPrevious
  split_ifs with isLater
  · have inside : slot - 1 < aggr.stashs.length := by
      rw [valid.length_eq]
      omega
    obtain ⟨slotMap, isSlot⟩ : ∃ slotMap, aggr.stashs[slot - 1]? = some slotMap :=
      ⟨_, getElem?_eq_getElem inside⟩
    simp only [isSlot, some_bind]
    cases found : slotMap.lookup flowId with
    | none => exact ⟨_, _, rfl, .refl valid, rfl⟩
    | some preFlow =>
      have placed := valid.placed _ slotMap isSlot
      have timely := (property_of_lookup placed found).2.2
      obtain ⟨message, isSent⟩ := timely.sendFlow
      obtain ⟨others, held_eq, set_eq⟩ := held_setStash isSlot
      simp only [send, isSent, Option.map_some]
      refine ⟨_, _, rfl, ⟨(valid.setStash (all_erase placed _)).countOut 1, rfl, ?_⟩, rfl⟩
      intro earlier
      rw [ledger_eq_cons held_eq (values_eq_of_lookup found), ledger]
      rw [show (((aggr.setStash (slot - 1) (slotMap.erase flowId)).countOut
        1).held) = _ from set_eq _]
      exact moves_sending isSent .refl
  · exact ⟨_, _, rfl, .refl valid, rfl⟩

section

variable (isSlot : aggr.stashs[slot]? = some slotMap) (absent : slotMap.lookup f.flow.flowId = none)
  (isMinute : minute f = minuteOf aggr.slotStartTime + slot) (timely : Timely f)
include isSlot absent isMinute timely

/-- A record of a flow that is not in its slot opens it. -/
theorem Valid.storeNew :
    ∃ after sent, aggr.storeNew slot slotMap f = some (after, sent) ∧ Effect aggr [f] sent after ∧
      after.slotStartTime = aggr.slotStartTime := by
  unfold FlowAggr.storeNew
  split_ifs with closing
  · obtain ⟨message, isSent⟩ := timely.sendFlow
    simp only [send, isSent, Option.map_some]
    refine ⟨_, _, rfl, ⟨valid.countOut 1, rfl, ?_⟩, rfl⟩
    intro earlier
    exact moves_sending isSent (.opening .refl f)
  · obtain ⟨others, held_eq, set_eq⟩ := held_setStash isSlot
    have placed := all_insert (valid.placed slot slotMap isSlot)
      (show Placed (minuteOf aggr.slotStartTime + slot) f.flow.flowId f from
        ⟨rfl, isMinute, timely⟩)
    refine ⟨_, _, rfl, ⟨valid.setStash placed, rfl, ?_⟩, rfl⟩
    intro earlier
    rw [ledger, ledger, held_eq, set_eq, values_insert_of_lookup absent, Multiset.cons_add,
      Multiset.coe_nil, zero_add]
    exact .opening .refl f

theorem Valid.mergeNew :
    ∃ after sent, aggr.mergeNew slot slotMap f = some (after, sent) ∧ Effect aggr [f] sent after ∧
      after.slotStartTime = aggr.slotStartTime := by
  have inside : slot < minuteSlots := by
    rw [← valid.length_eq]
    exact (List.getElem?_eq_some_iff.mp isSlot).1
  obtain ⟨middle, sent, isStored, effect, start_eq⟩ := valid.storeNew isSlot absent isMinute timely
  obtain ⟨after, more, isSent, effectRest, startRest_eq⟩ :=
    effect.valid.sendPrevious inside f.flow.flowId
  refine ⟨after, sent ++ more, ?_, effect.trans effectRest, startRest_eq.trans start_eq⟩
  simp only [FlowAggr.mergeNew, isStored, isSent, some_bind]

end

theorem Valid.mergeSlot (inside : slot < minuteSlots)
    (isMinute : minute f = minuteOf aggr.slotStartTime + slot) (timely : Timely f) :
    ∃ after sent, aggr.mergeSlot slot f = some (after, sent) ∧ Effect aggr [f] sent after ∧
      after.slotStartTime = aggr.slotStartTime := by
  rw [← valid.length_eq] at inside
  have isSlot := getElem?_eq_getElem inside
  unfold FlowAggr.mergeSlot
  simp only [isSlot, some_bind]
  cases found : AList.lookup f.flow.flowId aggr.stashs[slot] with
  | none => exact valid.mergeNew isSlot found isMinute timely
  | some flow => exact valid.mergeHeld isSlot found isMinute

end Metaflow.Collector.FlowAggr
