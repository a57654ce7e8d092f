import Metaflow.FlowGenerator.FlowMapMoves

/-!
# The time keys of the live flows

The scan for expired flows goes by the time set. Two flows of one map key may
come to share a time key; the set has then lost a flow for good.
-/

namespace Metaflow.FlowGenerator

open Library
open OrderedSet
open AgentCommon

variable {σ : Type}

namespace FlowMap

/-- The time keys that the live flows stand under. -/
def liveKeys (map : FlowMap σ) : Multiset FlowTimeKey :=
  map.live.map Entry.timeKey

/-- Every live flow has its key in the time set, every key has one flow, and no
key lies before the part that is scanned next. -/
structure Tracked (map : FlowMap σ) : Prop where
  keys : map.timeSet.Tracks map.liveKeys
  ahead : ∀ key ∈ map.timeSet, map.startTimeInUnit * timeUnit ≤ key.timestampKey

theorem tracked_iff_keys_ahead : Tracked map ↔ map.timeSet.Tracks map.liveKeys ∧
      ∀ key ∈ map.timeSet, map.startTimeInUnit * timeUnit ≤ key.timestampKey :=
  ⟨fun tracked => ⟨tracked.keys, tracked.ahead⟩, fun both => ⟨both.1, both.2⟩⟩

theorem tracked_new (threadId : BitVec 32) (serviceTable : σ) :
    Tracked (FlowMap.new threadId serviceTable) := by
  refine ⟨⟨?_, ?_⟩, ?_⟩ <;> intro key mem <;> simp [liveKeys, live, FlowMap.new] at mem

/-- The key under which a visit schedules the flow again, unless the flow
ends. -/
def nextKey (timestamp : Duration) (map : FlowMap σ) (key : FlowTimeKey) : Option FlowTimeKey := do
  let node <- visited map key
  let time <- node.nextVisit timestamp
  some ⟨time, key.mapKey⟩

theorem Visits.keys (visits : Visits timestamp key map next) :
    ∃ others, map.liveKeys = key ::ₘ others ∧ ((nextKey timestamp map key = none ∧
          next.liveKeys = others ∧ next.timeSet = map.timeSet.remove key) ∨
        ∃ scheduled, nextKey timestamp map key = some scheduled ∧
          next.liveKeys = scheduled ::ₘ others ∧
            next.timeSet = (map.timeSet.remove key).insert scheduled) := by
  cases visits with
  | ends node record isVisited taken isDue expired timeSet emitted closes =>
    refine ⟨next.liveKeys, ?_, ?_⟩
    · rw [liveKeys, taken, Multiset.map_cons, Entry.timeKey, isDue]
      rfl
    · simp [nextKey, isVisited, expired, timeSet]
  | goesOn node after others records isVisited taken putBack isDue scheduled
      present timeSet emitted reports =>
    refine ⟨others.map Entry.timeKey, ?_, ?_⟩
    · rw [liveKeys, taken, Multiset.map_cons, Entry.timeKey, isDue]
    · simp [nextKey, isVisited, scheduled, timeSet, liveKeys, putBack, Entry.timeKey]

theorem Visits.mem_timeSet (visits : Visits timestamp key map next) (mem : other ∈ map.timeSet)
    (different : other ≠ key) : other ∈ next.timeSet := by
  obtain ⟨others, -, ⟨-, -, timeSet⟩ | ⟨scheduled, -, -, timeSet⟩⟩ := visits.keys
  · rw [timeSet, mem_remove]
    exact ⟨different, mem⟩
  · rw [timeSet, mem_insert, mem_remove]
    exact Or.inr ⟨different, mem⟩

/-- What a lost flow leaves behind is not repaired by a visit. -/
theorem Visits.short (visits : Visits timestamp key map next) (present : key ∈ map.timeSet)
    (short : map.timeSet.Short map.liveKeys) : next.timeSet.Short next.liveKeys := by
  obtain ⟨others, before, ⟨-, live, timeSet⟩ | ⟨scheduled, -, live, timeSet⟩⟩ := visits.keys <;>
    rw [before] at short <;> rw [live, timeSet]
  · exact short.remove present
  · exact (short.remove present).insert scheduled

/-- A visit schedules the flow under a key that no other flow has, not before
the scanned part. -/
def VisitApart (timestamp : Duration) (earliest : Nat) (map : FlowMap σ)
    (key : FlowTimeKey) : Prop :=
  ∀ scheduled, nextKey timestamp map key = some scheduled ->
    scheduled ∉ map.timeSet.remove key ∧ earliest ≤ scheduled.timestampKey

/-- One iteration of a scan. -/
def visitStep (tables : Tables σ) (context : Context) (timestamp : Duration) (map : FlowMap σ)
    (key : FlowTimeKey) : Option (FlowMap σ × Unit) :=
  (solveKey tables context timestamp map key).map (·, ())

theorem guarded_visits_cons_iff (solved : solveKey tables context timestamp map key = some middle)
    (keys : List FlowTimeKey) :
    Guarded (VisitApart timestamp earliest) (visitStep tables context timestamp) map (key :: keys) ↔
      VisitApart timestamp earliest map key ∧ Guarded (VisitApart timestamp earliest)
          (visitStep tables context timestamp) middle keys := by
  have stepped : visitStep tables context timestamp map key = some (middle, ()) := by
    rw [visitStep, solved]
    rfl
  exact guarded_cons_iff stepped keys

variable {keys : List FlowTimeKey}

theorem VisitsAll.mem_timeSet (visitsAll : VisitsAll tables context timestamp keys map next)
    (mem : other ∈ map.timeSet) (notVisited : other ∉ keys) : other ∈ next.timeSet := by
  induction visitsAll with
  | nil => exact mem
  | cons solved _ ih =>
    rw [List.mem_cons, not_or] at notVisited
    have visits := (solveKey_visits solved).2
    exact ih (visits.mem_timeSet mem notVisited.1) notVisited.2

/-- The keys behind the first are still there after its visit. -/
theorem Visits.forall_mem_timeSet (visits : Visits timestamp key map next)
    (due : ∀ other ∈ key :: keys, other ∈ map.timeSet) (distinct : (key :: keys).Nodup) :
    ∀ other ∈ keys, other ∈ next.timeSet := by
  intro other mem
  refine visits.mem_timeSet (due other (List.mem_cons_of_mem _ mem)) ?_
  rintro rfl
  exact (List.nodup_cons.mp distinct).1 mem

theorem VisitsAll.short (visitsAll : VisitsAll tables context timestamp keys map next)
    (due : ∀ key ∈ keys, key ∈ map.timeSet) (distinct : keys.Nodup)
    (short : map.timeSet.Short map.liveKeys) : next.timeSet.Short next.liveKeys := by
  induction visitsAll with
  | nil => exact short
  | cons solved _ ih =>
    have visits := (solveKey_visits solved).2
    exact ih (visits.forall_mem_timeSet due distinct)
      distinct.of_cons (visits.short (due _ List.mem_cons_self) short)

/-- The keys that a scan is still to leave alone after a visit that ends its
flow. -/
theorem kept_iff_of_removed {timeSet : OrderedSet FlowTimeKey} :
    (other ∈ timeSet.remove key ∧ other ∉ keys) ↔ (other ∈ timeSet ∧ other ∉ key :: keys) := by
  rw [mem_remove, List.mem_cons]
  tauto

/-- A visit that schedules its flow adds one new key to them. -/
theorem forall_kept_iff_of_inserted {timeSet last : OrderedSet FlowTimeKey}
    (absent : scheduled ∉ timeSet.remove key) (notDue : scheduled ∉ keys)
    (stays : scheduled ∈ last) :
    (∀ other ∈ last, earliest ≤ other.timestampKey ∨ (other ∈ timeSet ∧ other ∉ key :: keys)) ↔
    earliest ≤ scheduled.timestampKey ∧ ∀ other ∈ last, earliest ≤ other.timestampKey ∨
        (other ∈ (timeSet.remove key).insert scheduled ∧ other ∉ keys) := by
  have kept_iff : ∀ other, (other ∈ (timeSet.remove key).insert scheduled ∧ other ∉ keys) ↔
        other = scheduled ∨ (other ∈ timeSet ∧ other ∉ key :: keys) := by
    intro other
    rw [← kept_iff_of_removed, mem_insert]
    constructor
    · tauto
    · rintro (rfl | kept)
      · exact ⟨Or.inl rfl, notDue⟩
      · exact ⟨Or.inr kept.1, kept.2⟩
  simp only [kept_iff]
  constructor
  · intro ahead
    refine ⟨(ahead scheduled stays).resolve_right ?_, fun other mem => ?_⟩
    · intro kept
      exact absent (kept_iff_of_removed.mpr kept).1
    · exact (ahead other mem).imp_right Or.inr
  · rintro ⟨later, ahead⟩ other mem
    rcases ahead other mem with isAhead | rfl | kept
    · exact Or.inl isAhead
    · exact Or.inl later
    · exact Or.inr kept

/-- After a scan every flow has its key, and no new key is before the scanned
part, exactly if each visit has scheduled its flow apart from the others. -/
theorem VisitsAll.tracks_iff (visitsAll : VisitsAll tables context timestamp keys map next)
    (due : ∀ key ∈ keys, key ∈ map.timeSet) (distinct : keys.Nodup)
    (tracks : map.timeSet.Tracks map.liveKeys) : (next.timeSet.Tracks next.liveKeys ∧
      ∀ key ∈ next.timeSet, earliest ≤ key.timestampKey ∨ (key ∈ map.timeSet ∧ key ∉ keys)) ↔
    Guarded (VisitApart timestamp earliest) (visitStep tables context timestamp) map keys := by
  induction visitsAll with
  | nil map =>
    refine ⟨fun _ => trivial, fun _ => ⟨tracks, fun key mem => Or.inr ?_⟩⟩
    exact ⟨mem, List.not_mem_nil⟩
  | @cons key keys map middle next solved remaining ih =>
    have visits := (solveKey_visits solved).2
    have dueLater := visits.forall_mem_timeSet due distinct
    obtain ⟨notLater, distinctLater⟩ := List.nodup_cons.mp distinct
    obtain ⟨others, before, ⟨isNext, live, timeSet⟩ | ⟨scheduled, isNext, live, timeSet⟩⟩ :=
      visits.keys <;> rw [before] at tracks <;> rw [guarded_visits_cons_iff solved]
    · have tracksMiddle : middle.timeSet.Tracks middle.liveKeys := by
        rw [live, timeSet]
        exact tracks.remove
      have apart : VisitApart timestamp earliest map key := by simp [VisitApart, isNext]
      rw [← ih dueLater distinctLater tracksMiddle, timeSet]
      simp only [apart, true_and, kept_iff_of_removed]
    · have visitApart_iff : VisitApart timestamp earliest map key ↔
          scheduled ∉ map.timeSet.remove key ∧ earliest ≤ scheduled.timestampKey := by
        simp [VisitApart, isNext]
      rw [visitApart_iff]
      by_cases present : scheduled ∈ map.timeSet.remove key
      · have short : next.timeSet.Short next.liveKeys := by
          refine remaining.short dueLater distinctLater ?_
          rw [live, timeSet]
          exact tracks.remove.short_insert present
        constructor
        · intro tracked
          exact absurd short tracked.1.not_short
        · intro guarded
          exact absurd present guarded.1.1
      · have tracksMiddle : middle.timeSet.Tracks middle.liveKeys := by
          rw [live, timeSet]
          exact tracks.remove.insert present
        have notDue : scheduled ∉ keys := by
          intro mem
          refine present ((mem_remove ..).mpr ⟨?_, ?_⟩)
          · rintro rfl
            exact notLater mem
          · exact due scheduled (List.mem_cons_of_mem _ mem)
        have inMiddle : scheduled ∈ middle.timeSet := by simp [timeSet]
        have stays := remaining.mem_timeSet inMiddle notDue
        rw [← ih dueLater distinctLater tracksMiddle,
          forall_kept_iff_of_inserted present notDue stays, timeSet]
        tauto

/-- If a flush moves the window, it schedules the flows that are due under
keys of their own. -/
def FlushApart (tables : Tables σ) (context : Context) (timestamp : Duration)
    (map : FlowMap σ) : Prop :=
  ∀ unit, windowUnit context map timestamp = some unit ->
    Guarded (VisitApart timestamp (unit * timeUnit)) (visitStep tables context timestamp)
      { map with startTime := unit * timeUnit } (dueKeys map unit)

theorem Tracked.ahead_of_not_due (tracked : Tracked map)
    (mem : key ∈ map.timeSet) (notDue : key ∉ dueKeys map unit) :
    unit * timeUnit ≤ key.timestampKey := by
  rw [dueKeys, mem_range, FlowTimeKey.default_le_iff, FlowTimeKey.lt_default_iff] at notDue
  by_contra behind
  exact notDue ⟨mem, tracked.ahead key mem, not_le.mp behind⟩

theorem Tracked.flushes_iff (tracked : Tracked map)
    (flushes : Flushes tables context timestamp map next) :
    Tracked next ↔ FlushApart tables context timestamp map := by
  cases flushes with
  | stays isUnit same =>
    subst same
    refine ⟨fun _ => ?_, fun _ => tracked⟩
    simp [FlushApart, isUnit]
  | moves unit last isUnit visits same emitted =>
    have due : ∀ key ∈ dueKeys map unit, key ∈ map.timeSet :=
      fun key mem => ((mem_range ..).mp mem).1
    have distinct : (dueKeys map unit).Nodup := nodup_range ..
    have flushApart_iff : FlushApart tables context timestamp map ↔
        Guarded (VisitApart timestamp (unit * timeUnit)) (visitStep tables context timestamp)
          { map with startTime := unit * timeUnit } (dueKeys map unit) := by
      simp [FlushApart, isUnit]
    have tracked_iff : Tracked next ↔ last.timeSet.Tracks last.liveKeys ∧
        ∀ key ∈ last.timeSet, unit * timeUnit ≤ key.timestampKey := by
      rw [tracked_iff_keys_ahead, liveKeys, same.live, same.timeSet, same.startTimeInUnit]
      rfl
    rw [flushApart_iff, tracked_iff, ← visits.tracks_iff due distinct tracked.keys]
    refine and_congr_right fun _ => forall₂_congr fun key mem => ?_
    constructor
    · exact Or.inl
    · rintro (ahead | kept)
      · exact ahead
      · exact tracked.ahead_of_not_due kept.1 kept.2

/-- A packet of no live flow opens one under a key of its own, not before the
window. -/
def OpenApart (context : Context) (packet : MetaPacket) (map : FlowMap σ) : Prop :=
  ∀ key, FlowMapKey.new packet.lookupKey packet.tapPort = some key ->
    findFlow context map key packet = none ->
    .new packet.lookupKey.timestamp key ∉ map.timeSet ∧
      map.startTimeInUnit * timeUnit ≤ nanosAsU64 packet.lookupKey.timestamp

theorem openApart_of_found (isKey : FlowMapKey.new packet.lookupKey packet.tapPort = some key)
    (found : (findFlow context map key packet).isSome) : OpenApart context packet map := by
  intro other isOther isNew
  exact absurd ⟨other, isOther, isNew⟩ (not_unmatched isKey found)

theorem Tracked.accepts_iff (tracked : Tracked map) (window : SameWindow map next)
    (accepts : Accepts context packet map next) : Tracked next ↔ OpenApart context packet map := by
  have keys := tracked.keys
  rw [tracked_iff_keys_ahead, window.startTimeInUnit]
  cases accepts with
  | opens key node isKey isNew added timestampKey timeSet emitted account =>
    have openApart_iff : OpenApart context packet map ↔
        .new packet.lookupKey.timestamp key ∉ map.timeSet ∧
          map.startTimeInUnit * timeUnit ≤ nanosAsU64 packet.lookupKey.timestamp := by
      simp [OpenApart, isKey, isNew]
    have opened : next.liveKeys = .new packet.lookupKey.timestamp key ::ₘ map.liveKeys := by
      rw [liveKeys, added, Multiset.map_cons, Entry.timeKey, timestampKey]
      rfl
    rw [openApart_iff, opened, timeSet, keys.insert_iff]
    refine and_congr_right fun _ => ?_
    simp only [mem_insert]
    constructor
    · intro ahead
      exact ahead _ (Or.inl rfl)
    · rintro later other (rfl | mem)
      · exact later
      · exact tracked.ahead other mem
  | joins key node after others records middle isKey found taken putBack
      timestampKey timeSet emitted reports account =>
    have same : next.liveKeys = map.liveKeys := by
      rw [liveKeys, liveKeys, taken, putBack, Multiset.map_cons,
        Multiset.map_cons, Entry.timeKey, Entry.timeKey, timestampKey]
    rw [same, timeSet]
    exact iff_of_true ⟨keys, tracked.ahead⟩ (openApart_of_found isKey found)
  | closes key node records record middle isKey found taken timeSet emitted reports account =>
    have closed : map.liveKeys = ⟨node.timestampKey, key⟩ ::ₘ next.liveKeys := by
      rw [liveKeys, taken, Multiset.map_cons, Entry.timeKey]
      rfl
    rw [closed] at keys
    rw [timeSet]
    refine iff_of_true ⟨keys.remove, fun other mem => ?_⟩ (openApart_of_found isKey found)
    exact tracked.ahead other ((mem_remove ..).mp mem).2

/-- A call, answered with the maps after the flush and after the packet, if
there is one. -/
def passes (tables : Tables σ) (map : FlowMap σ) : Event -> Option (FlowMap σ × List (FlowMap σ))
  | .flushTick context timestamp =>
    (injectFlushTicker tables context map timestamp).map fun flushed =>
      (flushed.1, [flushed.1])
  | .packet context packet => do
      let (flushed, _) <- injectFlushTicker tables context map packet.lookupKey.timestamp
      let (next, _) <- step tables map (.packet context packet)
      some (next, [flushed, next])

/-- A call puts its flows under keys of their own. -/
def KeysApart (tables : Tables σ) (map : FlowMap σ) : Event -> Prop
  | .flushTick context timestamp => FlushApart tables context (Context.timeOf context timestamp) map
  | .packet context packet =>
    FlushApart tables context (Context.timeOf context packet.lookupKey.timestamp) map ∧
      ∀ flushed,
        injectFlushTicker tables context map packet.lookupKey.timestamp = some (flushed, true) ->
        OpenApart context packet flushed

theorem Tracked.passes_iff (tracked : Tracked map)
    (passed : passes tables map event = some (next, states)) :
    next ∈ states ∧ ((∀ reached ∈ states, Tracked reached) ↔ KeysApart tables map event) := by
  cases event with
  | flushTick context timestamp =>
    obtain ⟨⟨flushed, inWindow⟩, isFlush, same⟩ := Option.map_eq_some_iff.mp passed
    obtain ⟨rfl, rfl⟩ := Prod.mk.inj same
    simpa [KeysApart] using tracked.flushes_iff (injectFlushTicker_flushes isFlush).1
  | packet context packet =>
    simp only [passes, bind_eq_some, Option.some.injEq, Prod.mk.injEq] at passed
    obtain ⟨⟨flushed, inWindow⟩, isFlush, ⟨after, accepted⟩, stepped, rfl, rfl⟩ := passed
    have flush_iff := tracked.flushes_iff (injectFlushTicker_flushes isFlush).1
    refine ⟨by simp, ?_⟩
    rw [KeysApart, ← flush_iff, List.forall_mem_cons, List.forall_mem_singleton]
    refine and_congr_right fun trackedFlushed => ?_
    cases step_steps stepped with
    | refuses context packet isRefused =>
      rw [isFlush] at isRefused
      obtain ⟨rfl, rfl⟩ := Prod.mk.inj (Option.some.inj isRefused)
      refine iff_of_true trackedFlushed fun other again => ?_
      simp [isFlush] at again
    | accepts context packet middle isAccepted window accepts =>
      rw [isFlush] at isAccepted
      obtain ⟨rfl, rfl⟩ := Prod.mk.inj (Option.some.inj isAccepted)
      rw [trackedFlushed.accepts_iff window accepts]
      simp [isFlush]

/-- In every run time set and live flows correspond in all states, with no key
before the part that is scanned next, exactly if every flow is opened and
scheduled under a key of its own, not before the window. -/
theorem run_tracked_iff (tables : Tables σ) (threadId : BitVec 32) (serviceTable : σ)
    (events : List Event) (final : FlowMap σ) (states : List (List (FlowMap σ)))
    (ran : runSteps (passes tables) (.new threadId serviceTable) events = some (final, states)) :
    (∀ reached ∈ .new threadId serviceTable :: states.flatten, Tracked reached) ↔
      Guarded (KeysApart tables) (passes tables) (.new threadId serviceTable) events := by
  rw [List.forall_mem_cons, List.forall_mem_flatten]
  rw [← forall_results_iff_guarded Tracked (fun passed => ∀ reached ∈ passed, Tracked reached)
    (fun _ _ _ _ tracked stepped => (tracked.passes_iff stepped).2)
    (fun _ _ _ _ tracked stepped kept =>
      kept _ (tracked.passes_iff stepped).1)
    (tracked_new threadId serviceTable) ran]
  exact and_iff_right (tracked_new threadId serviceTable)

/-- A request that is flushed when it is due: the flows are tracked in every
state. -/
theorem run_tracked_iff_ping :
    ∃ final states,
      runSteps (passes plainTables) (.new 0 ())
        [.packet {} (ping 100), .flushTick {} (200 * timeUnit)] = some (final, states) ∧
      states.flatten.length = 3 ∧
      Guarded (KeysApart plainTables) (passes plainTables) (.new 0 ())
        [.packet {} (ping 100), .flushTick {} (200 * timeUnit)] := by
  have computed : ∃ outcome ∈ runSteps (passes plainTables) (.new 0 ())
      [.packet {} (ping 100), .flushTick {} (200 * timeUnit)],
      outcome.2.flatten.length = 3 ∧ ∀ reached ∈ outcome.2.flatten,
        (reached.timeSet.elements : Multiset FlowTimeKey) = reached.liveKeys ∧
        ∀ key ∈ reached.timeSet.elements,
          reached.startTimeInUnit * timeUnit ≤ key.timestampKey := by
    decide +kernel
  obtain ⟨⟨final, states⟩, ran, count, tracked⟩ := computed
  refine ⟨final, states, ran, count, (run_tracked_iff plainTables 0 () _ final states ran).mp
    (List.forall_mem_cons.mpr ⟨tracked_new 0 (), fun reached mem => ?_⟩)⟩
  obtain ⟨keys, ahead⟩ := tracked reached mem
  exact ⟨OrderedSet.tracks_iff_coe_eq.mpr keys, ahead⟩

/-- A GRE packet between the hosts of the echo request. -/
def grePacket (second : Nat) : MetaPacket :=
  { ping second with
    lookupKey := { (ping second).lookupKey with proto := .gre } }

/-- Flows last five minutes. -/
def patientContext : Context where
  config := { flowTimeout := { opening := 300 * timeUnit } }

/-- Two flows between the same hosts, opened a second apart, are given the same
next visit by one scan: the set has one key for both. -/
theorem scan_merges_time_keys :
    ∃ final states,
      runSteps (passes plainTables) (.new 0 ())
        [.packet patientContext (ping 100), .packet patientContext (grePacket 101),
          .flushTick patientContext (110 * timeUnit)] =
        some (final, states) ∧
      final.live.card = 2 ∧ final.timeSet.length = 1 ∧ ¬ Tracked final := by
  have merged : ∃ outcome ∈ runSteps (passes plainTables) (.new 0 ())
      [.packet patientContext (ping 100), .packet patientContext (grePacket 101),
        .flushTick patientContext (110 * timeUnit)],
      outcome.1.live.card = 2 ∧ outcome.1.timeSet.length = 1 := by decide +kernel
  obtain ⟨⟨final, states⟩, ran, flows, keys⟩ := merged
  refine ⟨final, states, ran, flows, keys, fun tracked => ?_⟩
  refine tracked.keys.not_short ?_
  rw [Short, liveKeys, Multiset.card_map, flows, keys]
  decide

end FlowMap
end Metaflow.FlowGenerator
