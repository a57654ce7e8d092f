import Metaflow.FlowGenerator.FlowTimeKeys

/-!
# The keys of the node map

No call takes a key out of the node map. A bucket whose flows have all ended
stays in it, without a flow, so a key has a live flow as long as no visit and
no packet ends the only flow of its bucket.
-/

namespace Metaflow.FlowGenerator

open AgentCommon Library

variable {σ : Type} {tables : Tables σ} {context : Context} {map next : FlowMap σ}
  {timestamp : Duration} {packet : MetaPacket}

namespace FlowMap

/-- A visit of a key does not end the only flow of the bucket. -/
def VisitKeeps (timestamp : Duration) (map : FlowMap σ) (key : FlowTimeKey) : Prop :=
  ∀ nodes ∈ map.nodeMap.lookup key.mapKey, nodes.length = 1 ->
    ∀ node ∈ nodes, (node.nextVisit timestamp).isSome

instance (timestamp : Duration) (map : FlowMap σ) (key : FlowTimeKey) :
    Decidable (VisitKeeps timestamp map key) :=
  inferInstanceAs (Decidable (∀ nodes ∈ map.nodeMap.lookup key.mapKey, _))

/-- A flush does not end the only flow of a bucket. -/
def FlushKeeps (tables : Tables σ) (context : Context) (timestamp : Duration)
    (map : FlowMap σ) : Prop :=
  ∀ unit ∈ windowUnit context map timestamp,
    Guarded (VisitKeeps timestamp) (visitStep tables context timestamp)
      { map with startTime := unit * timeUnit } (dueKeys map unit)

instance (tables : Tables σ) (context : Context) (timestamp : Duration) (map : FlowMap σ) :
    Decidable (FlushKeeps tables context timestamp map) :=
  inferInstanceAs (Decidable (∀ unit ∈ windowUnit context map timestamp, _))

/-- Whether the state machine ends the flow at an index of a bucket with a
packet. -/
def endsFlow (tables : Tables σ) (context : Context) (map : FlowMap σ) (nodes : List FlowNode)
    (index : Nat) (packet matched : MetaPacket) : Option Bool := do
  let node <- nodes[index]?
  let (map, node, reverse) <- nodeUpdatedAftercare tables context map node
    packet.lookupKey.timestamp
  let turned := MetaPacket.turn matched reverse
  match turned.lookupKey.proto with
  | .tcp =>
    (updateTcpFlow tables context map.serviceTable turned (node.take packet)).map (·.2.2)
  | _ => some false

/-- A packet does not end the only flow of its bucket. -/
def PacketKeeps (tables : Tables σ) (context : Context) (packet : MetaPacket)
    (map : FlowMap σ) : Prop :=
  ∀ key ∈ FlowMapKey.new packet.lookupKey packet.tapPort,
    ∀ found ∈ findFlow context map key packet, found.1.length = 1 ->
      endsFlow tables context map found.1 found.2.1 packet found.2.2 ≠ some true

instance (tables : Tables σ) (context : Context) (packet : MetaPacket) (map : FlowMap σ) :
    Decidable (PacketKeeps tables context packet map) :=
  inferInstanceAs (Decidable (∀ key ∈ FlowMapKey.new packet.lookupKey packet.tapPort, _))

/-- A call does not end the only flow of a bucket. -/
def LastKept (tables : Tables σ) (map : FlowMap σ) : Event -> Prop
  | .flushTick context timestamp => FlushKeeps tables context (Context.timeOf context timestamp) map
  | .packet context packet =>
    FlushKeeps tables context (Context.timeOf context packet.lookupKey.timestamp) map ∧
      ∀ flushed ∈ injectFlushTicker tables context map packet.lookupKey.timestamp,
        flushed.2 = true -> PacketKeeps tables context packet flushed.1

instance (tables : Tables σ) (map : FlowMap σ) (event : Event) :
    Decidable (LastKept tables map event) :=
  match event with
  | .flushTick context timestamp =>
    inferInstanceAs (Decidable (FlushKeeps tables context (Context.timeOf context timestamp) map))
  | .packet context packet =>
    inferInstanceAs (Decidable
      (FlushKeeps tables context (Context.timeOf context packet.lookupKey.timestamp) map ∧
        ∀ flushed ∈ injectFlushTicker tables context map packet.lookupKey.timestamp,
          flushed.2 = true -> PacketKeeps tables context packet flushed.1))

/-- The bucket that a visit leaves behind is empty if it has ended the only
flow. -/
theorem solveKey_bucket (solved : solveKey tables context timestamp map key = some next) :
    ∃ nodes after, map.nodeMap.lookup key.mapKey = some nodes ∧ nodes ≠ [] ∧
      next.nodeMap = map.nodeMap.insert key.mapKey after ∧
      (after ≠ [] ↔ VisitKeeps timestamp map key) := by
  simp only [solveKey, bind_eq_some] at solved
  obtain ⟨nodes, isBucket, index, -, node, isNode, timeout, isTimeout, outcome⟩ := solved
  have isIn : node ∈ nodes := List.mem_of_getElem? isNode
  refine ⟨nodes, ?_⟩
  split at outcome
  case isTrue expired =>
    have ends : node.nextVisit timestamp = none := by
      simp [FlowNode.nextVisit, isTimeout, expired]
    refine ⟨_, isBucket, List.ne_nil_of_mem isIn, (nodeRemovedAftercare_spec outcome).1.nodeMap, ?_⟩
    rw [ne_eq, swapRemove_eq_nil_iff isNode]
    constructor
    · rintro several found isFound single
      rw [isBucket] at isFound
      exact absurd (Option.some.inj isFound ▸ single) several
    · intro keeps single
      have goesOn := keeps nodes isBucket single node isIn
      simp [ends] at goesOn
  case isFalse goesOn =>
    simp only [reschedule, bind_eq_some] at outcome
    obtain ⟨⟨middle, after, _⟩, updated, time, isTime, rescheduled⟩ := outcome
    rw [Option.ite_none_right_eq_some] at rescheduled
    obtain rfl := Option.some.inj rescheduled.2
    refine ⟨swapRemove nodes index ++ [{ after with timestampKey := time }], isBucket,
      List.ne_nil_of_mem isIn, ?_, ?_⟩
    · rw [← (nodeUpdatedAftercare_spec updated).1.nodeMap]
    refine iff_of_true (by simp) ?_
    intro found isFound single other isOther
    rw [isBucket] at isFound
    rw [← Option.some.inj isFound] at single isOther
    obtain ⟨only, rfl⟩ := List.length_eq_one_iff.mp single
    rw [List.mem_singleton.mp isOther, ← List.mem_singleton.mp isIn]
    simp [FlowNode.nextVisit, isTimeout, goesOn, isTime]

/-- A visit leaves an empty bucket as it is. -/
theorem solveKey_lookup_nil (solved : solveKey tables context timestamp map key = some next)
    (empty : map.nodeMap.lookup other = some []) : next.nodeMap.lookup other = some [] := by
  obtain ⟨nodes, after, isBucket, nonempty, nodeMap, -⟩ := solveKey_bucket solved
  rw [nodeMap, AList.lookup_insert_ne, empty]
  rintro rfl
  exact nonempty (Option.some.inj (isBucket.symm.trans empty))

/-- No visit fills a bucket that has become empty. -/
theorem VisitsAll.filled_of_filled (visits : VisitsAll tables context timestamp keys map next)
    (filled : Buckets.Filled next.nodeMap) : Buckets.Filled map.nodeMap := by
  rintro other values found rfl
  suffices empty : next.nodeMap.lookup other = some [] from filled other [] empty rfl
  induction visits with
  | nil => exact found
  | cons solved _ ih => exact ih filled (solveKey_lookup_nil solved found)

/-- A scan leaves no bucket empty exactly if every visit keeps the only flow. -/
theorem VisitsAll.filled_iff (visits : VisitsAll tables context timestamp keys map next)
    (filled : Buckets.Filled map.nodeMap) : Buckets.Filled next.nodeMap ↔
      Guarded (VisitKeeps timestamp) (visitStep tables context timestamp) map keys := by
  induction visits with
  | nil => exact ⟨fun _ => trivial, fun _ => filled⟩
  | @cons key keys map middle next solved remaining ih =>
    have stepped : visitStep tables context timestamp map key = some (middle, ()) := by
      rw [visitStep, solved]
      rfl
    obtain ⟨nodes, after, -, -, nodeMap, keeps⟩ := solveKey_bucket solved
    have first : Buckets.Filled middle.nodeMap ↔ VisitKeeps timestamp map key := by
      rw [nodeMap, filled.insert_iff, keeps]
    rw [guarded_cons_iff stepped, ← first]
    constructor
    · intro filledAfter
      have filledMiddle := remaining.filled_of_filled filledAfter
      exact ⟨filledMiddle, (ih filledMiddle).mp filledAfter⟩
    · rintro ⟨filledMiddle, guarded⟩
      exact (ih filledMiddle).mpr guarded

/-- The same for a flush. -/
theorem Flushes.filled_iff (flushes : Flushes tables context timestamp map next)
    (filled : Buckets.Filled map.nodeMap) :
    Buckets.Filled next.nodeMap ↔ FlushKeeps tables context timestamp map := by
  cases flushes with
  | stays isUnit same =>
    subst same
    simp [FlushKeeps, isUnit, filled]
  | moves unit last isUnit visits same emitted =>
    rw [same.nodeMap, visits.filled_iff filled]
    simp [FlushKeeps, isUnit]

/-- The bucket that a packet of a flow leaves behind is empty if it has ended
the only flow. -/
theorem joinFlow_bucket
    (joined : joinFlow tables context map key nodes index packet matched = some next) :
    ∃ after, next.nodeMap = map.nodeMap.insert key after ∧
      (after ≠ [] ↔ (nodes.length = 1 ->
        endsFlow tables context map nodes index packet matched ≠ some true)) := by
  simp only [joinFlow, bind_eq_some] at joined
  obtain ⟨node, isNode, ⟨middle, updated, reverse⟩, isUpdated, outcome⟩ := joined
  have sameBuckets := (nodeUpdatedAftercare_spec isUpdated).1.nodeMap
  simp only [endsFlow, isNode, isUpdated, some_bind]
  rw [← sameBuckets]
  rw [updateNode] at outcome
  have putBack : ∀ answeredTimeout, updateAnsweredNode answeredTimeout context middle key
      (swapRemove nodes index) (updated.take packet) (MetaPacket.turn matched reverse) =
        some next ->
      ∃ after, next.nodeMap = middle.nodeMap.insert key after ∧
        (after ≠ [] ↔ (nodes.length = 1 -> some false ≠ some true)) := by
    intro answeredTimeout answered
    simp only [updateAnsweredNode, bind_eq_some, Option.some.injEq] at answered
    obtain ⟨after, -, rfl⟩ := answered
    exact ⟨_, rfl, by simp⟩
  split at outcome
  case h_1 isTcp =>
    simp only [updateTcpNode, bind_eq_some] at outcome
    obtain ⟨⟨table, after, closed⟩, isAfter, outcome⟩ := outcome
    simp only [isTcp, isAfter, Option.map_some]
    cases closed with
    | true =>
      refine ⟨_, (nodeRemovedAftercare_spec outcome).1.nodeMap, ?_⟩
      rw [ne_eq, swapRemove_eq_nil_iff isNode]
      simp
    | false =>
      obtain rfl := Option.some.inj outcome
      exact ⟨_, rfl, by simp⟩
  case h_2 isUdp =>
    simp only [isUdp]
    exact putBack _ outcome
  case h_3 notTcp _ =>
    split
    · exact absurd ‹_› notTcp
    · exact putBack _ outcome

/-- The same for a packet that is accepted. -/
theorem acceptPacket_filled_iff (accepted : acceptPacket tables context map packet = some next)
    (filled : Buckets.Filled map.nodeMap) :
    Buckets.Filled next.nodeMap ↔ PacketKeeps tables context packet map := by
  simp only [acceptPacket, bind_eq_some] at accepted
  obtain ⟨key, isKey, outcome⟩ := accepted
  split at outcome
  case h_1 isNew =>
    simp only [openFlow, bind_eq_some, Option.some.injEq] at outcome
    obtain ⟨_, -, rfl⟩ := outcome
    refine iff_of_true (filled.insert_iff.mpr (by simp)) ?_
    simp [PacketKeeps, isKey, isNew]
  case h_2 found =>
    obtain ⟨after, nodeMap, keeps⟩ := joinFlow_bucket outcome
    rw [nodeMap, filled.insert_iff, keeps]
    simp [PacketKeeps, isKey, found]

/-- A call leaves no bucket empty on its way exactly if it ends the only flow
of none. -/
theorem passes_filled_iff (filled : Buckets.Filled map.nodeMap)
    (passed : passes tables map event = some (next, states)) :
    next ∈ states ∧
      ((∀ reached ∈ states, Buckets.Filled reached.nodeMap) ↔ LastKept tables map event) := by
  cases event with
  | flushTick context timestamp =>
    obtain ⟨⟨flushed, inWindow⟩, isFlush, same⟩ := Option.map_eq_some_iff.mp passed
    obtain ⟨rfl, rfl⟩ := Prod.mk.inj same
    simpa [LastKept] using (injectFlushTicker_flushes isFlush).1.filled_iff filled
  | packet context packet =>
    simp only [passes, step, injectMetaPacket, bind_eq_some, Option.some.injEq,
      Prod.mk.injEq] at passed
    obtain ⟨⟨flushed, inWindow⟩, isFlush, ⟨after, accepted⟩,
      ⟨_, -, outcome, ⟨_, again, injected⟩, rfl, -⟩, rfl, rfl⟩ := passed
    obtain rfl := Option.some.inj (isFlush.symm.trans again)
    have flush_iff := (injectFlushTicker_flushes isFlush).1.filled_iff filled
    refine ⟨by simp, ?_⟩
    rw [LastKept, ← flush_iff, List.forall_mem_cons, List.forall_mem_singleton]
    refine and_congr_right fun filledFlushed => ?_
    cases inWindow with
    | true =>
      rw [acceptPacket_filled_iff injected filledFlushed]
      simp [isFlush]
    | false =>
      obtain rfl := Option.some.inj injected
      simp [isFlush, filledFlushed]

/-- In every run the node map has entries only for keys of live flows, and no
more than there are live flows, in all states exactly if no visit and no packet
ends the only flow of its bucket. -/
theorem run_keys_live_iff (tables : Tables σ) (id : BitVec 32) (serviceTable : σ)
    (events : List Event) (final : FlowMap σ) (states : List (List (FlowMap σ)))
    (ran : runSteps (passes tables) (.new id serviceTable) events = some (final, states)) :
    (∀ reached ∈ .new id serviceTable :: states.flatten,
      (∀ key ∈ reached.nodeMap, ∃ node, (key, node) ∈ reached.live) ∧
        reached.nodeMap.keys.length ≤ reached.live.card) ↔
      Guarded (LastKept tables) (passes tables) (.new id serviceTable) events := by
  have backed_iff : ∀ reached : FlowMap σ,
      ((∀ key ∈ reached.nodeMap, ∃ node, (key, node) ∈ reached.live) ∧
        reached.nodeMap.keys.length ≤ reached.live.card) ↔ Buckets.Filled reached.nodeMap := by
    intro reached
    rw [live, ← Buckets.filled_iff]
    exact and_iff_left_of_imp fun filled => filled.length_keys_le
  have initially : Buckets.Filled (FlowMap.new id serviceTable).nodeMap := Buckets.filled_empty
  simp only [backed_iff]
  rw [List.forall_mem_cons, List.forall_mem_flatten]
  rw [← forall_results_iff_guarded (fun map => Buckets.Filled map.nodeMap)
    (fun passed => ∀ reached ∈ passed, Buckets.Filled reached.nodeMap)
    (fun _ _ _ _ filled stepped => (passes_filled_iff filled stepped).2)
    (fun _ _ _ _ filled stepped kept => kept _ (passes_filled_iff filled stepped).1)
    initially ran]
  exact and_iff_right initially

/-- The entry of an echo request outlives its flow. -/
theorem ended_flow_keeps_entry :
    ∃ outcome ∈ runSteps (step plainTables) (.new 0 ())
        [.packet {} (ping 100), .flushTick {} (200 * timeUnit)],
      outcome.1.nodeMap.keys.length = 1 ∧ outcome.1.live.card = 0 := by
  decide +kernel

/-- Two requests and a GRE packet between the same hosts: the key has a live
flow in every state. -/
theorem run_keys_live_iff_pings :
    ∃ final states,
      runSteps (passes plainTables) (.new 0 ())
        [.packet patientContext (ping 100), .packet patientContext (grePacket 101),
          .packet patientContext (ping 102), .flushTick patientContext (110 * timeUnit)] =
        some (final, states) ∧
      final.live.card = 2 ∧
      ∀ reached ∈ .new 0 () :: states.flatten,
        (∀ key ∈ reached.nodeMap, ∃ node, (key, node) ∈ reached.live) ∧
          reached.nodeMap.keys.length ≤ reached.live.card := by
  have ran : ∃ outcome ∈ runSteps (passes plainTables) (.new 0 ())
      [.packet patientContext (ping 100), .packet patientContext (grePacket 101),
        .packet patientContext (ping 102), .flushTick patientContext (110 * timeUnit)],
      outcome.1.live.card = 2 := by decide +kernel
  obtain ⟨⟨final, states⟩, isRun, flows⟩ := ran
  exact ⟨final, states, isRun, flows,
    (run_keys_live_iff plainTables 0 () _ final states isRun).mpr (by decide +kernel)⟩

end FlowMap
end Metaflow.FlowGenerator
