import Metaflow.FlowGenerator.FlowAccounts

/-!
# What a call does to the flow map

The flow map as the multiset of its live flows, the time set and the emitted
records. Every invariant is derived from the moves: a visit ends or reschedules
a flow; a packet opens, joins or closes one.
-/

namespace Metaflow.FlowGenerator

open AgentCommon Library Option

variable {σ : Type}

/-- A live flow and the key of its bucket. -/
abbrev Entry := FlowMapKey × FlowNode

/-- The key under which the time set should have a live flow. -/
def Entry.timeKey (entry : Entry) : FlowTimeKey :=
  ⟨entry.2.timestampKey, entry.1⟩

def Entry.account (entry : Entry) : Account :=
  entry.2.flow.account

/-- The time of the next visit of a flow, unless it ends now. -/
def FlowNode.nextVisit (node : FlowNode) (timestamp : Duration) : Option Nat := do
  let timeout <- addDuration node.recentTime node.timeout
  if timeout ≤ timestamp then none
  else FlowMap.updatedTime timestamp timeout

namespace FlowMap

def live (map : FlowMap σ) : Multiset Entry :=
  Buckets.contents map.nodeMap

/-- The call has not moved the time window. -/
structure SameWindow (map next : FlowMap σ) : Prop where
  id : next.id = map.id
  startTime : next.startTime = map.startTime
  startTimeInUnit : next.startTimeInUnit = map.startTimeInUnit

theorem SameTables.live (same : SameTables map next) : next.live = map.live := by
  rw [FlowMap.live, same.nodeMap, FlowMap.live]

/-- The flow that a visit of a key finds. -/
def visited (map : FlowMap σ) (key : FlowTimeKey) : Option FlowNode := do
  let nodes <- map.nodeMap.lookup key.mapKey
  let index <- nodes.findIdx? (·.timestampKey = key.timestampKey)
  nodes[index]?

/-- The flow that is due under a key ends, or it goes on and is scheduled
again. -/
inductive Visits (timestamp : Duration) (key : FlowTimeKey) (map next : FlowMap σ) : Prop
  | ends
      (node : FlowNode)
      (record : Flow)
      (isVisited : visited map key = some node)
      (taken : map.live = (key.mapKey, node) ::ₘ next.live)
      (isDue : node.timestampKey = key.timestampKey)
      (expired : node.nextVisit timestamp = none)
      (timeSet : next.timeSet = map.timeSet.remove key)
      (emitted : next.emitted = map.emitted ++ [record])
      (closes : Closes node.flow.account record)
  | goesOn
      (node after : FlowNode)
      (others : Multiset Entry)
      (records : List Flow)
      (isVisited : visited map key = some node)
      (taken : map.live = (key.mapKey, node) ::ₘ others)
      (putBack : next.live = (key.mapKey, after) ::ₘ others)
      (isDue : node.timestampKey = key.timestampKey)
      (scheduled : node.nextVisit timestamp = some after.timestampKey)
      (present : key ∈ map.timeSet)
      (timeSet : next.timeSet = (map.timeSet.remove key).insert ⟨after.timestampKey, key.mapKey⟩)
      (emitted : next.emitted = map.emitted ++ records)
      (reports : Reports node.flow.account records after.flow.account)

theorem solveKey_visits (solved : solveKey tables context timestamp map key = some next) :
    SameWindow map next ∧ Visits timestamp key map next := by
  simp only [solveKey, bind_eq_some] at solved
  obtain ⟨nodes, isBucket, index, isIndex, node, isNode, timeout, isTimeout, outcome⟩ := solved
  have isDue : node.timestampKey = key.timestampKey := by
    obtain ⟨inside, found, -⟩ := List.findIdx?_eq_some_iff_getElem.mp isIndex
    rw [List.getElem?_eq_getElem inside, Option.some.injEq] at isNode
    subst isNode
    simpa using found
  have isVisited : visited map key = some node := by simp [visited, isBucket, isIndex, isNode]
  have taken := Buckets.contents_swapRemove isBucket isNode
  split at outcome
  case isTrue expired =>
      obtain ⟨same, record, emitted, closes⟩ := nodeRemovedAftercare_spec outcome
      refine ⟨⟨same.id, same.startTime, same.startTimeInUnit⟩,
        .ends node record isVisited ?_ isDue ?_ same.timeSet emitted closes⟩
      · rw [same.live]
        exact taken
      · simp [FlowNode.nextVisit, isTimeout, expired]
  case isFalse goesOn =>
      simp only [reschedule, bind_eq_some] at outcome
      obtain ⟨⟨middle, after, _⟩, updated, time, isTime, rescheduled⟩ := outcome
      obtain ⟨same, -, records, emitted, reports⟩ := nodeUpdatedAftercare_spec updated
      split at rescheduled
      case isFalse => cases rescheduled
      case isTrue present =>
          rw [same.timeSet] at present
          obtain rfl := Option.some.inj rescheduled
          refine ⟨⟨same.id, same.startTime, same.startTimeInUnit⟩,
            .goesOn node { after with timestampKey := time } _ records
              isVisited taken ?_ isDue ?_ present ?_ emitted reports⟩
          · rw [← Buckets.contents_insert_concat, ← same.nodeMap]
            rfl
          · simp [FlowNode.nextVisit, isTimeout, goesOn, isTime]
          · rw [← same.timeSet]

/-- The visits of a list of keys, one after the other. -/
inductive VisitsAll (tables : Tables σ) (context : Context) (timestamp : Duration) :
    List FlowTimeKey -> FlowMap σ -> FlowMap σ -> Prop
  | nil (map : FlowMap σ) : VisitsAll tables context timestamp [] map map
  | cons
      {key : FlowTimeKey}
      {keys : List FlowTimeKey}
      {map middle next : FlowMap σ}
      (solved : solveKey tables context timestamp map key = some middle)
      (remaining : VisitsAll tables context timestamp keys middle next) :
      VisitsAll tables context timestamp (key :: keys) map next

theorem foldlM_solveKey_visitsAll
    (solved : keys.foldlM (solveKey tables context timestamp) map = some next) :
    VisitsAll tables context timestamp keys map next := by
  induction keys generalizing map with
  | nil =>
    obtain rfl : map = next := by simpa using solved
    exact .nil map
  | cons key keys ih =>
    rw [List.foldlM_cons] at solved
    obtain ⟨middle, first, remaining⟩ := bind_eq_some_iff.mp solved
    exact .cons first (ih remaining)

theorem VisitsAll.keeps {invariant : FlowMap σ -> Prop}
    (visitKeeps : ∀ key map next, Visits timestamp key map next -> SameWindow map next ->
      invariant map -> invariant next)
    (visitsAll : VisitsAll tables context timestamp keys map next)
    (initially : invariant map) : invariant next := by
  induction visitsAll with
  | nil => exact initially
  | cons solved _ ih =>
    obtain ⟨window, visits⟩ := solveKey_visits solved
    exact ih (visitKeeps _ _ _ visits window initially)

/-- The second to which a flush moves the window, unless it stays. -/
def windowUnit (context : Context) (map : FlowMap σ) (timestamp : Duration) : Option Nat := do
  let delayed <- subDuration timestamp context.config.packetDelay
  let earliest <- subDuration delayed timeUnit
  if earliest < map.startTime then none else some (delayed / timeUnit)

/-- The keys that a move of the window leaves behind. -/
def dueKeys (map : FlowMap σ) (unit : Nat) : List FlowTimeKey :=
  map.timeSet.range ⟨map.startTimeInUnit * timeUnit, {}⟩ ⟨unit * timeUnit, {}⟩

/-- A flush leaves the map as it is or moves the window and visits all flows
that are due. -/
inductive Flushes (tables : Tables σ) (context : Context) (timestamp : Duration)
    (map next : FlowMap σ) : Prop
  | stays
      (isUnit : windowUnit context map timestamp = none)
      (same : next = map)
  | moves
      (unit : Nat)
      (last : FlowMap σ)
      (isUnit : windowUnit context map timestamp = some unit)
      (visits : VisitsAll tables context timestamp (dueKeys map unit)
        { map with startTime := unit * timeUnit } last)
      (same : SameTables { last with startTimeInUnit := unit } next)
      (emitted : next.emitted = last.emitted)

theorem windowUnit_eq_none (early : timestamp < map.startTime) :
    windowUnit context map timestamp = none := by
  rw [eq_none_iff_forall_ne_some]
  intro unit isUnit
  simp only [windowUnit, subDuration, bind_eq_bind, bind_eq_some_iff, ite_none_right_eq_some,
    ite_none_left_eq_some, Option.some.injEq] at isUnit
  obtain ⟨delayed, ⟨-, rfl⟩, earliest, ⟨-, rfl⟩, late, -⟩ := isUnit
  refine late (lt_of_le_of_lt ?_ early)
  exact (Nat.sub_le _ _).trans (Nat.sub_le _ _)

theorem eq_mul_of_mulU64 (multiplied : mulU64 left right = some product) :
    product = left * right := by
  rw [mulU64, ite_none_right_eq_some] at multiplied
  exact (Option.some.inj multiplied.2).symm

theorem advance_flushes (advanced : advance tables context map timestamp = some next) :
    Flushes tables context timestamp map next := by
  simp only [advance, bind_eq_some] at advanced
  obtain ⟨delayed, isDelayed, earliest, isEarliest, outcome⟩ := advanced
  split at outcome
  case isTrue early =>
      refine .stays ?_ (Option.some.inj outcome).symm
      simp [windowUnit, isDelayed, isEarliest, early]
  case isFalse late =>
      simp only [moveWindow, bind_eq_some] at outcome
      obtain ⟨target, isTarget, start, isStart, visited, solved, flushed⟩ := outcome
      obtain rfl := eq_mul_of_mulU64 isTarget
      obtain rfl := eq_mul_of_mulU64 isStart
      obtain ⟨same, emitted⟩ := flushQueue_spec flushed
      refine .moves (delayed / timeUnit) visited ?_ (foldlM_solveKey_visitsAll solved) same emitted
      simp [windowUnit, isDelayed, isEarliest, late]

/-- The time that a flush goes by: zero asks the clock. -/
def Context.timeOf (context : Context) (timestamp : Duration) : Duration :=
  if timestamp = 0 then context.now else timestamp

/-- A time before the window is refused. -/
theorem injectFlushTicker_flushes
    (injected : injectFlushTicker tables context map timestamp = some (next, inWindow)) :
    Flushes tables context (Context.timeOf context timestamp) map next ∧
      (inWindow = true -> timestamp ≠ 0 -> map.startTime ≤ timestamp) := by
  simp only [injectFlushTicker] at injected
  split at injected
  case isTrue isZero =>
      obtain ⟨advanced, isAdvanced, same⟩ := map_eq_some_iff.mp injected
      obtain ⟨rfl, -⟩ := Prod.mk.inj same
      rw [Context.timeOf, if_pos isZero]
      exact ⟨advance_flushes isAdvanced, fun _ nonzero => absurd isZero nonzero⟩
  case isFalse nonzero =>
      rw [Context.timeOf, if_neg nonzero]
      split at injected
      case isTrue early =>
          obtain ⟨rfl, rfl⟩ : map = next ∧ false = inWindow := by
            simpa using injected
          exact ⟨.stays (windowUnit_eq_none early) rfl, by simp⟩
      case isFalse inside =>
          obtain ⟨advanced, isAdvanced, same⟩ := map_eq_some_iff.mp injected
          obtain ⟨rfl, -⟩ := Prod.mk.inj same
          exact ⟨advance_flushes isAdvanced, fun _ _ => not_lt.mp inside⟩

/-- What every visit keeps, and what does not depend on the window, is kept by
a flush. -/
theorem Flushes.keeps {invariant : FlowMap σ -> Prop}
    (visitKeeps : ∀ timestamp key map next, Visits timestamp key map next -> SameWindow map next ->
      invariant map -> invariant next)
    (sameContents : ∀ map next : FlowMap σ, next.id = map.id -> next.live = map.live ->
      next.emitted = map.emitted -> invariant map -> invariant next)
    (flushed : Flushes tables context timestamp map next) (initially : invariant map) :
    invariant next := by
  cases flushed with
  | stays isUnit same => exact same ▸ initially
  | moves unit last isUnit visits same emitted =>
    refine sameContents last next same.id same.live emitted ?_
    refine visits.keeps (visitKeeps timestamp) ?_
    exact sameContents map _ rfl rfl rfl initially

/-- An accepted packet opens a flow, joins one, or joins one and closes it. -/
inductive Accepts (context : Context) (packet : MetaPacket) (map next : FlowMap σ) : Prop
  | opens
      (key : FlowMapKey)
      (node : FlowNode)
      (isKey : FlowMapKey.new packet.lookupKey packet.tapPort = some key)
      (isNew : findFlow context map key packet = none)
      (added : next.live = (key, node) ::ₘ map.live)
      (timestampKey : node.timestampKey = nanosAsU64 packet.lookupKey.timestamp)
      (timeSet : next.timeSet = map.timeSet.insert (.new packet.lookupKey.timestamp key))
      (emitted : next.emitted = map.emitted)
      (account : node.flow.account = (Account.first
        (generateFlowId packet.lookupKey.timestamp map.id map.timeSet.length)
        packet.lookupKey.timestamp packet.packetLen).note packet)
  | joins
      (key : FlowMapKey)
      (node after : FlowNode)
      (others : Multiset Entry)
      (records : List Flow)
      (middle : Account)
      (isKey : FlowMapKey.new packet.lookupKey packet.tapPort = some key)
      (found : (findFlow context map key packet).isSome)
      (taken : map.live = (key, node) ::ₘ others)
      (putBack : next.live = (key, after) ::ₘ others)
      (timestampKey : after.timestampKey = node.timestampKey)
      (timeSet : next.timeSet = map.timeSet)
      (emitted : next.emitted = map.emitted ++ records)
      (reports : Reports node.flow.account records middle)
      (account : after.flow.account = middle.take packet)
  | closes
      (key : FlowMapKey)
      (node : FlowNode)
      (records : List Flow)
      (record : Flow)
      (middle : Account)
      (isKey : FlowMapKey.new packet.lookupKey packet.tapPort = some key)
      (found : (findFlow context map key packet).isSome)
      (taken : map.live = (key, node) ::ₘ next.live)
      (timeSet : next.timeSet = map.timeSet.remove ⟨node.timestampKey, key⟩)
      (emitted : next.emitted = map.emitted ++ (records ++ [record]))
      (reports : Reports node.flow.account records middle)
      (account : Closes (middle.take packet) record)

/-- The packet belongs to no live flow. -/
def Unmatched (context : Context) (packet : MetaPacket) (map : FlowMap σ) : Prop :=
  ∃ key, FlowMapKey.new packet.lookupKey packet.tapPort = some key ∧
    findFlow context map key packet = none

theorem not_unmatched (isKey : FlowMapKey.new packet.lookupKey packet.tapPort = some key)
    (found : (findFlow context map key packet).isSome) : ¬ Unmatched context packet map := by
  rintro ⟨other, isOther, isNew⟩
  obtain rfl := Option.some.inj (isKey.symm.trans isOther)
  simp [isNew] at found

theorem packetLen_turn (packet : MetaPacket) (reverse : Bool) :
    (MetaPacket.turn packet reverse).packetLen = packet.packetLen := by
  cases reverse <;> rfl

theorem account_take (node : FlowNode) (packet : MetaPacket) :
    (node.take packet).flow.account = node.flow.account.note packet := rfl

/-- The flow that takes the packet is put back or closed. -/
inductive Updates (length : Nat) (key : FlowMapKey) (rest : List FlowNode) (node : FlowNode)
    (map next : FlowMap σ) : Prop
  | putsBack
      (after : FlowNode)
      (counts : Counts length node after)
      (nodeMap : next.nodeMap = map.nodeMap.insert key (rest ++ [after]))
      (timeSet : next.timeSet = map.timeSet)
      (emitted : next.emitted = map.emitted)
  | closes
      (after : FlowNode)
      (record : Flow)
      (counts : Counts length node after)
      (nodeMap : next.nodeMap = map.nodeMap.insert key rest)
      (timeSet : next.timeSet = map.timeSet.remove ⟨node.timestampKey, key⟩)
      (emitted : next.emitted = map.emitted ++ [record])
      (account : Closes after.flow.account record)

theorem updateAnsweredNode_updates
    (updated : updateAnsweredNode answeredTimeout context map key rest node packet = some next) :
    SameWindow map next ∧ Updates packet.packetLen key rest node map next := by
  simp only [updateAnsweredNode, bind_eq_bind, bind_eq_some_iff, Option.some.injEq] at updated
  obtain ⟨after, isAfter, rfl⟩ := updated
  refine ⟨⟨rfl, rfl, rfl⟩, .putsBack _ ?_ rfl rfl rfl⟩
  refine (counts_updateFlow isAfter).before ?_
  split <;> exact ⟨rfl, rfl⟩

theorem updateTcpNode_updates
    (updated : updateTcpNode tables context map key rest node packet = some next) :
    SameWindow map next ∧ Updates packet.packetLen key rest node map next := by
  simp only [updateTcpNode, bind_eq_some] at updated
  obtain ⟨⟨table, after, closed⟩, isAfter, outcome⟩ := updated
  have counts := counts_updateTcpFlow isAfter
  split at outcome
  · obtain ⟨same, record, emitted, account⟩ := nodeRemovedAftercare_spec outcome
    exact ⟨⟨same.id, same.startTime, same.startTimeInUnit⟩,
      .closes after record counts same.nodeMap same.timeSet emitted account⟩
  · obtain rfl := Option.some.inj outcome
    exact ⟨⟨rfl, rfl, rfl⟩, .putsBack after counts rfl rfl rfl⟩

theorem updateNode_updates
    (updated : updateNode tables context map key rest node packet = some next) :
    SameWindow map next ∧ Updates packet.packetLen key rest node map next := by
  rw [updateNode] at updated
  split at updated
  · exact updateTcpNode_updates updated
  · exact updateAnsweredNode_updates updated
  · exact updateAnsweredNode_updates updated

/-- The test of a node writes the direction of the packet only. -/
theorem packetLen_matchNode (node : FlowNode) (packet : MetaPacket) (config : FlowConfig) :
    (node.matchNode packet config).1.packetLen = packet.packetLen := by
  simp only [FlowNode.matchNode]
  split_ifs <;> rfl

theorem packetLen_position (config : FlowConfig) (nodes : List FlowNode) (packet : MetaPacket) :
    (FlowNode.position config nodes packet).1.packetLen = packet.packetLen := by
  induction nodes generalizing packet with
  | nil => rfl
  | cons node nodes ih =>
    have sameLength := packetLen_matchNode node packet config
    simp only [FlowNode.position]
    split
    case h_1 matched isMatch =>
        rwa [isMatch] at sameLength
    case h_2 matched isMatch =>
        rw [isMatch] at sameLength
        exact (ih matched).trans sameLength

theorem findFlow_spec (found : findFlow context map key packet = some (nodes, index, matched)) :
    map.nodeMap.lookup key = some nodes ∧ matched.packetLen = packet.packetLen := by
  simp only [findFlow, bind_eq_some, Option.some.injEq, Prod.mk.injEq] at found
  obtain ⟨_, isBucket, _, -, rfl, -, rfl⟩ := found
  exact ⟨isBucket, packetLen_position context.config _ packet⟩

theorem joinFlow_accepts (isKey : FlowMapKey.new packet.lookupKey packet.tapPort = some key)
    (found : findFlow context map key packet = some (nodes, index, matched))
    (joined : joinFlow tables context map key nodes index packet matched = some next) :
    SameWindow map next ∧ Accepts context packet map next := by
  obtain ⟨isBucket, sameLength⟩ := findFlow_spec found
  have isFound : (findFlow context map key packet).isSome := by simp [found]
  simp only [joinFlow, bind_eq_some] at joined
  obtain ⟨node, isNode, ⟨middle, reported, reverse⟩, isReported, updated⟩ := joined
  obtain ⟨same, sameKey, records, emitted, reports⟩ := nodeUpdatedAftercare_spec isReported
  obtain ⟨window, updates⟩ := updateNode_updates updated
  rw [packetLen_turn, sameLength] at updates
  have taken := Buckets.contents_swapRemove isBucket isNode
  refine ⟨⟨window.id.trans same.id, window.startTime.trans same.startTime,
    window.startTimeInUnit.trans same.startTimeInUnit⟩, ?_⟩
  cases updates with
  | putsBack after counts nodeMap timeSet emittedAfter =>
    rw [same.nodeMap] at nodeMap
    refine .joins key node after _ records reported.flow.account isKey
      isFound taken ?_ (counts.timestampKey.trans sameKey)
      (timeSet.trans same.timeSet) (emittedAfter.trans emitted) reports ?_
    · rw [← Buckets.contents_insert_concat, ← nodeMap]
      rfl
    · rw [counts.account, account_take]
      rfl
  | closes after record counts nodeMap timeSet emittedAfter account =>
    rw [same.nodeMap] at nodeMap
    rw [same.timeSet] at timeSet
    refine .closes key node records record reported.flow.account isKey isFound ?_ ?_ ?_ reports ?_
    · rw [live, live, nodeMap]
      exact taken
    · rw [timeSet, ← sameKey]
      rfl
    · rw [emittedAfter, emitted, List.append_assoc]
    · rw [counts.account, account_take] at account
      exact account

theorem openFlow_accepts (isKey : FlowMapKey.new packet.lookupKey packet.tapPort = some key)
    (isNew : findFlow context map key packet = none)
    (opened : openFlow tables context map key packet = some next) :
    SameWindow map next ∧ Accepts context packet map next := by
  simp only [openFlow, bind_eq_some, Option.some.injEq] at opened
  obtain ⟨⟨table, node⟩, created, rfl⟩ := opened
  have first := isFirst_newFlowNode created
  refine ⟨⟨rfl, rfl, rfl⟩, .opens key (node.take packet) isKey isNew
    (Buckets.contents_push map.nodeMap key _) first.timestampKey rfl rfl ?_⟩
  rw [account_take, first.account]

theorem acceptPacket_accepts (accepted : acceptPacket tables context map packet = some next) :
    SameWindow map next ∧ Accepts context packet map next := by
  simp only [acceptPacket, bind_eq_some] at accepted
  obtain ⟨key, isKey, outcome⟩ := accepted
  split at outcome
  case h_1 isNew => exact openFlow_accepts isKey isNew outcome
  case h_2 found => exact joinFlow_accepts isKey found outcome

/-- A call of the flow map and what it finds outside. -/
inductive Event where
  | flushTick (context : Context) (timestamp : Duration)
  | packet (context : Context) (packet : MetaPacket)

/-- The map after a call, with the accepted packets: those the flush has not
refused. -/
def step (tables : Tables σ) (map : FlowMap σ) : Event -> Option (FlowMap σ × List MetaPacket)
  | .flushTick context timestamp =>
    (injectFlushTicker tables context map timestamp).map fun flushed =>
      (flushed.1, [])
  | .packet context packet => do
      let (_, inWindow) <- injectFlushTicker tables context map packet.lookupKey.timestamp
      let next <- injectMetaPacket tables context map packet
      some (next, if inWindow then [packet] else [])

/-- Tables without a service and without a TCP transition. -/
def plainTables : Tables Unit where
  getTcpScore _ _ _ _ _ := some ((), 0, 0)
  getUdpScore _ _ _ _ := some ((), 0, 0)
  stateMachineMaster _ _ := none
  stateMachineSlave _ _ := none

/-- An echo request at a second. -/
def ping (second : Nat) : MetaPacket where
  lookupKey :=
    { timestamp := second * timeUnit
      ethType := .ipv4
      proto := .icmpv4
      srcIp := .v4 0x0a000001
      dstIp := .v4 0x0a000002 }
  packetLen := 98

/-- A tick flushes the map; so does a packet, which is then refused or
accepted. -/
inductive Steps (tables : Tables σ) (map next : FlowMap σ) : Event -> List MetaPacket -> Prop
  | ticks
      (context : Context)
      (timestamp : Duration)
      (inWindow : Bool)
      (isFlush : injectFlushTicker tables context map timestamp = some (next, inWindow)) :
      Steps tables map next (.flushTick context timestamp) []
  | refuses
      (context : Context)
      (packet : MetaPacket)
      (isFlush : injectFlushTicker tables context map
        packet.lookupKey.timestamp = some (next, false)) :
      Steps tables map next (.packet context packet) []
  | accepts
      (context : Context)
      (packet : MetaPacket)
      (flushed : FlowMap σ)
      (isFlush : injectFlushTicker tables context map
        packet.lookupKey.timestamp = some (flushed, true))
      (window : SameWindow flushed next)
      (accepts : Accepts context packet flushed next) :
      Steps tables map next (.packet context packet) [packet]

theorem step_steps (stepped : step tables map event = some (next, accepted)) :
    Steps tables map next event accepted := by
  cases event with
  | flushTick context timestamp =>
    obtain ⟨⟨flushed, inWindow⟩, isFlush, same⟩ := map_eq_some_iff.mp stepped
    obtain ⟨rfl, rfl⟩ := Prod.mk.inj same
    exact .ticks context timestamp inWindow isFlush
  | packet context packet =>
    simp only [step, injectMetaPacket, bind_eq_bind,
      bind_eq_some_iff, Option.some.injEq, Prod.mk.injEq] at stepped
    obtain ⟨⟨_, _⟩, isFlush, outcome, ⟨⟨flushed, inWindow⟩, again, injected⟩, rfl, rfl⟩ := stepped
    rw [isFlush] at again
    obtain ⟨rfl, rfl⟩ := Prod.mk.inj (Option.some.inj again)
    split at injected
    case isTrue accepted =>
        subst accepted
        obtain ⟨window, accepts⟩ := acceptPacket_accepts injected
        exact .accepts context packet _ isFlush window accepts
    case isFalse refused =>
        obtain rfl := Option.some.inj injected
        rw [Bool.not_eq_true] at refused
        subst refused
        exact .refuses context packet isFlush

end FlowMap
end Metaflow.FlowGenerator
