import Metaflow.FlowGenerator.FlowMapMoves
import Metaflow.Library.Apart

/-!
# Flow identifiers

An identifier packs the time of opening in units of `2 ^ 30` nanoseconds and the
number of keys in the time set. The number of the thread is masked before it is
shifted and does not get into it.
-/

namespace Metaflow.FlowGenerator

open AgentCommon Library Multiset
open Function

variable {σ : Type}

/-- The unit of time in an identifier. -/
def idUnit (timestamp : Duration) : Nat :=
  timestamp / 0x40000000 % 0x100000000

/-- The counter in an identifier. -/
def idCounter (number : Nat) : Nat :=
  number % 0x1000000

theorem and_highByte (small : number < 0x100000000) :
    number &&& 0xff000000 = number / 0x1000000 * 0x1000000 := by
  apply Nat.eq_of_testBit_eq
  intro index
  rw [Nat.testBit_and, show 0xff000000 = (2 ^ 8 - 1) * 2 ^ 24 from rfl, Nat.testBit_mul_two_pow,
    show 0x1000000 = 2 ^ 24 from rfl, Nat.testBit_mul_two_pow, Nat.testBit_two_pow_sub_one,
    Nat.testBit_div_two_pow]
  by_cases low : index < 24
  · simp [show ¬ 24 ≤ index by omega]
  · rw [show index - 24 + 24 = index by omega]
    by_cases high : index < 32
    · simp [show 24 ≤ index by omega, show index - 24 < 8 by omega]
    · have clear : number.testBit index = false :=
        Nat.testBit_lt_two_pow (small.trans_le (Nat.pow_le_pow_right Nat.two_pos
          (show 32 ≤ index by omega)))
      simp [clear]

section

variable (timestamp : Duration)

theorem toNat_timer : ((BitVec.ofNat 64 timestamp >>> 30 &&& timerFlowIdMask) <<< 32).toNat =
      idUnit timestamp <<< 32 := by
  have small : idUnit timestamp < 0x100000000 := Nat.mod_lt _ (by decide)
  have masked : (BitVec.ofNat 64 timestamp >>> 30 &&&
      timerFlowIdMask).toNat = idUnit timestamp := by
    have isMod := Nat.and_two_pow_sub_one_eq_mod (timestamp % 2 ^ 64 / 2 ^ 30) 32
    rw [BitVec.toNat_and, BitVec.toNat_ushiftRight, BitVec.toNat_ofNat, Nat.shiftRight_eq_div_pow,
      show timerFlowIdMask.toNat = 2 ^ 32 - 1 from rfl, isMod, idUnit]
    omega
  rw [BitVec.toNat_shiftLeft, masked, Nat.shiftLeft_eq, Nat.mod_eq_of_lt]
  omega

theorem toNat_counter (number : Nat) :
    (BitVec.ofNat 64 number &&& counterFlowIdMask).toNat = idCounter number := by
  have isMod := Nat.and_two_pow_sub_one_eq_mod (number % 2 ^ 64) 24
  rw [BitVec.toNat_and, BitVec.toNat_ofNat,
    show counterFlowIdMask.toNat = 2 ^ 24 - 1 from rfl, isMod, idCounter]
  omega

/-- Of the number of the thread, only the high byte gets into an identifier. -/
theorem toNat_generateFlowId_eq (id : BitVec 32) (number : Nat) :
    (generateFlowId timestamp id number).toNat = idUnit timestamp * 0x100000000 +
      (id.toNat / 0x1000000 * 0x1000000 + idCounter number) := by
  have thread : (id.setWidth 64 &&& threadFlowIdMask <<< 24).toNat =
      (id.toNat / 0x1000000) <<< 24 := by
    rw [BitVec.toNat_and, BitVec.toNat_setWidth_of_le (by decide), Nat.shiftLeft_eq]
    exact and_highByte id.isLt
  have counter : idCounter number < 2 ^ 24 := Nat.mod_lt _ (by decide)
  have low : (id.toNat / 0x1000000) <<< 24 + idCounter number < 2 ^ 32 := by
    rw [Nat.shiftLeft_eq]
    omega
  rw [generateFlowId, BitVec.or_assoc, BitVec.toNat_or, BitVec.toNat_or, toNat_timer, toNat_counter,
    thread, ← Nat.shiftLeft_add_eq_or_of_lt counter, ← Nat.shiftLeft_add_eq_or_of_lt low,
    Nat.shiftLeft_eq, Nat.shiftLeft_eq]

/-- Identifiers of threads below 256 have no trace of the thread. -/
theorem toNat_generateFlowId {id : BitVec 32} (small : id.toNat < 256) (number : Nat) :
    (generateFlowId timestamp id number).toNat =
      idUnit timestamp * 0x100000000 + idCounter number := by
  rw [toNat_generateFlowId_eq, Nat.div_eq_of_lt (by omega), Nat.zero_mul, Nat.zero_add]

end

/-- Two identifiers are the same exactly if their units and their counters
are. -/
theorem generateFlowId_eq_iff {id id' : BitVec 32} (small : id.toNat < 256)
    (small' : id'.toNat < 256) :
    generateFlowId timestamp id number = generateFlowId timestamp' id' number' ↔
      idUnit timestamp = idUnit timestamp' ∧ idCounter number = idCounter number' := by
  rw [← BitVec.toNat_inj, toNat_generateFlowId timestamp small,
    toNat_generateFlowId timestamp' small']
  have fits : idCounter number < 0x1000000 := Nat.mod_lt _ (by decide)
  have fits' : idCounter number' < 0x1000000 := Nat.mod_lt _ (by decide)
  omega

/-- What an identifier is made of. -/
structure Stamp where
  flowId : BitVec 64
  startTime : Duration
  deriving DecidableEq

def Account.stamp (account : Account) : Stamp :=
  ⟨account.flowId, account.startTime⟩

theorem Reports.stamp (reported : Reports account records after) : after.stamp = account.stamp := by
  cases reported <;> rfl

namespace FlowMap

/-- The identifiers of the live flows with the times at which they were
opened. -/
def stamps (map : FlowMap σ) : Multiset Stamp :=
  map.live.map fun entry => entry.account.stamp

variable {map : FlowMap σ} {context : Context}

variable {next : FlowMap σ}

theorem Visits.stamps_le (visits : Visits timestamp key map next) : next.stamps ≤ map.stamps := by
  cases visits with
  | ends node record isVisited taken isDue expired timeSet emitted closes =>
    rw [stamps, stamps, taken, map_cons]
    exact le_cons_self ..
  | goesOn node after others records isVisited taken putBack isDue scheduled
      present timeSet emitted reports =>
    have same := reports.stamp
    rw [stamps, stamps, taken, putBack, map_cons, map_cons, Entry.account, Entry.account, same]

theorem Flushes.stamps_le (flushes : Flushes tables context timestamp map next) :
    next.stamps ≤ map.stamps := by
  refine flushes.keeps (fun _ _ _ _ visits _ fewer =>
    visits.stamps_le.trans fewer) ?_ le_rfl
  intro before after _ live _ fewer
  rwa [stamps, live]

/-- An accepted packet that belongs to no live flow opens one; no other packet
does. -/
theorem Accepts.stamps_cases (accepts : Accepts context packet map next) :
    (Unmatched context packet map ∧ next.stamps = ⟨generateFlowId packet.lookupKey.timestamp map.id
        map.timeSet.length, packet.lookupKey.timestamp⟩ ::ₘ map.stamps) ∨
    (¬ Unmatched context packet map ∧ next.stamps ≤ map.stamps) := by
  cases accepts with
  | opens key node isKey isNew added timestampKey timeSet emitted account =>
    refine Or.inl ⟨⟨key, isKey, isNew⟩, ?_⟩
    rw [stamps, stamps, added, map_cons, Entry.account, account]
    rfl
  | joins key node after others records middle isKey found taken putBack
      timestampKey timeSet emitted reports account =>
    have same : after.flow.account.stamp = node.flow.account.stamp := by
      rw [account, ← reports.stamp]
      rfl
    refine Or.inr ⟨not_unmatched isKey found, ?_⟩
    rw [stamps, stamps, taken, putBack, map_cons, map_cons, Entry.account, Entry.account, same]
  | closes key node records record middle isKey found taken timeSet emitted reports account =>
    refine Or.inr ⟨not_unmatched isKey found, ?_⟩
    rw [stamps, stamps, taken, map_cons]
    exact le_cons_self ..

/-- The identifiers of the live flows. -/
def liveIds (map : FlowMap σ) : Multiset (BitVec 64) :=
  map.live.map (·.2.flow.flowId)

theorem liveIds_eq (map : FlowMap σ) : map.liveIds = map.stamps.map (·.flowId) := by
  rw [stamps, map_map]
  rfl

theorem liveIds_le (fewer : next.stamps ≤ map.stamps) : next.liveIds ≤ map.liveIds := by
  rw [liveIds_eq, liveIds_eq]
  exact map_le_map fewer

/-- The identifiers of the live flows were generated when they were
opened. -/
def Stamped (map : FlowMap σ) : Prop :=
  ∀ stamp ∈ map.stamps, ∃ number, stamp.flowId = generateFlowId stamp.startTime map.id number

theorem Stamped.mono (stamped : Stamped map) (sameId : next.id = map.id)
    (fewer : next.stamps ≤ map.stamps) : Stamped next := by
  intro stamp mem
  rw [sameId]
  exact stamped stamp (mem_of_le fewer mem)

theorem Flushes.id (flushes : Flushes tables context timestamp map next) : next.id = map.id :=
  flushes.keeps (fun _ _ _ _ _ window same => window.id.trans same)
    (fun _ _ sameId _ _ same => sameId.trans same) rfl

section Threads

variable {ι : Type} [DecidableEq ι]

/-- A call of one of the maps. The answer is the family after it. -/
def threadStep (tables : ι -> Tables σ) (maps : ι -> FlowMap σ) (call : ι × Event) :
    Option ((ι -> FlowMap σ) × (ι -> FlowMap σ)) :=
  (step (tables call.1) (maps call.1) call.2).map fun stepped =>
    (Function.update maps call.1 stepped.1, Function.update maps call.1 stepped.1)

/-- A call opens a flow only if no live flow of any map has its unit of time and
its counter. -/
def OpensApart (tables : ι -> Tables σ) (maps : ι -> FlowMap σ) : ι × Event -> Prop
  | (_, .flushTick _ _) => True
  | (thread, .packet context packet) =>
    ∀ flushed,
      injectFlushTicker (tables thread) context (maps thread)
        packet.lookupKey.timestamp = some (flushed, true) ->
      Unmatched context packet flushed ->
      ∀ other, ∀ entry ∈ (Function.update maps thread flushed other).live,
        ¬ (idUnit entry.2.flow.startTime = idUnit packet.lookupKey.timestamp ∧
          idCounter entry.2.flow.flowId.toNat = idCounter flushed.timeSet.length)

/-- What is known of a family of maps with small thread numbers. -/
structure Threads (maps : ι -> FlowMap σ) : Prop where
  small : ∀ thread, (maps thread).id.toNat < 256
  stamped : ∀ thread, Stamped (maps thread)
  apart : Apart fun thread => (maps thread).liveIds

variable {maps : ι -> FlowMap σ} {thread : ι}

variable {next : FlowMap σ}

theorem Threads.mono (threads : Threads maps) (sameId : next.id = (maps thread).id)
    (fewer : next.stamps ≤ (maps thread).stamps) : Threads (update maps thread next) := by
  have each : ∀ other, (update maps thread next other).id = (maps other).id ∧
        (update maps thread next other).stamps ≤ (maps other).stamps :=
    (forall_update_iff maps fun other map =>
      map.id = (maps other).id ∧ map.stamps ≤ (maps other).stamps).mpr
      ⟨⟨sameId, fewer⟩, fun _ _ => ⟨rfl, le_rfl⟩⟩
  constructor
  · intro other
    rw [(each other).1]
    exact threads.small other
  · intro other
    exact (threads.stamped other).mono (each other).1 (each other).2
  · exact threads.apart.mono fun other => liveIds_le (each other).2

/-- Whether a live flow has an identifier is a matter of unit and counter. -/
theorem flowId_eq_iff (small : map.id.toNat < 256) (stamped : Stamped map)
    (mem : stamp ∈ map.stamps) {id : BitVec 32} (smallId : id.toNat < 256) (number : Nat) :
    stamp.flowId = generateFlowId timestamp id number ↔ idUnit stamp.startTime = idUnit timestamp ∧
        idCounter stamp.flowId.toNat = idCounter number := by
  obtain ⟨earlier, isId⟩ := stamped stamp mem
  have counter : idCounter stamp.flowId.toNat = idCounter earlier := by
    rw [isId, toNat_generateFlowId _ small, idCounter, idCounter]
    omega
  rw [counter]
  rw [isId]
  exact generateFlowId_eq_iff small smallId

/-- An opened flow has an identifier of its own exactly if no live flow has its
unit and counter. -/
theorem Threads.opens_iff (threads : Threads maps) (opened : next.stamps =
      ⟨generateFlowId timestamp (maps thread).id number, timestamp⟩ ::ₘ (maps thread).stamps) :
    (Apart fun other => (update maps thread next other).liveIds) ↔
      ∀ other, ∀ entry ∈ (maps other).live, ¬ (idUnit entry.2.flow.startTime = idUnit timestamp ∧
          idCounter entry.2.flow.flowId.toNat = idCounter number) := by
  have updated : (fun other => (update maps thread next other).liveIds) =
      update (fun other => (maps other).liveIds) thread
        (generateFlowId timestamp (maps thread).id number ::ₘ (maps thread).liveIds) := by
    rw [liveIds_eq (maps thread), ← map_cons Stamp.flowId ⟨_, timestamp⟩, ← opened, ← liveIds_eq]
    exact comp_update liveIds maps thread next
  rw [updated, threads.apart.update_cons_iff]
  refine forall_congr' fun other => ?_
  rw [liveIds, mem_map, not_exists]
  refine forall_congr' fun entry => ?_
  rw [not_and]
  refine forall_congr' fun mem => not_congr ?_
  exact flowId_eq_iff (threads.small other) (threads.stamped other)
    (mem_map_of_mem _ mem) (threads.small thread) number

theorem Threads.opens (threads : Threads maps) (sameId : next.id = (maps thread).id)
    (opened : next.stamps =
      ⟨generateFlowId timestamp (maps thread).id number, timestamp⟩ ::ₘ (maps thread).stamps)
    (apart : Apart fun other =>
      (update maps thread next other).liveIds) :
    Threads (update maps thread next) := by
  refine ⟨?_, ?_, apart⟩
  · refine (forall_update_iff maps fun _ map => map.id.toNat < 256).mpr
      ⟨?_, fun other _ => threads.small other⟩
    rw [sameId]
    exact threads.small thread
  · refine (forall_update_iff maps fun _ map => Stamped map).mpr
      ⟨?_, fun other _ => threads.stamped other⟩
    intro stamp mem
    rw [opened, mem_cons] at mem
    rw [sameId]
    rcases mem with rfl | old
    · exact ⟨number, rfl⟩
    · exact threads.stamped thread stamp old

/-- One call keeps the identifiers apart exactly if it opens a flow apart from
the live ones. -/
theorem Threads.step_iff {next answer : ι -> FlowMap σ} (threads : Threads maps)
    (stepped : threadStep tables maps call = some (next, answer)) :
    ((Apart fun other => (answer other).liveIds) ↔ OpensApart tables maps call) ∧
    ((Apart fun other => (answer other).liveIds) -> Threads next) := by
  obtain ⟨thread, event⟩ := call
  obtain ⟨⟨after, accepted⟩, isStep, same⟩ := Option.map_eq_some_iff.mp stepped
  obtain ⟨rfl, rfl⟩ := Prod.mk.inj same
  cases step_steps isStep with
  | ticks context timestamp inWindow isFlush =>
    have flushes := (injectFlushTicker_flushes isFlush).1
    have kept := threads.mono flushes.id flushes.stamps_le
    exact ⟨⟨fun _ => trivial, fun _ => kept.apart⟩, fun _ => kept⟩
  | refuses context packet isFlush =>
    have flushes := (injectFlushTicker_flushes isFlush).1
    have kept := threads.mono flushes.id flushes.stamps_le
    refine ⟨⟨fun _ => ?_, fun _ => kept.apart⟩, fun _ => kept⟩
    intro flushed again
    simp [isFlush] at again
  | accepts context packet flushed isFlush window accepts =>
    have flushes := (injectFlushTicker_flushes isFlush).1
    have kept := threads.mono flushes.id flushes.stamps_le
    have isFlushed : update maps thread flushed thread = flushed := update_self ..
    have again : update maps thread after = update (update maps thread flushed) thread
          after := (update_idem ..).symm
    have opensApart_iff : OpensApart tables maps (thread, .packet context packet) ↔
        (Unmatched context packet flushed ->
          ∀ other, ∀ entry ∈ (update maps thread flushed other).live,
          ¬ (idUnit entry.2.flow.startTime = idUnit packet.lookupKey.timestamp ∧
            idCounter entry.2.flow.flowId.toNat = idCounter flushed.timeSet.length)) := by
      simp only [OpensApart, isFlush, Option.some.injEq, Prod.mk.injEq, and_true, forall_eq']
    rw [opensApart_iff, again]
    rcases accepts.stamps_cases with ⟨unmatched, opened⟩ | ⟨matched, fewer⟩
    · rw [← isFlushed] at opened
      have iff := kept.opens_iff opened
      rw [isFlushed] at iff
      exact ⟨iff.trans ⟨fun apart _ => apart, fun apart => apart unmatched⟩,
        kept.opens (window.id.trans (by rw [isFlushed])) opened⟩
    · have stillKept := kept.mono (window.id.trans (by rw [isFlushed]))
        (fewer.trans (by rw [isFlushed]))
      exact ⟨⟨fun _ unmatched => absurd unmatched matched,
        fun _ => stillKept.apart⟩, fun _ => stillKept⟩

/-- In every run of flow maps with thread numbers below 256 the live flows have
different identifiers in all states exactly if every flow is opened in a unit of
time and with a counter that no live flow has. -/
theorem run_distinct_ids_iff (tables : ι -> Tables σ) (threadId : ι -> BitVec 32)
    (serviceTable : ι -> σ) (small : ∀ thread, (threadId thread).toNat < 256)
    (calls : List (ι × Event)) (final : ι -> FlowMap σ) (states : List (ι -> FlowMap σ))
    (ran : runSteps (threadStep tables)
      (fun thread => .new (threadId thread) (serviceTable thread)) calls = some (final, states)) :
    (∀ maps ∈ states, Apart fun thread => (maps thread).liveIds) ↔
      Guarded (OpensApart tables) (threadStep tables)
        (fun thread => .new (threadId thread) (serviceTable thread))
        calls := by
  have initially : Threads fun thread =>
      FlowMap.new (threadId thread) (serviceTable thread) := by
    refine ⟨small, ?_, ?_, ?_⟩
    · intro thread stamp mem
      simp [stamps, live, FlowMap.new] at mem
    · intro thread
      simp [liveIds, live, FlowMap.new]
    · intro thread other _
      simp [liveIds, live, FlowMap.new]
  exact forall_results_iff_guarded Threads _
    (fun _ _ _ _ threads stepped => (threads.step_iff stepped).1)
    (fun _ _ _ _ threads stepped => (threads.step_iff stepped).2)
    initially ran

end Threads

/-- Two threads whose packets come two seconds apart; the identifiers differ in
every state. -/
theorem run_distinct_ids_iff_pings :
    ∃ final states,
      runSteps (threadStep fun _ => plainTables)
        (fun thread : Bool => .new (if thread then 1 else 0) ())
        [(false, .packet {} (ping 100)), (true, .packet {} (ping 102))] = some (final, states) ∧
      states.map (fun maps => ((maps false).liveIds, (maps true).liveIds)) =
        [({399431958528}, 0), ({399431958528}, {403726925824})] ∧
      Guarded (OpensApart fun _ => plainTables) (threadStep fun _ => plainTables)
        (fun thread : Bool => .new (if thread then 1 else 0) ())
        [(false, .packet {} (ping 100)), (true, .packet {} (ping 102))] := by
  have computed : ∃ outcome ∈ runSteps (threadStep fun _ => plainTables)
      (fun thread : Bool => .new (if thread then 1 else 0) ())
      [(false, .packet {} (ping 100)), (true, .packet {} (ping 102))],
      outcome.2.map (fun maps => ((maps false).liveIds, (maps true).liveIds)) =
        [({399431958528}, 0), ({399431958528}, {403726925824})] := by
    decide +kernel
  obtain ⟨⟨final, states⟩, ran, ids⟩ := computed
  refine ⟨final, states, ran, ids, (run_distinct_ids_iff _ _ _
    (by intro thread; cases thread <;> decide) _ final states ran).mp fun maps mem => ?_⟩
  have isState := List.mem_map_of_mem (f := fun maps : Bool -> FlowMap Unit =>
    ((maps false).liveIds, (maps true).liveIds)) mem
  rw [ids] at isState
  have apart : (maps false).liveIds.Nodup ∧ (maps true).liveIds.Nodup ∧
      Disjoint (maps false).liveIds (maps true).liveIds := by
    simp only [List.mem_cons, List.not_mem_nil, or_false, Prod.mk.injEq] at isState
    obtain ⟨first, second⟩ | ⟨first, second⟩ := isState
    all_goals
      rw [first, second]
      simp
  obtain ⟨within, otherWithin, disjoint⟩ := apart
  refine ⟨fun thread => ?_, fun thread other differ => ?_⟩
  · cases thread
    · exact within
    · exact otherWithin
  · cases thread <;> cases other
    · exact absurd rfl differ
    · exact disjoint
    · exact disjoint.symm
    · exact absurd rfl differ

/-- Two threads that open a flow at the same time give both flows the same
identifier. -/
theorem threads_share_identifier :
    ∃ final states,
      runSteps (threadStep fun _ => plainTables)
        (fun thread : Bool => .new (if thread then 1 else 0) ())
        [(false, .packet {} (ping 100)), (true, .packet {} (ping 100))] = some (final, states) ∧
      ¬ Apart fun thread => (final thread).liveIds := by
  have shared : ∃ outcome ∈ runSteps (threadStep fun _ => plainTables)
      (fun thread : Bool => .new (if thread then 1 else 0) ())
      [(false, .packet {} (ping 100)), (true, .packet {} (ping 100))],
      (outcome.1 false).liveIds = (outcome.1 true).liveIds ∧
        (outcome.1 false).liveIds ≠ 0 := by decide +kernel
  obtain ⟨⟨final, states⟩, ran, same, nonempty⟩ := shared
  refine ⟨final, states, ran, fun apart => nonempty ?_⟩
  have disjoint := apart.between false true (by decide)
  rw [← same] at disjoint
  exact disjoint_self.mp disjoint

end FlowMap

end Metaflow.FlowGenerator
