import Metaflow.AgentPolicy.FastPath

/-!
# Whose entries a lookup of the fast path finds

The index of a cache is the product of queue index and tap type. An entry is
returned only to lookups of its own combination exactly if no two combinations
in use have one product.
-/

namespace Metaflow.AgentPolicy

open Library

variable {NpbAction C : Type}

/-- The calls of the fast path. -/
inductive Call (NpbAction : Type) where
  | addPolicy
      (packet : LookupKey)
      (forward backward : PolicyData NpbAction)
      (endpoints : EndpointData)
  | getPolicy (packet : LookupKey)

/-- The packet that a call handles. -/
def Call.packet : Call NpbAction -> LookupKey
  | addPolicy packet _ _ _ => packet
  | getPolicy packet => packet

namespace FastPath

/-- `FastPath::new`. -/
def new (mapSize : { size : Nat // 0 < size }) : FastPath C :=
  { mapSize := mapSize }

/-- One call, with what a lookup finds. -/
def step (ops : TableLruCacheOps NpbAction C)
    (merge : List NpbAction -> UInt32 -> Option (PolicyData NpbAction)) (path : FastPath C) :
    Call NpbAction -> Option (FastPath C × Option (Found NpbAction))
  | .addPolicy packet forward backward endpoints =>
    (path.addPolicy ops merge packet forward backward endpoints).map fun (path, _) => (path, none)
  | .getPolicy packet => (path.getPolicy ops packet).map fun (path, _, found) => (path, found)

end FastPath

/-- All values of an item were allocated for origins that meet a condition. -/
structure PolicyTableItem.From (item : PolicyTableItem NpbAction)
    (allowed : Origin -> Prop) : Prop where
  store : ∀ src dst, allowed (item.store.datas src dst).origin
  policies : ∀ proto, ∀ policy ∈ item.protocolTable proto, allowed policy.origin

/-- All items that can be found in a cache are such. -/
def CacheFrom (ops : TableLruCacheOps NpbAction C) (table : C) (allowed : Origin -> Prop) : Prop :=
  ops.Holds table fun item => item.From allowed

/-- Every cache holds only values of combinations in use that have its
index. -/
def TablesSorted (ops : TableLruCacheOps NpbAction C) (tables : Nat -> Option C)
    (inUse : Origin -> Prop) : Prop :=
  ∀ slot, ∀ table ∈ tables slot,
    CacheFrom ops table fun origin => inUse origin ∧ origin.slot = slot

/-- All caches of a fast path do so. -/
def FastPath.Sorted (ops : TableLruCacheOps NpbAction C) (path : FastPath C)
    (inUse : Origin -> Prop) : Prop :=
  TablesSorted ops path.policyTable inUse

theorem EndpointStore.origin_ofData (origin : Origin) (data : EndpointData) (src dst : L3L2End) :
    ((EndpointStore.ofData origin data).datas src dst).origin = origin := by
  unfold ofData
  refine List.foldlRecOn (motive := fun state : EndpointData × EndpointStore =>
      ∀ src dst, (state.2.datas src dst).origin = origin)
    _ _ (fun _ _ => rfl) ?_ src dst
  intro state holds ends _ src dst
  simp only [fill]
  split
  · rfl
  · exact holds src dst

theorem origin_update {policies : UInt8 -> Option (Arc (PolicyData NpbAction))}
    {allowed : Origin -> Prop} (holds : ∀ proto, ∀ policy ∈ policies proto, allowed policy.origin)
    (isAllowed : allowed origin) :
    ∀ other, ∀ stored ∈ Function.update policies proto (some ⟨policy, origin⟩) other,
      allowed stored.origin := by
  refine (Function.forall_update_iff policies fun _ found =>
    ∀ stored ∈ found, allowed stored.origin).mpr ⟨?_, fun other _ => holds other⟩
  rintro stored ⟨⟩
  exact isAllowed

variable {ops : TableLruCacheOps NpbAction C} {inUse : Origin -> Prop}

/-- Storing a policy for an allowed origin keeps a cache within them. -/
theorem CacheFrom.storePolicy (lawful : ops.Lawful) {table : C} {origin : Origin}
    (isAllowed : allowed origin) (proto : UInt8) (policy : PolicyData NpbAction)
    (key : BitVec 128) (endpoints : EndpointData) (count : Nat)
    (holds : CacheFrom ops table allowed) : CacheFrom ops
      (FastPath.storePolicy ops origin proto policy key endpoints (table, count)).1 allowed := by
  unfold FastPath.storePolicy
  cases found : ops.find? table key with
  | some item =>
    have old := holds key item found
    exact lawful.holds_set holds ⟨old.store, origin_update old.policies isAllowed⟩
      (Option.isSome_of_eq_some found)
  | none =>
    refine lawful.holds_put holds key ⟨?_, origin_update (by simp) isAllowed⟩
    intro src dst
    rw [EndpointStore.origin_ofData]
    exact isAllowed

/-- One cache replaced by one that holds values of the same index. -/
theorem TablesSorted.update (sorted : TablesSorted ops tables inUse)
    (holds : ∀ table ∈ replaced, CacheFrom ops table fun origin =>
      inUse origin ∧ origin.slot = slot) :
    TablesSorted ops (Function.update tables slot replaced) inUse :=
  (Function.forall_update_iff tables fun slot found => ∀ table ∈ found,
    CacheFrom ops table fun origin => inUse origin ∧ origin.slot = slot).mpr
      ⟨holds, fun other _ => sorted other⟩

namespace FastPath
namespace Sorted

variable {path : FastPath C} (lawful : ops.Lawful) (sorted : path.Sorted ops inUse)
include lawful sorted

/-- Clearing caches keeps the others as they are. -/
theorem clearTables (fastIndex : Nat) :
    TablesSorted ops (FastPath.clearTables ops path.policyTable fastIndex) inUse := by
  refine List.foldlRecOn (motive := fun tables => TablesSorted ops tables inUse) _ _ sorted ?_
  intro tables holds tapType _
  refine holds.update ?_
  intro table present
  obtain ⟨old, -, rfl⟩ := Option.map_eq_some_iff.mp present
  exact lawful.holds_clear old _

/-- So does the flush that comes before every call. -/
theorem flushTables (fastIndex : Nat) : (path.flushTables ops fastIndex).Sorted ops inUse := by
  unfold FastPath.flushTables
  split
  · simp only [FastPath.Sorted]
    exact Sorted.clearTables lawful sorted fastIndex
  · exact sorted

/-- The check leaves sorted caches and passes queues within the limit. -/
theorem tableFlushCheck {isEmpty : Bool}
    (checked : path.tableFlushCheck ops key = some (path', isEmpty)) :
    path'.Sorted ops inUse ∧ key.fastIndex ≤ maxQueueCount := by
  unfold FastPath.tableFlushCheck at checked
  split at checked
  · next inside =>
      refine ⟨?_, inside.1⟩
      have flushed := Sorted.flushTables lawful sorted key.fastIndex
      cases present : (path.flushTables ops key.fastIndex).policyTable key.origin.slot with
      | some table =>
        simp only [present, Option.some.injEq, Prod.mk.injEq] at checked
        rw [← checked.1]
        exact flushed
      | none =>
        simp only [present, Option.some.injEq, Prod.mk.injEq] at checked
        rw [← checked.1]
        refine TablesSorted.update flushed ?_
        intro table isTable
        rw [← Option.some.inj isTable]
        exact lawful.holds_new _ _
  · simp at checked

/-- A policy is added to the cache of its own index. -/
theorem addPolicy (used : packet.fastIndex ≤ maxQueueCount -> inUse packet.origin)
    (added : path.addPolicy ops merge packet forward backward endpoints = some (path', packet')) :
    path'.Sorted ops inUse := by
  simp only [FastPath.addPolicy, bind_eq_some] at added
  obtain ⟨⟨checked, isEmpty⟩, isChecked, ⟨key0, key1⟩, -, table, isTable,
    policy, -, isStored⟩ := added
  obtain ⟨stillSorted, bounded⟩ := Sorted.tableFlushCheck lawful sorted isChecked
  have holds := stillSorted _ table isTable
  have allowed : inUse packet.origin ∧
      packet.origin.slot = packet.origin.slot := ⟨used bounded, rfl⟩
  obtain ⟨rfl, -⟩ := Prod.mk.inj (Option.some.inj isStored)
  refine TablesSorted.update stillSorted ?_
  intro stored isStored
  rw [← Option.some.inj isStored]
  split
  · exact holds.storePolicy lawful allowed _ _ _ _ _
  · exact (holds.storePolicy lawful allowed _ _ _ _ _).storePolicy lawful allowed _ _ _ _ _

/-- A lookup finds values of the packet's index. -/
theorem lookup (looked : path.lookup ops packet = some (path', found)) :
    path'.Sorted ops inUse ∧ ∀ entry ∈ found,
      (inUse entry.policy.origin ∧ entry.policy.origin.slot = packet.origin.slot) ∧
      inUse entry.endpoints.origin ∧ entry.endpoints.origin.slot = packet.origin.slot := by
  simp only [FastPath.lookup, bind_eq_some] at looked
  obtain ⟨⟨key0, key1⟩, -, table, isTable, answered⟩ := looked
  have holds := sorted _ table isTable
  obtain ⟨rfl, rfl⟩ := Prod.mk.inj (Option.some.inj answered)
  refine ⟨TablesSorted.update sorted ?_, ?_⟩
  · intro stored isStored
    rw [← Option.some.inj isStored]
    exact lawful.holds_touch holds _
  · intro entry isEntry
    obtain ⟨item, isItem, isEntry⟩ := Option.bind_eq_some_iff.mp isEntry
    obtain ⟨policy, isPolicy, same⟩ := Option.bind_eq_some_iff.mp isEntry
    have isFrom := holds _ item isItem
    rw [← Option.some.inj same]
    exact ⟨isFrom.policies _ policy isPolicy, isFrom.store _ _⟩

/-- So does a whole call of `get_policy`. -/
theorem getPolicy (got : path.getPolicy ops packet = some (path', packet', found)) :
    path'.Sorted ops inUse ∧ packet.fastIndex ≤ maxQueueCount ∧
      ∀ entry ∈ found, (inUse entry.policy.origin ∧ entry.policy.origin.slot = packet.origin.slot) ∧
        inUse entry.endpoints.origin ∧ entry.endpoints.origin.slot = packet.origin.slot := by
  simp only [FastPath.getPolicy, bind_eq_some] at got
  obtain ⟨⟨checked, isEmpty⟩, isChecked, answered⟩ := got
  obtain ⟨stillSorted, bounded⟩ := Sorted.tableFlushCheck lawful sorted isChecked
  cases isEmpty with
  | true =>
    simp only [if_true, Option.some.injEq, Prod.mk.injEq] at answered
    obtain ⟨rfl, -, rfl⟩ := answered
    exact ⟨stillSorted, bounded, by simp⟩
  | false =>
    simp only [Bool.false_eq_true, if_false, bind_eq_some,
      Option.some.injEq, Prod.mk.injEq] at answered
    obtain ⟨⟨looked, entry⟩, isLooked, rfl, -, rfl⟩ := answered
    obtain ⟨lookedSorted, origins⟩ := Sorted.lookup lawful stillSorted isLooked
    exact ⟨lookedSorted, bounded, origins⟩

end Sorted

/-- The answer of a call, if any, was allocated for the call's own queue index
and tap type. -/
def Attributed (call : Call NpbAction) (answer : Option (Found NpbAction)) : Prop :=
  ∀ found ∈ answer, found.policy.origin = call.packet.origin ∧
    found.endpoints.origin = call.packet.origin

/-- Combinations in use that the tables have room for differ in their
index. -/
def SlotsApart (inUse : Origin -> Prop) : Prop :=
  ∀ left right, inUse left -> inUse right ->
    left.fastIndex ≤ maxQueueCount -> right.fastIndex ≤ maxQueueCount ->
    left.slot = right.slot -> left = right

section Runs

variable {merge : List NpbAction -> UInt32 -> Option (PolicyData NpbAction)}

/-- A call whose index belongs to no other combination in use is answered from
its own entries. -/
theorem step_attributed (lawful : ops.Lawful) (apart : SlotsApart inUse) (path : FastPath C)
    (call : Call NpbAction) (path' : FastPath C) (answer : Option (Found NpbAction))
    (sorted : path.Sorted ops fun origin =>
      inUse origin ∧ origin.fastIndex ≤ maxQueueCount)
    (used : inUse call.packet.origin) (stepped : path.step ops merge call = some (path', answer)) :
    (path'.Sorted ops fun origin =>
      inUse origin ∧ origin.fastIndex ≤ maxQueueCount) ∧
      Attributed call answer := by
  cases call with
  | addPolicy packet forward backward endpoints =>
    obtain ⟨⟨added, packet'⟩, isAdded, same⟩ := Option.map_eq_some_iff.mp stepped
    obtain ⟨rfl, rfl⟩ := Prod.mk.inj same
    refine ⟨Sorted.addPolicy lawful sorted (fun bounded => ⟨used, bounded⟩) isAdded, ?_⟩
    simp [Attributed]
  | getPolicy packet =>
    obtain ⟨⟨got, packet', found⟩, isGot, same⟩ := Option.map_eq_some_iff.mp stepped
    obtain ⟨rfl, rfl⟩ := Prod.mk.inj same
    obtain ⟨stillSorted, bounded, origins⟩ := Sorted.getPolicy lawful sorted isGot
    refine ⟨stillSorted, ?_⟩
    intro entry isEntry
    obtain ⟨⟨⟨policyUsed, policyBounded⟩, policySlot⟩,
      ⟨storeUsed, storeBounded⟩, storeSlot⟩ := origins entry isEntry
    exact ⟨apart _ _ policyUsed used policyBounded bounded policySlot,
      apart _ _ storeUsed used storeBounded bounded storeSlot⟩

theorem slot_lt {origin : Origin} (bounded : origin.fastIndex ≤ maxQueueCount) :
    origin.slot < maxFastPath := by
  have tapBound : origin.tapType.toU16 ≤ 256 := by
    cases origin.tapType with
    | isp number =>
      have := number.toNat_lt
      simp only [TapType.toU16]
      omega
    | _ => decide
  calc origin.slot ≤ 16 * 256 := Nat.mul_le_mul bounded tapBound
    _ < maxFastPath := by decide

/-- A new fast path has no caches. -/
theorem sorted_new (mapSize : { size : Nat // 0 < size }) (allowed : Origin -> Prop) :
    (new mapSize : FastPath C).Sorted ops allowed := by
  intro slot table present
  exact absurd present (by simp [new])

section

variable (path : FastPath C)

section

variable (key : LookupKey) (bounded : key.fastIndex ≤ maxQueueCount)
  (unflagged : path.policyTableFlushFlags key.fastIndex = false)
include bounded unflagged

/-- A cache that is missing is made. -/
theorem tableFlushCheck_of_none (absent : path.policyTable key.origin.slot = none) :
    path.tableFlushCheck ops key = some ({ path with
        policyTable := Function.update path.policyTable key.origin.slot
          (some (ops.new path.mapSize)) },
        true) := by
  have inside : key.origin.slot < maxFastPath := slot_lt bounded
  simp [FastPath.tableFlushCheck, flushTables, unflagged, bounded, inside, absent]

/-- One that is there is left alone. -/
theorem tableFlushCheck_of_some (present : path.policyTable key.origin.slot = some table) :
    path.tableFlushCheck ops key = some (path, false) := by
  have inside : key.origin.slot < maxFastPath := slot_lt bounded
  simp [FastPath.tableFlushCheck, flushTables, unflagged, bounded, inside, present]

end

/-- A packet of a combination, everything else as in `LookupKey::default`. -/
def packetAt (origin : Origin) : LookupKey :=
  { tapType := origin.tapType, fastIndex := origin.fastIndex }

/-- The map key of such a packet. -/
def emptyKey : BitVec 128 := endKey 0 0 0 ++ endKey 0 0 0

theorem generateMapKey_packetAt (origin : Origin)
    (noMask : path.netmaskTable 0 = 0) (noPort : path.interestTable 0 = ⟨0, 0⟩) :
    path.generateMapKey (path.interestTableMap (packetAt origin)) =
      some (endKey 0 0 0, endKey 0 0 0) := by
  simp [generateMapKey, generateMaskIp, interestTableMap, packetAt, noMask, noPort]

end

/-- The item that such a packet leaves. -/
def itemOf (origin : Origin) : PolicyTableItem NpbAction where
  store := .ofData origin {}
  protocolTable := Function.update (fun _ => none) 0 (some ⟨{}, origin⟩)

variable (lawful : ops.Lawful)
  (merge : List NpbAction -> UInt32 -> Option (PolicyData NpbAction))
  (mapSize : { size : Nat // 0 < size })

include lawful in
/-- A packet of a combination leaves its item in the cache of its index. -/
theorem addPolicy_new (bounded : origin.fastIndex ≤ maxQueueCount) :
    ∃ (path : FastPath C) (packet : LookupKey) (table : C),
      (new mapSize).addPolicy ops merge (packetAt origin) {} {} {} = some (path, packet) ∧
      path.policyTable origin.slot = some table ∧ ops.find? table emptyKey = some (itemOf origin) ∧
      (∀ fastIndex, path.policyTableFlushFlags fastIndex = false) ∧
      path.netmaskTable 0 = 0 ∧ path.interestTable 0 = ⟨0, 0⟩ := by
  have checked := @tableFlushCheck_of_none _ _ ops (new mapSize)
    (packetAt origin) bounded rfl rfl
  have sameOrigin (path : FastPath C) :
      (path.interestTableMap (packetAt origin)).origin = (packetAt origin).origin := rfl
  have noAcl : combine merge {} {} = some {} := rfl
  have stored : storePolicy ops origin 0 {} (endKey 0 0 0 ++ endKey 0 0 0) {}
      (ops.new mapSize, 0) = (ops.put (ops.new mapSize) emptyKey (itemOf origin), 1) := by
    simp only [storePolicy, lawful.find?_new]
    rfl
  simp only [addPolicy, checked, some_bind]
  rw [generateMapKey_packetAt _ _ rfl rfl]
  simp only [sameOrigin, Function.update_self, some_bind, noAcl, if_true]
  refine ⟨_, _, _, rfl, Function.update_self _ _ _, ?_, fun _ => rfl, rfl, rfl⟩
  have isStored := lawful.find?_put_self (ops.new mapSize) emptyKey (itemOf origin)
  exact (congrArg (fun state => ops.find? state.1 emptyKey) stored).trans isStored

/-- Such an item is found for every packet of its index. -/
theorem lookup_itemOf (path : FastPath C) {table : C}
    (present : path.policyTable right.slot = some table)
    (isItem : ops.find? table emptyKey = some (itemOf left))
    (noMask : path.netmaskTable 0 = 0) (noPort : path.interestTable 0 = ⟨0, 0⟩) :
    ∃ path' found,
      path.lookup ops (path.interestTableMap (packetAt right)) = some (path', some found) ∧
      found.policy.origin = left := by
  have isTable : path.policyTable
      (path.interestTableMap (packetAt right)).origin.slot = some table := present
  have isProto : (path.interestTableMap (packetAt right)).proto = 0 := rfl
  have isPolicy : (itemOf left : PolicyTableItem NpbAction).protocolTable 0 =
      some ⟨{}, left⟩ := by
    simp [itemOf]
  have isFound : ops.find? table (endKey 0 0 0 ++ endKey 0 0 0) = some (itemOf left) := isItem
  simp only [lookup, generateMapKey_packetAt path right noMask noPort, isTable, some_bind,
    isFound, isProto, isPolicy]
  exact ⟨_, _, rfl, rfl⟩

include lawful in
/-- An entry added for one combination is found for any other one with the
same index. -/
theorem found_of_slot_eq (leftBounded : left.fastIndex ≤ maxQueueCount)
    (rightBounded : right.fastIndex ≤ maxQueueCount) (sameSlot : left.slot = right.slot) :
    ∃ (path : FastPath C) (found : Found NpbAction), runSteps (step ops merge) (new mapSize)
        [.addPolicy (packetAt left) {} {} {}, .getPolicy (packetAt right)] =
          some (path, [none, some found]) ∧ found.policy.origin = left := by
  obtain ⟨path, packet, table, added, present, isItem, unflagged, noMask, noPort⟩ :=
    addPolicy_new lawful merge mapSize leftBounded
  rw [sameSlot] at present
  have checked := @tableFlushCheck_of_some _ _ ops path (packetAt right) rightBounded
    (unflagged _) table present
  obtain ⟨path', found, looked, isLeft⟩ := lookup_itemOf path present isItem noMask noPort
  have first : step ops merge (new mapSize) (.addPolicy (packetAt left) {} {} {}) =
      some (path, none) := by simp only [step, added, Option.map_some]
  have second : step ops merge path (.getPolicy (packetAt right)) = some (path', some found) := by
    simp only [step, getPolicy, checked, looked, Option.bind_eq_bind,
      Option.bind_some, Bool.false_eq_true, if_false, Option.map_some]
  refine ⟨path', found, ?_, isLeft⟩
  rw [runSteps_cons_of_step first, runSteps_cons_of_step second]
  rfl

/-- Every run answers lookups from entries of their own combination exactly if
those in use have different products. -/
theorem run_attributed_iff {ops : TableLruCacheOps NpbAction C} (lawful : ops.Lawful)
    (merge : List NpbAction -> UInt32 -> Option (PolicyData NpbAction))
    (mapSize : { size : Nat // 0 < size }) (inUse : Origin -> Prop) :
    (∀ (calls : List (Call NpbAction)) (path : FastPath C)
      (answers : List (Option (Found NpbAction))),
      (∀ call ∈ calls, inUse call.packet.origin) ->
      runSteps (step ops merge) (new mapSize) calls = some (path, answers) ->
      List.Forall₂ Attributed calls answers) ↔
    SlotsApart inUse := by
  constructor
  · intro attributed left right leftUsed rightUsed leftBounded rightBounded sameSlot
    obtain ⟨path, found, ran, isLeft⟩ :=
      found_of_slot_eq lawful merge mapSize leftBounded rightBounded sameSlot
    have answered := attributed _ _ _
      (by simp [Call.packet, packetAt, LookupKey.origin, leftUsed, rightUsed])
      ran
    have own : Attributed (.getPolicy (packetAt right)) (some found) := by
      cases answered with
      | cons _ rest =>
        cases rest with
        | cons second _ => exact second
    exact isLeft.symm.trans (own found rfl).1
  · intro apart calls path answers used ran
    exact forall₂_of_runSteps (step_attributed lawful apart) (sorted_new mapSize _) used ran

end Runs

/-- The tap types of providers on queue 1. -/
def OnQueueOne (origin : Origin) : Prop :=
  origin.fastIndex = 1 ∧ ∃ number, origin.tapType = .isp number

/-- They have different products, so lookups are answered from their own entries. -/
theorem run_attributed_iff_queueOne : SlotsApart OnQueueOne ∧
    ∀ (calls : List (Call Unit)) path answers,
      (∀ call ∈ calls, OnQueueOne call.packet.origin) ->
      runSteps (step (LruMap.cacheOps _ _) fun _ _ => some {}) (new ⟨1024, Nat.succ_pos 1023⟩)
        calls = some (path, answers) ->
      List.Forall₂ Attributed calls answers := by
  have apart : SlotsApart OnQueueOne := by
    rintro ⟨-, -⟩ ⟨-, -⟩ ⟨rfl, left, rfl⟩ ⟨rfl, right, rfl⟩ - - same
    simp only [Origin.slot, TapType.toU16, Nat.one_mul] at same
    rw [UInt8.toNat_inj.mp same]
  exact ⟨apart, (run_attributed_iff LruMap.lawful_cacheOps _ _ _).mpr apart⟩

/-- On queue 0 all tap types share a cache, and so do tap type 1 of queue 2 and
2 of queue 1. -/
theorem foreign_entries_found :
    (runSteps (step (LruMap.cacheOps _ _) fun (_ : List Unit) _ => some {})
      (new ⟨1024, Nat.succ_pos 1023⟩)
      [.addPolicy { tapType := .tor, fastIndex := 0 } {} {} {},
        .getPolicy { tapType := .isp 1, fastIndex := 0 },
        .addPolicy { tapType := .isp 1, fastIndex := 2 } {} {} {},
        .getPolicy { tapType := .isp 2, fastIndex := 1 }]).map
          (fun ran => ran.2.map (Option.map fun found =>
            found.policy.origin)) =
      some [none, some ⟨0, .tor⟩, none, some ⟨2, .isp 1⟩] := by
  decide +kernel

end FastPath

end Metaflow.AgentPolicy
