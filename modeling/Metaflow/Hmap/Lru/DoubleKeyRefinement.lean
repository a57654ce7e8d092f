import Metaflow.Hmap.Lru.DoubleKeyMap

/-!
# `U128U64DoubleKeyLRU` as an LRU map with two keys

Every method of the ring is compared with the abstract map, and in every state
the three kinds of lists describe the entries of the abstract map.
-/

namespace Metaflow.Hmap.Lru

open Library List
open Library.LinkedList

namespace U128U64DoubleKeyLRU

variable {V : Type} [Inhabited V]

section Machine

variable (h : Hashing)

/-- One call of a method. -/
def step (m : U128U64DoubleKeyLRU V) :
    DoubleKeyMap.Op V -> Option (U128U64DoubleKeyLRU V × DoubleKeyMap.Answer V)
  | .add longKey shortKey value =>
    (add h m longKey.1 longKey.2 shortKey value).map fun m => (m, .done)
  | .addByShortKey longKey0s longKey1s shortKey values =>
    (addByShortKey h m longKey0s longKey1s shortKey values).map
      fun (m, wholly) => (m, .completed wholly)
  | .get longKey peek =>
    (get h m longKey.1 longKey.2 peek).map fun (m, value) =>
      (m, .found value)
  | .remove longKey => (remove h m longKey.1 longKey.2).map fun m => (m, .done)
  | .removeByShortKey shortKey =>
    (removeByShortKey h m shortKey).map fun (m, count) =>
      (m, .removed count)
  | .peekByShortKey shortKey =>
    (peekByShortKey h m shortKey).map fun values =>
      (m, .values (values.map Multiset.ofList))
  | .clear => some (m.clear, .done)

/-- How nodes stand for entries. -/
abbrev keying : Keying DoubleKeyList (DoubleKeyNode V) (DoubleKeyNode V) (UInt64 × UInt64) where
  layout := layout h
  hash := .hash
  entryOf := id
  keyOf := DoubleKeyNode.longKey
  slotFor longKey := h.compressHash longKey.1 longKey.2

/-- The ring represents the abstract map. -/
def Refines (m : U128U64DoubleKeyLRU V) (map : DoubleKeyMap V) : Prop :=
  ∃ node chain, Models (keying h) m map node chain

/-- Adding a new long key does not overflow the positions. -/
def AddFits (m : U128U64DoubleKeyLRU V) (longKey : UInt64 × UInt64) : Prop :=
  find h m longKey.1 longKey.2 = some none -> m.Fits

/-- Every addition of `AddByShortKey` fits. -/
def AddAllFits (shortKey : UInt64) :
    U128U64DoubleKeyLRU V -> List UInt64 -> List UInt64 -> List V -> Prop
  | m, longKey0 :: longKey0s, longKey1 :: longKey1s, value :: values =>
    AddFits h m (longKey0, longKey1) ∧
      ∀ m', add h m longKey0 longKey1 shortKey value = some m' ->
        AddAllFits shortKey m' longKey0s longKey1s values
  | _, _, _, _ => True

/-- No insertion of a step overflows the positions. -/
def InsertFits (m : U128U64DoubleKeyLRU V) : DoubleKeyMap.Op V -> Prop
  | .add longKey _ _ => AddFits h m longKey
  | .addByShortKey longKey0s longKey1s shortKey values =>
    AddAllFits h shortKey m longKey0s longKey1s values
  | _ => True

/-- The lists hold the entries of the abstract map: the time list in order of
use, each chain those of its slot. -/
structure Describes (m : U128U64DoubleKeyLRU V) (map : DoubleKeyMap V) : Prop where
  time : m.collect .time m.scanFuel (m.head .time 0) = some map.entries
  hash : ∀ slot, ∃ entries, m.collect .hash m.scanFuel (m.head .hash slot) = some entries ∧
    entries.Perm (map.entries.filter fun entry =>
      h.compressHash entry.longKey0 entry.longKey1 = slot)
  relation : ∀ slot, ∃ entries,
    m.collect .relation m.scanFuel (m.head .relation slot) = some entries ∧
    entries.Perm (map.entries.filter fun entry =>
      h.compressRelationHash entry.shortKey = slot)

end Machine

section Refinement

variable {h : Hashing}
variable {m : U128U64DoubleKeyLRU V} {map : DoubleKeyMap V}
variable {node : Int -> Node DoubleKeyList (DoubleKeyNode V)}
variable {chain : DoubleKeyList -> Int -> List Int}

theorem chain_perm (models : Models (keying h) m map node chain) (kind : DoubleKeyList)
    (slot : Int) :
    ((chain kind slot).map fun position => (node position).payload).Perm
      (map.entries.filter fun entry =>
        (layout h).slotOf kind entry = slot) := by
  have chained := models.represents.chained kind
  have nodupTime := ((models.represents.chained .time).threaded 0).nodup
  have samePositions : (chain kind slot).Perm ((chain .time 0).filter fun position =>
        (layout h).slotOf kind (node position).payload = slot) := by
    refine (perm_ext_iff_of_nodup (chained.threaded slot).nodup (nodupTime.filter _)).mpr ?_
    intro position
    have onTime : position ∈ chain .time 0 ↔ m.Live position :=
      models.represents.mem_time_iff position
    rw [mem_filter, chained.mem_chain, onTime, decide_eq_true_iff]
  have entries : map.entries = (chain .time 0).map fun position =>
      (node position).payload := models.entries
  rw [entries, filter_map]
  exact samePositions.map _

theorem describes (refines : Refines h m map) : Describes h m map := by
  obtain ⟨node, chain, models⟩ := refines
  have collected := models.represents.collect_eq
  refine ⟨?_, ?_, ?_⟩
  · rw [collected .time 0, models.entries]
    rfl
  · intro slot
    exact ⟨_, collected .hash slot, chain_perm models .hash slot⟩
  · intro slot
    exact ⟨_, collected .relation slot, chain_perm models .relation slot⟩

omit [Inhabited V] in
theorem find_eq_scan (m : U128U64DoubleKeyLRU V) (longKey : UInt64 × UInt64) :
    find h m longKey.1 longKey.2 = m.scan .hash (fun node => node.longKey = longKey) m.scanFuel
        (m.head .hash (h.compressHash longKey.1 longKey.2)) := by
  have sameTest : (fun node : DoubleKeyNode V =>
      decide (node.longKey0 = longKey.1 ∧ node.longKey1 = longKey.2)) =
      fun node => decide (node.longKey = longKey) := by
    funext node
    have sameKey : (node.longKey0, node.longKey1) = longKey ↔
        node.longKey0 = longKey.1 ∧ node.longKey1 = longKey.2 := Prod.ext_iff
    exact decide_eq_decide.mpr sameKey.symm
  rw [find, sameTest]

section

variable (models : Models (keying h) m map node chain)
include models

theorem find_spec (longKey : UInt64 × UInt64) : ∃ found, find h m longKey.1 longKey.2 = some found ∧
      map.find? longKey = found.map (fun position => (node position).payload) ∧
      ∀ position, found = some position -> m.Live position ∧
        (node position).payload.longKey = longKey := by
  rw [find_eq_scan]
  exact models.find_spec longKey

theorem updateNode_spec (alive : m.Live nodeIndex) (value : V) :
    ∃ m', updateNode h m nodeIndex value = some m' ∧ Models.Refreshed (keying h) map nodeIndex
        { (node nodeIndex).payload with value := value } m' :=
  models.refresh alive (fun node => { node with value := value })
    (fun kind _ => by cases kind <;> rfl) fun _ => rfl

/-- Removing a node, and where its successor by short key went. -/
theorem removeNode_spec (alive : m.Live nodeIndex) :
    ∃ m' node', removeNode h m nodeIndex = some (m',
        if (node nodeIndex).next .relation = some m.bufferStartIndex
        then some nodeIndex else none) ∧
      Models (keying h) m' (map.remove (node nodeIndex).payload.longKey)
        node' (fun kind slot => ((chain kind slot).erase nodeIndex).map
          (redirect m.bufferStartIndex nodeIndex)) ∧
      ∀ position, m.Live position -> position ≠ nodeIndex ->
        (node' (redirect m.bufferStartIndex nodeIndex position)).payload =
          (node position).payload := by
  obtain ⟨m', node', removed, _, models', payloads⟩ :=
    models.removeNode alive (show decide (nodeIndex = m.bufferStartIndex) = true ↔ _ by simp)
  refine ⟨m', node', ?_, models', payloads⟩
  rw [removeNode, models.represents.reads nodeIndex alive, some_bind,
    show RingLru.removeNode (layout h) m nodeIndex
    (decide (nodeIndex = m.bufferStartIndex)) = some m' from removed]
  simp only [some_bind]
  split <;> rfl

end

theorem add_refines (refines : Refines h m map) (longKey : UInt64 × UInt64) (shortKey : UInt64)
    (value : V) (fits : AddFits h m longKey) :
    ∃ m', add h m longKey.1 longKey.2 shortKey value = some m' ∧
      Refines h m' (DoubleKeyMap.add map longKey shortKey value) := by
  obtain ⟨node, chain, models⟩ := refines
  obtain ⟨found, finds, sameEntry, isLive⟩ := find_spec models longKey
  unfold add DoubleKeyMap.add
  rw [finds, sameEntry, some_bind]
  cases found with
  | some hashIndex =>
    obtain ⟨alive, _⟩ := isLive hashIndex rfl
    obtain ⟨m', updated, node', chain', models', -⟩ := updateNode_spec models alive value
    exact ⟨m', updated, node', chain', models'⟩
  | none =>
    have exact := models.represents.spans.incExact (fits finds)
    have removes : ∀ tail, m.timeListTail = some tail -> (m.capacity : Int) ≤ m.size ->
        ∃ atStart, (removeNode h m tail).map Prod.fst =
            RingLru.removeNode (layout h) m tail atStart ∧
          (atStart = true ↔ tail = m.bufferStartIndex) := by
      intro tail isTail _
      have alive := models.live_tail isTail
      refine ⟨decide (tail = m.bufferStartIndex), ?_, by simp⟩
      rw [removeNode, models.represents.reads tail alive, some_bind]
      cases RingLru.removeNode (layout h) m tail (decide (tail = m.bufferStartIndex)) with
      | none => rfl
      | some m' =>
        simp only [some_bind]
        split <;> rfl
    obtain ⟨m', node', chain', inserted, models'⟩ :=
      models.newNode exact (fun m tail => (removeNode h m tail).map Prod.fst) removes
        { longKey0 := longKey.1
          longKey1 := longKey.2
          shortKey := shortKey
          value := value } sameEntry rfl
    exact ⟨m', inserted, node', chain', models'⟩

theorem addAll_refines (refines : Refines h m map) (shortKey : UInt64)
    (longKey0s longKey1s : List UInt64) (values : List V)
    (fits : AddAllFits h shortKey m longKey0s longKey1s values) :
    ∃ m', addAll h shortKey m longKey0s longKey1s values = some (m',
        (DoubleKeyMap.addAll shortKey map longKey0s longKey1s values).2) ∧
      Refines h m' (DoubleKeyMap.addAll shortKey map longKey0s longKey1s values).1 := by
  induction longKey0s generalizing m map longKey1s values with
  | nil => exact ⟨m, by simp [addAll, DoubleKeyMap.addAll],
      by simpa [DoubleKeyMap.addAll] using refines⟩
  | cons longKey0 longKey0s ih =>
    cases longKey1s with
    | nil => exact ⟨m, rfl, refines⟩
    | cons longKey1 longKey1s =>
      cases values with
      | nil => exact ⟨m, rfl, refines⟩
      | cons value values =>
        obtain ⟨fitsOne, fitsRest⟩ := fits
        obtain ⟨m', added, refines'⟩ := add_refines refines
          (longKey0, longKey1) shortKey value fitsOne
        obtain ⟨m'', addedRest, refines''⟩ := ih refines' longKey1s values (fitsRest m' added)
        refine ⟨m'', ?_, refines''⟩
        rw [addAll, added]
        exact addedRest

/-- The link that `RemoveByShortKey` follows after a removal leads to the rest
of the chain. -/
theorem next_after_removal (rest : List Int) (start nodeIndex : Int) :
    (if (if rest.head? = some start then some nodeIndex else none) ≠ none
      then (if rest.head? = some start then some nodeIndex else none) else rest.head?) =
    (rest.map (redirect start nodeIndex)).head? := by
  cases rest with
  | nil => simp
  | cons next rest => by_cases moved : next = start <;> simp [moved, redirect]

omit [Inhabited V] in
theorem count_withShortKey (found : map.find? longKey = some entry)
    (isShort : entry.shortKey = shortKey) :
    (DoubleKeyMap.withShortKey (map.remove longKey) shortKey).length + 1 =
      (DoubleKeyMap.withShortKey map shortKey).length := by
  have before := map.length_removeWhere fun entry =>
    entry.shortKey = shortKey
  have after := (map.remove longKey).length_removeWhere fun entry =>
    entry.shortKey = shortKey
  have one := map.length_remove found
  rw [map.removeWhere_remove found _ (decide_eq_true isShort)] at after
  unfold DoubleKeyMap.withShortKey
  omega

/-- The loop of `RemoveByShortKey` from a link on: the nodes before it have
other short keys, and those behind it with the short key go. -/
theorem removeFrom_spec (shortKey : UInt64) (visited pending : List Int)
    (models : Models (keying h) m map node chain)
    (split : chain .relation (h.compressRelationHash shortKey) = visited ++ pending)
    (kept : ∀ position ∈ visited, (node position).payload.shortKey ≠ shortKey)
    (enough : pending.length < fuel) (delCount : Nat) :
    ∃ m', removeFrom h shortKey fuel m pending.head? delCount = some (m',
        delCount + (DoubleKeyMap.withShortKey map shortKey).length) ∧
      Refines h m' (map.removeWhere fun entry =>
        entry.shortKey = shortKey) := by
  induction fuel generalizing m map node chain visited pending delCount with
  | zero => exact absurd enough (Nat.not_lt_zero _)
  | succ fuel ih =>
    cases pending with
    | nil =>
      have others : ∀ entry ∈ map.entries, entry.shortKey ≠ shortKey := by
        intro entry present isShort
        obtain ⟨position, alive, rfl⟩ := (models.mem_entries entry).mp present
        have onChain := (models.represents.chained .relation).mem_own alive
        have slot : (keying h).layout.slotOf .relation
            (node position).payload = h.compressRelationHash shortKey :=
          congrArg h.compressRelationHash isShort
        rw [slot, split, append_nil] at onChain
        exact kept position onChain isShort
      have noEntry : DoubleKeyMap.withShortKey map shortKey = [] := by
        refine filter_eq_nil_iff.mpr ?_
        intro entry present
        simpa using others entry present
      refine ⟨m, ?_, node, chain, ?_⟩
      · rw [noEntry]
        rfl
      · rw [map.removeWhere_of_forall fun entry present => by
          simpa using others entry present]
        exact models
    | cons nodeIndex pending =>
      have shorter : pending.length < fuel := Nat.lt_of_succ_lt_succ enough
      have chained := models.represents.chained .relation
      have alive : m.Live nodeIndex := chained.live_of_mem
        (show nodeIndex ∈ chain .relation _ by rw [split]; simp)
      have threaded := chained.threaded (h.compressRelationHash shortKey)
      rw [split] at threaded
      have link : (node nodeIndex).next .relation = pending.head? := threaded.next_of_split
      rw [head?_cons, removeFrom, models.represents.reads nodeIndex alive, some_bind]
      split_ifs with isShort
      · have found : map.find? (node nodeIndex).payload.longKey =
            some (node nodeIndex).payload := models.find?_key alive
        obtain ⟨m', node', removed, models', payloads⟩ := removeNode_spec models alive
        have outside : nodeIndex ∉ visited := fun present =>
          kept nodeIndex present isShort
        obtain ⟨m'', looped, refines⟩ := ih (visited.map (redirect m.bufferStartIndex nodeIndex))
          (pending.map (redirect m.bufferStartIndex nodeIndex))
          models'
          (by rw [split, erase_append_right _ outside]; simp)
          (by
            intro position present
            obtain ⟨old, inOld, rfl⟩ := mem_map.mp present
            have oldAlive : m.Live old := chained.live_of_mem
              (show old ∈ chain .relation _ by
                rw [split]
                exact mem_append_left _ inOld)
            have different : old ≠ nodeIndex := fun same =>
              outside (same ▸ inOld)
            rw [payloads old oldAlive different]
            exact kept old inOld)
          (by simpa using shorter) (delCount + 1)
        refine ⟨m'', ?_, ?_⟩
        · rw [removed]
          simp only [some_bind]
          rw [link, next_after_removal, looped]
          have counted := count_withShortKey found isShort
          congr 2
          omega
        · have sameMap := map.removeWhere_remove found (fun entry => entry.shortKey = shortKey)
            (decide_eq_true isShort)
          rwa [sameMap] at refines
      · rw [link]
        refine ih (visited ++ [nodeIndex]) pending models ?_ ?_ shorter delCount
        · rw [split]
          simp
        · intro position present
          rcases mem_append.mp present with old | new
          · exact kept position old
          · obtain rfl := mem_singleton.mp new
            exact isShort

section

variable (refines : Refines h m map)
include refines

variable (longKey : UInt64 × UInt64) (shortKey : UInt64)

/-- `RemoveByShortKey` removes the entries with the short key and answers
their number. -/
theorem removeByShortKey_refines : ∃ m', removeByShortKey h m shortKey = some (m',
        (DoubleKeyMap.withShortKey map shortKey).length) ∧
      Refines h m' (map.removeWhere fun entry =>
        entry.shortKey = shortKey) := by
  obtain ⟨node, chain, models⟩ := refines
  have chained := models.represents.chained .relation
  obtain ⟨m', looped, refines'⟩ := removeFrom_spec shortKey []
    (chain .relation (h.compressRelationHash shortKey)) models rfl
    (by simp) (models.represents.length_lt_scanFuel .relation _) 0
  refine ⟨m', ?_, refines'⟩
  rw [removeByShortKey, chained.head_eq, looped, Nat.zero_add]

/-- `PeekByShortKey` answers the values of the entries with the short key. -/
theorem peekByShortKey_eq :
    ∃ values, peekByShortKey h m shortKey = some values ∧ values.map Multiset.ofList =
        if DoubleKeyMap.withShortKey map shortKey = [] then none else some (Multiset.ofList
          ((DoubleKeyMap.withShortKey map shortKey).map DoubleKeyNode.value)) := by
  obtain ⟨node, chain, models⟩ := refines
  have samePart := (chain_perm models .relation
    (h.compressRelationHash shortKey)).filter fun entry => entry.shortKey = shortKey
  have sameFilter : (map.entries.filter fun entry =>
      (layout h).slotOf .relation entry = h.compressRelationHash shortKey).filter
        (fun entry => entry.shortKey = shortKey) =
      DoubleKeyMap.withShortKey map shortKey := by
    rw [filter_filter]
    refine filter_congr ?_
    intro entry _
    by_cases isShort : entry.shortKey = shortKey <;> simp [isShort, layout]
  rw [sameFilter] at samePart
  rw [peekByShortKey, models.represents.collect_eq .relation]
  simp only [some_bind, length_map]
  rw [samePart.length_eq]
  by_cases noEntry : DoubleKeyMap.withShortKey map shortKey = []
  · refine ⟨none, ?_, ?_⟩ <;> simp [noEntry]
  · refine ⟨some _, if_pos (length_pos_of_ne_nil noEntry), ?_⟩
    rw [if_neg noEntry, Option.map_some]
    congr 1
    exact Multiset.coe_eq_coe.mpr (samePart.map DoubleKeyNode.value)

/-- `Get` answers what the long key finds and puts it in front unless it
peeks. -/
theorem get_refines (peek : Bool) : ∃ m', get h m longKey.1 longKey.2 peek =
        some (m', (map.find? longKey).map DoubleKeyNode.value) ∧ Refines h m'
        ((map.find? longKey).elim map fun entry => if peek then map else map.put entry) := by
  obtain ⟨node, chain, models⟩ := refines
  obtain ⟨found, finds, sameEntry, isLive⟩ := find_spec models longKey
  rw [get, finds]
  exact models.get_spec DoubleKeyNode.value (updateNode h) sameEntry isLive
    (fun _ alive => updateNode_spec models alive _) peek

theorem remove_refines :
    ∃ m', remove h m longKey.1 longKey.2 = some m' ∧ Refines h m' (map.remove longKey) := by
  obtain ⟨node, chain, models⟩ := refines
  obtain ⟨found, finds, sameEntry, isLive⟩ := find_spec models longKey
  unfold remove
  rw [finds, some_bind]
  cases found with
  | some hashListNext =>
    obtain ⟨alive, isKey⟩ := isLive hashListNext rfl
    obtain ⟨m', node', removed, models', _⟩ := removeNode_spec models alive
    rw [isKey] at models'
    refine ⟨m', ?_, node', _, models'⟩
    simp [removed]
  | none =>
    refine ⟨m, rfl, node, chain, ?_⟩
    rw [map.remove_of_find?_eq_none sameEntry]
    exact models

theorem step_refines (operation : DoubleKeyMap.Op V) (fits : InsertFits h m operation) :
    ∃ m', step h m operation = some (m', (DoubleKeyMap.step map operation).2) ∧
      Refines h m' (DoubleKeyMap.step map operation).1 := by
  cases operation with
  | add longKey shortKey value =>
    obtain ⟨m', added, refines'⟩ := add_refines refines longKey shortKey value fits
    exact ⟨m', by simp [step, added, DoubleKeyMap.step], refines'⟩
  | addByShortKey longKey0s longKey1s shortKey values =>
    by_cases mismatch : longKey0s.length ≠ longKey1s.length ∧ longKey0s.length ≠ values.length
    · refine ⟨m, ?_, ?_⟩
      · simp [step, addByShortKey, DoubleKeyMap.step, mismatch]
      · simpa [DoubleKeyMap.step, mismatch] using refines
    · obtain ⟨m', added, refines'⟩ := addAll_refines refines shortKey
        longKey0s longKey1s values fits
      refine ⟨m', ?_, ?_⟩
      · rw [step, addByShortKey, if_neg mismatch, added, DoubleKeyMap.step, if_neg mismatch]
        rfl
      · rw [DoubleKeyMap.step, if_neg mismatch]
        exact refines'
  | get longKey peek =>
    obtain ⟨m', got, refines'⟩ := get_refines refines longKey peek
    refine ⟨m', ?_, ?_⟩
    · simp only [step, got, DoubleKeyMap.step, Option.map_some]
      cases map.find? longKey <;> rfl
    · simp only [DoubleKeyMap.step]
      cases found : map.find? longKey <;> simpa [found] using refines'
  | remove longKey =>
    obtain ⟨m', removed, refines'⟩ := remove_refines refines longKey
    exact ⟨m', by simp [step, removed, DoubleKeyMap.step], refines'⟩
  | removeByShortKey shortKey =>
    obtain ⟨m', removed, refines'⟩ := removeByShortKey_refines refines shortKey
    exact ⟨m', by simp [step, removed, DoubleKeyMap.step], refines'⟩
  | peekByShortKey shortKey =>
    obtain ⟨values, peeked, sameValues⟩ := peekByShortKey_eq refines shortKey
    refine ⟨m, ?_, refines⟩
    rw [step, peeked, Option.map_some, sameValues]
    rfl
  | clear =>
    obtain ⟨node, chain, models⟩ := refines
    exact ⟨m.clear, rfl, node, _, models.clear⟩

/-- In a ring of fewer than `2 ^ 31` positions every insertion fits. -/
theorem addFits_of_capacity
    (few : ((map.capacity : Int) / 256 + 2) * 256 < 2147483648) (longKey : UInt64 × UInt64) :
    AddFits h m longKey := by
  obtain ⟨node, chain, models⟩ := refines
  have spans := models.represents.spans
  intro _
  apply spans.fits_of_rows
  rw [spans.rows_eq, models.capacity]
  exact few

theorem addAllFits_of_capacity
    (few : ((map.capacity : Int) / 256 + 2) * 256 < 2147483648) (shortKey : UInt64)
    (longKey0s longKey1s : List UInt64) (values : List V) :
    AddAllFits h shortKey m longKey0s longKey1s values := by
  induction longKey0s generalizing m map longKey1s values with
  | nil => simp [AddAllFits]
  | cons longKey0 longKey0s ih =>
    cases longKey1s with
    | nil => trivial
    | cons longKey1 longKey1s =>
      cases values with
      | nil => trivial
      | cons value values =>
        have fits := addFits_of_capacity refines few (longKey0, longKey1)
        refine ⟨fits, ?_⟩
        intro m' added
        obtain ⟨next, isNext, refines'⟩ := add_refines refines
          (longKey0, longKey1) shortKey value fits
        obtain rfl : m' = next := Option.some.inj (added.symm.trans isNext)
        refine ih refines' ?_ longKey1s values
        rw [DoubleKeyMap.capacity_add]
        exact few

end

theorem guarded_of_capacity (capacity : Nat) (positive : 0 < capacity)
    (few : ((capacity : Int) / 256 + 2) * 256 < 2147483648)
    (pool : Nat -> Int -> Node DoubleKeyList (DoubleKeyNode V))
    (operations : List (DoubleKeyMap.Op V)) :
    Guarded (InsertFits h) (step h) (RingLru.new capacity pool) operations := by
  refine Guarded.of_related DoubleKeyMap.step
    (fun m map => Refines h m map ∧ map.capacity = capacity) ?_ ?_
    ⟨⟨_, _, Models.new (keying h) capacity positive pool⟩, rfl⟩ operations
  · rintro m map operation ⟨refines, sameCapacity⟩ fits
    obtain ⟨m', stepped, refines'⟩ := step_refines refines operation fits
    exact ⟨m', stepped, refines', (DoubleKeyMap.capacity_step map operation).trans sameCapacity⟩
  · rintro m map operation ⟨refines, sameCapacity⟩
    rw [← sameCapacity] at few
    cases operation with
    | add longKey shortKey value => exact addFits_of_capacity refines few longKey
    | addByShortKey longKey0s longKey1s shortKey values =>
      exact addAllFits_of_capacity refines few shortKey longKey0s longKey1s values
    | _ => trivial

/-- In every run on a new map without a position outside `int32` every method
answers as the abstract map does, and the lists describe its entries. -/
theorem run_describes_entries (h : Hashing) (capacity : Nat) (positive : 0 < capacity)
    (pool : Nat -> Int -> Node DoubleKeyList (DoubleKeyNode V))
    (operations : List (DoubleKeyMap.Op V))
    (fits : Guarded (InsertFits h) (step h) (RingLru.new capacity pool) operations) :
    ∃ final,
      runSteps (step h) (RingLru.new capacity pool) operations =
        some (final, (runTotal DoubleKeyMap.step (LruMap.empty _ capacity positive) operations).2) ∧
      Describes h final (runTotal DoubleKeyMap.step
        (LruMap.empty _ capacity positive) operations).1 := by
  obtain ⟨final, ran, refines⟩ := simulates _ (Refines h)
    (fun _ _ operation refines fits => step_refines refines operation fits)
    ⟨_, _, Models.new (keying h) capacity positive pool⟩ operations fits
  exact ⟨final, ran, describes refines⟩

theorem run_describes_entries_three :
    ∃ final,
      runSteps (step ⟨fun _ _ => 0, fun _ => 0, 1, 1⟩)
          (RingLru.new 3 fun _ _ =>
            (layout ⟨fun _ _ => 0, fun _ => 0, 1, 1⟩).blank)
          [.add (1, 0) 7 10, .addByShortKey [2, 3] [0, 0] 8 [20, 30],
            .add (4, 0) 7 40, .removeByShortKey 8, .peekByShortKey 7] =
        some (final, [.done, .completed true, .done, .removed 2, .values (some {(40 : Nat)})]) ∧
      Describes ⟨fun _ _ => 0, fun _ => 0, 1, 1⟩ final
        (runTotal DoubleKeyMap.step (LruMap.empty _ 3 (by decide))
          [.add (1, 0) 7 10, .addByShortKey [2, 3] [0, 0] 8 [20, 30],
            .add (4, 0) 7 40, .removeByShortKey 8, .peekByShortKey 7]).1 := by
  have answers : (runTotal DoubleKeyMap.step (LruMap.empty _ 3 (by decide))
      [.add (1, 0) 7 10, .addByShortKey [2, 3] [0, 0] 8 [20, 30],
        .add (4, 0) 7 40, .removeByShortKey 8, .peekByShortKey 7]).2 =
      [.done, .completed true, .done, .removed 2, .values (some {(40 : Nat)})] := by decide +kernel
  rw [← answers]
  exact run_describes_entries ⟨fun _ _ => 0, fun _ => 0, 1, 1⟩ 3 (by decide)
    _ _ (guarded_of_capacity 3 (by decide) (by decide) _ _)

end Refinement

/-- Hash functions that set the long key `2 ^ 31` apart. -/
def apartHashing : Hashing where
  jenkins128 longKey0 _ := lastApart longKey0
  jenkins _ := 0
  hashSlots := 2
  relationHashSlots := 1

/-- Blocks fresh from `make`. -/
def freshPool : Nat -> Int -> Node DoubleKeyList (DoubleKeyNode Unit) :=
  fun _ _ => (layout apartHashing).blank

/-- `Add` of the long keys below `count`, all with one short key. -/
def addsBelow (count : Nat) : List (DoubleKeyMap.Op Unit) :=
  (List.range count).map fun key => .add (UInt64.ofNat key, 0) 0 ()

/-- With room for more than `2 ^ 31` entries, `2 ^ 31 + 1` additions of
different keys do not end, while the abstract map answers them all. -/
theorem overflow_run_panics :
    ¬ ∃ final,
      runSteps (step apartHashing) (RingLru.new 2147483649 freshPool) (addsBelow 2147483649) =
        some (final, (runTotal DoubleKeyMap.step (LruMap.empty _ 2147483649 (by decide))
          (addsBelow 2147483649)).2) := by
  rintro ⟨final, ran⟩
  have panics := run_adds_eq_none (k := keying apartHashing) (fun key => key.1.toNat) freshPool
    (fun m tail => (removeNode apartHashing m tail).map Prod.fst)
    (fun key => { longKey0 := UInt64.ofNat key, longKey1 := 0, shortKey := 0, value := () })
    (step apartHashing) (fun key => .add (UInt64.ofNat key, 0) 0 ()) .done
    (fun _ few => toNat_ofNat_of_lt few) (fun _ => rfl)
    (fun m key finds => by
      have notFound : find apartHashing m (UInt64.ofNat key) 0 = some none :=
        (find_eq_scan m (UInt64.ofNat key, 0)).trans finds
      rw [step, add, notFound]
      rfl)
    (fun _ small => hashSlot_lastApart_ne_one small) (hashSlot_lastApart _)
  exact absurd (panics.symm.trans ran) (by simp)

end U128U64DoubleKeyLRU

end Metaflow.Hmap.Lru
