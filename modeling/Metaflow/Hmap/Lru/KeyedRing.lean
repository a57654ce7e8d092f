import Metaflow.Hmap.Lru.RingQueries
import Metaflow.Library.LruMap

/-!
# Rings as LRU maps

A ring whose nodes have keys represents an LRU map: the time list is the list
of entries, and a key is looked up in the chain of its slot. The operations
that the three maps share are compared with those of the abstract map here.
-/

namespace Metaflow.Hmap.Lru

open Library List
open RingLru
open Library.LinkedList

variable {κ P E K : Type}

/-- How the nodes of a ring stand for the entries of an LRU map. -/
structure Keying (κ P E K : Type) where
  layout : Layout κ P
  /-- The kind of the chains that keys are looked up in. -/
  hash : κ
  entryOf : P -> E
  keyOf : E -> K
  slotFor : K -> Int

namespace Keying

/-- The key of a stored payload. -/
def key (k : Keying κ P E K) (payload : P) : K :=
  k.keyOf (k.entryOf payload)

end Keying

/-- The ring `m` represents the abstract map. -/
structure Models (k : Keying κ P E K) (m : RingLru κ P) (map : LruMap k.keyOf)
    (node : Int -> Node κ P) (chain : κ -> Int -> List Int) : Prop where
  represents : RingLru.Represents k.layout m node chain
  capacity : m.capacity = map.capacity
  entries : map.entries =
    (chain k.layout.time 0).map fun position =>
      k.entryOf (node position).payload
  keyed : ∀ position, m.Live position ->
    k.layout.slotOf k.hash (node position).payload = k.slotFor (k.key (node position).payload)

namespace Models

variable {k : Keying κ P E K} {m : RingLru κ P} {map : LruMap k.keyOf}
variable {node : Int -> Node κ P} {chain : κ -> Int -> List Int}

section

variable (models : Models k m map node chain)
include models

theorem mem_entries (entry : E) : entry ∈ map.entries ↔ ∃ position, m.Live position ∧
      k.entryOf (node position).payload = entry := by
  rw [models.entries, mem_map]
  constructor
  · rintro ⟨position, present, same⟩
    exact ⟨position, (models.represents.mem_time_iff position).mp present, same⟩
  · rintro ⟨position, alive, same⟩
    exact ⟨position, (models.represents.mem_time_iff position).mpr alive, same⟩

theorem size_eq : m.size = map.entries.length := by
  rw [models.entries, length_map]
  exact models.represents.length_time.symm

theorem key_injective (aliveLeft : m.Live left) (aliveRight : m.Live right)
    (sameKey : k.key (node left).payload = k.key (node right).payload) : left = right := by
  have nodup := map.nodup
  rw [models.entries, map_map] at nodup
  exact inj_on_of_nodup_map nodup ((models.represents.mem_time_iff left).mpr aliveLeft)
    ((models.represents.mem_time_iff right).mpr aliveRight) sameKey

/-- Following the time list visits the entries, the most recent one first. -/
theorem collect_time : (m.collect k.layout.time m.scanFuel (m.head k.layout.time 0)).map
        (List.map k.entryOf) = some map.entries := by
  rw [models.represents.collect_eq, models.entries, Option.map_some, map_map]
  rfl

end

theorem of_empty (represents : Represents k.layout m node fun _ _ => [])
    (positive : 0 < m.capacity) :
    Models k m (LruMap.empty k.keyOf m.capacity positive) node fun _ _ => [] := by
  refine ⟨represents, rfl, rfl, ?_⟩
  intro position alive
  have onTime := (represents.mem_time_iff position).mpr alive
  simp at onTime

theorem new (k : Keying κ P E K) (capacity : Nat) (positive : 0 < capacity)
    (pool : Nat -> Int -> Node κ P) : Models k (new capacity pool)
      (LruMap.empty k.keyOf capacity positive) (fun _ => pool 0 0)
      fun _ _ => [] :=
  of_empty (represents_new capacity pool _) positive

theorem clear (models : Models k m map node chain) :
    Models k m.clear map.clear node fun _ _ => [] := by
  have sameCapacity : m.clear.capacity = map.capacity := models.capacity
  have positive : 0 < m.clear.capacity := by
    rw [sameCapacity]
    exact map.positive
  have cleared := of_empty models.represents.clear positive
  have sameMap : LruMap.empty k.keyOf m.clear.capacity positive =
      map.clear := LruMap.ext sameCapacity rfl
  rwa [sameMap] at cleared

variable [DecidableEq K]

section

variable (models : Models k m map node chain)
include models

theorem find?_key (alive : m.Live position) :
    map.find? (k.key (node position).payload) = some (k.entryOf (node position).payload) := by
  rw [map.find?_eq_some_iff, models.mem_entries]
  exact ⟨⟨position, alive, rfl⟩, rfl⟩

/-- Scanning the chain of a key's slot finds the node of the key. -/
theorem find_spec (key : K) : ∃ found, m.scan k.hash (fun payload => k.key payload = key) m.scanFuel
          (m.head k.hash (k.slotFor key)) = some found ∧
      map.find? key = found.map (fun position => k.entryOf (node position).payload) ∧
      ∀ position, found = some position ->
        m.Live position ∧ k.key (node position).payload = key := by
  refine ⟨_, models.represents.scan_eq k.hash (k.slotFor key) _, ?_, ?_⟩
  · have chained := models.represents.chained k.hash
    cases found : (chain k.hash (k.slotFor key)).find? fun position =>
        decide (k.key (node position).payload = key) with
    | none =>
      rw [Option.map_none, map.find?_eq_none_iff]
      intro entry present isKey
      obtain ⟨position, alive, rfl⟩ := (models.mem_entries entry).mp present
      have onChain : position ∈ chain k.hash (k.slotFor key) := by
        rw [chained.mem_chain, models.keyed position alive, ← isKey]
        exact ⟨alive, rfl⟩
      have tested := find?_eq_none.mp found position onChain
      exact tested (decide_eq_true isKey)
    | some position =>
      have isKey : k.key (node position).payload = key := by simpa using find?_some found
      have alive := chained.live_of_mem (mem_of_find?_eq_some found)
      rw [← isKey, models.find?_key alive]
      rfl
  · intro position found
    have onChain := mem_of_find?_eq_some found
    refine ⟨(models.represents.chained k.hash).live_of_mem onChain, ?_⟩
    simpa using find?_some found

theorem map_erase (alive : m.Live target) :
    ((chain k.layout.time 0).erase target).map (fun position => k.entryOf (node position).payload) =
      (map.remove (k.key (node target).payload)).entries := by
  have nodup := ((models.represents.chained k.layout.time).threaded 0).nodup
  change _ = map.entries.filter _
  rw [models.entries, filter_map, nodup.erase_eq_filter]
  congr 1
  refine filter_congr ?_
  intro position present
  have aliveAt := (models.represents.mem_time_iff position).mp present
  by_cases isTarget : position = target
  · subst isTarget
    simp [Keying.key]
  · have otherKey : k.keyOf (k.entryOf (node position).payload) ≠
        k.key (node target).payload := fun sameKey =>
      isTarget (models.key_injective aliveAt alive sameKey)
    simp [isTarget, otherKey]

end

variable [DecidableEq κ]

section

variable (models : Models k m map node chain)
include models

theorem removeNode (alive : m.Live target) (judged : atStart = true ↔ target = m.bufferStartIndex) :
    ∃ m' node', m.removeNode k.layout target atStart = some m' ∧ Shrunk m m' ∧
      Models k m' (map.remove (k.key (node target).payload)) node'
        (fun kind slot => ((chain kind slot).erase target).map
          (redirect m.bufferStartIndex target)) ∧
      ∀ position, m.Live position -> position ≠ target ->
        (node' (redirect m.bufferStartIndex target position)).payload =
          (node position).payload := by
  obtain ⟨m', node', removed, shrunk, represents, payloads⟩ :=
    removeNode_spec models.represents alive judged
  have nodup := ((models.represents.chained k.layout.time).threaded 0).nodup
  have origin : ∀ position ∈ (chain k.layout.time 0).erase target,
      m.Live position ∧ position ≠ target := by
    intro position present
    refine ⟨(models.represents.mem_time_iff position).mp (mem_of_mem_erase present), ?_⟩
    rintro rfl
    exact nodup.not_mem_erase present
  refine ⟨m', node', removed, shrunk, ⟨represents, ?_, ?_, ?_⟩, payloads⟩
  · exact shrunk.capacity.trans models.capacity
  · rw [← models.map_erase alive, map_map]
    refine map_congr_left ?_
    intro position present
    obtain ⟨aliveAt, different⟩ := origin position present
    rw [Function.comp_apply, payloads position aliveAt different]
  · intro position aliveAt
    have onTime := (represents.mem_time_iff position).mpr aliveAt
    obtain ⟨old, present, rfl⟩ := mem_map.mp onTime
    obtain ⟨oldAlive, different⟩ := origin old present
    rw [payloads old oldAlive different]
    exact models.keyed old oldAlive

theorem moveToFront_time (alive : m.Live target) :
    ∃ m' node' chain', m.moveToFront k.layout k.layout.time target = some m' ∧ SameExtent m m' ∧
      Models k m' (map.put (k.entryOf (node target).payload)) node' chain' ∧
      (∀ position, (node' position).payload = (node position).payload) ∧
      (chain' k.layout.time 0).head? = some target := by
  obtain ⟨m', node', moved, same, represents, payloads⟩ :=
    moveToFront_spec models.represents alive k.layout.time
  refine ⟨m', node', _, moved, same, ⟨represents, ?_, ?_, ?_⟩, payloads, ?_⟩
  · exact same.capacity.trans models.capacity
  · have front : k.layout.slotOf k.layout.time (node target).payload = 0 := k.layout.slotOf_time _
    simp only [front, and_self, if_true, map_cons, payloads]
    rw [models.map_erase alive]
    change _ :: map.others _ = _
    congr 1
    have isSome := congrArg Option.isSome (models.find?_key alive)
    unfold LruMap.others
    rw [if_pos (by simpa [Keying.key] using isSome)]
    rfl
  · intro position aliveAt
    rw [payloads]
    exact models.keyed position ((same.live position).mp aliveAt)
  · simp [k.layout.slotOf_time]

omit [DecidableEq K] in
theorem moveToFront_other (alive : m.Live target) (notTime : kind ≠ k.layout.time) :
    ∃ m' node' chain', m.moveToFront k.layout kind target = some m' ∧ SameExtent m m' ∧
      Models k m' map node' chain' ∧
      (∀ position, (node' position).payload = (node position).payload) ∧
      chain' k.layout.time 0 = chain k.layout.time 0 := by
  obtain ⟨m', node', moved, same, represents, payloads⟩ :=
    moveToFront_spec models.represents alive kind
  refine ⟨m', node', _, moved, same, ⟨represents, ?_, ?_, ?_⟩, payloads, ?_⟩
  · exact same.capacity.trans models.capacity
  · simp only [Ne.symm notTime, false_and, if_false, payloads]
    exact models.entries
  · intro position aliveAt
    rw [payloads]
    exact models.keyed position ((same.live position).mp aliveAt)
  · simp [Ne.symm notTime]

end

omit [DecidableEq κ] in
theorem store_front (models : Models k m (map.put entry) node chain)
    (front : (chain k.layout.time 0).head? = some target) (change : P -> P)
    (sameSlots : ∀ kind payload,
      k.layout.slotOf kind (change payload) = k.layout.slotOf kind payload)
    (sameKey : k.key (change (node target).payload) = k.keyOf entry) :
    ∃ m' node', m.modifyNode target (fun n => { n with payload := change n.payload }) = some m' ∧
      SameExtent m m' ∧
      Models k m' (map.put (k.entryOf (change (node target).payload))) node' chain ∧
      ∀ position, (node' position).payload =
        if position = target then change (node position).payload
        else (node position).payload := by
  have alive : m.Live target :=
    (models.represents.mem_time_iff target).mp (mem_of_mem_head? front)
  obtain ⟨m', node', modified, same, represents, payloads⟩ :=
    modifyPayload_spec models.represents alive change sameSlots
  obtain ⟨rest, split⟩ := head?_eq_some_iff.mp front
  have entries := models.entries
  rw [split, map_cons] at entries
  obtain ⟨isEntry, others⟩ := cons_eq_cons.mp entries
  have nodup := ((models.represents.chained k.layout.time).threaded 0).nodup
  rw [split] at nodup
  refine ⟨m', node', modified, same, ⟨represents, ?_, ?_, ?_⟩, payloads⟩
  · exact same.capacity.trans models.capacity
  · rw [split, map_cons, payloads, if_pos rfl]
    change _ :: map.others (k.key (change (node target).payload)) = _
    rw [sameKey, others]
    congr 1
    refine map_congr_left ?_
    intro position present
    have different : position ≠ target := by
      rintro rfl
      exact (nodup_cons.mp nodup).1 present
    rw [payloads, if_neg different]
  · intro position aliveAt
    have keyed := models.keyed position ((same.live position).mp aliveAt)
    rw [payloads]
    by_cases isTarget : position = target
    · subst isTarget
      rw [if_pos rfl, sameSlots, keyed, sameKey, isEntry]
      rfl
    · rw [if_neg isTarget]
      exact keyed

/-- The most recent node stores a new payload. -/
def Refreshed (k : Keying κ P E K) (map : LruMap k.keyOf) (target : Int) (payload : P)
    (m : RingLru κ P) : Prop :=
  ∃ node chain, Models k m (map.put (k.entryOf payload)) node chain ∧
    m.getNode target = some (node target) ∧ (node target).payload = payload

/-- Storing a new value in a node and moving the node to the front. -/
theorem refresh (models : Models k m map node chain) (alive : m.Live target) (change : P -> P)
    (sameSlots : ∀ kind payload,
      k.layout.slotOf kind (change payload) = k.layout.slotOf kind payload)
    (sameKey : ∀ payload, k.key (change payload) = k.key payload) :
    ∃ m', (m.moveToFront k.layout k.layout.time target).bind (fun m =>
        m.modifyNode target fun n => { n with payload := change n.payload }) = some m' ∧
      Refreshed k map target (change (node target).payload) m' := by
  obtain ⟨m₁, node₁, chain₁, moved, same₁, models₁, payloads₁, front⟩ :=
    models.moveToFront_time alive
  obtain ⟨m₂, node₂, stored, same₂, models₂, payloads₂⟩ := models₁.store_front front change
    sameSlots (by rw [payloads₁, sameKey]; rfl)
  have aliveAfter := (same₂.live target).mpr ((same₁.live target).mpr alive)
  rw [payloads₁] at models₂
  refine ⟨m₂, ?_, node₂, chain₁, models₂, models₂.represents.reads target aliveAfter, ?_⟩
  · rw [moved]
    exact stored
  · rw [payloads₂, if_pos rfl, payloads₁]

omit [DecidableEq κ] in
/-- `Get` of the three maps: the value that the key finds, which is put in front
unless the call peeks. -/
theorem get_spec {V : Type} (valueOf : E -> V)
    (update : RingLru κ P -> Int -> V -> Option (RingLru κ P))
    (models : Models k m map node chain)
    (sameEntry : map.find? key = found.map fun position => k.entryOf (node position).payload)
    (isLive : ∀ position, found = some position -> m.Live position ∧
      k.key (node position).payload = key)
    (updates : ∀ position, m.Live position -> ∃ m',
      update m position (valueOf (k.entryOf (node position).payload)) = some m' ∧
      Refreshed k map position (node position).payload m')
    (peek : Bool) :
    ∃ m', (match found with
        | some position => do
            let n ← m.getNode position
            let m ← if peek then some m else update m position (valueOf (k.entryOf n.payload))
            let n ← m.getNode position
            some (m, some (valueOf (k.entryOf n.payload)))
        | none => some (m, none)) = some (m', (map.find? key).map valueOf) ∧
      ∃ node' chain', Models k m'
        ((map.find? key).elim map fun entry => if peek then map else map.put entry)
        node' chain' := by
  rw [sameEntry]
  cases found with
  | none => exact ⟨m, rfl, node, chain, models⟩
  | some position =>
    obtain ⟨alive, -⟩ := isLive position rfl
    have readable := models.represents.reads position alive
    cases peek with
    | true => exact ⟨m, by simp [readable], node, chain, models⟩
    | false =>
      obtain ⟨m', updated, node', chain', models', readable', isPayload⟩ := updates position alive
      exact ⟨m', by simp [readable, updated, readable', isPayload], node', chain', models'⟩

variable (models : Models k m map node chain)
include models

theorem insertNode (room : m.size < m.capacity)
    (exact : m.IncExact m.bufferEndIndex) (absent : map.find? (k.key payload) = none)
    (slot : k.layout.slotOf k.hash payload = k.slotFor (k.key payload)) :
    ∃ m' node' chain', m.insertNode k.layout payload = some m' ∧ Grown m m' ∧
      Models k m' (map.put (k.entryOf payload)) node' chain' := by
  obtain ⟨m', node', inserted, grown, _, represents, fresh, payloads⟩ :=
    insertNode_spec models.represents room payload
  have spans := models.represents.spans
  refine ⟨m', node', _, inserted, grown, ⟨represents exact, ?_, ?_, ?_⟩⟩
  · exact grown.capacity.trans models.capacity
  · have size := models.size_eq
    have capacity := models.capacity
    rw [LruMap.entries_put_of_room absent (by omega), models.entries,
      k.layout.slotOf_time, if_pos rfl, map_cons, fresh]
    congr 1
    refine map_congr_left ?_
    intro position present
    rw [payloads position ((models.represents.mem_time_iff position).mp present)]
  · intro position aliveAt
    rcases (grown.live spans room position).mp aliveAt with old | isEnd
    · rw [payloads position old]
      exact models.keyed position old
    · rw [isEnd, fresh]
      exact slot

omit [DecidableEq κ] in
theorem entries_remove_last {tail : Int} (isTail : (chain k.layout.time 0).getLast? = some tail) :
    (map.remove (k.key (node tail).payload)).entries = map.entries.dropLast := by
  have alive : m.Live tail :=
    (models.represents.mem_time_iff tail).mp (mem_of_mem_getLast? isTail)
  have nodup := ((models.represents.chained k.layout.time).threaded 0).nodup
  obtain ⟨front, split⟩ := getLast?_eq_some_iff.mp isTail
  have outside : tail ∉ front := by
    rw [split] at nodup
    intro present
    exact (nodup_append.mp nodup).2.2 tail present tail (mem_singleton.mpr rfl) rfl
  rw [← models.map_erase alive, models.entries, split, erase_append_right _ outside]
  simp

omit [DecidableEq κ] [DecidableEq K] in
theorem live_tail {tail : Int} (isTail : m.timeListTail = some tail) : m.Live tail := by
  have tailEq := (models.represents.chained k.layout.time).tail_eq rfl
  rw [isTail] at tailEq
  exact (models.represents.mem_time_iff tail).mp (mem_of_mem_getLast? tailEq.symm)

/-- A new key is put in front, and if the ring is full, the least recently
used node goes. -/
theorem newNode (exact : m.IncExact m.bufferEndIndex)
    (remove : RingLru κ P -> Int -> Option (RingLru κ P))
    (removes : ∀ tail, m.timeListTail = some tail -> (m.capacity : Int) ≤ m.size ->
      ∃ atStart, remove m tail = m.removeNode k.layout tail atStart ∧
        (atStart = true ↔ tail = m.bufferStartIndex))
    (payload : P) (absent : map.find? (k.key payload) = none)
    (slot : k.layout.slotOf k.hash payload = k.slotFor (k.key payload)) :
    ∃ m' node' chain', m.newNode k.layout remove payload = some m' ∧
      Models k m' (map.put (k.entryOf payload)) node' chain' := by
  unfold RingLru.newNode
  split_ifs with full
  · have tailEq := (models.represents.chained k.layout.time).tail_eq rfl
    have nonempty : chain k.layout.time 0 ≠ [] := by
      intro isEmpty
      have size := models.represents.length_time
      have positive := map.positive
      rw [← models.capacity] at positive
      rw [isEmpty, length_nil] at size
      omega
    obtain ⟨tail, isTail⟩ : ∃ tail, (chain k.layout.time 0).getLast? = some tail :=
      ⟨_, getLast?_eq_some_getLast nonempty⟩
    rw [isTail] at tailEq
    obtain ⟨atStart, isRemove, judged⟩ := removes tail tailEq full
    obtain ⟨m₁, node₁, removed, shrunk, models₁, _⟩ :=
      models.removeNode (models.live_tail tailEq) judged
    have sameInc : ∀ index, m₁.incIndex index = m.incIndex index := by
      intro index
      unfold incIndex
      rw [shrunk.rows]
    have exact₁ : m₁.IncExact m₁.bufferEndIndex := by
      unfold IncExact at exact ⊢
      rw [sameInc, shrunk.finish, shrunk.rows, exact]
    have room₁ : m₁.size < m₁.capacity := by
      have := models.represents.spans.size_le
      rw [shrunk.size, shrunk.capacity]
      omega
    have absent₁ : (map.remove (k.key (node tail).payload)).find? (k.key payload) = none := by
      rw [LruMap.find?_eq_none_iff] at absent ⊢
      intro entry present
      exact absent entry (mem_of_mem_filter present)
    obtain ⟨m₂, node₂, chain₂, inserted, _, models₂⟩ := models₁.insertNode room₁ exact₁ absent₁ slot
    refine ⟨m₂, node₂, chain₂, ?_, ?_⟩
    · rw [tailEq]
      simp only [isRemove, removed, some_bind]
      exact inserted
    · have isFull : map.capacity ≤ map.entries.length := by
        have size := models.size_eq
        have capacity := models.capacity
        omega
      have sameMap : (map.remove (k.key (node tail).payload)).put
          (k.entryOf payload) = map.put (k.entryOf payload) := by
        refine LruMap.put_of_full ?_ (models.entries_remove_last isTail) isFull absent
        rfl
      rw [← sameMap]
      exact models₂
  · rw [some_bind]
    obtain ⟨m', node', chain', inserted, _, models'⟩ :=
      models.insertNode (by omega) exact absent slot
    exact ⟨m', node', chain', inserted, models'⟩

end Models

end Metaflow.Hmap.Lru
