import Metaflow.Hmap.Lru.U64Lru

/-!
# `U128LRU`

`u128_lru.go`: every node stores its slot and the position it was inserted at,
which `removeNode` relies on and a moved node keeps. The map refines the
abstract LRU map as long as that position is right where it is used.
-/

namespace Metaflow.Hmap.Lru

open Library

/-- What a node of `U128LRU` stores. -/
structure U128LRUNode (V : Type) where
  key0 : UInt64
  key1 : UInt64
  value : V
  hash : Int
  index : Int

/-- An LRU map with 128-bit keys. -/
abbrev U128LRU (V : Type) := RingLru ListKind (U128LRUNode V)

namespace U128LRU

variable {V : Type} [Inhabited V]

/-- The lists of the map: hash chains by the stored slot, and the time
list. -/
def layout : Layout ListKind (U128LRUNode V) where
  kinds := [.hash, .time]
  time := .time
  slotOf
    | .hash, node => node.hash
    | .time, _ => 0
  blank :=
    { payload :=
        { key0 := 0, key1 := 0, value := default, hash := 0, index := 0 }
      next := fun _ => none
      prev := fun _ => none }
  kinds_nodup := ListKind.nodup_kinds
  kinds_complete := ListKind.mem_kinds
  slotOf_time _ := rfl

/-- The test for the first node of the ring reads the stored position. -/
def removeNode (m : U128LRU V) (node : Int) : Option (U128LRU V) := do
  let n ← m.getNode node
  RingLru.removeNode layout m node (n.payload.index = m.bufferStartIndex)

def updateNode (m : U128LRU V) (node : Int) (value : V) : Option (U128LRU V) := do
  let m ← RingLru.moveToFront layout m .time node
  let m ← RingLru.moveToFront layout m .hash node
  m.modifyNode node fun n =>
    { n with payload := { n.payload with value := value } }

def newNode (m : U128LRU V) (key0 key1 : UInt64) (value : V) (hash : Int) : Option (U128LRU V) :=
  RingLru.newNode layout m removeNode
    { key0 := key0
      key1 := key1
      value := value
      hash := hash
      index := m.bufferEndIndex }

section Refinement

variable (jenkins128 : UInt64 -> UInt64 -> BitVec 32) (hashSlots : Int)

section

variable (m : U128LRU V) (key0 key1 : UInt64)

def compressHash : Int :=
  hashSlot (jenkins128 key0 key1) (minPowerOfTwo hashSlots).1

/-- The node of a key, by following the chain of its slot. -/
def find : Option (Option Int) :=
  m.scan .hash (fun node => node.key0 = key0 ∧ node.key1 = key1) m.scanFuel
    (m.head .hash (compressHash jenkins128 hashSlots key0 key1))

def add (value : V) : Option (U128LRU V) := do
  match ← find jenkins128 hashSlots m key0 key1 with
  | some node => updateNode m node value
  | none => newNode m key0 key1 value (compressHash jenkins128 hashSlots key0 key1)

def remove : Option (U128LRU V) := do
  match ← find jenkins128 hashSlots m key0 key1 with
  | some node => removeNode m node
  | none => some m

def get (peek : Bool) : Option (U128LRU V × Option V) := do
  match ← find jenkins128 hashSlots m key0 key1 with
  | some node => do
      let n ← m.getNode node
      let m ← if peek then some m else updateNode m node n.payload.value
      let n ← m.getNode node
      some (m, some n.payload.value)
  | none => some (m, none)

/-- The keys and values that `Walk` hands to its callback, in order. -/
def walk : Option (List ((UInt64 × UInt64) × V)) :=
  (m.collect .time m.scanFuel (m.head .time 0)).map fun nodes =>
    nodes.map fun node => ((node.key0, node.key1), node.value)

/-- One call of a method. -/
def step : LruMap.Op (UInt64 × UInt64) V -> Option (U128LRU V × LruMap.Answer (UInt64 × UInt64) V)
  | .add key value => (add jenkins128 hashSlots m key.1 key.2 value).map fun m => (m, .done)
  | .get key peek =>
    (get jenkins128 hashSlots m key.1 key.2 peek).map fun (m, value) =>
      (m, .found value)
  | .remove key => (remove jenkins128 hashSlots m key.1 key.2).map fun m => (m, .done)
  | .clear => some (m.clear, .done)
  | .walk => (walk m).map fun entries => (m, .pairs entries)
  | .size => some (m, .count m.size)

/-- How nodes stand for entries. -/
abbrev keying : Keying ListKind (U128LRUNode V) ((UInt64 × UInt64) × V) (UInt64 × UInt64) where
  layout := layout
  hash := .hash
  entryOf node := ((node.key0, node.key1), node.value)
  keyOf := Prod.fst
  slotFor key := compressHash jenkins128 hashSlots key.1 key.2

/-- The ring represents the abstract map. -/
def Refines (map : LruMap (Prod.fst : (UInt64 × UInt64) × V -> UInt64 × UInt64)) : Prop :=
  ∃ node chain, Models (keying jenkins128 hashSlots) m map node chain

/-- The position stored in a node tells rightly whether the node is the first
of the ring. -/
def IndexRight (position : Int) : Prop :=
  ∀ node, m.getNode position = some node ->
    (node.payload.index = m.bufferStartIndex ↔ position = m.bufferStartIndex)

/-- A removal finds a right position in its node, and a new key does not
overflow the positions. -/
def StepAllowed : LruMap.Op (UInt64 × UInt64) V -> Prop
  | .add key _ =>
    find jenkins128 hashSlots m key.1 key.2 = some none ->
      m.Fits ∧ ((m.capacity : Int) ≤ m.size ->
        ∀ tail, m.timeListTail = some tail -> IndexRight m tail)
  | .remove key =>
    ∀ node, find jenkins128 hashSlots m key.1 key.2 = some (some node) -> IndexRight m node
  | _ => True

end

instance (m : U128LRU V) (position : Int) : Decidable (IndexRight m position) :=
  match readable : m.getNode position with
  | none => isTrue fun node isNode => by simp [readable] at isNode
  | some node =>
    decidable_of_iff (node.payload.index = m.bufferStartIndex ↔ position = m.bufferStartIndex)
      (by simp [IndexRight, readable])

instance (m : U128LRU V) (operation : LruMap.Op (UInt64 × UInt64) V) :
    Decidable (StepAllowed jenkins128 hashSlots m operation) :=
  match operation with
  | .add key _ =>
    haveI : Decidable (∀ tail, m.timeListTail = some tail -> IndexRight m tail) :=
      match isTail : m.timeListTail with
      | none => isTrue (by simp)
      | some tail => decidable_of_iff (IndexRight m tail) (by simp)
    inferInstanceAs (Decidable (_ -> _ ∧ (_ -> _)))
  | .remove key =>
    match found : find jenkins128 hashSlots m key.1 key.2 with
    | some (some node) => decidable_of_iff (IndexRight m node) (by simp [StepAllowed, found])
    | some none => isTrue (by simp [StepAllowed, found])
    | none => isTrue (by simp [StepAllowed, found])
  | .get _ _ | .clear | .walk | .size => isTrue trivial

variable {jenkins128 hashSlots}
variable {m : U128LRU V}
variable {map : LruMap (Prod.fst : (UInt64 × UInt64) × V -> UInt64 × UInt64)}
variable {node : Int -> Node ListKind (U128LRUNode V)}
variable {chain : ListKind -> Int -> List Int}

section

variable (models : Models (keying jenkins128 hashSlots) m map node chain)
include models

theorem find_spec (key : UInt64 × UInt64) :
    ∃ found, find jenkins128 hashSlots m key.1 key.2 = some found ∧
      map.find? key = found.map (fun position =>
        (keying jenkins128 hashSlots).entryOf (node position).payload) ∧
      ∀ position, found = some position -> m.Live position ∧
        ((node position).payload.key0, (node position).payload.key1) =
          key := by
  obtain ⟨found, finds, sameEntry, isLive⟩ := models.find_spec key
  refine ⟨found, ?_, sameEntry, isLive⟩
  rw [← finds, find]
  have sameTest : (fun node : U128LRUNode V =>
      decide (node.key0 = key.1 ∧ node.key1 = key.2)) =
      fun node => decide ((keying jenkins128 hashSlots).key node = key) := by
    funext node
    have sameKey : (node.key0, node.key1) = key ↔
        node.key0 = key.1 ∧ node.key1 = key.2 := Prod.ext_iff
    exact decide_eq_decide.mpr sameKey.symm
  rw [sameTest]

theorem updateNode_spec (alive : m.Live position) (value : V) :
    ∃ m', updateNode m position value = some m' ∧
      Models.Refreshed (keying jenkins128 hashSlots) map position
        { (node position).payload with value := value } m' := by
  obtain ⟨m₁, node₁, chain₁, moved₁, same₁, models₁, payloads₁, front₁⟩ :=
    models.moveToFront_time alive
  have alive₁ := (same₁.live position).mpr alive
  obtain ⟨m₂, node₂, chain₂, moved₂, same₂, models₂, payloads₂, time₂⟩ :=
    models₁.moveToFront_other alive₁ (show ListKind.hash ≠ ListKind.time by decide)
  have payload₂ : (node₂ position).payload = (node position).payload :=
    (payloads₂ position).trans (payloads₁ position)
  obtain ⟨m₃, node₃, stored, same₃, models₃, payloads₃⟩ :=
    models₂.store_front (time₂.symm ▸ front₁) (fun node => { node with value := value })
      (fun kind _ => by cases kind <;> rfl) (by rw [payload₂]; rfl)
  have alive₃ := (same₃.live position).mpr ((same₂.live position).mpr alive₁)
  rw [payload₂] at models₃
  refine ⟨m₃, ?_, node₃, chain₂, models₃, models₃.represents.reads position alive₃, ?_⟩
  · rw [updateNode, show RingLru.moveToFront layout m .time position = some m₁ from moved₁,
      some_bind, show RingLru.moveToFront layout m₁ .hash position = some m₂ from moved₂]
    exact stored
  · rw [payloads₃, if_pos rfl, payload₂]

theorem removeNode_eq (alive : m.Live position) (right : IndexRight m position) :
    ∃ atStart, removeNode m position = RingLru.removeNode layout m position atStart ∧
      (atStart = true ↔ position = m.bufferStartIndex) := by
  have readable := models.represents.reads position alive
  refine ⟨decide ((node position).payload.index = m.bufferStartIndex), ?_, ?_⟩
  · rw [removeNode, readable]
    rfl
  · rw [decide_eq_true_iff]
    exact right (node position) readable

end

section

variable (refines : Refines jenkins128 hashSlots m map)
include refines

variable (key : UInt64 × UInt64)

theorem add_refines (value : V) (allowed : StepAllowed jenkins128 hashSlots m (.add key value)) :
    ∃ m', add jenkins128 hashSlots m key.1 key.2 value = some m' ∧
      Refines jenkins128 hashSlots m' (map.put (key, value)) := by
  obtain ⟨node, chain, models⟩ := refines
  obtain ⟨found, finds, sameEntry, isLive⟩ := find_spec models key
  unfold add
  rw [finds, some_bind]
  cases found with
  | some position =>
    obtain ⟨alive, isKey⟩ := isLive position rfl
    obtain ⟨m', updated, node', chain', models', -⟩ := updateNode_spec models alive value
    obtain rfl := isKey
    exact ⟨m', updated, node', chain', models'⟩
  | none =>
    obtain ⟨fits, right⟩ := allowed finds
    have exact := models.represents.spans.incExact fits
    have removes : ∀ tail, m.timeListTail = some tail -> (m.capacity : Int) ≤ m.size ->
        ∃ atStart, removeNode m tail = RingLru.removeNode layout m tail atStart ∧
          (atStart = true ↔ tail = m.bufferStartIndex) := by
      intro tail isTail full
      have alive := models.live_tail isTail
      exact removeNode_eq models alive (right full tail isTail)
    obtain ⟨m', node', chain', inserted, models'⟩ :=
      models.newNode exact removeNode removes
        { key0 := key.1
          key1 := key.2
          value := value
          hash := compressHash jenkins128 hashSlots key.1 key.2
          index := m.bufferEndIndex } sameEntry rfl
    exact ⟨m', inserted, node', chain', models'⟩

theorem remove_refines (allowed : StepAllowed jenkins128 hashSlots m (.remove key)) :
    ∃ m', remove jenkins128 hashSlots m key.1 key.2 = some m' ∧
      Refines jenkins128 hashSlots m' (map.remove key) := by
  obtain ⟨node, chain, models⟩ := refines
  obtain ⟨found, finds, sameEntry, isLive⟩ := find_spec models key
  unfold remove
  rw [finds, some_bind]
  cases found with
  | some position =>
    obtain ⟨alive, isKey⟩ := isLive position rfl
    obtain ⟨atStart, sameRemove, judged⟩ := removeNode_eq models alive (allowed position finds)
    obtain ⟨m', node', removed, _, models', _⟩ := models.removeNode alive judged
    have isKey : (keying jenkins128 hashSlots).key (node position).payload = key := isKey
    rw [isKey] at models'
    exact ⟨m', sameRemove.trans removed, node', _, models'⟩
  | none =>
    refine ⟨m, rfl, node, chain, ?_⟩
    rw [map.remove_of_find?_eq_none sameEntry]
    exact models

/-- `Get` answers what the key finds and puts it in front unless it peeks. -/
theorem get_refines (peek : Bool) :
    ∃ m', get jenkins128 hashSlots m key.1 key.2 peek = some (m', (map.find? key).map Prod.snd) ∧
      Refines jenkins128 hashSlots m'
        ((map.find? key).elim map fun entry => if peek then map else map.put entry) := by
  obtain ⟨node, chain, models⟩ := refines
  obtain ⟨found, finds, sameEntry, isLive⟩ := find_spec models key
  rw [get, finds]
  exact models.get_spec Prod.snd updateNode sameEntry isLive
    (fun _ alive => updateNode_spec models alive _) peek

theorem walk_eq : walk m = some map.entries := by
  obtain ⟨node, chain, models⟩ := refines
  rw [← models.collect_time]
  rfl

theorem step_refines (operation : LruMap.Op (UInt64 × UInt64) V)
    (allowed : StepAllowed jenkins128 hashSlots m operation) :
    ∃ m', step jenkins128 hashSlots m operation = some (m', (map.step operation).2) ∧
      Refines jenkins128 hashSlots m' (map.step operation).1 := by
  cases operation with
  | add key value =>
    obtain ⟨m', added, refines'⟩ := add_refines refines key value allowed
    exact ⟨m', by simp [step, added, LruMap.step], refines'⟩
  | get key peek =>
    obtain ⟨m', got, refines'⟩ := get_refines refines key peek
    rw [LruMap.step_get]
    exact ⟨m', by rw [step, got]; rfl, refines'⟩
  | remove key =>
    obtain ⟨m', removed, refines'⟩ := remove_refines refines key allowed
    exact ⟨m', by simp [step, removed, LruMap.step], refines'⟩
  | clear =>
    obtain ⟨node, chain, models⟩ := refines
    exact ⟨m.clear, rfl, node, _, models.clear⟩
  | walk => exact ⟨m, by simp [step, walk_eq refines, LruMap.step], refines⟩
  | size =>
    refine ⟨m, ?_, refines⟩
    obtain ⟨node, chain, models⟩ := refines
    simp only [step, LruMap.step, models.size_eq]

end

/-- Every run on a new `U128LRU` answers as the abstract LRU map does, as long
as stored positions are right where nodes are removed and no insertion reaches a
position outside `int32`. -/
theorem run_refines_lruMap_of_index (jenkins128 : UInt64 -> UInt64 -> BitVec 32)
    (hashSlots : Int) (capacity : Nat) (positive : 0 < capacity)
    (pool : Nat -> Int -> Node ListKind (U128LRUNode V))
    (operations : List (LruMap.Op (UInt64 × UInt64) V))
    (allowed : Guarded (StepAllowed jenkins128 hashSlots)
      (step jenkins128 hashSlots) (RingLru.new capacity pool) operations) :
    ∃ final,
      runSteps (step jenkins128 hashSlots) (RingLru.new capacity pool) operations =
        some (final, (runTotal LruMap.step
          (LruMap.empty Prod.fst capacity positive) operations).2) ∧
      walk final = some (runTotal LruMap.step
        (LruMap.empty Prod.fst capacity positive) operations).1.entries := by
  obtain ⟨final, ran, refines⟩ := simulates _ (Refines jenkins128 hashSlots)
    (fun _ _ operation refines allowed =>
      step_refines refines operation allowed)
    ⟨_, _, Models.new (keying jenkins128 hashSlots) capacity positive pool⟩
    operations allowed
  exact ⟨final, ran, walk_eq refines⟩

theorem run_refines_lruMap_of_index_two :
    ∃ final,
      runSteps (step (fun _ _ => 0) 1) (RingLru.new 2 fun _ _ => layout.blank)
          [.add (1, 0) 10, .add (2, 0) 20, .add (3, 0) 30, .get (2, 0) false,
            .remove (2, 0), .size] =
        some (final, [.done, .done, .done, .found (some 20), .done, .count 1]) ∧
      walk final = some [(((3 : UInt64), (0 : UInt64)), (30 : Nat))] :=
  run_refines_lruMap_of_index (fun _ _ => 0) 1 2 (by decide) _ _ (by decide)

end Refinement

/-- Removing the second of three keys moves the first, and removing the first
then reads the position where it was inserted. -/
def removeMoved : List (LruMap.Op (UInt64 × UInt64) Nat) :=
  [.add (1, 0) 10, .add (2, 0) 20, .add (3, 0) 30, .remove (2, 0), .remove (1, 0), .walk, .size]

/-- The removed node comes back blank: `Walk` visits two entries of a map
whose size is one. -/
theorem removeMoved_run_differs :
    ¬ ∃ final,
      runSteps (step (fun _ _ => 0) 1) (RingLru.new 3 fun _ _ => layout.blank) removeMoved =
        some (final, (runTotal LruMap.step
          (LruMap.empty Prod.fst 3 (by decide)) removeMoved).2) := by
  rintro ⟨final, ran⟩
  have answers : (runSteps (step (fun _ _ => 0) 1)
      (RingLru.new 3 fun _ _ => layout.blank) removeMoved).map Prod.snd =
      some [.done, .done, .done, .done, .done, .pairs [((3, 0), 30), ((0, 0), 0)], .count 1] := rfl
  rw [ran, Option.map_some] at answers
  have different : (runTotal LruMap.step (LruMap.empty Prod.fst 3 (by decide)) removeMoved).2 ≠
      [.done, .done, .done, .done, .done, .pairs [((3, 0), 30), ((0, 0), 0)], .count 1] := by decide
  exact different (Option.some.inj answers)

end U128LRU

end Metaflow.Hmap.Lru
