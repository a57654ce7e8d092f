import Metaflow.Hmap.Lru.Overflow

/-!
# `U64LRU`

The LRU map with 64-bit keys of `u64_lru.go`, and its refinement of the
abstract LRU map. The hash function, the requested number of hash slots and
the type of values are parameters.
-/

namespace Metaflow.Hmap.Lru

open Library

/-- The two lists a node is on. -/
inductive ListKind where
  | hash
  | time
  deriving DecidableEq

namespace ListKind

theorem nodup_kinds : [ListKind.hash, ListKind.time].Nodup := by decide

theorem mem_kinds (kind : ListKind) : kind ∈ [ListKind.hash, ListKind.time] := by
  cases kind <;> decide

end ListKind

/-- What a node of `U64LRU` stores. -/
structure U64LRUNode (V : Type) where
  key : UInt64
  value : V

/-- An LRU map with 64-bit keys. -/
abbrev U64LRU (V : Type) := RingLru ListKind (U64LRUNode V)

namespace U64LRU

variable {V : Type} [Inhabited V]

section Refinement

variable (jenkins : UInt64 -> BitVec 32) (hashSlots : Int)

def compressHash (key : UInt64) : Int :=
  hashSlot (jenkins key) (minPowerOfTwo hashSlots).1

/-- The lists of the map: hash chains by key, and the time list. -/
def layout : Layout ListKind (U64LRUNode V) where
  kinds := [.hash, .time]
  time := .time
  slotOf
    | .hash, node => compressHash jenkins hashSlots node.key
    | .time, _ => 0
  blank :=
    { payload := { key := 0, value := default }
      next := fun _ => some 0
      prev := fun _ => some 0 }
  kinds_nodup := ListKind.nodup_kinds
  kinds_complete := ListKind.mem_kinds
  slotOf_time _ := rfl

def removeNode (m : U64LRU V) (nodeIndex : Int) : Option (U64LRU V) :=
  RingLru.removeNode (layout jenkins hashSlots) m nodeIndex (nodeIndex = m.bufferStartIndex)

section

variable (m : U64LRU V) (key : UInt64)

def updateNode (nodeIndex : Int) (value : V) : Option (U64LRU V) := do
  let m ← RingLru.moveToFront (layout jenkins hashSlots) m .time nodeIndex
  m.modifyNode nodeIndex fun node =>
    { node with payload := { node.payload with value := value } }

def newNode (m : U64LRU V) (key : UInt64) (value : V) : Option (U64LRU V) :=
  RingLru.newNode (layout jenkins hashSlots) m (removeNode jenkins hashSlots)
    { key := key, value := value }

/-- The position of a key, by following the chain of its slot. -/
def find : Option (Option Int) :=
  m.scan .hash (fun node => node.key = key) m.scanFuel
    (m.head .hash (compressHash jenkins hashSlots key))

def add (value : V) : Option (U64LRU V) := do
  match ← find jenkins hashSlots m key with
  | some hashIndex => updateNode jenkins hashSlots m hashIndex value
  | none => newNode jenkins hashSlots m key value

def remove : Option (U64LRU V) := do
  match ← find jenkins hashSlots m key with
  | some hashListNext => removeNode jenkins hashSlots m hashListNext
  | none => some m

def get (peek : Bool) : Option (U64LRU V × Option V) := do
  match ← find jenkins hashSlots m key with
  | some hashIndex => do
      let node ← m.getNode hashIndex
      let m ←
        if peek then some m
        else updateNode jenkins hashSlots m hashIndex node.payload.value
      let node ← m.getNode hashIndex
      some (m, some node.payload.value)
  | none => some (m, none)

/-- The keys and values that `Walk` hands to its callback, in order. -/
def walk : Option (List (UInt64 × V)) :=
  (m.collect .time m.scanFuel (m.head .time 0)).map fun nodes =>
    nodes.map fun node => (node.key, node.value)

/-- One call of a method. -/
def step : LruMap.Op UInt64 V -> Option (U64LRU V × LruMap.Answer UInt64 V)
  | .add key value => (add jenkins hashSlots m key value).map fun m => (m, .done)
  | .get key peek =>
    (get jenkins hashSlots m key peek).map fun (m, value) =>
      (m, .found value)
  | .remove key => (remove jenkins hashSlots m key).map fun m => (m, .done)
  | .clear => some (m.clear, .done)
  | .walk => (walk m).map fun entries => (m, .pairs entries)
  | .size => some (m, .count m.size)

/-- How nodes stand for entries. -/
abbrev keying : Keying ListKind (U64LRUNode V) (UInt64 × V) UInt64 where
  layout := layout jenkins hashSlots
  hash := .hash
  entryOf node := (node.key, node.value)
  keyOf := Prod.fst
  slotFor := compressHash jenkins hashSlots

/-- The ring represents the abstract map. -/
def Refines (map : LruMap (Prod.fst : UInt64 × V -> UInt64)) : Prop :=
  ∃ node chain, Models (keying jenkins hashSlots) m map node chain

/-- Inserting a new key does not overflow the positions. -/
def InsertFits : LruMap.Op UInt64 V -> Prop
  | .add key _ => find jenkins hashSlots m key = some none -> m.Fits
  | _ => True

end

variable {jenkins hashSlots}
variable {m : U64LRU V} {map : LruMap (Prod.fst : UInt64 × V -> UInt64)}
theorem updateNode_spec (models : Models (keying jenkins hashSlots) m map node chain)
    (alive : m.Live nodeIndex) (value : V) :
    ∃ m', updateNode jenkins hashSlots m nodeIndex value = some m' ∧
      Models.Refreshed (keying jenkins hashSlots) map nodeIndex
        { (node nodeIndex).payload with value := value } m' :=
  models.refresh alive (fun node => { node with value := value })
    (fun kind _ => by cases kind <;> rfl) fun _ => rfl

section

variable (refines : Refines jenkins hashSlots m map)
include refines

variable (key : UInt64)

theorem add_refines (value : V) (fits : InsertFits jenkins hashSlots m (.add key value)) :
    ∃ m', add jenkins hashSlots m key value = some m' ∧
      Refines jenkins hashSlots m' (map.put (key, value)) := by
  obtain ⟨node, chain, models⟩ := refines
  obtain ⟨found, finds, sameEntry, isLive⟩ := models.find_spec key
  have finds : find jenkins hashSlots m key = some found := finds
  cases found with
  | some hashIndex =>
    obtain ⟨alive, isKey⟩ := isLive hashIndex rfl
    obtain ⟨m', updated, node', chain', models', -⟩ := updateNode_spec models alive value
    obtain rfl := isKey
    refine ⟨m', ?_, node', chain', models'⟩
    rw [add, finds]
    exact updated
  | none =>
    have exact := models.represents.spans.incExact (fits finds)
    obtain ⟨m', node', chain', inserted, models'⟩ :=
      models.newNode exact (removeNode jenkins hashSlots)
        (fun tail _ _ => ⟨_, rfl, by simp⟩) { key := key, value := value }
        sameEntry rfl
    refine ⟨m', ?_, node', chain', models'⟩
    rw [add, finds]
    exact inserted

theorem remove_refines : ∃ m', remove jenkins hashSlots m key = some m' ∧
      Refines jenkins hashSlots m' (map.remove key) := by
  obtain ⟨node, chain, models⟩ := refines
  obtain ⟨found, finds, sameEntry, isLive⟩ := models.find_spec key
  have finds : find jenkins hashSlots m key = some found := finds
  unfold remove
  rw [finds, some_bind]
  cases found with
  | some hashListNext =>
    obtain ⟨alive, isKey⟩ := isLive hashListNext rfl
    obtain ⟨m', node', removed, _, models', _⟩ :=
      models.removeNode alive (show decide (hashListNext = m.bufferStartIndex) = true ↔ _ by simp)
    rw [isKey] at models'
    exact ⟨m', removed, node', _, models'⟩
  | none =>
    refine ⟨m, rfl, node, chain, ?_⟩
    rw [map.remove_of_find?_eq_none sameEntry]
    exact models

/-- `Get` answers what the key finds and puts it in front unless it peeks. -/
theorem get_refines (peek : Bool) :
    ∃ m', get jenkins hashSlots m key peek = some (m', (map.find? key).map Prod.snd) ∧
      Refines jenkins hashSlots m'
        ((map.find? key).elim map fun entry => if peek then map else map.put entry) := by
  obtain ⟨node, chain, models⟩ := refines
  obtain ⟨found, finds, sameEntry, isLive⟩ := models.find_spec key
  rw [get, show find jenkins hashSlots m key = some found from finds]
  exact models.get_spec Prod.snd (updateNode jenkins hashSlots) sameEntry isLive
    (fun _ alive => updateNode_spec models alive _) peek

theorem walk_eq : walk m = some map.entries := by
  obtain ⟨node, chain, models⟩ := refines
  rw [← models.collect_time]
  rfl

theorem clear_refines : Refines jenkins hashSlots m.clear map.clear := by
  obtain ⟨node, chain, models⟩ := refines
  exact ⟨node, _, models.clear⟩

end

theorem new_refines (capacity : Nat) (positive : 0 < capacity)
    (pool : Nat -> Int -> Node ListKind (U64LRUNode V)) :
    Refines jenkins hashSlots (RingLru.new capacity pool)
      (LruMap.empty Prod.fst capacity positive) :=
  ⟨_, _, Models.new (keying jenkins hashSlots) capacity positive pool⟩

theorem step_refines (refines : Refines jenkins hashSlots m map)
    (operation : LruMap.Op UInt64 V) (fits : InsertFits jenkins hashSlots m operation) :
    ∃ m', step jenkins hashSlots m operation = some (m', (map.step operation).2) ∧
      Refines jenkins hashSlots m' (map.step operation).1 := by
  cases operation with
  | add key value =>
    obtain ⟨m', added, refines'⟩ := add_refines refines key value fits
    exact ⟨m', by simp [step, added, LruMap.step], refines'⟩
  | get key peek =>
    obtain ⟨m', got, refines'⟩ := get_refines refines key peek
    rw [LruMap.step_get]
    exact ⟨m', by rw [step, got]; rfl, refines'⟩
  | remove key =>
    obtain ⟨m', removed, refines'⟩ := remove_refines refines key
    exact ⟨m', by simp [step, removed, LruMap.step], refines'⟩
  | clear => exact ⟨m.clear, rfl, clear_refines refines⟩
  | walk => exact ⟨m, by simp [step, walk_eq refines, LruMap.step], refines⟩
  | size =>
    refine ⟨m, ?_, refines⟩
    obtain ⟨node, chain, models⟩ := refines
    simp only [step, LruMap.step, models.size_eq]

/-- In a ring of fewer than `2 ^ 31` positions every insertion fits. -/
theorem insertFits_of_capacity (refines : Refines jenkins hashSlots m map)
    (few : ((map.capacity : Int) / 256 + 2) * 256 < 2147483648) (operation : LruMap.Op UInt64 V) :
    InsertFits jenkins hashSlots m operation := by
  obtain ⟨node, chain, models⟩ := refines
  have spans := models.represents.spans
  have fits : m.Fits := by
    apply spans.fits_of_rows
    rw [spans.rows_eq, models.capacity]
    exact few
  cases operation with
  | add key value => exact fun _ => fits
  | _ => trivial

theorem guarded_of_capacity (capacity : Nat) (positive : 0 < capacity)
    (few : ((capacity : Int) / 256 + 2) * 256 < 2147483648)
    (pool : Nat -> Int -> Node ListKind (U64LRUNode V)) (operations : List (LruMap.Op UInt64 V)) :
    Guarded (InsertFits jenkins hashSlots) (step jenkins hashSlots)
      (RingLru.new capacity pool) operations := by
  refine Guarded.of_related LruMap.step
    (fun m map => Refines jenkins hashSlots m map ∧ map.capacity = capacity)
    ?_ ?_ ⟨new_refines capacity positive pool, rfl⟩ operations
  · rintro m map operation ⟨refines, sameCapacity⟩ fits
    obtain ⟨m', stepped, refines'⟩ := step_refines refines operation fits
    exact ⟨m', stepped, refines', (map.capacity_step operation).trans sameCapacity⟩
  · rintro m map operation ⟨refines, sameCapacity⟩
    refine insertFits_of_capacity refines ?_ operation
    rw [sameCapacity]
    exact few

/-- Every run on a new `U64LRU` answers as the abstract LRU map does, as long as
no insertion reaches a position outside `int32`. -/
theorem run_refines_lruMap (jenkins : UInt64 -> BitVec 32) (hashSlots : Int) (capacity : Nat)
    (positive : 0 < capacity) (pool : Nat -> Int -> Node ListKind (U64LRUNode V))
    (operations : List (LruMap.Op UInt64 V))
    (fits : Guarded (InsertFits jenkins hashSlots) (step jenkins hashSlots)
      (RingLru.new capacity pool) operations) :
    ∃ final,
      runSteps (step jenkins hashSlots) (RingLru.new capacity pool) operations =
        some (final, (runTotal LruMap.step
          (LruMap.empty Prod.fst capacity positive) operations).2) ∧
      walk final = some (runTotal LruMap.step
        (LruMap.empty Prod.fst capacity positive) operations).1.entries := by
  obtain ⟨final, ran, refines⟩ := simulates _ (Refines jenkins hashSlots)
    (fun _ _ operation refines fits => step_refines refines operation fits)
    (new_refines capacity positive pool) operations fits
  exact ⟨final, ran, walk_eq refines⟩

theorem run_refines_lruMap_two :
    ∃ final,
      runSteps (step (fun _ => 0) 1) (RingLru.new 2 fun _ _ => (layout (fun _ => 0) 1).blank)
          [.add 1 10, .add 2 20, .get 1 false, .add 3 30, .remove 2, .size] =
        some (final, [.done, .done, .found (some 10), .done, .done, .count 2]) ∧
      walk final = some [((3 : UInt64), (30 : Nat)), (1, 10)] :=
  run_refines_lruMap (fun _ => 0) 1 2 (by decide) _ _
    (guarded_of_capacity 2 (by decide) (by decide) _ _)

end Refinement

/-- `Add` of the keys below `count`, in order. -/
def addsBelow (count : Nat) : List (LruMap.Op UInt64 Unit) :=
  (List.range count).map fun key => .add (UInt64.ofNat key) ()

/-- Blocks fresh from `make`. -/
def freshPool : Nat -> Int -> Node ListKind (U64LRUNode Unit) :=
  fun _ _ => (layout (fun _ => 0) 0).blank

/-- With room for more than `2 ^ 31` entries, `2 ^ 31 + 1` additions of
different keys do not end, while the abstract map answers them all. -/
theorem overflow_run_differs :
    ¬ ∃ final,
      runSteps (step lastApart 2) (RingLru.new 2147483649 freshPool) (addsBelow 2147483649) =
        some (final, (runTotal LruMap.step (LruMap.empty Prod.fst 2147483649 (by decide))
          (addsBelow 2147483649)).2) := by
  rintro ⟨final, ran⟩
  have panics := run_adds_eq_none (k := keying lastApart 2) UInt64.toNat freshPool
    (removeNode lastApart 2) (fun key => { key := UInt64.ofNat key, value := () })
    (step lastApart 2) (fun key => .add (UInt64.ofNat key) ()) .done
    (fun _ few => toNat_ofNat_of_lt few) (fun _ => rfl)
    (fun m key finds => by
      rw [step, add, show find lastApart 2 m (UInt64.ofNat key) = some none from finds]
      rfl)
    (fun _ small => hashSlot_lastApart_ne_one small) (hashSlot_lastApart _)
  exact absurd (panics.symm.trans ran) (by simp)

end U64LRU

end Metaflow.Hmap.Lru
