import Mathlib.Data.List.Perm.Subperm
import Metaflow.Hmap.Lru.RingInvariant

/-!
# Looking nodes up and refreshing them

The operations that leave the set of nodes in use as it is: following a chain,
moving a node to the front and storing a new value; and the empty states.
-/

namespace Metaflow.Hmap.Lru

open Library
open Library.LinkedList

variable {κ P : Type}

namespace RingLru

variable {L : Layout κ P} {m : RingLru κ P}
variable {node : Int -> Node κ P} {chain : κ -> Int -> List Int}

section

variable (represents : Represents L m node chain)
include represents

theorem Represents.mem_time_iff (position : Int) : position ∈ chain L.time 0 ↔ m.Live position := by
  rw [(represents.chained L.time).mem_chain, L.slotOf_time]
  simp

variable (kind : κ) (slot : Int)

theorem Represents.length_chain_le : ((chain kind slot).length : Int) ≤ m.size := by
  have included : chain kind slot ⊆ chain L.time 0 := by
    intro position present
    exact (represents.mem_time_iff position).mpr ((represents.chained kind).live_of_mem present)
  have nodup := ((represents.chained kind).threaded slot).nodup
  have shorter := (nodup.subperm included).length_le
  have := represents.length_time
  omega

theorem Represents.length_lt_scanFuel : (chain kind slot).length < m.scanFuel := by
  have := represents.length_chain_le kind slot
  have := represents.spans.size_le
  have := represents.spans.room
  unfold scanFuel
  omega

/-- A walk along a chain, from what it answers at the end and at one node. -/
theorem Represents.walk_eq {walk : Nat -> Option Int -> Option β} {answer : List Int -> β}
    (ends : ∀ fuel, walk (fuel + 1) none = some (answer []))
    (steps : ∀ fuel position rest, m.getNode position = some (node position) ->
      walk fuel ((node position).next kind) = some (answer rest) ->
      walk (fuel + 1) (some position) = some (answer (position :: rest))) :
    walk m.scanFuel (m.head kind slot) = some (answer (chain kind slot)) := by
  have chained := represents.chained kind
  rw [chained.head_eq]
  refine (chained.threaded slot).follows.walk ends ?_ (represents.length_lt_scanFuel kind slot)
  intro fuel position rest present
  exact steps fuel position rest (represents.reads position (chained.live_of_mem present))

theorem Represents.scan_eq (test : P -> Bool) : m.scan kind test m.scanFuel (m.head kind slot) =
      some ((chain kind slot).find? fun position =>
        test (node position).payload) := by
  refine represents.walk_eq kind slot (fun _ => rfl) ?_
  intro fuel position rest readable continued
  rw [scan, readable, some_bind]
  split_ifs with found
  · rw [List.find?_cons, found]
  · rw [continued, List.find?_cons, Bool.eq_false_iff.mpr found]

/-- Collecting a chain gives what its nodes store, in order. -/
theorem Represents.collect_eq : m.collect kind m.scanFuel (m.head kind slot) =
      some ((chain kind slot).map fun position =>
        (node position).payload) := by
  refine represents.walk_eq kind slot (fun _ => rfl) ?_
  intro fuel position rest readable continued
  rw [collect, readable, some_bind, continued]
  rfl

end

theorem represents_empty (rows : m.ring.rows = (m.capacity : Int) / 256 + 2)
    (start : m.bufferStartIndex = 0) (finish : m.bufferEndIndex = 0) (size : m.size = 0)
    (head : ∀ kind slot, m.head kind slot = none) (tail : m.timeListTail = none)
    (node : Int -> Node κ P) : Represents L m node fun _ _ => [] := by
  have dead : ∀ position, ¬ m.Live position := by
    rintro position ⟨_, _, inUse⟩
    rw [start, size] at inUse
    omega
  refine ⟨⟨rows, by omega, ?_, by omega, ?_, ?_, ?_⟩, ?_, ?_, ?_⟩
  · rw [start]
    omega
  · rw [size]
    omega
  · rw [start, finish, size]
    omega
  · intro position alive
    exact absurd alive (dead position)
  · intro position alive
    exact absurd alive (dead position)
  · intro kind
    refine ⟨fun _ => Threaded.nil, head kind, fun _ => tail, ?_⟩
    intro slot position
    simp [dead position]
  · rw [size]
    rfl

theorem represents_new (capacity : Nat) (pool : Nat -> Int -> Node κ P) (node : Int -> Node κ P) :
    Represents L (new capacity pool) node fun _ _ => [] := by
  refine represents_empty ?_ rfl rfl rfl (fun _ _ => rfl) rfl node
  change ((capacity : Int) + 256) / 256 + 1 = (capacity : Int) / 256 + 2
  omega

theorem Represents.clear (represents : Represents L m node chain) :
    Represents L m.clear node fun _ _ => [] := by
  refine represents_empty ?_ rfl rfl rfl (fun _ _ => rfl) rfl node
  exact represents.spans.rows_eq

theorem eq_cons_erase_of_head? {position : Int} (first : positions.head? = some position) :
    position :: positions.erase position = positions := by
  cases positions with
  | nil => simp at first
  | cons head rest =>
    obtain rfl : head = position := by simpa using first
    simp

theorem moveToFront_spec [DecidableEq κ] (represents : Represents L m node chain) {target : Int}
    (alive : m.Live target) (kind : κ) :
    ∃ m' node', m.moveToFront L kind target = some m' ∧ SameExtent m m' ∧
      Represents L m' node' (fun other slot =>
        if other = kind ∧ slot = L.slotOf kind (node target).payload
        then target :: (chain other slot).erase target
        else chain other slot) ∧
      ∀ position, (node' position).payload = (node position).payload := by
  have own := (represents.chained kind).mem_own alive
  set ownSlot := L.slotOf kind (node target).payload with ownSlotDef
  unfold moveToFront
  rw [represents.reads target alive, some_bind]
  by_cases first : some target = m.head kind ownSlot
  · have unchanged : (fun other slot =>
        if other = kind ∧ slot = ownSlot
        then target :: (chain other slot).erase target
        else chain other slot) = chain := by
      funext other slot
      by_cases moved : other = kind ∧ slot = ownSlot
      · obtain ⟨rfl, rfl⟩ := moved
        rw [if_pos ⟨rfl, rfl⟩]
        rw [(represents.chained other).head_eq] at first
        exact eq_cons_erase_of_head? first.symm
      · rw [if_neg moved]
    refine ⟨m, node, ?_, ⟨rfl, rfl, rfl, rfl, rfl⟩, ?_, fun _ => rfl⟩
    · rw [if_neg (not_not.mpr first)]
    · rw [unchanged]
      exact represents
  · obtain ⟨ring, removed, rows, readsRemoved⟩ := removeNodeFromList_spec L
        represents.reads (linksLive_of_chained represents.chained alive) kind alive
        (node target).next (node target).prev
    set without : RingLru κ P := { m with
      ring := ring
      head := relinkedHead L m (node target) [kind] (node target).next
      timeListTail := relinkedTail L m (node target) [kind] (node target).prev } with withoutDef
    set rest := relinked node [kind] target (node target).next (node target).prev with restDef
    have readsWithout : without.Reads m.Live rest := readsRemoved.of_ring rfl
    have chainedOwn : Chained L without.head without.timeListTail
        (fun position => m.Live position ∧ position ≠ target) rest kind
        (fun slot => (chain kind slot).erase target) :=
      (represents.chained kind).remove alive (List.mem_singleton.mpr rfl)
    obtain ⟨ring', linked, rows', readsLinked⟩ :=
      pushNodeToList_spec L readsWithout alive kind (fun _ => ownSlot) (by
        intro front isFront
        rw [chainedOwn.head_eq] at isFront
        exact chainedOwn.live_of_mem (List.mem_of_mem_head? isFront))
    set front := pushed rest [kind] target (fun other => without.head other ownSlot) with frontDef
    set refreshed : RingLru κ P := { without with
      ring := ring'
      head := pushedHead without [kind] target fun _ => ownSlot
      timeListTail := pushedTail L without [kind] target }
      with refreshedDef
    have same : SameExtent m refreshed := ⟨rows'.trans rows, rfl, rfl, rfl, rfl⟩
    refine ⟨refreshed, front, ?_, same, ?_, fun _ => rfl⟩
    · rw [if_pos first, removed]
      exact linked
    · refine ⟨represents.spans.of_sameExtent same, ?_, ?_, ?_⟩
      · intro position aliveAt
        exact readsLinked position ((same.live position).mp aliveAt)
      · intro other
        by_cases sameKind : other = kind
        · subst sameKind
          have pushedOwn := chainedOwn.push (fun absurdity => absurdity.2 rfl)
            (List.mem_singleton.mpr rfl) (fun _ => ownSlot) rfl
          have sameChain : (fun slot =>
              if other = other ∧ slot = ownSlot
              then target :: (chain other slot).erase target
              else chain other slot) = fun slot =>
              if slot = ownSlot then target :: (chain other slot).erase target
              else (chain other slot).erase target := by
            funext slot
            by_cases inSlot : slot = ownSlot
            · simp [inSlot]
            · simp [inSlot, List.erase_of_not_mem ((represents.chained other).not_mem inSlot)]
          rw [sameChain]
          refine pushedOwn.of_live fun position => ?_
          rw [same.live]
          by_cases isTarget : position = target <;> simp [isTarget, alive]
        · have excluded : other ∉ [kind] := by simpa using sameKind
          have removedOther := (represents.chained other).remove_other target
            excluded (node target).next (node target).prev
          have pushedOther := (show Chained L without.head
            without.timeListTail m.Live rest other (chain other)
            from removedOther).push_other target excluded (fun _ => ownSlot)
              (fun other => without.head other ownSlot)
          simp only [sameKind, false_and, if_false]
          exact pushedOther.of_live same.live
      · rw [same.size, ← represents.length_time]
        by_cases moved : L.time = kind ∧ 0 = ownSlot
        · rw [if_pos moved]
          have present := (represents.mem_time_iff target).mpr alive
          have positive := List.length_pos_of_mem present
          rw [List.length_cons, List.length_erase_of_mem present]
          omega
        · rw [if_neg moved]

theorem modifyPayload_spec (represents : Represents L m node chain)
    (alive : m.Live target) (change : P -> P)
    (sameSlots : ∀ kind payload, L.slotOf kind (change payload) = L.slotOf kind payload) :
    ∃ m' node', m.modifyNode target (fun n => { n with payload := change n.payload }) = some m' ∧
      SameExtent m m' ∧
      Represents L m' node' chain ∧
      ∀ position, (node' position).payload =
        if position = target then change (node position).payload
        else (node position).payload := by
  obtain ⟨ring, modified, rows, readsAfter⟩ :=
    modifyNode_spec represents.reads alive fun n => { n with payload := change n.payload }
  set node' := Function.update node target
    { node target with payload := change (node target).payload }
    with nodeDef
  have same : SameExtent m { m with ring := ring } := ⟨rows, rfl, rfl, rfl, rfl⟩
  have links : ∀ position, (node' position).next = (node position).next ∧
      (node' position).prev = (node position).prev := by
    intro position
    by_cases isTarget : position = target <;> simp [isTarget, nodeDef]
  have payloads : ∀ position, (node' position).payload =
      if position = target then change (node position).payload
      else (node position).payload := by
    intro position
    by_cases isTarget : position = target <;> simp [isTarget, nodeDef]
  refine ⟨{ m with ring := ring }, node', modified, same, ?_, payloads⟩
  refine ⟨represents.spans.of_sameExtent same, ?_, ?_, ?_⟩
  · intro position aliveAt
    exact readsAfter position ((same.live position).mp aliveAt)
  · intro kind
    refine (represents.chained kind).congr (fun _ => rfl) (fun _ => rfl) same.live
      (fun position _ => congrFun (links position).1 kind)
      (fun position _ => congrFun (links position).2 kind) fun position _ => ?_
    rw [payloads]
    split
    · exact sameSlots kind _
    · rfl
  · rw [same.size]
    exact represents.length_time

end RingLru

end Metaflow.Hmap.Lru
