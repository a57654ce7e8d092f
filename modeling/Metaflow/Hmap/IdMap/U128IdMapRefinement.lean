import Metaflow.Hmap.IdMap.U128IdMap

/-!
# `U128IDMap` as a finite map

The chain of a slot has its nodes in the reverse order of insertion. With that
every method answers as a finite map does, and `Clear` finds every slot that has
a chain.
-/

namespace Metaflow.Hmap.IdMap

open Library
open FiniteMap
open Function

namespace U128IDMap

variable {m : U128IDMap} {node : Nat -> U128IDMapNode}

theorem modifyNode_of_getNode {node : U128IDMapNode}
    (readable : m.getNode index = some node) (change : U128IDMapNode -> U128IDMapNode) :
    ∃ buffer, m.modifyNode index change = some { m with buffer := buffer } ∧
      buffer.length = m.buffer.length ∧
      ∀ other, ({ m with buffer := buffer } : U128IDMap).getNode other =
        if other = index then some (change node) else m.getNode other := by
  unfold getNode at readable
  split at readable
  · next nonneg =>
      obtain ⟨block, found, rfl⟩ := Option.map_eq_some_iff.mp readable
      obtain ⟨inRange, _⟩ := List.getElem?_eq_some_iff.mp found
      refine ⟨m.buffer.set (index / 256).toNat (update block (index % 256).toNat
            (change (block (index % 256).toNat))), ?_, ?_, ?_⟩
      · simp [modifyNode, nonneg, found]
      · simp
      · intro other
        unfold getNode
        by_cases sameIndex : other = index
        · subst sameIndex
          simp [nonneg, inRange]
        · by_cases otherNonneg : 0 ≤ other
          · by_cases sameBlock : other / 256 = index / 256
            · have otherColumn : (other % 256).toNat ≠ (index % 256).toNat := by omega
              simp [sameIndex, otherNonneg, sameBlock, found, otherColumn,
                List.getElem?_set_self inRange]
            · have otherRow : (index / 256).toNat ≠ (other / 256).toNat := by omega
              simp [sameIndex, otherNonneg, List.getElem?_set_ne otherRow]
          · simp [sameIndex, otherNonneg]
  · simp at readable

theorem getNode_of_lt (inBuffer : index < m.buffer.length * 256) :
    ∃ node, m.getNode index = some node := by
  have inRange : ((index : Int) / 256).toNat < m.buffer.length := by omega
  refine ⟨(m.buffer[((index : Int) / 256).toNat]) ((index : Int) % 256).toNat, ?_⟩
  simp [getNode, List.getElem?_eq_getElem inRange]

/-- `expand` makes room for one more node and keeps every node. -/
theorem expand_spec (allocated : m.size ≤ m.buffer.length * 256) :
    m.expand.size = m.size ∧ m.expand.slotHead = m.slotHead ∧
      m.size < m.expand.buffer.length * 256 ∧
      ∀ position < m.size, m.expand.getNode (position : Nat) = m.getNode (position : Nat) := by
  unfold expand
  rw [Nat.shiftLeft_eq]
  split
  · refine ⟨rfl, rfl, ?_, ?_⟩
    · rw [List.length_append, List.length_singleton]
      omega
    · intro position below
      have inRange : ((position : Int) / 256).toNat < m.buffer.length := by omega
      simp [getNode, List.getElem?_append_left inRange]
  · refine ⟨rfl, rfl, ?_, ?_⟩
    · omega
    · intro position below
      rfl

/-- Following links from `link` on visits `positions` and ends. -/
def Linked (node : Nat -> U128IDMapNode) : Int -> List Nat -> Prop
  | link, [] => link = -1
  | link, position :: rest => link = position ∧ Linked node (node position).next rest

theorem Linked.congr (linked : Linked node link positions)
    (same : ∀ position ∈ positions, (node' position).next = (node position).next) :
    Linked node' link positions := by
  induction positions generalizing link with
  | nil => exact linked
  | cons position rest ih =>
    obtain ⟨isPosition, remaining⟩ := linked
    refine ⟨isPosition, ?_⟩
    rw [same position List.mem_cons_self]
    apply ih remaining
    intro other present
    exact same other (List.mem_cons_of_mem _ present)

/-- The first `size` nodes that have a slot, the latest one first. -/
def chain (size : Nat) (node : Nat -> U128IDMapNode) (slot : Int) : List Nat :=
  (List.range size).reverse.filter fun position =>
    (node position).slot = slot

theorem mem_chain {size : Nat} {slot : Int} :
    position ∈ chain size node slot ↔ position < size ∧ (node position).slot = slot := by
  simp [chain]

theorem chain_succ (size : Nat) (node : Nat -> U128IDMapNode) (slot : Int) :
    chain (size + 1) node slot = if (node size).slot = slot then size :: chain size node slot
      else chain size node slot := by
  unfold chain
  rw [List.range_succ, List.reverse_append, List.reverse_singleton,
    List.singleton_append, List.filter_cons]
  simp

theorem chain_congr {size : Nat}
    (same : ∀ position < size, (node' position).slot = (node position).slot) (slot : Int) :
    chain size node' slot = chain size node slot := by
  apply List.filter_congr
  intro position present
  have below : position < size := by simpa using present
  rw [same position below]

theorem length_chain_le (size : Nat) (node : Nat -> U128IDMapNode) (slot : Int) :
    (chain size node slot).length ≤ size := by
  have shorter := List.length_filter_le (fun position => decide ((node position).slot = slot))
    (List.range size).reverse
  simpa [chain] using shorter

/-- Following a chain finds the first node with the key. -/
theorem findFrom_eq (key : UInt64 × UInt64) {link : Int} {positions : List Nat}
    (readable : ∀ position ∈ positions, m.getNode position = some (node position))
    (linked : Linked node link positions) (enough : positions.length < fuel) :
    m.findFrom key.1 key.2 fuel link = some (Option.map (fun position : Nat => (position : Int))
        (positions.find? fun position =>
          (node position).key0 = key.1 ∧ (node position).key1 = key.2)) := by
  induction positions generalizing link fuel with
  | nil =>
    obtain ⟨fuel, rfl⟩ := Nat.exists_eq_succ_of_ne_zero (Nat.ne_of_gt enough)
    rw [show link = -1 from linked]
    rfl
  | cons position rest ih =>
    obtain ⟨fuel, rfl⟩ := Nat.exists_eq_succ_of_ne_zero
      (Nat.ne_of_gt (Nat.lt_of_le_of_lt (Nat.zero_le _) enough))
    obtain ⟨rfl, remaining⟩ := linked
    have notEnd : (position : Int) ≠ -1 := by omega
    have continued := ih (fun other present => readable other (List.mem_cons_of_mem _ present))
      remaining (Nat.lt_of_succ_lt_succ enough)
    rw [findFrom, if_pos notEnd, readable position List.mem_cons_self, some_bind]
    split_ifs with found
    · rw [List.find?_cons, decide_eq_true found]
      rfl
    · rw [continued, List.find?_cons, decide_eq_false found]

section Refinement

variable (jenkins128 : UInt64 -> UInt64 -> BitVec 32) (hashSlots : Nat)

/-- `m` holds `node 0`, ..., `node (m.size - 1)`, every chain is that of its
slot, and the nodes are the entries of `map`. -/
structure Represents (m : U128IDMap) (node : Nat -> U128IDMapNode)
    (map : FiniteMap (UInt64 × UInt64) UInt32) : Prop where
  allocated : m.size ≤ m.buffer.length * 256
  reads : ∀ position < m.size, m.getNode position = some (node position)
  slot_eq : ∀ position < m.size, (node position).slot =
    compressHash jenkins128 hashSlots (node position).key0 (node position).key1
  linked : ∀ slot, Linked node (m.slotHead slot) (chain m.size node slot)
  distinct : ∀ first < m.size, ∀ second < m.size, (node first).key0 = (node second).key0 ->
    (node first).key1 = (node second).key1 -> first = second
  lookup_iff : ∀ key value, map.lookup key = some value ↔
    ∃ position < m.size,
      ((node position).key0, (node position).key1) = key ∧ (node position).value = value
  size_eq : map.size = m.size

/-- The map `m` represents `map` by some nodes. -/
def Refines (m : U128IDMap) (map : FiniteMap (UInt64 × UInt64) UInt32) : Prop :=
  ∃ node, Represents jenkins128 hashSlots m node map

theorem refines_empty {m : U128IDMap} (noNodes : m.size = 0)
    (noChains : ∀ slot, m.slotHead slot = -1) : Refines jenkins128 hashSlots m empty := by
  refine ⟨fun _ => ⟨0, 0, 0, 0, 0⟩, ?_⟩
  constructor
  · omega
  · intro position below
    omega
  · intro position below
    omega
  · intro slot
    rw [noNodes]
    exact noChains slot
  · intro first below
    omega
  · simp [empty, noNodes]
  · rw [noNodes]
    rfl

variable {jenkins128 hashSlots} {map : FiniteMap (UInt64 × UInt64) UInt32}

namespace Represents

section

variable (represents : Represents jenkins128 hashSlots m node map)
include represents

theorem reads_chain (slot : Int) :
    ∀ position ∈ chain m.size node slot, m.getNode position = some (node position) := by
  intro position present
  exact represents.reads position (mem_chain.mp present).1

/-- A search ends; it finds no node exactly if the key is not in the map, and
else a node with the key and its identifier. -/
theorem find_spec (key : UInt64 × UInt64) :
    (find jenkins128 hashSlots m key.1 key.2 = some none ∧ map.lookup key = none) ∨
    ∃ position : Nat, position < m.size ∧
      find jenkins128 hashSlots m key.1 key.2 = some (some (position : Int)) ∧
      ((node position).key0, (node position).key1) = key ∧
      map.lookup key = some (node position).value := by
  have searched := findFrom_eq key
    (represents.reads_chain (compressHash jenkins128 hashSlots key.1 key.2))
    (represents.linked _)
    (Nat.lt_succ_of_le (length_chain_le m.size node _))
  cases found : (chain m.size node (compressHash jenkins128 hashSlots key.1 key.2)).find?
        (fun position => (node position).key0 = key.1 ∧ (node position).key1 = key.2) with
  | none =>
    left
    refine ⟨?_, ?_⟩
    · rw [find, searched, found]
      rfl
    · apply Option.eq_none_iff_forall_ne_some.mpr
      intro value defined
      obtain ⟨position, below, rfl, _⟩ := (represents.lookup_iff key value).mp defined
      have inChain := mem_chain.mpr ⟨below, represents.slot_eq position below⟩
      simpa using List.find?_eq_none.mp found position inChain
  | some position =>
    right
    have sameKey := List.find?_some found
    simp only [decide_eq_true_eq] at sameKey
    have below := (mem_chain.mp (List.mem_of_find?_eq_some found)).1
    have keyed : ((node position).key0, (node position).key1) = key := Prod.ext sameKey.1 sameKey.2
    refine ⟨position, below, ?_, keyed, ?_⟩
    · rw [find, searched, found]
      rfl
    · apply (represents.lookup_iff key _).mpr
      exact ⟨position, below, keyed, rfl⟩

/-- A node put in a place, a new one or one that had its key, defines the key. -/
theorem put {n : U128IDMapNode}
    (bound : ∀ other, other < m'.size ↔ other < m.size ∨ other = position)
    (replaced : position < m.size ->
      ((node position).key0, (node position).key1) = (n.key0, n.key1))
    (apart : ∀ other < m.size, other ≠ position ->
      ((node other).key0, (node other).key1) ≠ (n.key0, n.key1))
    (allocated : m'.size ≤ m'.buffer.length * 256)
    (reads_old : ∀ other < m.size, other ≠ position -> m'.getNode other = m.getNode other)
    (reads_new : m'.getNode position = some n)
    (isSlot : n.slot = compressHash jenkins128 hashSlots n.key0 n.key1)
    (linked : ∀ slot, Linked (update node position n) (m'.slotHead slot)
      (chain m'.size (update node position n) slot))
    (size_eq : (map.insert (n.key0, n.key1) n.value).size = m'.size) :
    Represents jenkins128 hashSlots m' (update node position n)
      (map.insert (n.key0, n.key1) n.value) := by
  have old : ∀ other < m'.size, other ≠ position -> other < m.size := by
    intro other below different
    exact ((bound other).mp below).resolve_right different
  refine ⟨allocated, ?_, ?_, linked, ?_, ?_, size_eq⟩
  · intro other below
    by_cases same : other = position
    · subst same
      simpa using reads_new
    · rw [update_of_ne same, reads_old other (old other below same) same]
      exact represents.reads other (old other below same)
  · intro other below
    by_cases same : other = position
    · subst same
      simpa using isSlot
    · simpa [same] using represents.slot_eq other (old other below same)
  · intro first firstBelow second secondBelow
    by_cases firstNew : first = position <;> by_cases secondNew : second = position
    · simp [firstNew, secondNew]
    · intro same0 same1
      simp only [firstNew, update_self, update_of_ne secondNew] at same0 same1
      exact absurd (Prod.ext same0.symm same1.symm)
        (apart second (old second secondBelow secondNew) secondNew)
    · intro same0 same1
      simp only [secondNew, update_self, update_of_ne firstNew] at same0 same1
      exact absurd (Prod.ext same0 same1) (apart first (old first firstBelow firstNew) firstNew)
    · simpa [firstNew, secondNew] using represents.distinct first
        (old first firstBelow firstNew) second (old second secondBelow secondNew)
  · intro key value
    by_cases sameKey : key = (n.key0, n.key1)
    · subst sameKey
      simp only [FiniteMap.insert, update_self, Option.some.injEq]
      constructor
      · intro isValue
        exact ⟨position, (bound position).mpr (.inr rfl), by simp, by simpa using isValue⟩
      · rintro ⟨other, below, keyed, valued⟩
        by_cases same : other = position
        · simpa [same] using valued
        · rw [update_of_ne same] at keyed
          exact absurd keyed (apart other (old other below same) same)
    · simp only [FiniteMap.insert, update_of_ne sameKey, represents.lookup_iff]
      refine exists_congr fun other => ?_
      by_cases same : other = position
      · subst same
        rw [update_self]
        refine iff_of_false ?_ fun there => sameKey there.2.1.symm
        rintro ⟨below, keyed, -⟩
        exact sameKey (keyed.symm.trans (replaced below))
      · simp [same, bound]

theorem setValue (below : position < m.size) (value : UInt32) :
    ∃ m', m.modifyNode position (fun n => { n with value := value }) = some m' ∧
      m'.getNode position = some { node position with value := value } ∧
      Refines jenkins128 hashSlots m'
        (map.insert ((node position).key0, (node position).key1) value) := by
  obtain ⟨buffer, written, length_eq, reads_eq⟩ :=
    modifyNode_of_getNode (represents.reads position below) (fun n => { n with value := value })
  have reads_new := (reads_eq position).trans (if_pos rfl)
  refine ⟨_, written, reads_new, _, represents.put ?_ ?_ ?_ ?_ ?_ reads_new
    (represents.slot_eq position below) ?_ ?_⟩
  · exact fun other => (or_iff_left_of_imp fun same => same ▸ below).symm
  · exact fun _ => rfl
  · intro other otherBelow different same
    obtain ⟨same0, same1⟩ := Prod.mk.inj same
    exact different (represents.distinct other otherBelow position below same0 same1)
  · rw [length_eq]
    exact represents.allocated
  · intro other _ different
    exact (reads_eq other).trans (if_neg (by omega))
  · intro slot
    have kept : ∀ other, (update node position { node position with value := value } other).slot =
          (node other).slot ∧
        (update node position { node position with value := value } other).next =
          (node other).next := by
      intro other
      by_cases same : other = position <;> simp [same]
    rw [chain_congr fun other _ => (kept other).1]
    exact (represents.linked slot).congr fun other _ => (kept other).2
  · rw [size_insert_of_present ((represents.lookup_iff _ _).mpr ⟨position, below, rfl, rfl⟩)]
    exact represents.size_eq

/-- A node behind the others and at the head of its chain adds its key, if the
key is new and its position an `int32`. -/
theorem push (absent : map.lookup key = none) (value : UInt32)
    (isSlot : slot = compressHash jenkins128 hashSlots key.1 key.2)
    (allocated : m.size < m'.buffer.length * 256)
    (reads_eq : ∀ position < m.size, m'.getNode (position : Nat) = m.getNode (position : Nat))
    (reads_new : m'.getNode m.size = some ⟨key.1, key.2, value, m.slotHead slot, slot⟩)
    (slotHead_eq : m'.slotHead = update m.slotHead slot m.size)
    (size_eq : m'.size = m.size + 1) : Refines jenkins128 hashSlots m' (map.insert key value) := by
  refine ⟨_, represents.put (by omega) (by omega) ?_ (by omega)
    (fun position old _ => reads_eq position old) reads_new isSlot ?_ ?_⟩
  · intro position below _ same
    have defined := (represents.lookup_iff key _).mpr ⟨position, below, same, rfl⟩
    simp [absent] at defined
  · intro other
    have oldChain := (represents.linked other).congr (fun position present => by
        have old := (mem_chain.mp present).1
        exact congrArg U128IDMapNode.next (update_of_ne (Nat.ne_of_lt old)
          ⟨key.1, key.2, value, m.slotHead slot, slot⟩ node))
    rw [size_eq, chain_succ, chain_congr (fun position old =>
      congrArg U128IDMapNode.slot (update_of_ne (Nat.ne_of_lt old) _ node)), slotHead_eq]
    by_cases same : slot = other
    · subst same
      simpa [Linked] using oldChain
    · simpa [same, Ne.symm same] using oldChain
  · rw [size_insert_of_absent absent, represents.size_eq, size_eq]

/-- Visiting nodes resets the heads of their slots and no others. -/
theorem clearedHeads_spec (visited : count ≤ m.size) : ∃ heads, m.clearedHeads count = some heads ∧
      ∀ slot, heads slot = if ∃ position < count, (node position).slot = slot then -1
        else m.slotHead slot := by
  induction count with
  | zero => exact ⟨m.slotHead, rfl, by simp⟩
  | succ count ih =>
    obtain ⟨heads, cleared, heads_eq⟩ := ih (Nat.le_of_succ_le visited)
    refine ⟨update heads (node count).slot (-1), ?_, ?_⟩
    · rw [clearedHeads, cleared, represents.reads count (Nat.lt_of_succ_le visited)]
      rfl
    · intro slot
      simp only [Nat.lt_succ_iff_lt_or_eq, or_and_right, exists_or, exists_eq_left]
      by_cases last : (node count).slot = slot
      · subst last
        simp
      · rw [update_of_ne (Ne.symm last), heads_eq]
        simp [last]

/-- `Clear` resets every slot that has a chain: the first node of a chain
names its slot. -/
theorem clear : ∃ m', m.clear = some m' ∧ Refines jenkins128 hashSlots m' empty := by
  obtain ⟨heads, cleared, heads_eq⟩ := represents.clearedHeads_spec (Nat.le_refl m.size)
  refine ⟨{ m with buffer := [], slotHead := heads, size := 0 }, ?_, ?_⟩
  · rw [U128IDMap.clear, cleared]
    rfl
  · apply refines_empty
    · rfl
    · intro slot
      simp only [heads_eq]
      split
      · rfl
      · next noNode =>
          have noChain : chain m.size node slot = [] := by
            apply List.eq_nil_iff_forall_not_mem.mpr
            intro position present
            exact noNode ⟨position, mem_chain.mp present⟩
          have ended := represents.linked slot
          rw [noChain] at ended
          exact ended

end

end Represents

/-- A new key can be added: the position of its node is an `int32`. -/
def AddFits (jenkins128 : UInt64 -> UInt64 -> BitVec 32) (hashSlots : Nat) (m : U128IDMap) :
    FiniteMap.Op (UInt64 × UInt64) UInt32 -> Prop
  | .addOrGet key _ _ => find jenkins128 hashSlots m key.1 key.2 = some none -> m.size < 2147483648
  | _ => True

instance (m : U128IDMap) : DecidablePred (AddFits jenkins128 hashSlots m)
  | .addOrGet key _ _ =>
    inferInstanceAs (Decidable
      (find jenkins128 hashSlots m key.1 key.2 = some none -> m.size < 2147483648))
  | .get _ => isTrue trivial
  | .size => isTrue trivial
  | .clear => isTrue trivial

/-- `AddOrGet` of a new key writes a node behind the others and makes its
position, as an `int32`, the head of its chain. -/
theorem addOrGet_of_find_eq_none (key : UInt64 × UInt64)
    (searched : find jenkins128 hashSlots m key.1 key.2 = some none)
    (allocated : m.size ≤ m.buffer.length * 256) (value : UInt32) (overwrite : Bool)
    (isSlot : slot = compressHash jenkins128 hashSlots key.1 key.2) :
    ∃ m', addOrGet jenkins128 hashSlots m key.1 key.2 value overwrite = some (m', value, true) ∧
      m.size < m'.buffer.length * 256 ∧
      (∀ position < m.size, m'.getNode (position : Nat) = m.getNode (position : Nat)) ∧
      m'.getNode m.size = some ⟨key.1, key.2, value, m.slotHead slot, slot⟩ ∧
      m'.slotHead = update m.slotHead slot (int32 m.size) ∧ m'.size = m.size + 1 := by
  obtain ⟨size_eq, slotHead_eq, room, kept⟩ := expand_spec allocated
  obtain ⟨unused, readable⟩ := getNode_of_lt room
  obtain ⟨buffer, written, length_eq, reads_eq⟩ :=
    modifyNode_of_getNode readable fun _ =>
      ⟨key.1, key.2, value, m.slotHead slot, slot⟩
  refine ⟨{ m.expand with
    buffer := buffer
    slotHead := update m.slotHead slot (int32 m.size)
    size := m.size + 1 }, ?_, ?_, ?_, ?_, rfl, rfl⟩
  · simp [addOrGet, searched, ← isSlot, size_eq, written, slotHead_eq]
  · rw [length_eq]
    exact room
  · intro position below
    have apart : (position : Int) ≠ m.size := by omega
    rw [← kept position below]
    exact (reads_eq position).trans (if_neg apart)
  · exact (reads_eq m.size).trans (if_pos rfl)

section

variable (refines : Refines jenkins128 hashSlots m map)
include refines

theorem addOrGet_of_absent (searched : find jenkins128 hashSlots m key.1 key.2 = some none)
    (absent : map.lookup key = none) (fits : m.size < 2147483648) (value : UInt32)
    (overwrite : Bool) :
    ∃ m', addOrGet jenkins128 hashSlots m key.1 key.2 value overwrite = some (m', value, true) ∧
      Refines jenkins128 hashSlots m' (map.insert key value) := by
  obtain ⟨node, represents⟩ := refines
  obtain ⟨m', added, room, kept, reads_new, slotHead_eq, size_eq⟩ :=
    addOrGet_of_find_eq_none key searched represents.allocated value overwrite rfl
  have position_eq : int32 m.size = m.size := by
    unfold int32
    omega
  rw [position_eq] at slotHead_eq
  exact ⟨m', added, represents.push absent value rfl room kept reads_new slotHead_eq size_eq⟩

variable (key : UInt64 × UInt64)

theorem addOrGet_refines (value : UInt32) (overwrite : Bool)
    (fits : AddFits jenkins128 hashSlots m (.addOrGet key value overwrite)) :
    ∃ m', step jenkins128 hashSlots m (.addOrGet key value overwrite) =
        some (m', (map.step (.addOrGet key value overwrite)).2) ∧
      Refines jenkins128 hashSlots m' (map.step (.addOrGet key value overwrite)).1 := by
  obtain ⟨node, represents⟩ := refines
  rcases represents.find_spec key with
    ⟨searched, absent⟩ | ⟨position, below, searched, rfl, present⟩
  · obtain ⟨m', added, refines'⟩ := addOrGet_of_absent ⟨node, represents⟩
      searched absent (fits searched) value overwrite
    simp only [FiniteMap.step, absent, step, added]
    exact ⟨m', rfl, refines'⟩
  · simp only [FiniteMap.step, present, step, addOrGet, searched]
    cases overwrite with
    | true =>
      obtain ⟨m', written, readable, refines'⟩ := represents.setValue below value
      simp only [some_bind, if_true, written, readable]
      exact ⟨m', rfl, refines'⟩
    | false =>
      have readable := represents.reads position below
      refine ⟨m, ?_, node, represents⟩
      simp [readable]

theorem get_eq : get jenkins128 hashSlots m key.1 key.2 = some (match map.lookup key with
        | some value => (value, true)
        | none => (0, false)) := by
  obtain ⟨node, represents⟩ := refines
  rcases represents.find_spec key with
    ⟨searched, absent⟩ | ⟨position, below, searched, _, present⟩
  · simp [get, searched, absent]
  · simp [get, searched, present, represents.reads position below]

theorem step_refines (operation : FiniteMap.Op (UInt64 × UInt64) UInt32)
    (fits : AddFits jenkins128 hashSlots m operation) :
    ∃ m', step jenkins128 hashSlots m operation = some (m', (map.step operation).2) ∧
      Refines jenkins128 hashSlots m' (map.step operation).1 := by
  cases operation with
  | addOrGet key value overwrite => exact addOrGet_refines refines key value overwrite fits
  | get key =>
    simp only [step, get_eq refines key, FiniteMap.step]
    cases map.lookup key with
    | none => exact ⟨m, rfl, refines⟩
    | some value => exact ⟨m, rfl, refines⟩
  | size =>
    obtain ⟨node, represents⟩ := refines
    refine ⟨m, ?_, node, represents⟩
    simp [step, FiniteMap.step, represents.size_eq]
  | clear =>
    obtain ⟨node, represents⟩ := refines
    obtain ⟨m', cleared, refines'⟩ := represents.clear
    refine ⟨m', ?_, refines'⟩
    simp [step, FiniteMap.step, cleared]

end

/-- As long as no key is added to a map of `2 ^ 31` keys, every run answers as
the finite map does, and afterwards exactly its keys are found. -/
theorem run_refines_finiteMap (jenkins128 : UInt64 -> UInt64 -> BitVec 32) (hashSlots : Nat)
    (pool : Nat -> Nat -> U128IDMapNode) (initial : U128IDMap)
    (created : new hashSlots pool = some initial)
    (operations : List (FiniteMap.Op (UInt64 × UInt64) UInt32))
    (fits : Guarded (AddFits jenkins128 hashSlots) (step jenkins128 hashSlots) initial operations) :
    ∃ final,
      runSteps (step jenkins128 hashSlots) initial operations =
        some (final, (runTotal FiniteMap.step FiniteMap.empty operations).2) ∧
      ∀ key : UInt64 × UInt64, get jenkins128 hashSlots final key.1 key.2 =
        some (match (runTotal FiniteMap.step FiniteMap.empty operations).1.lookup key with
          | some value => (value, true)
          | none => (0, false)) := by
  have initially : Refines jenkins128 hashSlots initial empty := by
    unfold new at created
    split at created
    · exact absurd created (by simp)
    · obtain rfl := Option.some.inj created
      exact refines_empty jenkins128 hashSlots rfl (fun _ => rfl)
  obtain ⟨final, ran, refines⟩ := simulates _ (Refines jenkins128 hashSlots)
    (fun _ _ operation refines fits => step_refines refines operation fits)
    initially operations fits
  exact ⟨final, ran, get_eq refines⟩

theorem run_refines_finiteMap_five :
    ∃ final,
      runSteps (step (fun _ _ => 0) 4) ⟨[], fun _ => -1, 0, fun _ _ => ⟨0, 0, 0, 0, 0⟩⟩
          [.addOrGet (1, 1) 10 false, .addOrGet (2, 2) 20 false,
            .addOrGet (1, 1) 30 true, .clear, .get (2, 2)] =
        some (final, [.value 10 true, .value 20 true, .value 30 false, .done, .value 0 false]) ∧
      ∀ key : UInt64 × UInt64, get (fun _ _ => 0) 4 final key.1 key.2 =
        some (match (FiniteMap.empty : FiniteMap (UInt64 × UInt64) UInt32).lookup key with
          | some value => (value, true)
          | none => (0, false)) :=
  run_refines_finiteMap (fun _ _ => 0) 4 (fun _ _ => ⟨0, 0, 0, 0, 0⟩) _ rfl
    [.addOrGet (1, 1) 10 false, .addOrGet (2, 2) 20 false,
      .addOrGet (1, 1) 30 true, .clear, .get (2, 2)] (by decide +kernel)

end Refinement

/-- `AddOrGet` of the keys below `count`, in order. -/
def addsBelow (count : Nat) : List (FiniteMap.Op (UInt64 × UInt64) UInt32) :=
  (List.range count).map fun key => .addOrGet (UInt64.ofNat key, 0) 0 false

theorem addsBelow_succ (count : Nat) :
    addsBelow (count + 1) = addsBelow count ++ [.addOrGet (UInt64.ofNat count, 0) 0 false] := by
  simp [addsBelow, List.range_succ]

/-- A new map with four slots. -/
def fresh : U128IDMap where
  buffer := []
  slotHead _ := -1
  size := 0
  pool _ _ := ⟨0, 0, 0, 0, 0⟩

/-- The first `2 ^ 31` additions succeed. -/
theorem addsBelow_run (count : Nat) (few : count ≤ 2147483648) :
    ∃ m answers map, runSteps (step (fun _ _ => 0) 4) fresh (addsBelow count) = some (m, answers) ∧
      Refines (fun _ _ => 0) 4 m map ∧ m.size = count ∧
      ∀ key, count ≤ key -> key < 4294967296 -> map.lookup (UInt64.ofNat key, 0) = none := by
  induction count with
  | zero =>
    exact ⟨fresh, [], FiniteMap.empty, rfl,
      refines_empty _ _ rfl (fun _ => rfl), rfl, fun _ _ _ => rfl⟩
  | succ count ih =>
    obtain ⟨m, answers, map, ran, refines, size_eq, unused⟩ := ih (by omega)
    have absent := unused count (Nat.le_refl count) (by omega)
    obtain ⟨m', stepped, refines'⟩ := step_refines refines
      (.addOrGet (UInt64.ofNat count, 0) 0 false) (fun _ => by omega)
    simp only [FiniteMap.step, absent] at stepped refines'
    refine ⟨m', answers ++ [.value 0 true], _, ?_, refines', ?_, ?_⟩
    · rw [addsBelow_succ, runSteps_append_of_run ran]
      simp only [runSteps, stepped, Option.map_some]
    · obtain ⟨node, represents⟩ := refines
      obtain ⟨node', represents'⟩ := refines'
      rw [← represents'.size_eq, FiniteMap.size_insert_of_absent absent,
        represents.size_eq, size_eq]
    · intro key above small
      have apart : (UInt64.ofNat key, (0 : UInt64)) ≠ (UInt64.ofNat count, 0) := by
        intro same
        have sameNat := congrArg (fun pair => pair.1.toNat) same
        simp only [UInt64.toNat_ofNat'] at sameNat
        omega
      exact (update_of_ne apart _ _).trans (unused key (by omega) small)

/-- After `2 ^ 31 + 1` additions of different keys the next search panics; the
finite map answers. -/
theorem overflow_get_panics :
    new 4 fresh.pool = some fresh ∧
      runSteps (step (fun _ _ => 0) 4) fresh (addsBelow 2147483649 ++ [.get (0, 0)]) = none := by
  refine ⟨rfl, ?_⟩
  obtain ⟨m, answers, map, ran, ⟨node, represents⟩, size_eq, unused⟩ :=
    addsBelow_run 2147483648 (Nat.le_refl _)
  have absent := unused 2147483648 (Nat.le_refl _) (by decide)
  have searched : find (fun _ _ => 0) 4 m (UInt64.ofNat 2147483648) 0 = some none := by
    rcases represents.find_spec (UInt64.ofNat 2147483648, 0) with
      ⟨searched, _⟩ | ⟨_, _, _, _, present⟩
    · exact searched
    · rw [absent] at present
      cases present
  obtain ⟨m', added, _, _, _, slotHead_eq, _⟩ :=
    addOrGet_of_find_eq_none (UInt64.ofNat 2147483648, 0) searched represents.allocated 0 false rfl
  have head : m'.slotHead (compressHash (fun _ _ => 0) 4 0 0) = -2147483648 := by
    rw [slotHead_eq, size_eq]
    rfl
  have panics : get (fun _ _ => 0) 4 m' 0 0 = none := by
    rw [get, find, head]
    rfl
  rw [show (2147483649 : Nat) = 2147483648 + 1 from rfl, addsBelow_succ,
    List.append_assoc, runSteps_append_of_run ran]
  simp only [List.singleton_append, runSteps, step, added, panics, Option.map_some, Option.map_none]

end U128IDMap

end Metaflow.Hmap.IdMap
