import Mathlib.Logic.Function.Basic
import Metaflow.Hmap.Common

/-!
# The ring buffer behind the LRU maps

`u64_lru.go`, `u128_lru.go` and `u128u64_lru_double_key.go` share one design:
nodes live in a ring of blocks of 256, each in one doubly linked list per *kind*
(a hash chain, a chain for the short key, the time list). Removing a node moves
the first node of the ring into the hole. Kinds, contents and slots are
parameters. A link `none` is the source's `-1` or `nil`; an outcome `none` is a
panic or an endless loop.
-/

namespace Metaflow.Hmap.Lru

/-- The least power of two that is not below `v`, with its exponent, among
the first thirty. -/
def minPowerOfTwo (v : Int) : Int × Nat :=
  match (List.range 30).find? fun i => v ≤ (1 <<< i : Nat) with
  | some i => ((1 <<< i : Nat), i)
  | none => (1, 0)

/-- A node: what it stores and its links, one pair per kind of list. -/
@[ext] structure Node (κ P : Type) where
  payload : P
  next : κ -> Option Int
  prev : κ -> Option Int

namespace Node

variable {κ P : Type} [DecidableEq κ]

def setNext (node : Node κ P) (kind : κ) (link : Option Int) : Node κ P :=
  { node with next := Function.update node.next kind link }

def setPrev (node : Node κ P) (kind : κ) (link : Option Int) : Node κ P :=
  { node with prev := Function.update node.prev kind link }

end Node

/-- The blocks of the ring. A released block is `none`. -/
structure Ring (κ P : Type) where
  blocks : Int -> Option (Int -> Node κ P)
  rows : Int

namespace Ring

variable {κ P : Type}

/-- The block that holds `index`; indexing outside the ring panics. -/
def block (ring : Ring κ P) (index : Int) : Option (Int -> Node κ P) :=
  if 0 ≤ index / 256 ∧ index / 256 < ring.rows then
    ring.blocks (index / 256)
  else none

/-- Read the node at `index`. -/
def getNode (ring : Ring κ P) (index : Int) : Option (Node κ P) :=
  (ring.block index).map fun block => block (index % 256)

/-- Overwrite a field of the node at `index`. -/
def modifyNode (ring : Ring κ P) (index : Int)
    (change : Node κ P -> Node κ P) : Option (Ring κ P) :=
  (ring.block index).map fun block =>
    { ring with
      blocks := Function.update ring.blocks (index / 256)
        (some (Function.update block (index % 256)
          (change (block (index % 256))))) }

end Ring

/-- What distinguishes the three LRU maps. -/
structure Layout (κ P : Type) where
  /-- The kinds of lists, in the order in which nodes are linked. -/
  kinds : List κ
  /-- The time list. -/
  time : κ
  /-- The slot of the chain of a kind that a stored payload belongs to. -/
  slotOf : κ -> P -> Int
  /-- The zero value of the node type. -/
  blank : Node κ P
  kinds_nodup : kinds.Nodup
  kinds_complete : ∀ kind, kind ∈ kinds
  /-- There is a single time list. -/
  slotOf_time : ∀ payload, slotOf time payload = 0

/-- The state of an LRU map. `head kind slot` is `hashSlotHead[slot]`,
`relationHashSlotHead[slot]` or `timeListHead`. `pool` lists the blocks that
will be handed out, whose content is arbitrary. -/
structure RingLru (κ P : Type) where
  ring : Ring κ P
  bufferStartIndex : Int
  bufferEndIndex : Int
  head : κ -> Int -> Option Int
  timeListTail : Option Int
  capacity : Nat
  size : Int
  pool : Nat -> Int -> Node κ P

namespace RingLru

variable {κ P : Type} [DecidableEq κ]

def getNode (m : RingLru κ P) (index : Int) : Option (Node κ P) :=
  m.ring.getNode index

def modifyNode (m : RingLru κ P) (index : Int)
    (change : Node κ P -> Node κ P) : Option (RingLru κ P) :=
  (m.ring.modifyNode index change).map fun ring => { m with ring := ring }

def setHead (m : RingLru κ P) (kind : κ) (slot : Int) (link : Option Int) : RingLru κ P :=
  { m with
    head := Function.update m.head kind
      (Function.update (m.head kind) slot link) }

/-- The position after `index`, back to zero behind the last block. -/
def incIndex (m : RingLru κ P) (index : Int) : Int :=
  if int32 m.ring.rows ≤ int32 (index + 1) / 256 then 0
  else int32 (index + 1)

section Lists

variable (L : Layout κ P)

variable (m : RingLru κ P) (kind : κ) (node : Int)

/-- Link the node at `node` in at the front of a list. -/
def pushNodeToList (slot : Int) : Option (RingLru κ P) := do
  let first := m.head kind slot
  let m ← m.modifyNode node fun n =>
    (n.setNext kind first).setPrev kind none
  let m ← match first with
    | some next => m.modifyNode next fun n => n.setPrev kind (some node)
    | none => some m
  let m := m.setHead kind slot (some node)
  if kind = L.time ∧ m.timeListTail = none then
    some { m with timeListTail := some node }
  else some m

/-- Redirect the node before `n` in a list, or the head of the list. -/
def redirectPrevious (n : Node κ P) (newNext : Option Int) : Option (RingLru κ P) :=
  match n.prev kind with
  | some previous => m.modifyNode previous fun p => p.setNext kind newNext
  | none => some (m.setHead kind (L.slotOf kind n.payload) newNext)

/-- Redirect the node after `n` in a list, or the tail of the time list. -/
def redirectNext (n : Node κ P) (newPrev : Option Int) : Option (RingLru κ P) :=
  match n.next kind with
  | some next => m.modifyNode next fun p => p.setPrev kind newPrev
  | none =>
    if kind = L.time then some { m with timeListTail := newPrev }
    else some m

/-- Redirect both neighbours of `node` in a list. -/
def removeNodeFromList (newNext newPrev : Option Int) : Option (RingLru κ P) := do
  let n ← m.getNode node
  let m ← m.redirectPrevious L kind n newNext
  let n ← m.getNode node
  m.redirectNext L kind n newPrev

/-- Give the first position of the ring back, with its block when it was the
block's last position. -/
def releaseFirst : RingLru κ P :=
  let start := m.bufferStartIndex
  let ring :=
    if start % 256 = 255 then
      { m.ring with
        blocks := Function.update m.ring.blocks (start / 256) none }
    else m.ring
  { m with
    ring := ring
    bufferStartIndex := m.incIndex start
    size := m.size - 1 }

/-- Remove a node. `atStart` is the test whether it is the first of the ring; if
not, the first node is copied into the hole and its neighbours are redirected.
-/
def removeNode (atStart : Bool) : Option (RingLru κ P) := do
  let n ← m.getNode node
  let m ← L.kinds.foldlM (fun m kind =>
    m.removeNodeFromList L kind node (n.next kind) (n.prev kind)) m
  let m ←
    if atStart then m.modifyNode node fun _ => L.blank
    else do
      let start := m.bufferStartIndex
      let first ← m.getNode start
      let m ← m.modifyNode node fun _ => first
      let m ← L.kinds.foldlM (fun m kind =>
        m.removeNodeFromList L kind start (some node) (some node)) m
      m.modifyNode start fun _ => L.blank
  some m.releaseFirst

/-- Move a node to the front of a list unless it is there already. -/
def moveToFront : Option (RingLru κ P) := do
  let n ← m.getNode node
  let slot := L.slotOf kind n.payload
  if some node ≠ m.head kind slot then do
    let m ← m.removeNodeFromList L kind node (n.next kind) (n.prev kind)
    m.pushNodeToList L kind node slot
  else some m

/-- Make sure that the block of the end position is there. -/
def acquireBlock : Option (RingLru κ P) :=
  let row := m.bufferEndIndex / 256
  if 0 ≤ row ∧ row < m.ring.rows then
    match m.ring.blocks row with
    | some _ => some m
    | none => some
        { m with
          ring := { m.ring with
            blocks := Function.update m.ring.blocks row (some (m.pool 0)) }
          pool := fun count => m.pool (count + 1) }
  else none

/-- Store a payload in the node at the end of the ring and link it in. -/
def insertNode (payload : P) : Option (RingLru κ P) := do
  let m ← m.acquireBlock
  let node := m.bufferEndIndex
  let m := { m with size := m.size + 1 }
  let m ← L.kinds.foldlM (fun m kind =>
    m.pushNodeToList L kind node (L.slotOf kind payload)) m
  let m ← m.modifyNode node fun n => { n with payload := payload }
  some { m with bufferEndIndex := m.incIndex node }

/-- Store a new payload, after the least recent node has been removed from a
full map by the map's own `remove`. -/
def newNode (remove : RingLru κ P -> Int -> Option (RingLru κ P))
    (payload : P) : Option (RingLru κ P) := do
  let m ←
    if (m.capacity : Int) ≤ m.size then
      match m.timeListTail with
      | some tail => remove m tail
      | none => none
    else some m
  m.insertNode L payload

end Lists

/-- More nodes than the ring has cannot be on a list without a cycle. -/
def scanFuel (m : RingLru κ P) : Nat :=
  (m.ring.rows * 256).toNat + 1

/-- Follow a list until a node satisfies the test. -/
def scan (m : RingLru κ P) (kind : κ) (test : P -> Bool) : Nat -> Option Int -> Option (Option Int)
  | 0, _ => none
  | _ + 1, none => some none
  | fuel + 1, some node => do
      let n ← m.getNode node
      if test n.payload then some (some node)
      else m.scan kind test fuel (n.next kind)

/-- Follow a list and collect what its nodes store. -/
def collect (m : RingLru κ P) (kind : κ) : Nat -> Option Int -> Option (List P)
  | 0, _ => none
  | _ + 1, none => some []
  | fuel + 1, some node => do
      let n ← m.getNode node
      let rest ← m.collect kind fuel (n.next kind)
      some (n.payload :: rest)

/-- Give all blocks back and reset the lists. -/
def clear (m : RingLru κ P) : RingLru κ P :=
  { m with
    ring := { m.ring with blocks := fun _ => none }
    bufferStartIndex := 0
    bufferEndIndex := 0
    head := fun _ _ => none
    timeListTail := none
    size := 0 }

/-- An empty map: `(capacity + 256) / 256 + 1` rows without blocks. -/
def new (capacity : Nat) (pool : Nat -> Int -> Node κ P) : RingLru κ P where
  ring :=
    { blocks := fun _ => none
      rows := ((capacity : Int) + 256) / 256 + 1 }
  bufferStartIndex := 0
  bufferEndIndex := 0
  head := fun _ _ => none
  timeListTail := none
  capacity := capacity
  size := 0
  pool := pool

end RingLru

end Metaflow.Hmap.Lru
