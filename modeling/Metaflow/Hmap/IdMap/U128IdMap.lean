import Metaflow.Hmap.Common
import Metaflow.Library.FiniteMap
import Metaflow.Library.Run

/-!
# `U128IDMap`

`u128_id_map.go`: nodes in blocks of 256, linked into one chain per hash slot;
`-1` ends a chain. `Clear` resets only the slots that nodes name. `none` is an
index panic or an endless chain.
-/

namespace Metaflow.Hmap.IdMap

open Library

/-- A node: key, identifier, the next node of its chain and its slot. -/
@[ext] structure U128IDMapNode where
  key0 : UInt64
  key1 : UInt64
  value : UInt32
  next : Int
  slot : Int

/-- The state of the map. `pool` lists the blocks that will be handed out, of
arbitrary content. -/
structure U128IDMap where
  buffer : List (Nat -> U128IDMapNode)
  slotHead : Int -> Int
  size : Nat
  pool : Nat -> Nat -> U128IDMapNode

/-- The exponent of the number of slots: the least from `bits` on that is
large enough. -/
def hashSlotBits (hashSlots : Nat) : Nat -> Nat -> Nat
  | 0, bits => bits
  | fuel + 1, bits =>
    if 1 <<< bits < hashSlots then hashSlotBits hashSlots fuel (bits + 1)
    else bits

namespace U128IDMap

def getNode (m : U128IDMap) (index : Int) : Option U128IDMapNode :=
  if 0 ≤ index then
    m.buffer[(index / 256).toNat]?.map fun block => block (index % 256).toNat
  else none

/-- Overwrite the node at `index`. -/
def modifyNode (m : U128IDMap) (index : Int)
    (change : U128IDMapNode -> U128IDMapNode) : Option U128IDMap :=
  if 0 ≤ index then
    m.buffer[(index / 256).toNat]?.map fun block =>
      { m with
        buffer := m.buffer.set (index / 256).toNat
          (Function.update block (index % 256).toNat
            (change (block (index % 256).toNat))) }
  else none

/-- `NewU128IDMap`; too many slots panic. -/
def new (hashSlots : Nat) (pool : Nat -> Nat -> U128IDMapNode) : Option U128IDMap :=
  if 1 <<< 30 ≤ hashSlots then none
  else some
    { buffer := []
      slotHead := fun _ => -1
      size := 0
      pool := pool }

section Model

variable (jenkins128 : UInt64 -> UInt64 -> BitVec 32) (hashSlots : Nat)

variable (m : U128IDMap) (key0 key1 : UInt64)

def compressHash : Int :=
  hashSlot (jenkins128 key0 key1) (1 <<< hashSlotBits hashSlots 32 1 : Nat)

/-- Follow a chain until the key is found. -/
def findFrom (m : U128IDMap) (key0 key1 : UInt64) : Nat -> Int -> Option (Option Int)
  | 0, _ => none
  | fuel + 1, next =>
    if next ≠ -1 then do
      let node ← m.getNode next
      if node.key0 = key0 ∧ node.key1 = key1 then some (some next)
      else m.findFrom key0 key1 fuel node.next
    else some none

/-- No chain without a cycle is longer than the number of nodes. -/
def find : Option (Option Int) :=
  m.findFrom key0 key1 (m.size + 1) (m.slotHead (compressHash jenkins128 hashSlots key0 key1))

/-- Add a block when all are full. -/
def expand : U128IDMap :=
  if m.buffer.length <<< 8 ≤ m.size then
    { m with
      buffer := m.buffer ++ [m.pool 0]
      pool := fun count => m.pool (count + 1) }
  else m

def addOrGet (value : UInt32) (overwrite : Bool) : Option (U128IDMap × UInt32 × Bool) := do
  match ← find jenkins128 hashSlots m key0 key1 with
  | some index => do
      let m ←
        if overwrite then m.modifyNode index fun n => { n with value := value }
        else some m
      let node ← m.getNode index
      some (m, node.value, false)
  | none => do
      let slot := compressHash jenkins128 hashSlots key0 key1
      let head := m.slotHead slot
      let m := m.expand
      let m ← m.modifyNode m.size fun _ =>
        { key0 := key0, key1 := key1, value := value, next := head,
          slot := slot }
      some
        ({ m with
          slotHead := Function.update m.slotHead slot (int32 m.size)
          size := m.size + 1 }, value, true)

def get : Option (UInt32 × Bool) := do
  match ← find jenkins128 hashSlots m key0 key1 with
  | some index => do
      let node ← m.getNode index
      some (node.value, true)
  | none => some (0, false)

/-- The heads after `Clear` has visited the first `count` nodes. -/
def clearedHeads (m : U128IDMap) : Nat -> Option (Int -> Int)
  | 0 => some m.slotHead
  | count + 1 => do
      let slotHead ← m.clearedHeads count
      let node ← m.getNode count
      some (Function.update slotHead node.slot (-1))

def clear : Option U128IDMap := do
  let slotHead ← m.clearedHeads m.size
  some { m with buffer := [], slotHead := slotHead, size := 0 }

/-- One call of a method. -/
def step : FiniteMap.Op (UInt64 × UInt64) UInt32 -> Option (U128IDMap × FiniteMap.Answer UInt32)
  | .addOrGet key value overwrite =>
    (addOrGet jenkins128 hashSlots m key.1 key.2 value overwrite).map
      fun (m, value, added) => (m, .value value added)
  | .get key =>
    (get jenkins128 hashSlots m key.1 key.2).map fun (value, found) =>
      (m, .value value found)
  | .size => some (m, .count m.size)
  | .clear => m.clear.map fun m => (m, .done)

end Model

end U128IDMap

end Metaflow.Hmap.IdMap
