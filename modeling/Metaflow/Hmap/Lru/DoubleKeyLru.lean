import Metaflow.Hmap.Lru.Overflow

/-!
# `U128U64DoubleKeyLRU`

`u128u64_lru_double_key.go`: entries are found by a long key, and those of one
short key are listed or removed together, which follows a list while removals
move its nodes around.
-/

namespace Metaflow.Hmap.Lru

open Library
open Library.LinkedList

/-- The three lists a node is on. -/
inductive DoubleKeyList where
  | hash
  | relation
  | time
  deriving DecidableEq

/-- What a node stores; it is the entry of the map at the same time. -/
structure DoubleKeyNode (V : Type) where
  longKey0 : UInt64
  longKey1 : UInt64
  shortKey : UInt64
  value : V
  deriving DecidableEq

/-- An LRU map with long and short keys. -/
abbrev U128U64DoubleKeyLRU (V : Type) :=
  RingLru DoubleKeyList (DoubleKeyNode V)

namespace U128U64DoubleKeyLRU

variable {V : Type} [Inhabited V]

/-- The parameters of a map: its two hash functions and the requested numbers
of hash slots. -/
structure Hashing where
  jenkins128 : UInt64 -> UInt64 -> BitVec 32
  jenkins : UInt64 -> BitVec 32
  hashSlots : Int
  relationHashSlots : Int

namespace Hashing

def compressHash (h : Hashing) (longKey0 longKey1 : UInt64) : Int :=
  hashSlot (h.jenkins128 longKey0 longKey1) (minPowerOfTwo h.hashSlots).1

def compressRelationHash (h : Hashing) (shortKey : UInt64) : Int :=
  hashSlot (h.jenkins shortKey) (minPowerOfTwo h.relationHashSlots).1

end Hashing

section Model

variable (h : Hashing)

/-- The lists of the map: chains by long key, chains by short key, and the
time list. -/
def layout : Layout DoubleKeyList (DoubleKeyNode V) where
  kinds := [.hash, .relation, .time]
  time := .time
  slotOf
    | .hash, node => h.compressHash node.longKey0 node.longKey1
    | .relation, node => h.compressRelationHash node.shortKey
    | .time, _ => 0
  blank :=
    { payload :=
        { longKey0 := 0, longKey1 := 0, shortKey := 0, value := default }
      next := fun _ => some 0
      prev := fun _ => some 0 }
  kinds_nodup := by decide
  kinds_complete kind := by cases kind <;> decide
  slotOf_time _ := rfl

/-- Remove a node. If its successor in the short key's chain was the first node
of the ring, it has moved to `nodeIndex`, the result. -/
def removeNode (m : U128U64DoubleKeyLRU V)
    (nodeIndex : Int) : Option (U128U64DoubleKeyLRU V × Option Int) := do
  let node ← m.getNode nodeIndex
  let removeNodeNext := node.next .relation
  let bufferStartIndex := m.bufferStartIndex
  let m ← RingLru.removeNode (layout h) m nodeIndex (nodeIndex = m.bufferStartIndex)
  if removeNodeNext = some bufferStartIndex then some (m, some nodeIndex)
  else some (m, none)

def updateNode (m : U128U64DoubleKeyLRU V) (nodeIndex : Int)
    (value : V) : Option (U128U64DoubleKeyLRU V) := do
  let m ← RingLru.moveToFront (layout h) m .time nodeIndex
  m.modifyNode nodeIndex fun node =>
    { node with payload := { node.payload with value := value } }

def newNode (m : U128U64DoubleKeyLRU V) (longKey0 longKey1 shortKey : UInt64)
    (value : V) : Option (U128U64DoubleKeyLRU V) :=
  RingLru.newNode (layout h) m (fun m tail => (removeNode h m tail).map Prod.fst)
    { longKey0 := longKey0
      longKey1 := longKey1
      shortKey := shortKey
      value := value }

/-- The position of a long key, by following the chain of its slot. -/
def find (m : U128U64DoubleKeyLRU V) (longKey0 longKey1 : UInt64) : Option (Option Int) :=
  m.scan .hash (fun node => node.longKey0 = longKey0 ∧ node.longKey1 = longKey1)
    m.scanFuel (m.head .hash (h.compressHash longKey0 longKey1))

/-- An entry that is there keeps its short key. -/
def add (m : U128U64DoubleKeyLRU V) (longKey0 longKey1 shortKey : UInt64)
    (value : V) : Option (U128U64DoubleKeyLRU V) := do
  match ← find h m longKey0 longKey1 with
  | some hashIndex => updateNode h m hashIndex value
  | none => newNode h m longKey0 longKey1 shortKey value

/-- The loop of `AddByShortKey`. The flag says whether it came to its end; if
another slice is shorter than the first, the additions before the index panic
stay. -/
def addAll (shortKey : UInt64) :
    U128U64DoubleKeyLRU V -> List UInt64 -> List UInt64 -> List V ->
      Option (U128U64DoubleKeyLRU V × Bool)
  | m, [], _, _ => some (m, true)
  | m, longKey0 :: longKey0s, longKey1 :: longKey1s, value :: values => do
      let m ← add h m longKey0 longKey1 shortKey value
      addAll shortKey m longKey0s longKey1s values
  | m, _ :: _, _, _ => some (m, false)

def addByShortKey (m : U128U64DoubleKeyLRU V) (longKey0s longKey1s : List UInt64)
    (shortKey : UInt64) (values : List V) : Option (U128U64DoubleKeyLRU V × Bool) :=
  if longKey0s.length ≠ longKey1s.length ∧ longKey0s.length ≠ values.length then some (m, true)
  else addAll h shortKey m longKey0s longKey1s values

def remove (m : U128U64DoubleKeyLRU V)
    (longKey0 longKey1 : UInt64) : Option (U128U64DoubleKeyLRU V) := do
  match ← find h m longKey0 longKey1 with
  | some hashListNext => (removeNode h m hashListNext).map Prod.fst
  | none => some m

/-- The loop of `RemoveByShortKey` from a link of the chain on. -/
def removeFrom (shortKey : UInt64) :
    Nat -> U128U64DoubleKeyLRU V -> Option Int -> Nat -> Option (U128U64DoubleKeyLRU V × Nat)
  | 0, _, _, _ => none
  | _ + 1, m, none, delCount => some (m, delCount)
  | fuel + 1, m, some nodeIndex, delCount => do
      let node ← m.getNode nodeIndex
      let relationHashListNext := node.next .relation
      if node.payload.shortKey = shortKey then do
        let (m, nextNodeIndex) ← removeNode h m nodeIndex
        removeFrom shortKey fuel m
          (if nextNodeIndex ≠ none then nextNodeIndex
            else relationHashListNext)
          (delCount + 1)
      else removeFrom shortKey fuel m relationHashListNext delCount

def removeByShortKey (m : U128U64DoubleKeyLRU V)
    (shortKey : UInt64) : Option (U128U64DoubleKeyLRU V × Nat) :=
  removeFrom h shortKey m.scanFuel m (m.head .relation (h.compressRelationHash shortKey)) 0

def get (m : U128U64DoubleKeyLRU V) (longKey0 longKey1 : UInt64)
    (peek : Bool) : Option (U128U64DoubleKeyLRU V × Option V) := do
  match ← find h m longKey0 longKey1 with
  | some hashIndex => do
      let node ← m.getNode hashIndex
      let m ←
        if peek then some m
        else updateNode h m hashIndex node.payload.value
      let node ← m.getNode hashIndex
      some (m, some node.payload.value)
  | none => some (m, none)

def peekByShortKey (m : U128U64DoubleKeyLRU V) (shortKey : UInt64) : Option (Option (List V)) := do
  let nodes ← m.collect .relation m.scanFuel (m.head .relation (h.compressRelationHash shortKey))
  let values := (nodes.filter fun node => node.shortKey = shortKey).map DoubleKeyNode.value
  if 0 < values.length then some (some values) else some none

end Model

end U128U64DoubleKeyLRU

end Metaflow.Hmap.Lru
