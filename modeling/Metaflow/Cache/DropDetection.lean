import Metaflow.Library.Run

/-!
# Drop detection

`drop_detection.go`: flag `k` of the circular window of a sender says that the
`k`-th number from the base on has been received. The window moves over received
numbers at once, and over missing ones, which count as dropped, when a number
beyond its end arrives. `none` is an index panic or an endless loop.
-/

namespace Metaflow.Cache

open Library

/-- The window of one sender. `seq` is the base. -/
structure Instance where
  seq : UInt64
  maxTimestamp : UInt32
  cache : List Bool
  cacheStartIndex : UInt64

structure DropCounter where
  dropped : UInt64
  disorder : UInt64
  disorderSize : UInt64
  deriving DecidableEq

structure DropDetection where
  windowSize : UInt64
  instances : UInt32 -> Option Instance
  counter : DropCounter

namespace Instance

/-- A window as `findAndAdd` makes it. -/
def new (windowSize : UInt64) : Instance where
  seq := 0
  maxTimestamp := 0
  cache := List.replicate windowSize.toNat false
  cacheStartIndex := 0

/-- What the first packet of a sender, and every packet with number 1, does to
the window. -/
def setFirst (inst : Instance) (seq : UInt64) : Instance :=
  if inst.seq = 0 ∨ seq = 1 then { inst with seq := seq }
  else inst

/-- What a restart of the sender does: a smaller number with a later time. -/
def reset (windowSize : UInt64) (inst : Instance) (seq : UInt64) : Instance :=
  { inst with
    cache := inst.cache.map fun _ => false
    cacheStartIndex := 0
    seq := if windowSize < seq then seq - windowSize else 1 }

/-- Clear the first flag and move the window by one. -/
def moveOn (windowSize : UInt64) (inst : Instance) : Instance :=
  { inst with
    cache := inst.cache.set inst.cacheStartIndex.toNat false
    seq := inst.seq + 1
    cacheStartIndex := (inst.cacheStartIndex + 1) &&& (windowSize - 1) }

/-- Move the window until the number fits, at most as often as it is long,
counting down the offset of the number and counting the missing numbers. -/
def flushUntilFits (windowSize : UInt64) :
    Nat -> Instance -> UInt64 -> UInt64 -> Option (Instance × UInt64 × UInt64)
  | 0, inst, offset, dropped => some (inst, offset, dropped)
  | rounds + 1, inst, offset, dropped =>
    if windowSize ≤ offset then do
      let received ← inst.cache[inst.cacheStartIndex.toNat]?
      flushUntilFits windowSize rounds (inst.moveOn windowSize)
        (offset - 1) (if received then dropped else dropped + 1)
    else some (inst, offset, dropped)

/-- Jump over a gap that the loop did not cover. -/
def skipGap (windowSize : UInt64) (inst : Instance)
    (offset dropped : UInt64) : Instance × UInt64 × UInt64 :=
  if windowSize ≤ offset then
    let gap := offset - windowSize + 1
    ({ inst with
      seq := inst.seq + gap
      cacheStartIndex :=
        (inst.cacheStartIndex + gap) &&& (windowSize - 1) },
      offset - gap, dropped + gap)
  else (inst, offset, dropped)

/-- Go back from a flag to the last one set before it or to the start. The
loop changes nothing. -/
def scanBack (windowSize : UInt64) (inst : Instance) : Nat -> UInt64 -> Option Unit
  | 0, _ => none
  | fuel + 1, i =>
    if i ≠ inst.cacheStartIndex then do
      let i := (i - 1) &&& (windowSize - 1)
      let received ← inst.cache[i.toNat]?
      if received then some () else inst.scanBack windowSize fuel i
    else some ()

/-- Move the window over the numbers received. -/
def flushReceived (windowSize : UInt64) : Nat -> Instance -> Option Instance
  | 0, inst => some inst
  | rounds + 1, inst => do
      let received ← inst.cache[inst.cacheStartIndex.toNat]?
      if received then
        flushReceived windowSize rounds (inst.moveOn windowSize)
      else some inst

/-- Set the flag of a number. It must be inside the window. -/
def setFlag (windowSize : UInt64) (inst : Instance) (offset : UInt64) : Option Instance :=
  let current := (inst.cacheStartIndex + offset) &&& (windowSize - 1)
  if current.toNat < inst.cache.length then do
    let inst :=
      { inst with cache := inst.cache.set current.toNat true }
    inst.scanBack windowSize windowSize.toNat current
    some inst
  else none

/-- `Detect` for a number not before the base: the new window and the numbers
counted as dropped. -/
def receive (windowSize : UInt64) (inst : Instance) (seq : UInt64)
    (timestamp : UInt32) : Option (Instance × UInt64) := do
  let inst :=
    if inst.maxTimestamp < timestamp then
      { inst with maxTimestamp := timestamp }
    else inst
  let (inst, offset, dropped) ← flushUntilFits windowSize windowSize.toNat inst (seq - inst.seq) 0
  let (inst, offset, dropped) :=
    inst.skipGap windowSize offset dropped
  let inst ← inst.setFlag windowSize offset
  let inst ← flushReceived windowSize windowSize.toNat inst
  some (inst, dropped)

end Instance

namespace DropDetection

/-- `Init` -/
def init (windowSize : UInt64) : DropDetection where
  windowSize := windowSize
  instances _ := none
  counter := { dropped := 0, disorder := 0, disorderSize := 0 }

variable (d : DropDetection) (id : UInt32) (inst : Instance)

def getCounter : DropDetection × DropCounter :=
  ({ d with counter := { dropped := 0, disorder := 0, disorderSize := 0 } }, d.counter)

/-- The window of a sender, a new one if there is none yet. -/
def findAndAdd : Instance :=
  (d.instances id).getD (Instance.new d.windowSize)

/-- Store a window and what it counts as dropped. -/
def store (dropped : UInt64) : DropDetection :=
  { d with
    instances := Function.update d.instances id (some inst)
    counter := { d.counter with dropped := d.counter.dropped + dropped } }

/-- A number before the base that is no restart. -/
def countDisorder (seq : UInt64) : DropDetection :=
  { d with
    instances := Function.update d.instances id (some inst)
    counter :=
      { d.counter with
        disorderSize := max d.counter.disorderSize (inst.seq - seq)
        disorder := d.counter.disorder + 1 } }

/-- `Detect` -/
def detect (seq : UInt64) (timestamp : UInt32) : Option DropDetection :=
  let inst := (d.findAndAdd id).setFirst seq
  if seq < inst.seq then
    if inst.maxTimestamp < timestamp then do
      let (inst, dropped) ← (inst.reset d.windowSize seq).receive d.windowSize seq timestamp
      some (d.store id inst dropped)
    else some (d.countDisorder id inst seq)
  else do
    let (inst, dropped) ← inst.receive d.windowSize seq timestamp
    some (d.store id inst dropped)

end DropDetection

end Metaflow.Cache
