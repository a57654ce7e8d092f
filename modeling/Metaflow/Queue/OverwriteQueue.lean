import Metaflow.Library.RingBuffer
import Metaflow.Library.Run

/-!
# The overwrite queue of the agent

A ring buffer with a lock for the senders and one for the receivers. A sender
with too little room takes both and drops the oldest items; it publishes its
batch without the receivers' lock. `step` is one action of one thread; a run is
one interleaving. `none` is a failed `assert!` or the use of an empty slot.
-/

namespace Metaflow.Queue

open Library

variable {T : Type}

structure Counter where
  input : UInt64 := 0
  output : UInt64 := 0
  overwritten : UInt64 := 0

/-- The shared fields. A slot without an item is `none`; positions are modulo
twice the size. -/
structure OverwriteQueue (T : Type) where
  buffer : Nat -> Option T := fun _ => none
  start : Nat := 0
  stop : Nat := 0
  counter : Counter := {}

/-- The number of slots of `OverwriteQueue::with_capacity(size)`. -/
def withCapacity (size : Nat) : Nat := size.nextPowerOfTwo

/-- `buffer.add(offset).copy_from_nonoverlapping(msgs, msgs.len())`. -/
def copyFrom (buffer : Nat -> Option T) (offset : Nat)
    (msgs : List T) : Nat -> Option T := fun slot =>
  if offset ≤ slot ∧ slot < offset + msgs.length then msgs[slot - offset]?
  else buffer slot

/-- `buffer.add(offset).copy_to_nonoverlapping(_, count)`. -/
def copyTo (buffer : Nat -> Option T) (offset count : Nat) : List (Option T) :=
  (List.range count).map fun index => buffer (offset + index)

/-- The items, if every slot holds one. -/
def initialised : List (Option T) -> Option (List T)
  | [] => some []
  | none :: _ => none
  | some item :: rest => (initialised rest).map (item :: ·)

/-- A batch is written in two parts if it reaches the end of the buffer. -/
def copyIn (size : Nat) (buffer : Nat -> Option T) (rawEnd : Nat)
    (msgs : List T) : Nat -> Option T :=
  let offset := rawEnd &&& (size - 1)
  let freeAfterEnd := size - offset
  if msgs.length ≤ freeAfterEnd then copyFrom buffer offset msgs
  else
    copyFrom (copyFrom buffer offset (msgs.take freeAfterEnd)) 0 (msgs.drop freeAfterEnd)

/-- A batch is read in two parts if it reaches the end of the buffer. -/
def copyOut (size : Nat) (buffer : Nat -> Option T) (start recvCount : Nat) : List (Option T) :=
  let offset := start &&& (size - 1)
  let countToEnd := size - offset
  if recvCount ≤ countToEnd then copyTo buffer offset recvCount
  else
    copyTo buffer offset countToEnd ++ copyTo buffer 0 (recvCount - countToEnd)

/-- `drop_in_place` on the `count` oldest slots. -/
def dropOldest (size : Nat) (buffer : Nat -> Option T) (start count : Nat) : Nat -> Option T :=
  (List.range count).foldl
    (fun buffer index =>
      Function.update buffer ((start + index) &&& (size - 1)) none)
    buffer

/-- What the sender with the writer lock does next. -/
inductive SenderPhase (T : Type) where
  | unlocked
  | full (msgs : List T) (rawEnd : Nat)
  | roomy (msgs : List T) (rawEnd : Nat)
  | copied (msgs : List T) (rawEnd : Nat)

/-- `recv` and `recv_n(n)`. -/
inductive Request where
  | recv
  | recvN (n : Nat)

/-- The size of the buffer a request passes on. -/
def Request.bufSize : Request -> Nat
  | .recv => 1
  | .recvN n => n

/-- What the receiver with the reader lock does next. -/
inductive ReceiverPhase (T : Type) where
  | unlocked
  | loaded (request : Request) (start stop : Nat)
  | copied (request : Request) (start : Nat) (items : List T)

/-- The queue, the threads inside a lock, and the waiting receivers with the end
they have seen. -/
structure System (T : Type) where
  queue : OverwriteQueue T := {}
  sender : SenderPhase T := .unlocked
  receiver : ReceiverPhase T := .unlocked
  waiting : List (Request × Nat) := []
  aborted : Bool := false

/-- What a step does that the callers can see. -/
inductive Event (T : Type) where
  | quiet
  | published (msgs : List T)
  | overwritten (items : List T)
  | delivered (items : List T)
  | panicked

/-- A batch no longer than the queue. -/
abbrev Batch (T : Type) (size : Nat) : Type :=
  { msgs : List T // msgs.length ≤ size }

/-- One action of some thread. A receiver gives up after its timeout or if the
queue is terminated. -/
inductive Action (T : Type) (size : Nat) where
  | beginSend (msgs : Batch T size)
  | makeRoom
  | copyIn
  | publish
  | beginRecv (request : Request)
  | wake (waiter : Nat)
  | giveUp (waiter : Nat)
  | copyOut
  | endRecv

namespace System

variable (size : Nat) (system : System T) (waiter : Nat)

/-- `raw_send` takes the writer lock, loads both positions and tests for
room. -/
def beginSend (msgs : List T) : Option (System T × Event T) :=
  match system.sender with
  | .unlocked =>
    let start := system.queue.start
    let rawEnd := system.queue.stop
    let stop := unwrapped size start rawEnd
    if start ≤ stop ∧ stop - start ≤ size then
      if size < stop - start + msgs.length then
        some ({ system with sender := .full msgs rawEnd }, .quiet)
      else
        some ({ system with sender := .roomy msgs rawEnd }, .quiet)
    else none
  | _ => some (system, .quiet)

/-- The branch of a full queue, under the reader lock. -/
def overwriteOldest (queue : OverwriteQueue T)
    (count rawEnd : Nat) : Option (OverwriteQueue T × List T) :=
  let start := queue.start
  let stop := unwrapped size start rawEnd
  if start ≤ stop ∧ stop - start ≤ size then
    let freeSpace := size - (stop - start)
    if freeSpace < count then
      let toOverwrite := count - freeSpace
      (initialised ((List.range toOverwrite).map fun index =>
        queue.buffer ((start + index) &&& (size - 1)))).map fun lost =>
          ({ queue with
              buffer := dropOldest size queue.buffer start toOverwrite
              start := (start + toOverwrite) &&& (2 * size - 1)
              counter := { queue.counter with
                overwritten := queue.counter.overwritten +
                  UInt64.ofNat toOverwrite } },
            lost)
    else some (queue, [])
  else none

def makeRoom : Option (System T × Event T) :=
  match system.sender, system.receiver with
  | .full msgs rawEnd, .unlocked =>
    (overwriteOldest size system.queue msgs.length rawEnd).map
      fun (queue, lost) =>
        ({ system with queue := queue, sender := .roomy msgs rawEnd }, .overwritten lost)
  | _, _ => some (system, .quiet)

def copyBatch : Option (System T × Event T) :=
  match system.sender with
  | .roomy msgs rawEnd =>
    some ({ system with
      queue := { system.queue with
        buffer := copyIn size system.queue.buffer rawEnd msgs }
      sender := .copied msgs rawEnd }, .quiet)
  | _ => some (system, .quiet)

/-- The end is stored, the input counted and the writer lock released. -/
def publish : Option (System T × Event T) :=
  match system.sender with
  | .copied msgs rawEnd =>
    some ({ system with
      queue := { system.queue with
        stop := (rawEnd + msgs.length) &&& (2 * size - 1)
        counter := { system.queue.counter with
          input := system.queue.counter.input +
            UInt64.ofNat msgs.length } }
      sender := .unlocked }, .published msgs)
  | _ => some (system, .quiet)

/-- `raw_recv_timeout` takes the reader lock, loads both positions and waits if
they are equal. `recv_n(0)` fails its assertion. -/
def beginRecv (request : Request) : Option (System T × Event T) :=
  if request.bufSize = 0 then
    some ({ system with aborted := true }, .panicked)
  else
    match system.receiver with
    | .unlocked =>
      let start := system.queue.start
      let stop := system.queue.stop
      if start = stop then
        some ({ system with
          waiting := system.waiting ++ [(request, stop)] }, .quiet)
      else
        some ({ system with
          receiver := .loaded request start stop }, .quiet)
    | _ => some (system, .quiet)

/-- A waiting receiver has the reader lock again; it waits on if the end is
the one it knows. -/
def wake : Option (System T × Event T) :=
  match system.receiver, system.waiting[waiter]? with
  | .unlocked, some (request, stop) =>
    let newEnd := system.queue.stop
    if stop = newEnd then some (system, .quiet)
    else
      some ({ system with
        receiver := .loaded request system.queue.start newEnd
        waiting := system.waiting.eraseIdx waiter }, .quiet)
  | _, _ => some (system, .quiet)

def giveUp : Option (System T × Event T) :=
  some ({ system with waiting := system.waiting.eraseIdx waiter }, .quiet)

def readBatch : Option (System T × Event T) :=
  match system.receiver with
  | .loaded request start rawEnd =>
    let stop := unwrapped size start rawEnd
    if start ≤ stop ∧ stop - start ≤ size then
      let recvCount := min (stop - start) request.bufSize
      (initialised (copyOut size system.queue.buffer start recvCount)).map
        fun items =>
          ({ system with receiver := .copied request start items }, .quiet)
    else none
  | _ => some (system, .quiet)

/-- The start is stored, the output counted and the lock released. `recv` has
`unreachable!()` unless one item is read. -/
def endRecv : Option (System T × Event T) :=
  match system.receiver with
  | .copied request start items =>
    let system := { system with
      queue := { system.queue with
        start := (start + items.length) &&& (2 * size - 1)
        counter := { system.queue.counter with
          output := system.queue.counter.output +
            UInt64.ofNat items.length } }
      receiver := .unlocked }
    match request with
    | .recvN _ => some (system, .delivered items)
    | .recv =>
      if items.length = 1 then some (system, .delivered items)
      else some ({ system with aborted := true }, .panicked)
  | _ => some (system, .quiet)

/-- One action; a thread whose lock is taken stays where it is. -/
def step (action : Action T size) : Option (System T × Event T) :=
  if system.aborted then some (system, .quiet)
  else
    match action with
    | .beginSend msgs => system.beginSend size msgs.val
    | .makeRoom => system.makeRoom size
    | .copyIn => system.copyBatch size
    | .publish => system.publish size
    | .beginRecv request => system.beginRecv request
    | .wake waiter => system.wake waiter
    | .giveUp waiter => system.giveUp waiter
    | .copyOut => system.readBatch size
    | .endRecv => system.endRecv size

end System

end Metaflow.Queue
