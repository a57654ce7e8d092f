import Metaflow.Library.LossyFifo
import Metaflow.Queue.OverwriteQueue

/-!
# Every interleaving keeps the order

The faithful queue refines a first-in-first-out queue with losses: in every
interleaving the ring holds the newest published items, and every earlier one
has been delivered or overwritten, in order.
-/

namespace Metaflow.Queue

open Library

variable {T : Type} {size first : Nat} {msgs held : List T} {system : System T}

section

variable (buffer : Nat -> Option T)

theorem copyFrom_of_inside (offset : Nat) (inside : index < msgs.length) :
    copyFrom buffer offset msgs (offset + index) = some msgs[index] := by
  rw [copyFrom, if_pos ⟨by omega, by omega⟩, Nat.add_sub_cancel_left,
    List.getElem?_eq_getElem inside]

theorem copyFrom_of_outside (outside : slot < offset ∨ offset + msgs.length ≤ slot) :
    copyFrom buffer offset msgs slot = buffer slot :=
  if_neg (by omega)

end

section Copies

variable (power : size.isPowerOfTwo)

include power

theorem offset_eq (position : Nat) : position % (2 * size) &&& (size - 1) = position % size := by
  rw [and_pred_eq_mod power, mod_two_mul_mod]

theorem slot_eq (position index : Nat) :
    position % (2 * size) + index &&& (size - 1) = (position + index) % size := by
  rw [and_pred_eq_mod power, Nat.add_mod, mod_two_mul_mod, ← Nat.add_mod]

theorem advance_eq (position count : Nat) :
    position % (2 * size) + count &&& (2 * size - 1) = (position + count) % (2 * size) := by
  rw [and_pred_eq_mod (isPowerOfTwo_two_mul power), Nat.mod_add_mod]

variable (buffer : Nat -> Option T)

variable (position : Nat)

theorem copyIn_holds (fits : msgs.length ≤ size) :
    Holds size (copyIn size buffer (position % (2 * size)) msgs) position msgs := by
  intro index inside
  have offsetBound := Nat.mod_lt position (Nat.pos_of_isPowerOfTwo power)
  rw [add_mod_cases (by omega)]
  simp only [copyIn, offset_eq power]
  generalize position % size = offset at *
  by_cases whole : msgs.length ≤ size - offset
  · rw [if_pos whole, if_pos (by omega)]
    exact copyFrom_of_inside buffer offset inside
  · rw [if_neg whole]
    split_ifs with early
    · rw [copyFrom_of_outside _ (.inr (by rw [List.length_drop]; omega))]
      rw [copyFrom_of_inside buffer offset (show index < (msgs.take (size - offset)).length by
          rw [List.length_take]; omega), List.getElem_take]
    · have written := copyFrom_of_inside (copyFrom buffer offset (msgs.take (size - offset))) 0
        (show index - (size - offset) < (msgs.drop (size - offset)).length by
          rw [List.length_drop]; omega)
      rw [Nat.zero_add] at written
      rw [show offset + index - size = index - (size - offset) by omega, written, List.getElem_drop]
      congr 2
      omega

theorem copyIn_of_outside (fits : msgs.length ≤ size) (isSlot : slot < size)
    (outside : ∀ index, index < msgs.length -> (position + index) % size ≠ slot) :
    copyIn size buffer (position % (2 * size)) msgs slot = buffer slot := by
  have offsetBound := Nat.mod_lt position (Nat.pos_of_isPowerOfTwo power)
  have apart : ∀ index, index < msgs.length ->
      (if position % size + index < size then position % size + index
        else position % size + index - size) ≠ slot := by
    intro index inside
    rw [← add_mod_cases (by omega)]
    exact outside index inside
  simp only [copyIn, offset_eq power]
  generalize position % size = offset at *
  have notFirst : ∀ count, count ≤ msgs.length -> count ≤ size - offset ->
      slot < offset ∨ offset + count ≤ slot := by
    intro count inside before
    by_contra within
    refine apart (slot - offset) (by omega) ?_
    rw [if_pos (by omega)]
    omega
  split_ifs with whole
  · exact copyFrom_of_outside buffer (notFirst _ (Nat.le_refl _) whole)
  · have notSecond : msgs.length - (size - offset) ≤ slot := by
      by_contra within
      refine apart (size - offset + slot) (by omega) ?_
      rw [if_neg (by omega)]
      omega
    have taken : (msgs.take (size - offset)).length = size - offset := by
      rw [List.length_take]
      omega
    rw [copyFrom_of_outside _ (.inr (by rw [List.length_drop]; omega)), copyFrom_of_outside]
    rw [taken]
    exact notFirst _ (by omega) (Nat.le_refl _)

theorem copyOut_eq (fits : count ≤ size) : copyOut size buffer (position % (2 * size)) count =
      (List.range count).map fun index => buffer ((position + index) % size) := by
  have offsetBound := Nat.mod_lt position (Nat.pos_of_isPowerOfTwo power)
  simp only [copyOut, offset_eq power]
  split_ifs with whole
  · rw [copyTo]
    refine List.map_congr_left fun index inside => ?_
    rw [List.mem_range] at inside
    rw [add_mod_cases (by omega), if_pos (by omega)]
  · rw [copyTo, copyTo]
    obtain ⟨rest, rfl⟩ : ∃ rest, count = size - position % size + rest :=
      ⟨count - (size - position % size), by omega⟩
    rw [Nat.add_sub_cancel_left, List.range_add, List.map_append, List.map_map]
    congr 1
    · refine List.map_congr_left fun index inside => ?_
      rw [List.mem_range] at inside
      rw [add_mod_cases (by omega), if_pos (by omega)]
    · refine List.map_congr_left fun index inside => ?_
      rw [List.mem_range] at inside
      simp only [Function.comp_apply]
      rw [add_mod_cases (by omega), if_neg (by omega)]
      congr 1
      omega

theorem dropOldest_of_outside (position count : Nat)
    (outside : ∀ index, index < count -> (position + index) % size ≠ slot) :
    dropOldest size buffer (position % (2 * size)) count slot = buffer slot := by
  induction count with
  | zero => rfl
  | succ count ih =>
    rw [dropOldest, List.range_succ, List.foldl_append]
    simp only [List.foldl_cons, List.foldl_nil]
    rw [Function.update_of_ne, ← dropOldest]
    · exact ih fun index inside =>
        outside index (by omega)
    · rw [slot_eq power]
      exact (outside count (by omega)).symm

end Copies

theorem initialised_map_some (items : List T) : initialised (items.map some) = some items := by
  induction items with
  | nil => rfl
  | cons item items ih => simp [initialised, ih]

/-- The change of the abstract queue that an event stands for. -/
def Event.move : Event T -> Move T
  | .quiet => .stay
  | .published msgs => .enter msgs
  | .overwritten items => .lose items
  | .delivered items => .handOn items
  | .panicked => .stay

/-- What the sender inside its lock relies on: nobody else moves the end, and
room once made stays. -/
def SenderPhase.Relies (size : Nat) (queue : OverwriteQueue T) (first : Nat)
    (held : List T) : SenderPhase T -> Prop
  | .unlocked => True
  | .full msgs rawEnd => rawEnd = queue.stop ∧ msgs.length ≤ size
  | .roomy msgs rawEnd => rawEnd = queue.stop ∧ held.length + msgs.length ≤ size
  | .copied msgs rawEnd =>
    rawEnd = queue.stop ∧ held.length + msgs.length ≤ size ∧
      Holds size queue.buffer (first + held.length) msgs

/-- What the receiver in its lock relies on: nobody else moves the start, and
the items stay. -/
def ReceiverPhase.Relies (size : Nat) (queue : OverwriteQueue T) (first : Nat)
    (held : List T) : ReceiverPhase T -> Prop
  | .unlocked => True
  | .loaded _ start rawEnd =>
    start = queue.start ∧ ∃ seen, seen ≤ held.length ∧ rawEnd = (first + seen) % (2 * size)
  | .copied request start items =>
    start = queue.start ∧ items.length ≤ request.bufSize ∧ items <+: held

/-- The ring holds `held`, the items from position `first` on. -/
structure Window (size : Nat) (system : System T) (first : Nat) (held : List T) : Prop where
  bounded : held.length ≤ size
  start_eq : system.queue.start = first % (2 * size)
  stop_eq : system.queue.stop = (first + held.length) % (2 * size)
  holds : Holds size system.queue.buffer first held
  sender : system.sender.Relies size system.queue first held
  receiver : system.receiver.Relies size system.queue first held

/-- A step that does not fail is a move of the abstract queue, with the lost
items counted. -/
def Advances (size : Nat) (system : System T) (held : List T)
    (outcome : Option (System T × Event T)) : Prop :=
  ∃ system' event first' held', outcome = some (system', event) ∧ event.move.Takes held held' ∧
    Window size system' first' held' ∧
    system'.queue.counter.overwritten =
      system.queue.counter.overwritten + UInt64.ofNat event.move.losing.length

namespace Window

variable (window : Window size system first held)
include window

/-- Only the phases of a window change. -/
theorem quiet (sameQueue : system'.queue = system.queue)
    (sender : system'.sender.Relies size system.queue first held)
    (receiver : system'.receiver.Relies size system.queue first held) :
    Advances size system held (some (system', .quiet)) := by
  refine ⟨system', .quiet, first, held, rfl, rfl, ?_, ?_⟩
  · refine ⟨window.bounded, ?_, ?_, ?_, ?_, ?_⟩
    · rw [sameQueue, window.start_eq]
    · rw [sameQueue, window.stop_eq]
    · rw [sameQueue]
      exact window.holds
    · rw [sameQueue]
      exact sender
    · rw [sameQueue]
      exact receiver
  · rw [sameQueue]
    simp [Event.move, Move.losing]

theorem stays : Advances size system held (some (system, .quiet)) :=
  window.quiet rfl window.sender window.receiver

/-- The stored positions are as far apart as the window is long. -/
theorem unwrapped_eq (positive : 0 < size) :
    unwrapped size system.queue.start system.queue.stop = system.queue.start + held.length := by
  have bounded := window.bounded
  rw [window.start_eq, window.stop_eq, Library.unwrapped_eq positive (by omega) (by omega),
    Nat.add_sub_cancel_left]

end Window

section Sender

theorem beginSend_advances (positive : 0 < size) (window : Window size system first held)
    (fits : msgs.length ≤ size) : Advances size system held (system.beginSend size msgs) := by
  have bounded := window.bounded
  rw [System.beginSend]
  cases phase : system.sender with
  | unlocked =>
    simp only [window.unwrapped_eq positive, Nat.add_sub_cancel_left]
    rw [if_pos ⟨by omega, bounded⟩]
    split_ifs with tooFull
    · exact window.quiet rfl ⟨rfl, fits⟩ window.receiver
    · exact window.quiet rfl ⟨rfl, by omega⟩ window.receiver
  | _ => exact window.stays

variable (power : size.isPowerOfTwo) (window : Window size system first held)
include power window

/-- Dropping the oldest items moves the front of the window. -/
theorem overwriteOldest_window (unlocked : system.receiver = .unlocked)
    (phase : system.sender = .full msgs rawEnd) :
    ∃ queue lost, System.overwriteOldest size system.queue msgs.length rawEnd = some (queue, lost) ∧
      held = lost ++ held.drop lost.length ∧
      Window size { system with queue := queue, sender := .roomy msgs rawEnd }
        (first + lost.length) (held.drop lost.length) ∧
      queue.counter.overwritten = system.queue.counter.overwritten + UInt64.ofNat lost.length := by
  have positive := Nat.pos_of_isPowerOfTwo power
  have bounded := window.bounded
  have relies := window.sender
  rw [phase] at relies
  obtain ⟨rfl, fits⟩ := relies
  simp only [System.overwriteOldest, window.unwrapped_eq positive, Nat.add_sub_cancel_left]
  rw [if_pos ⟨by omega, bounded⟩]
  split_ifs with tooFull
  · have inside : msgs.length - (size - held.length) ≤ held.length := by omega
    simp only [window.start_eq, slot_eq power, advance_eq power]
    rw [window.holds.map_range_eq inside, initialised_map_some]
    have count : (held.take (msgs.length - (size - held.length))).length =
        msgs.length - (size - held.length) := by
      rw [List.length_take]
      omega
    refine ⟨_, _, rfl, ?_, ?_, by simp only [count]⟩
    · rw [count, List.take_append_drop]
    · rw [count]
      have room : held.length - (msgs.length - (size - held.length)) +
          msgs.length ≤ size := by omega
      generalize msgs.length - (size - held.length) = lost at *
      refine ⟨?_, rfl, ?_, ?_, ⟨rfl, ?_⟩, ?_⟩
      · rw [List.length_drop]
        omega
      · rw [List.length_drop]
        simp only [window.stop_eq]
        congr 1
        omega
      · refine (window.holds.drop lost).of_eq ?_
        intro index within
        rw [List.length_drop] at within
        apply dropOldest_of_outside power
        intro dropped before
        exact mod_ne_of_lt (by omega) (by omega)
      · rwa [List.length_drop]
      · simp only [unlocked]
        trivial
  · refine ⟨system.queue, [], rfl, rfl, ?_, by simp⟩
    refine ⟨bounded, window.start_eq, window.stop_eq, window.holds, ?_, ?_⟩
    · exact ⟨rfl, show held.length + msgs.length ≤ size by omega⟩
    · exact window.receiver

theorem makeRoom_advances : Advances size system held (system.makeRoom size) := by
  rw [System.makeRoom]
  cases phase : system.sender with
  | full msgs rawEnd =>
    cases unlocked : system.receiver with
    | unlocked =>
      obtain ⟨queue, lost, dropped, split, roomy, counted⟩ :=
        overwriteOldest_window power window unlocked phase
      rw [unlocked] at roomy
      exact ⟨_, .overwritten lost, _, _,
        by simp only [dropped, Option.map_some], split, roomy, counted⟩
    | _ => exact window.stays
  | _ => exact window.stays

/-- The batch is written into slots that are not in the window. -/
theorem copyBatch_advances : Advances size system held (system.copyBatch size) := by
  rw [System.copyBatch]
  cases phase : system.sender with
  | roomy msgs rawEnd =>
    have relies := window.sender
    rw [phase] at relies
    obtain ⟨rfl, room⟩ := relies
    refine ⟨_, .quiet, first, held, rfl, rfl, ?_, by
      simp [Event.move, Move.losing]⟩
    refine ⟨window.bounded, window.start_eq, window.stop_eq, ?_, ⟨rfl, room, ?_⟩, ?_⟩
    · refine window.holds.of_eq ?_
      intro index inside
      rw [window.stop_eq]
      refine copyIn_of_outside power _ _ (by omega)
        (Nat.mod_lt _ (Nat.pos_of_isPowerOfTwo power)) ?_
      intro written before
      exact (mod_ne_of_lt (by omega) (by omega)).symm
    · simp only [window.stop_eq]
      exact copyIn_holds power _ _ (by omega)
    · have relies := window.receiver
      cases reading : system.receiver with
      | unlocked => trivial
      | _ =>
        rw [reading] at relies
        exact relies
  | _ => exact window.stays

/-- Publishing extends the window by the batch behind it. -/
theorem publish_advances : Advances size system held (system.publish size) := by
  rw [System.publish]
  cases phase : system.sender with
  | copied msgs rawEnd =>
    have relies := window.sender
    rw [phase] at relies
    obtain ⟨rfl, room, written⟩ := relies
    refine ⟨_, .published msgs, first, held ++ msgs, rfl, rfl, ?_, by
      simp [Event.move, Move.losing]⟩
    refine ⟨?_, window.start_eq, ?_, window.holds.append written, trivial, ?_⟩
    · rwa [List.length_append]
    · simp only [window.stop_eq, advance_eq power, List.length_append, Nat.add_assoc]
    · have relies := window.receiver
      cases reading : system.receiver with
      | unlocked => trivial
      | loaded _ _ _ =>
        rw [reading] at relies
        obtain ⟨atStart, seen, inside, loaded⟩ := relies
        refine ⟨atStart, seen, ?_, loaded⟩
        rw [List.length_append]
        omega
      | copied _ _ _ =>
        rw [reading] at relies
        obtain ⟨atStart, few, inside⟩ := relies
        exact ⟨atStart, few, inside.trans (List.prefix_append _ _)⟩
  | _ => exact window.stays

end Sender

section Receiver

section

variable (window : Window size system first held)
include window

theorem beginRecv_advances (request : Request) :
    Advances size system held (system.beginRecv request) := by
  rw [System.beginRecv]
  split_ifs with asksNothing
  · exact ⟨_, .panicked, first, held, rfl, rfl, ⟨window.bounded,
      window.start_eq, window.stop_eq, window.holds, window.sender,
      window.receiver⟩, by simp [Event.move, Move.losing]⟩
  · cases phase : system.receiver with
    | unlocked =>
      dsimp only
      split
      · exact window.quiet rfl window.sender trivial
      · exact window.quiet rfl window.sender ⟨rfl, held.length, Nat.le_refl _, window.stop_eq⟩
    | _ => exact window.stays

variable (waiter : Nat)

theorem wake_advances : Advances size system held (system.wake waiter) := by
  rw [System.wake]
  cases phase : system.receiver with
  | unlocked =>
    cases system.waiting[waiter]? with
    | none => exact window.stays
    | some waiting =>
      obtain ⟨request, stop⟩ := waiting
      dsimp only
      split
      · exact window.stays
      · exact window.quiet rfl window.sender ⟨rfl, held.length, Nat.le_refl _, window.stop_eq⟩
  | _ => exact window.stays

theorem giveUp_advances : Advances size system held (system.giveUp waiter) :=
  window.quiet rfl window.sender window.receiver

end

variable (power : size.isPowerOfTwo) (window : Window size system first held)
include power window

/-- A receiver reads items from the front of the window. -/
theorem readBatch_advances : Advances size system held (system.readBatch size) := by
  have bounded := window.bounded
  rw [System.readBatch]
  cases phase : system.receiver with
  | loaded request start rawEnd =>
    have relies := window.receiver
    rw [phase] at relies
    obtain ⟨rfl, seen, inside, rfl⟩ := relies
    have distance : unwrapped size system.queue.start
        ((first + seen) % (2 * size)) = system.queue.start + seen := by
      rw [window.start_eq, Library.unwrapped_eq
        (Nat.pos_of_isPowerOfTwo power) (by omega) (by omega),
        Nat.add_sub_cancel_left]
    simp only [distance, Nat.add_sub_cancel_left]
    rw [if_pos ⟨by omega, by omega⟩]
    simp only [window.start_eq]
    rw [copyOut_eq power _ _ (by omega), window.holds.map_range_eq (by omega), initialised_map_some]
    exact window.quiet rfl window.sender
      ⟨window.start_eq.symm, by rw [List.length_take]; omega, List.take_prefix _ _⟩
  | _ => exact window.stays

theorem endRecv_window (phase : system.receiver = .copied request start items) (counter : Counter) :
    ∃ held', held = items ++ held' ∧ items.length ≤ request.bufSize ∧ Window size { system with
          queue := { system.queue with
            start := (start + items.length) &&& (2 * size - 1)
            counter := counter }
          receiver := .unlocked }
        (first + items.length) held' := by
  have relies := window.receiver
  rw [phase] at relies
  obtain ⟨rfl, few, held', rfl⟩ := relies
  have bounded := window.bounded
  rw [List.length_append] at bounded
  refine ⟨held', rfl, few, by omega, ?_, ?_, ?_, ?_, trivial⟩
  · simp only [window.start_eq, advance_eq power]
  · simp only [window.stop_eq, List.length_append, Nat.add_assoc]
  · simpa using window.holds.drop items.length
  · have relies := window.sender
    cases sending : system.sender with
    | unlocked => trivial
    | full _ _ =>
      rw [sending] at relies
      exact relies
    | roomy _ _ =>
      rw [sending] at relies
      obtain ⟨atStop, room⟩ := relies
      rw [List.length_append] at room
      exact ⟨atStop, by omega⟩
    | copied _ _ =>
      rw [sending] at relies
      obtain ⟨atStop, room, written⟩ := relies
      rw [List.length_append] at room written
      refine ⟨atStop, by omega, ?_⟩
      rwa [Nat.add_assoc]

theorem endRecv_advances : Advances size system held (system.endRecv size) := by
  rw [System.endRecv]
  cases phase : system.receiver with
  | copied request start items =>
    obtain ⟨held', split, few, window'⟩ :=
      endRecv_window power window phase { system.queue.counter with
          output := system.queue.counter.output + UInt64.ofNat items.length }
    cases request with
    | recvN n =>
      exact ⟨_, .delivered items, _, held', rfl, split, window', by
        simp [Event.move, Move.losing]⟩
    | recv =>
      dsimp only
      split_ifs with one
      · exact ⟨_, .delivered items, _, held', rfl, split, window', by
          simp [Event.move, Move.losing]⟩
      · have nothing : items = [] := by
          rw [← List.length_eq_zero_iff]
          exact Nat.lt_one_iff.mp (Nat.lt_of_le_of_ne few one)
        refine ⟨_, .panicked, _, held', rfl, ?_, ⟨window'.bounded,
          window'.start_eq, window'.stop_eq, window'.holds,
          window'.sender, window'.receiver⟩, by
            simp [Event.move, Move.losing]⟩
        rw [split, nothing]
        rfl
  | _ => exact window.stays

end Receiver

theorem step_advances (power : size.isPowerOfTwo) (window : Window size system first held)
    (action : Action T size) : Advances size system held (system.step size action) := by
  unfold System.step
  split_ifs with aborted
  · exact window.stays
  · cases action with
    | beginSend msgs =>
      exact beginSend_advances (Nat.pos_of_isPowerOfTwo power) window msgs.property
    | makeRoom => exact makeRoom_advances power window
    | copyIn => exact copyBatch_advances power window
    | publish => exact publish_advances power window
    | beginRecv request => exact beginRecv_advances window request
    | wake waiter => exact wake_advances window waiter
    | giveUp waiter => exact giveUp_advances window waiter
    | copyOut => exact readBatch_advances power window
    | endRecv => exact endRecv_advances power window

/-- The items of `send` and `send_all`, in the order of publication. -/
def sentItems (events : List (Event T)) : List T :=
  events.flatMap fun event => event.move.entering

/-- The items taken out of the queue, in order, each with its fate. -/
def takenItems (events : List (Event T)) : List (Fate × T) :=
  events.flatMap fun event => event.move.going

/-- The items that `recv` and `recv_n` return. -/
def receivedItems (events : List (Event T)) : List T :=
  events.flatMap fun event =>
    match event with
    | .delivered items => items
    | _ => []

/-- The items that a sender drops. -/
def lostItems (events : List (Event T)) : List T :=
  events.flatMap fun event => event.move.losing

/-- The slots from the start to the end, as `drop` walks them. -/
def OverwriteQueue.contents (size : Nat) (queue : OverwriteQueue T) : List (Option T) :=
  (List.range (unwrapped size queue.start queue.stop - queue.start)).map
    fun index => queue.buffer ((queue.start + index) &&& (size - 1))

/-- The items of one fate, event by event. -/
theorem flatMap_eq_of_fate
    (isPart : ∀ event, part event = (event.move.going.filter (·.1 = fate)).map Prod.snd)
    (events : List (Event T)) :
    events.flatMap part = ((takenItems events).filter (·.1 = fate)).map Prod.snd := by
  rw [takenItems, List.filter_flatMap, List.map_flatMap, ← funext isPart]

theorem receivedItems_eq (events : List (Event T)) :
    receivedItems events = ((takenItems events).filter (·.1 = .handedOn)).map Prod.snd :=
  flatMap_eq_of_fate (fun event => by
    cases event <;> simp [Event.move, Move.going, List.filter_map, Function.comp_def]) events

theorem lostItems_eq (events : List (Event T)) :
    lostItems events = ((takenItems events).filter (·.1 = .lost)).map Prod.snd :=
  flatMap_eq_of_fate (fun event => by
    cases event <;>
      simp [Event.move, Move.losing, Move.going, List.filter_map, Function.comp_def]) events

theorem Window.contents_eq (power : size.isPowerOfTwo) (window : Window size system first held) :
    system.queue.contents size = held.map some := by
  rw [OverwriteQueue.contents, window.unwrapped_eq (Nat.pos_of_isPowerOfTwo power),
    Nat.add_sub_cancel_left]
  simp only [window.start_eq, slot_eq power]
  rw [window.holds.map_range_eq (Nat.le_refl _), List.take_length]

/-- The state after some events: a window that the events have led to. -/
def Reached (size : Nat) (system : System T) (events : List (Event T)) : Prop :=
  ∃ first held, Window size system first held ∧ Trace (events.map Event.move) held ∧
    system.queue.counter.overwritten = UInt64.ofNat (lostItems events).length

theorem Reached.initial : Reached size ({} : System T) [] := by
  refine ⟨0, [], ⟨Nat.zero_le _, ?_, ?_, Holds.nil, trivial, trivial⟩, .nil, rfl⟩ <;>
    exact (Nat.zero_mod _).symm

theorem Reached.step (power : size.isPowerOfTwo)
    (reached : Reached size system events) (action : Action T size) :
    ∃ system' event, system.step size action = some (system', event) ∧
      Reached size system' (events ++ [event]) := by
  obtain ⟨first, held, window, trace, counted⟩ := reached
  obtain ⟨system', event, first', held', stepped, takes, window', lost⟩ :=
    step_advances power window action
  refine ⟨system', event, stepped, first', held', window', ?_, ?_⟩
  · rw [List.map_append]
    exact trace.snoc takes
  · rw [lost, counted, lostItems, lostItems, List.flatMap_append,
      List.flatMap_singleton, List.length_append, UInt64.ofNat_add]

/-- Every interleaving runs to its end, in a state its events have led to. -/
theorem run_reached (power : size.isPowerOfTwo) (actions : List (Action T size)) :
    ∃ system events, runSteps (System.step size) {} actions = some (system, events) ∧
      Reached size system events := by
  have keeps (system : System T) (events : List (Event T)) (action : Action T size)
      (reached : Reached size system events) := reached.step power action
  exact runSteps_of_history keeps Reached.initial actions

/-- A batch is never copied into a slot that a receiver reads meanwhile. -/
theorem copies_disjoint (power : size.isPowerOfTwo) {actions : List (Action T size)}
    {events : List (Event T)} (ran : runSteps (System.step size) {} actions = some (system, events))
    {rawEnd start stop : Nat} {request : Request} (sending : system.sender = .roomy msgs rawEnd)
    (receiving : system.receiver = .loaded request start stop) {written read : Nat}
    (isWritten : written < msgs.length) (isRead : read < unwrapped size start stop - start) :
    rawEnd + written &&& (size - 1) ≠ start + read &&& (size - 1) := by
  obtain ⟨system', events', ran', first, held, window, -, -⟩ := run_reached power actions
  obtain ⟨rfl, rfl⟩ : system = system' ∧ events = events' := by
    simpa using ran.symm.trans ran'
  have bounded := window.bounded
  have relies := window.sender
  rw [sending] at relies
  obtain ⟨rfl, room⟩ := relies
  have relies := window.receiver
  rw [receiving] at relies
  obtain ⟨rfl, seen, inside, rfl⟩ := relies
  rw [window.start_eq, Library.unwrapped_eq (Nat.pos_of_isPowerOfTwo power)
    (by omega) (by omega)] at isRead
  rw [window.start_eq, window.stop_eq, slot_eq power, slot_eq power]
  exact (mod_ne_of_lt (by omega) (by omega)).symm

/-- A second item is sent while a receiver reads the first one. -/
theorem copies_disjoint_second : 1 + 0 &&& (2 - 1) ≠ 0 + 0 &&& (2 - 1) := by
  have ran : runSteps (System.step 2) ({} : System Nat)
      [.beginSend ⟨[7], by decide⟩, .copyIn, .publish, .beginRecv .recv,
        .beginSend ⟨[8], by decide⟩] = some (_, _) := rfl
  exact copies_disjoint ⟨1, rfl⟩ ran rfl rfl Nat.zero_lt_one (by decide)

example :
    (runSteps (System.step 1) ({} : System Nat)
      [.beginRecv .recv, .beginSend ⟨[7], by decide⟩, .copyIn, .publish,
        .beginSend ⟨[8], by decide⟩, .makeRoom,
        .wake 0, .copyOut, .endRecv]).map (fun ran => ran.1.aborted) =
      some true := by
  decide

end Metaflow.Queue
