import Metaflow.Receiver.RecvBuffer

/-!
# The UDP receive loop

`ProcessUDPServer` reads a datagram into a receive buffer, decodes its headers
and queues the buffer. Behind the datagram the buffer has the bytes of its last
use.
-/

namespace Metaflow.Receiver

open Library
open Datatype

/-- What `ReadFromUDP` returns: an error, or the datagram in the first `size`
bytes of the buffer. -/
structure UdpRead where
  failed : Bool
  size : Nat
  buffer : Buffer
  ip : List UInt8
  size_le : size ≤ recvBufsize

/-- The message that goes into the queue. A compressed message ends where its
header says. -/
def UdpRead.delivery (datagram : UdpRead) (header : BaseHeader) (headerLen : Nat)
    (flowHeader : FlowHeader) (metricsTimestamp : UInt32) : Delivery where
  type := header.type
  sequence := flowHeader.sequence
  metricsTimestamp := metricsTimestamp
  recvBuffer :=
    { beginAt := headerLen
      endAt :=
        if header.type = .compress then header.frameSize.toNat
        else datagram.size
      buffer := datagram.buffer
      ip := datagram.ip
      vtapID := flowHeader.vtapID }

/-- The part of a round of `ProcessUDPServer` for messages with a flow
header. -/
def processFlow (now : UInt32) (datagram : UdpRead)
    (header : BaseHeader) : Reading (Option Delivery) := do
  let flowHeader ← FlowHeader.decode (datagram.buffer.slice.after messageHeaderLen)
  let headerLen := messageHeaderLen + flowHeaderLen
  if rejectsVersion header.type flowHeader.version then return none
  else if header.type = .metrics then do
    let metricsTimestamp ← getMetricsTimestamp (datagram.buffer.slice.after headerLen) now
    return some (datagram.delivery header headerLen flowHeader metricsTimestamp)
  else return some (datagram.delivery header headerLen flowHeader 0)

/-- A round after the header has been decoded. `handlers` says which types have
a handler. -/
def processMessage (handlers : MessageType -> Bool) (now : UInt32) (datagram : UdpRead)
    (header : BaseHeader) : Reading (Option Delivery) :=
  if !handlers header.type then return none
  else if header.type.headerType = .ltVtap then
    processFlow now datagram header
  else
    return some (datagram.delivery header messageHeaderLen ⟨0, 0, 0⟩ 0)

/-- One round of `ProcessUDPServer`. -/
def processDatagram (handlers : MessageType -> Bool) (now : UInt32)
    (datagram : UdpRead) : Reading (Option Delivery) :=
  if datagram.failed ∨ datagram.size < messageHeaderLen then return none
  else do
    match ← BaseHeader.decode datagram.buffer.slice with
    | .error _ => return none
    | .ok header => processMessage handlers now datagram header

/-- A round that is over: the datagram, the ranges that were read, and the
message for a queue. -/
structure UdpRound where
  datagram : UdpRead
  ranges : Ranges
  queued : Option Delivery

/-- `ProcessUDPServer` -/
def processUDPServer (handlers : MessageType -> Bool)
    (now : UInt32) : List UdpRead -> Option (List UdpRound)
  | [] => some []
  | datagram :: rest => do
      let (queued, ranges) ← (processDatagram handlers now datagram).run []
      let rounds ← processUDPServer handlers now rest
      some ({ datagram := datagram, ranges := ranges, queued := queued } :: rounds)

/-- Nothing outside the datagram is read, and the message put into a queue
lies inside the datagram. -/
def UdpRound.Safe (round : UdpRound) : Prop :=
  (∀ range ∈ round.ranges, range.2 ≤ round.datagram.size) ∧
    ∀ delivery, round.queued = some delivery ->
      0 ≤ delivery.recvBuffer.beginAt ∧ delivery.recvBuffer.beginAt ≤ delivery.recvBuffer.endAt ∧
        delivery.recvBuffer.endAt ≤ delivery.recvBuffer.buffer.val.length ∧
        delivery.recvBuffer.endAt ≤ round.datagram.size

/-- The flow header in the bytes of a datagram. -/
def UdpRead.flowHeader (datagram : UdpRead) : FlowHeader :=
  FlowHeader.ofBytes (datagram.buffer.slice.after messageHeaderLen)

/-- A datagram of a registered type is as long as its headers, and a compressed
one as long as it says. -/
def UdpRead.Fits (handlers : MessageType -> Bool) (datagram : UdpRead) : Prop :=
  datagram.failed = false -> messageHeaderLen ≤ datagram.size ->
    ∀ header, BaseHeader.ofBytes datagram.buffer.slice = .ok header ->
      handlers header.type = true ->
      (header.type.headerType = .ltVtap -> messageHeaderLen + flowHeaderLen ≤ datagram.size) ∧
      (header.type = .metrics -> rejectsVersion header.type datagram.flowHeader.version = false ->
        messageHeaderLen + flowHeaderLen + 4 ≤ datagram.size) ∧
      (header.type = .compress -> header.frameSize.toNat ≤ datagram.size)

section

variable (datagram : UdpRead) (ranges : Ranges)

theorem UdpRound.safe_none_iff :
    UdpRound.Safe ⟨datagram, ranges, none⟩ ↔ ∀ range ∈ ranges, range.2 ≤ datagram.size := by
  simp [UdpRound.Safe]

theorem UdpRound.safe_some_iff (header : BaseHeader)
    (headerLen : Nat) (flowHeader : FlowHeader) (metricsTimestamp : UInt32) :
    UdpRound.Safe ⟨datagram, ranges, some (datagram.delivery header headerLen
        flowHeader metricsTimestamp)⟩ ↔ (∀ range ∈ ranges, range.2 ≤ datagram.size) ∧
        (if header.type = .compress then
          headerLen ≤ header.frameSize.toNat ∧ header.frameSize.toNat ≤ datagram.size
        else headerLen ≤ datagram.size) := by
  have size_le := datagram.size_le
  have length_eq := datagram.buffer.property
  simp only [UdpRound.Safe, UdpRead.delivery, Option.some.injEq, forall_eq', length_eq]
  apply and_congr_right
  intro _
  split <;> omega

end

namespace UdpRead

variable (datagram : UdpRead)

theorem length_slice : datagram.buffer.slice.bytes.length = 512000 :=
  datagram.buffer.property

variable (ranges : Ranges)

theorem run_decodeBase : (BaseHeader.decode datagram.buffer.slice).run ranges =
      some (BaseHeader.ofBytes datagram.buffer.slice, ranges ++ [(0, 4), (4, 5)]) := by
  apply BaseHeader.run_decode
  rw [length_slice]
  change 0 + 5 ≤ 512000
  omega

theorem run_decodeFlow :
    (FlowHeader.decode (datagram.buffer.slice.after messageHeaderLen)).run ranges =
      some (datagram.flowHeader, ranges ++ [(5, 9), (9, 17), (17, 19)]) := by
  apply FlowHeader.run_decode
  change 0 + 5 + 14 ≤ datagram.buffer.slice.bytes.length
  rw [length_slice]
  omega

theorem run_decodeTime (now : UInt32) (ranges : Ranges) :
    ∃ timestamp, (getMetricsTimestamp (datagram.buffer.slice.after
        (messageHeaderLen + flowHeaderLen)) now).run ranges =
      some (timestamp, ranges ++ [(19, 23)]) := by
  refine ⟨_, run_getMetricsTimestamp ?_ now ranges⟩
  change 0 + 19 + 4 ≤ datagram.buffer.slice.bytes.length
  rw [length_slice]
  omega

end UdpRead

theorem forall_flowRanges (size : Nat) :
    (∀ range ∈ [((0 : Nat), 4), (4, 5)] ++ [(5, 9), (9, 17), (17, 19)], range.2 ≤ size) ↔
      19 ≤ size := by
  simp only [List.cons_append, List.nil_append, List.forall_mem_cons, List.not_mem_nil,
    false_implies, implies_true, and_true]
  omega

section

variable (handlers : MessageType -> Bool) (now : UInt32) (datagram : UdpRead)

/-- Behind a header that fits, the part for flow headers is safe exactly if they
and the time fit. -/
theorem processFlow_safe_iff (isFlow : header.type.headerType = .ltVtap) : ∃ queued ranges,
      (processFlow now datagram header).run [(0, 4), (4, 5)] = some (queued, ranges) ∧
      (UdpRound.Safe ⟨datagram, ranges, queued⟩ ↔ messageHeaderLen + flowHeaderLen ≤ datagram.size ∧
        (header.type = .metrics -> rejectsVersion header.type datagram.flowHeader.version = false ->
          messageHeaderLen + flowHeaderLen + 4 ≤ datagram.size)) := by
  have notCompress : header.type ≠ .compress := by
    intro isCompress
    rw [isCompress] at isFlow
    cases isFlow
  simp only [processFlow, StateT.run_bind, Option.bind_eq_bind,
    datagram.run_decodeFlow, Option.bind_some]
  unfold messageHeaderLen flowHeaderLen at *
  by_cases rejected : rejectsVersion header.type datagram.flowHeader.version = true
  · rw [if_pos rejected]
    refine ⟨none, _, rfl, ?_⟩
    rw [UdpRound.safe_none_iff, forall_flowRanges]
    simp [rejected]
  · rw [if_neg rejected]
    have accepted := Bool.eq_false_iff.mpr rejected
    split_ifs with isMetrics
    · obtain ⟨timestamp, timed⟩ := datagram.run_decodeTime now
        ([(0, 4), (4, 5)] ++ [(5, 9), (9, 17), (17, 19)])
      unfold messageHeaderLen flowHeaderLen at timed
      simp only [StateT.run_bind, timed, Option.bind_eq_bind, Option.bind_some]
      refine ⟨_, _, rfl, ?_⟩
      rw [UdpRound.safe_some_iff, if_neg notCompress, List.forall_mem_append, forall_flowRanges,
        List.forall_mem_singleton]
      simp only [accepted, forall_const]
      simp only [isMetrics, forall_const]
      omega
    · refine ⟨_, _, rfl, ?_⟩
      rw [UdpRound.safe_some_iff, if_neg notCompress, forall_flowRanges]
      simp [isMetrics]

/-- A round never fails, and it is safe exactly if the datagram fits. -/
theorem processDatagram_safe_iff :
    ∃ queued ranges, (processDatagram handlers now datagram).run [] = some (queued, ranges) ∧
      (UdpRound.Safe ⟨datagram, ranges, queued⟩ ↔ datagram.Fits handlers) := by
  unfold processDatagram UdpRead.Fits
  by_cases dropped : datagram.failed ∨ datagram.size < messageHeaderLen
  · refine ⟨none, [], by rw [if_pos dropped]; rfl, ?_⟩
    rw [UdpRound.safe_none_iff]
    apply iff_of_true
    · simp
    · intro received long
      rcases dropped with failed | short
      · rw [received] at failed
        cases failed
      · exact absurd long (Nat.not_le.mpr short)
  · obtain ⟨received, long⟩ := not_or.mp dropped
    have long := Nat.not_lt.mp long
    have received := Bool.eq_false_iff.mpr received
    have headerInside : ∀ range ∈ [((0 : Nat), (4 : Nat)), (4, 5)], range.2 ≤ datagram.size := by
      unfold messageHeaderLen at long
      simp only [List.forall_mem_cons, List.not_mem_nil, false_implies, implies_true, and_true]
      omega
    rw [if_neg dropped]
    simp only [StateT.run_bind, datagram.run_decodeBase, List.nil_append,
      Option.bind_eq_bind, Option.bind_some, received, long, forall_const]
    cases decoded : BaseHeader.ofBytes datagram.buffer.slice with
    | error message =>
      refine ⟨none, _, rfl, ?_⟩
      rw [UdpRound.safe_none_iff]
      simpa using headerInside
    | ok header =>
      obtain ⟨checkedLt, _⟩ := BaseHeader.headers_le_of_check decoded
      simp only [Except.ok.injEq, forall_eq', processMessage]
      cases registered : handlers header.type with
      | false =>
        refine ⟨none, _, rfl, ?_⟩
        rw [UdpRound.safe_none_iff]
        simpa using headerInside
      | true =>
        simp only [Bool.not_true, Bool.false_eq_true, if_false, forall_const]
        split_ifs with isFlow
        · have notCompress : header.type ≠ .compress := by
            intro isCompress
            rw [isCompress] at isFlow
            cases isFlow
          simpa [isFlow, notCompress] using processFlow_safe_iff now datagram isFlow
        · have notMetrics : header.type ≠ .metrics := by
            intro isMetrics
            rw [isMetrics] at isFlow
            exact isFlow rfl
          refine ⟨_, _, rfl, ?_⟩
          rw [UdpRound.safe_some_iff, and_iff_right headerInside]
          simp only [isFlow, notMetrics, false_implies, true_and]
          split
          · next isCompress =>
              have large := checkedLt (by rw [isCompress]; rfl)
              simp only [isCompress, forall_const]
              omega
          · next notCompress => simp [notCompress, long]

end

/-- No datagrams make the loop fail, and all rounds are safe exactly if every
datagram fits. -/
theorem processUDPServer_safe_iff (handlers : MessageType -> Bool) (now : UInt32)
    (datagrams : List UdpRead) :
    ∃ rounds, processUDPServer handlers now datagrams = some rounds ∧
      ((∀ round ∈ rounds, round.Safe) ↔ ∀ datagram ∈ datagrams, datagram.Fits handlers) := by
  induction datagrams with
  | nil => exact ⟨[], rfl, by simp⟩
  | cons datagram rest ih =>
    obtain ⟨rounds, processed, safe_iff⟩ := ih
    obtain ⟨queued, ranges, ran, round_iff⟩ := processDatagram_safe_iff handlers now datagram
    refine ⟨⟨datagram, ranges, queued⟩ :: rounds, ?_, ?_⟩
    · simp only [processUDPServer, ran, processed, Option.bind_eq_bind, Option.bind_some]
    · simp only [List.forall_mem_cons, round_iff, safe_iff]

/-- A buffer that begins with the given bytes. -/
def Buffer.startingWith (bytes : List UInt8) (short : bytes.length ≤ recvBufsize) : Buffer :=
  ⟨bytes ++ List.replicate (recvBufsize - bytes.length) 0, by
    rw [List.length_append, List.length_replicate]
    omega⟩

/-- A datagram with the given bytes. -/
def UdpRead.ofBytes (bytes : List UInt8) (short : bytes.length ≤ recvBufsize) : UdpRead where
  failed := false
  size := bytes.length
  buffer := Buffer.startingWith bytes short
  ip := [127, 0, 0, 1]
  size_le := short

/-- A flow log that is only a message header, and a compressed message that is
shorter than it says, are not safe. -/
theorem short_datagrams_unsafe :
    (∃ rounds, processUDPServer (fun _ => true) 0
        [UdpRead.ofBytes [0, 0, 0, 19, 4] (by decide)] = some rounds ∧
      ¬ ∀ round ∈ rounds, round.Safe) ∧
    ∃ rounds, processUDPServer (fun _ => true) 0
        [UdpRead.ofBytes [0, 9, 39, 192, 0, 7] (by decide)] = some rounds ∧
      ¬ ∀ round ∈ rounds, round.Safe := by
  have isUnsafe : ∀ datagram : UdpRead, ¬ datagram.Fits (fun _ => true) ->
      ∃ rounds, processUDPServer (fun _ => true) 0 [datagram] = some rounds ∧
        ¬ ∀ round ∈ rounds, round.Safe := by
    intro datagram misfit
    obtain ⟨queued, ranges, ran, safe_iff⟩ := processDatagram_safe_iff (fun _ => true) 0 datagram
    refine ⟨[⟨datagram, ranges, queued⟩], ?_, ?_⟩
    · simp only [processUDPServer, ran, Option.bind_eq_bind, Option.bind_some]
    · intro allSafe
      exact misfit (safe_iff.mp (allSafe _ List.mem_cons_self))
  constructor
  · apply isUnsafe
    intro fits
    have tooLong := (fits rfl (by decide) ⟨19, .taggedflow⟩ rfl rfl).1 rfl
    exact absurd tooLong (by decide)
  · apply isUnsafe
    intro fits
    have tooLong := (fits rfl (by decide) ⟨600000, .compress⟩ rfl rfl).2.2 rfl
    exact absurd tooLong (by decide)

end Metaflow.Receiver
