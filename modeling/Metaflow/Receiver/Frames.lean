import Metaflow.Library.Endian
import Metaflow.Receiver.Tcp

/-!
# Frames with a flow header

What the TCP receive loop makes of well-formed frames: it takes one frame in
each round, however the stream is cut into pieces, and its delivery has the
fields of the frame and refers to the body.
-/

namespace Metaflow.Receiver

open Library List
open Datatype

/-- A frame of a type that has a flow header. -/
structure WireFrame where
  typeByte : UInt8
  flowHeader : FlowHeader
  body : List UInt8

namespace WireFrame

/-- The length of the whole frame. -/
def size (frame : WireFrame) : Nat :=
  messageHeaderLen + flowHeaderLen + frame.body.length

/-- The message header. -/
def baseBytes (frame : WireFrame) : List UInt8 :=
  beBytes 4 frame.size ++ [frame.typeByte]

/-- The flow header. -/
def flowBytes (frame : WireFrame) : List UInt8 :=
  leBytes 4 frame.flowHeader.version.toNat ++ leBytes 8 frame.flowHeader.sequence.toNat ++
    leBytes 2 frame.flowHeader.vtapID.toNat

def bytes (frame : WireFrame) : List UInt8 :=
  frame.baseBytes ++ (frame.flowBytes ++ frame.body)

/-- The frame has a body, fits into a buffer and is of a type with a flow
header, a handler and an accepted version. -/
structure Accepted (handlers : MessageType -> Bool) (frame : WireFrame)
    (type : MessageType) : Prop where
  isType : MessageType.ofByte frame.typeByte = some type
  hasFlowHeader : type.headerType = .ltVtap
  registered : handlers type = true
  supported : rejectsVersion type frame.flowHeader.version = false
  hasBody : 0 < frame.body.length
  fits : frame.size ≤ messageFrameSizeMax

variable (frame : WireFrame)

theorem length_baseBytes : frame.baseBytes.length = messageHeaderLen := by
  simp [baseBytes, messageHeaderLen]

theorem length_flowBytes : frame.flowBytes.length = flowHeaderLen := by
  simp [flowBytes, flowHeaderLen]

/-- The size is read back from the message header. -/
theorem Accepted.baseHeader {handlers : MessageType -> Bool} {frame : WireFrame}
    {type : MessageType} (accepted : frame.Accepted handlers type) :
    BaseHeader.ofBytes ⟨frame.baseBytes, 0⟩ = .ok ⟨UInt32.ofNat frame.size, type⟩ := by
  have fits := accepted.fits
  unfold messageFrameSizeMax at fits
  have sizeBytes : (⟨frame.baseBytes, 0⟩ : Slice).range 0 4 = beBytes 4 frame.size := by
    simp [Slice.range, baseBytes]
  have typeBytes : (⟨frame.baseBytes, 0⟩ : Slice).range 4 1 = [frame.typeByte] := by
    simp [Slice.range, baseBytes]
  have isType : UInt8.ofNat (bigEndian [frame.typeByte]) = frame.typeByte := by simp [bigEndian]
  rw [BaseHeader.ofBytes, sizeBytes, typeBytes, isType,
    bigEndian_beBytes_of_lt (by omega), BaseHeader.check, accepted.isType]
  simp only [accepted.hasFlowHeader]
  rw [if_neg]
  rw [UInt32.toNat_ofNat', Nat.mod_eq_of_lt (by omega), size]
  omega

theorem ofBytes_flowBytes : FlowHeader.ofBytes ⟨frame.flowBytes, 0⟩ = frame.flowHeader := by
  have versionBytes : (⟨frame.flowBytes, 0⟩ : Slice).range 0 4 =
      leBytes 4 frame.flowHeader.version.toNat := by simp [Slice.range, flowBytes]
  have sequenceBytes : (⟨frame.flowBytes, 0⟩ : Slice).range 4 8 =
      leBytes 8 frame.flowHeader.sequence.toNat := by simp [Slice.range, flowBytes]
  have vtapBytes : (⟨frame.flowBytes, 0⟩ : Slice).range 12 2 =
      leBytes 2 frame.flowHeader.vtapID.toNat := by
    have front : (leBytes 4 frame.flowHeader.version.toNat ++
        leBytes 8 frame.flowHeader.sequence.toNat).length = 12 := by simp
    simp only [Slice.range, flowBytes, Nat.zero_add]
    rw [drop_left' front, take_of_length_le (by simp)]
  rw [FlowHeader.ofBytes, versionBytes, sequenceBytes, vtapBytes,
    littleEndian_leBytes_of_lt frame.flowHeader.version.toNat_lt,
    littleEndian_leBytes_of_lt frame.flowHeader.sequence.toNat_lt,
    littleEndian_leBytes_of_lt frame.flowHeader.vtapID.toNat_lt]
  simp

end WireFrame

theorem readN_of_append {conn : Conn} {front tail : List UInt8}
    (split : conn.flatten = front ++ tail) {count : Nat} (length_eq : front.length = count) :
    ∃ rest, readN count conn = some (front, rest) ∧ rest.flatten = tail := by
  subst length_eq
  have enough : front.length ≤ conn.flatten.length := by
    rw [split, length_append]
    omega
  obtain ⟨rest, isRead, remains⟩ := readN_of_le enough
  rw [split, take_left' rfl] at isRead
  rw [split, drop_left' rfl] at remains
  exact ⟨rest, isRead, remains⟩

/-- `recvBytes.Buffer[recvBytes.Begin:recvBytes.End]`, the bytes a decoder is
given. -/
def RecvBuffer.body (buffer : RecvBuffer) : Option (List UInt8) :=
  if 0 ≤ buffer.beginAt ∧ buffer.beginAt ≤ buffer.endAt ∧ buffer.endAt ≤ recvBufsize then
    some ((buffer.buffer.val.take buffer.endAt.toNat).drop buffer.beginAt.toNat)
  else none

/-- The delivery of a frame: its fields and its body. -/
structure Delivery.Carries (delivery : Delivery) (frame : WireFrame)
    (type : MessageType) : Prop where
  type_eq : delivery.type = type
  sequence_eq : delivery.sequence = frame.flowHeader.sequence
  vtapID_eq : delivery.recvBuffer.vtapID = frame.flowHeader.vtapID
  body_eq : delivery.recvBuffer.body = some frame.body

def Outcome.delivery : Outcome -> Option Delivery
  | .delivered _ _ _ _ delivery => some delivery
  | _ => none

/-- A body that was filled into a buffer is found there. -/
theorem RecvBuffer.body_fill {buffer : Buffer} {body : List UInt8}
    (fits : body.length ≤ recvBufsize) (ip : List UInt8) (vtapID : UInt16) : RecvBuffer.body
        { beginAt := 0
          endAt := body.length
          buffer := buffer.fill body
          ip := ip
          vtapID := vtapID } = some body := by
  have inside : (0 : Int) ≤ 0 ∧ (0 : Int) ≤ body.length ∧ (body.length : Int) ≤ recvBufsize := by
    omega
  simp only [RecvBuffer.body]
  rw [if_pos inside]
  simp [Buffer.fill, take_take, fits]

section Receive

variable {handlers : MessageType -> Bool} (now : UInt32) (ip : List UInt8)

variable {conn : Conn}

theorem receiveBody_of_append (buffer : Buffer) {header : BaseHeader}
    {headerLen : Nat} (flowHeader : FlowHeader) (headerBytes : List UInt8)
    {body tail : List UInt8} (size_eq : header.frameSize.toNat = headerLen + body.length)
    (fits : body.length ≤ recvBufsize) (split : conn.flatten = body ++ tail) :
    ∃ rest outcome delivery,
      receiveBody now ip conn buffer header headerLen flowHeader headerBytes =
        some (some rest, outcome) ∧ rest.flatten = tail ∧ outcome.delivery = some delivery ∧
      delivery.type = header.type ∧ delivery.sequence = flowHeader.sequence ∧
      delivery.recvBuffer.vtapID = flowHeader.vtapID ∧ delivery.recvBuffer.body = some body := by
  have dataLen_eq : (header.frameSize.toNat : Int) - headerLen = body.length := by omega
  obtain ⟨rest, isBody, remains⟩ := readN_of_append split rfl
  obtain ⟨timestamp, timed⟩ := bodyTimestamp_isSome now header (buffer.fill body)
  simp only [receiveBody, dataLen_eq, Int.toNat_natCast, isBody, timed, some_bind]
  rw [if_neg (by omega), if_neg (by omega)]
  exact ⟨rest, _, _, rfl, remains, rfl, rfl, rfl, rfl,
    RecvBuffer.body_fill fits ip flowHeader.vtapID⟩

theorem handleFrame_of_accepted {tail : List UInt8} {frame : WireFrame}
    {type : MessageType} (buffer : Buffer) (accepted : frame.Accepted handlers type)
    (split : conn.flatten = frame.bytes ++ tail) : ∃ rest outcome delivery,
      handleFrame handlers now ip (some conn) buffer = some (some rest, outcome) ∧
      rest.flatten = tail ∧ outcome.delivery = some delivery ∧ delivery.Carries frame type := by
  have fits := accepted.fits
  have hasBody := accepted.hasBody
  have size_eq : (UInt32.ofNat frame.size).toNat = frame.size := by
    unfold messageFrameSizeMax at fits
    rw [UInt32.toNat_ofNat', Nat.mod_eq_of_lt (by omega)]
  rw [WireFrame.bytes, append_assoc] at split
  obtain ⟨afterBase, isBase, split⟩ := readN_of_append split frame.length_baseBytes
  rw [append_assoc] at split
  obtain ⟨afterFlow, isFlow, split⟩ := readN_of_append split frame.length_flowBytes
  rw [WireFrame.size] at fits
  have notHeaderOnly : ¬ (UInt32.ofNat frame.size).toNat = messageHeaderLen + flowHeaderLen := by
    rw [size_eq, WireFrame.size]
    omega
  obtain ⟨rest, outcome, delivery, received, remains, isDelivery, type_eq,
      sequence_eq, vtapID_eq, body_eq⟩ :=
    @receiveBody_of_append now ip _ buffer ⟨UInt32.ofNat frame.size, type⟩ _
      frame.flowHeader (frame.baseBytes ++ frame.flowBytes) _ _ size_eq
      (show _ ≤ messageFrameSizeMax by omega) split
  refine ⟨rest, outcome, delivery, ?_, remains, isDelivery, type_eq,
    sequence_eq, vtapID_eq, body_eq⟩
  simp only [handleFrame, isBase, some_bind,
    decodeBase_of_length frame.length_baseBytes, accepted.baseHeader]
  rw [receiveFrame, if_neg notHeaderOnly]
  simp only [accepted.registered, accepted.hasFlowHeader, isFlow,
    decodeFlow_of_length frame.length_flowBytes, frame.ofBytes_flowBytes,
    accepted.supported, some_bind, Bool.not_true,
    Bool.false_eq_true, if_false, if_true]
  exact received

/-- The loop takes the frames of a stream one after the other. -/
theorem handleTCPConnection_of_frames {frames : List (WireFrame × MessageType)}
    {buffers : List Buffer} (accepted : ∀ frame ∈ frames, frame.1.Accepted handlers frame.2)
    (split : conn.flatten = frames.flatMap (·.1.bytes))
    (length_eq : buffers.length = frames.length) : ∃ rest outcomes deliveries,
      handleTCPConnection handlers now ip conn buffers = some (some rest, outcomes) ∧
      rest.flatten = [] ∧ outcomes.map Outcome.delivery = deliveries.map some ∧
      List.Forall₂ (fun delivery frame => delivery.Carries frame.1 frame.2) deliveries frames := by
  induction frames generalizing conn buffers with
  | nil =>
    obtain rfl := length_eq_zero_iff.mp length_eq
    exact ⟨conn, [], [], rfl, split, rfl, List.Forall₂.nil⟩
  | cons frame frames ih =>
    obtain ⟨buffer, buffers, rfl⟩ := exists_cons_of_length_eq_add_one length_eq
    rw [flatMap_cons] at split
    obtain ⟨rest, outcome, delivery, handled, remains, isDelivery, carries⟩ :=
      handleFrame_of_accepted now ip buffer (accepted frame mem_cons_self) split
    obtain ⟨final, outcomes, deliveries, ran, empty, areDeliveries, carried⟩ :=
      ih (fun other isIn => accepted other (mem_cons_of_mem _ isIn))
        remains (Nat.succ.inj length_eq)
    refine ⟨final, outcome :: outcomes, delivery :: deliveries, ?_, empty,
      ?_, List.Forall₂.cons carries carried⟩
    · rw [handleTCPConnection, runSteps_cons_of_step handled]
      rw [handleTCPConnection] at ran
      rw [ran]
      rfl
    · rw [map_cons, isDelivery, areDeliveries, map_cons]

end Receive

end Metaflow.Receiver
