import Metaflow.Library.Bytes
import Metaflow.Library.Endian
import Metaflow.Library.Run
import Mathlib.Data.List.ReduceOption

/-!
# The encoder of the uniform sender

`uniform_sender.rs`: items are put behind a header, each with its length in
front; a flush writes the whole length into the header and hands the buffer on.
`none` is a slice out of range. The sequence number wraps.
-/

namespace Metaflow.Sender

open Library List

/-- The message types of the agent, as numbered on the wire. -/
inductive SendMessageType where
  | compress
  | syslog
  | statsd
  | metrics
  | taggedFlow
  | protocolLog
  | openTelemetry
  | prometheus
  | telegraf
  deriving DecidableEq

def SendMessageType.toByte : SendMessageType -> UInt8
  | .compress => 0
  | .syslog => 1
  | .statsd => 2
  | .metrics => 3
  | .taggedFlow => 4
  | .protocolLog => 5
  | .openTelemetry => 6
  | .prometheus => 7
  | .telegraf => 8

/-- `FLOW_LOG_VERSION` -/
def flowLogVersion : UInt32 := 20220128

/-- `METRICS_VERSION` -/
def metricsVersion : UInt32 := 20220117

/-- The version `OPEN_TELEMETRY` -/
def openTelemetryVersion : UInt32 := 20220607

/-- The version `PROMETHEUS` -/
def prometheusVersion : UInt32 := 20220613

/-- The version `TELEGRAF` -/
def telegrafVersion : UInt32 := 20220613

/-- The items of a sender. Of a flow, a log or a document only the encoded
message matters; the others are bytes. -/
inductive SendItem where
  | l4FlowLog (message : List UInt8)
  | l7FlowLog (message : List UInt8)
  | metrics (message : List UInt8)
  | externalOtel (bytes : List UInt8)
  | externalProm (bytes : List UInt8)
  | externalTelegraf (bytes : List UInt8)
  deriving DecidableEq

/-- `EncodeError`: the buffer has no room for a message. -/
structure EncodeError where
  required : Nat
  remaining : Nat

/-- How many bytes a vector can still take; it never has more than
`isize::MAX`. -/
def remainingMut (buffer : List UInt8) : Nat :=
  2 ^ 63 - 1 - buffer.length

/-- Append an encoded message to a buffer that has room for it, and return its
length. -/
def encodeMessage (message buffer : List UInt8) : Except EncodeError (List UInt8 × Nat) :=
  if remainingMut buffer < message.length then
    .error ⟨message.length, remainingMut buffer⟩
  else .ok (buffer ++ message, message.length)

/-- Append the bytes of an item to a buffer, and return their length. -/
def encodeBytes (bytes buffer : List UInt8) : Except EncodeError (List UInt8 × Nat) :=
  .ok (buffer ++ bytes, bytes.length)

namespace SendItem

def encode (item : SendItem) (buffer : List UInt8) : Except EncodeError (List UInt8 × Nat) :=
  match item with
  | .l4FlowLog message => encodeMessage message buffer
  | .l7FlowLog message => encodeMessage message buffer
  | .metrics message => encodeMessage message buffer
  | .externalOtel bytes => encodeBytes bytes buffer
  | .externalProm bytes => encodeBytes bytes buffer
  | .externalTelegraf bytes => encodeBytes bytes buffer

def messageType : SendItem -> SendMessageType
  | .l4FlowLog _ => .taggedFlow
  | .l7FlowLog _ => .protocolLog
  | .metrics _ => .metrics
  | .externalOtel _ => .openTelemetry
  | .externalProm _ => .prometheus
  | .externalTelegraf _ => .telegraf

def version : SendItem -> UInt32
  | .l4FlowLog _ => flowLogVersion
  | .l7FlowLog _ => flowLogVersion
  | .metrics _ => metricsVersion
  | .externalOtel _ => openTelemetryVersion
  | .externalProm _ => prometheusVersion
  | .externalTelegraf _ => telegrafVersion

/-- The encoded item. -/
def payload : SendItem -> List UInt8
  | .l4FlowLog message => message
  | .l7FlowLog message => message
  | .metrics message => message
  | .externalOtel bytes => bytes
  | .externalProm bytes => bytes
  | .externalTelegraf bytes => bytes

end SendItem

structure Header where
  frameSize : UInt32
  msgType : SendMessageType
  version : UInt32
  sequence : UInt64
  vtapId : UInt16
  deriving DecidableEq

/-- `encode` -/
def Header.encode (header : Header) (buffer : List UInt8) : List UInt8 :=
  buffer ++ beBytes 4 header.frameSize.toNat ++ [header.msgType.toByte] ++
    leBytes 4 header.version.toNat ++ leBytes 8 header.sequence.toNat ++
    leBytes 2 header.vtapId.toNat

structure Encoder where
  id : Nat
  header : Header
  buffer : List UInt8
  deriving DecidableEq

namespace Encoder

/-- `new` -/
def new (id : Nat) (msgType : SendMessageType) (vtapId : UInt16) : Encoder where
  id := id
  buffer := []
  header :=
    { msgType := msgType
      frameSize := 0
      version := 0
      sequence := 0
      vtapId := vtapId }

variable (encoder : Encoder) (s : SendItem)

/-- Only an encoder without a version takes the type and the version of an
item. -/
def setMsgTypeAndVersion : Encoder :=
  if encoder.header.version ≠ 0 then encoder
  else
    { encoder with
      header :=
        { encoder.header with msgType := s.messageType, version := s.version } }

def addHeader : Encoder :=
  let header :=
    { encoder.header with sequence := encoder.header.sequence + 1 }
  { encoder with header := header, buffer := header.encode encoder.buffer }

/-- `cache_to_sender` after the header: four bytes for the length of the item,
which stay zero if it cannot be encoded. -/
def append : Option Encoder :=
  let offset := encoder.buffer.length
  let buffer := encoder.buffer ++ [0, 0, 0, 0]
  match s.encode buffer with
  | .ok (buffer, size) =>
    (Bytes.write buffer offset (leBytes 4 size)).map fun buffer =>
      { encoder with buffer := buffer }
  | .error _ => some { encoder with buffer := buffer }

/-- `cache_to_sender` -/
def cacheToSender : Option Encoder :=
  if encoder.buffer.isEmpty then
    ((encoder.setMsgTypeAndVersion s).addHeader).append s
  else encoder.append s

/-- `set_header_frame_size` -/
def setHeaderFrameSize : Option Encoder :=
  (Bytes.write encoder.buffer 0 (beBytes 4 encoder.buffer.length)).map
    fun buffer => { encoder with buffer := buffer }

/-- `get_buffer` drains the buffer. -/
def getBuffer : Encoder × List UInt8 :=
  ({ encoder with buffer := [] }, encoder.buffer)

/-- `flush_encoder`, with the buffer it sends if there is one. -/
def flushEncoder : Option (Encoder × Option (List UInt8)) :=
  if 0 < encoder.buffer.length then
    encoder.setHeaderFrameSize.map fun encoder =>
      let (encoder, buffer) := encoder.getBuffer
      (encoder, some buffer)
  else some (encoder, none)

/-- Some items, and a flush. -/
def sendBatch (batch : List SendItem) : Option (Encoder × Option (List UInt8)) :=
  (batch.foldlM cacheToSender encoder).bind flushEncoder

end Encoder

/-- An item behind its length. -/
def SendItem.wire (item : SendItem) : List UInt8 :=
  leBytes 4 item.payload.length ++ item.payload

/-- The length of the frame with some items. -/
def frameLen (batch : List SendItem) : Nat :=
  19 + (batch.flatMap SendItem.wire).length

/-- A frame: the header with the length of the whole, and the items. -/
def frame (header : Header) (batch : List SendItem) : List UInt8 :=
  ({ header with frameSize := UInt32.ofNat (frameLen batch) }).encode [] ++
    batch.flatMap SendItem.wire

@[simp] theorem Header.length_encode (header : Header) (buffer : List UInt8) :
    (header.encode buffer).length = buffer.length + 19 := by
  simp [Header.encode]

theorem SendItem.version_ne_zero (item : SendItem) : item.version ≠ 0 := by
  cases item <;> exact of_decide_eq_false rfl

/-- An item for which a buffer has room is encoded as its payload. -/
theorem SendItem.encode_of_le {item : SendItem}
    (room : buffer.length + item.payload.length < 2 ^ 63) :
    item.encode buffer = .ok (buffer ++ item.payload, item.payload.length) := by
  have notError : ∀ message : List UInt8, buffer.length + message.length < 2 ^ 63 ->
      encodeMessage message buffer = .ok (buffer ++ message, message.length) := by
    intro message room
    rw [encodeMessage, if_neg]
    rw [remainingMut]
    omega
  cases item with
  | l4FlowLog message | l7FlowLog message | metrics message => exact notError message room
  | externalOtel _ | externalProm _ | externalTelegraf _ => rfl

namespace Encoder

/-- The header is that of the first item ever given, and the sequence number
counts the frames. -/
def between (id : Nat) (msgType : SendMessageType) (vtapId : UInt16) (first : Option SendItem)
    (sent : Nat) : Encoder where
  id := id
  buffer := []
  header :=
    { msgType := (first.map SendItem.messageType).getD msgType
      frameSize := 0
      version := (first.map SendItem.version).getD 0
      sequence := UInt64.ofNat sent
      vtapId := vtapId }

/-- The header of a frame. -/
def frameHeader (vtapId : UInt16) (first : SendItem) (sequence : Nat) : Header where
  frameSize := 0
  msgType := first.messageType
  version := first.version
  sequence := UInt64.ofNat sequence
  vtapId := vtapId

theorem append_of_le {encoder : Encoder}
    (room : encoder.buffer.length + 4 + item.payload.length < 2 ^ 63) :
    encoder.append item = some { encoder with buffer := encoder.buffer ++ item.wire } := by
  have enough : (encoder.buffer ++ [0, 0, 0, 0]).length + item.payload.length < 2 ^ 63 := by
    simpa using room
  have inside : encoder.buffer.length + (leBytes 4 item.payload.length).length ≤
      (encoder.buffer ++ [0, 0, 0, 0] ++ item.payload).length := by simp
  simp only [append, SendItem.encode_of_le enough, Bytes.write, if_pos inside,
    Option.map_some, SendItem.wire]
  simp

/-- Items are appended to a frame one after the other. -/
theorem foldlM_cacheToSender {encoder : Encoder} (begun : encoder.buffer ≠ [])
    {batch : List SendItem}
    (room : encoder.buffer.length + (batch.flatMap SendItem.wire).length < 2 ^ 63) :
    batch.foldlM cacheToSender encoder = some { encoder with
        buffer := encoder.buffer ++ batch.flatMap SendItem.wire } := by
  induction batch generalizing encoder with
  | nil => simp
  | cons item batch ih =>
    rw [flatMap_cons, length_append] at room
    have wireLength : item.wire.length = 4 + item.payload.length := by simp [SendItem.wire]
    have notEmpty : ¬ encoder.buffer.isEmpty = true := by simpa using begun
    rw [foldlM_cons, cacheToSender, if_neg notEmpty, append_of_le (by omega), some_bind, ih]
    · rw [flatMap_cons, append_assoc]
    · simp [begun]
    · rw [length_append]
      omega

/-- The first item after a flush begins a frame. -/
theorem cacheToSender_between {id : Nat} {msgType : SendMessageType} {vtapId : UInt16}
    {first : Option SendItem} {sent : Nat} {item : SendItem}
    (room : 23 + item.payload.length < 2 ^ 63) :
    (between id msgType vtapId first sent).cacheToSender item = some
        { id := id
          header := frameHeader vtapId (first.getD item) (sent + 1)
          buffer := (frameHeader vtapId (first.getD item) (sent + 1)).encode [] ++ item.wire } := by
  have headed : ((between id msgType vtapId first sent).setMsgTypeAndVersion item).addHeader =
      { id := id
        header := frameHeader vtapId (first.getD item) (sent + 1)
        buffer := (frameHeader vtapId (first.getD item) (sent + 1)).encode [] } := by
    cases first with
    | none => simp [setMsgTypeAndVersion, addHeader, between, frameHeader]
    | some first =>
      simp [setMsgTypeAndVersion, addHeader, between, frameHeader, first.version_ne_zero]
  rw [cacheToSender, if_pos (by rfl), headed, append_of_le]
  rw [Header.length_encode, length_nil]
  omega

/-- The length of a frame replaces the four bytes reserved for it. -/
theorem setHeaderFrameSize_frame (id : Nat) (header : Header) {batch : List SendItem}
    (fits : frameLen batch < 2 ^ 32) : setHeaderFrameSize
        { id := id
          header := header
          buffer := header.encode [] ++ batch.flatMap SendItem.wire } =
      some
        { id := id
          header := header
          buffer := frame header batch } := by
  have length_eq : (header.encode [] ++ batch.flatMap SendItem.wire).length = frameLen batch := by
    rw [length_append, Header.length_encode, length_nil, Nat.zero_add, frameLen]
  have reserved : 4 ≤ frameLen batch := by
    rw [frameLen]
    omega
  have isSize : (UInt32.ofNat (frameLen batch)).toNat = frameLen batch := by
    rw [UInt32.toNat_ofNat', Nat.mod_eq_of_lt fits]
  simp only [setHeaderFrameSize, length_eq, Bytes.write, frame]
  simp [Header.encode, isSize, reserved]

theorem sendBatch_cons {id : Nat} {msgType : SendMessageType} {vtapId : UInt16}
    {first : Option SendItem} {sent : Nat} {item : SendItem} {batch : List SendItem}
    (fits : frameLen (item :: batch) < 2 ^ 32) :
    (between id msgType vtapId first sent).sendBatch (item :: batch) =
      some (between id msgType vtapId (some (first.getD item)) (sent + 1),
        some (frame (frameHeader vtapId (first.getD item) (sent + 1)) (item :: batch))) := by
  have lengths : frameLen (item :: batch) =
      23 + item.payload.length + (batch.flatMap SendItem.wire).length := by
    simp [frameLen, SendItem.wire]
    omega
  have notEmpty : 0 < frameLen (item :: batch) := by omega
  rw [sendBatch, foldlM_cons, cacheToSender_between (by omega), some_bind,
    foldlM_cacheToSender]
  · simp only [Option.bind_some, append_assoc, ← flatMap_cons]
    rw [flushEncoder, if_pos, setHeaderFrameSize_frame id _ fits]
    · rfl
    · rw [length_append, Header.length_encode]
      omega
  · simp [Header.encode]
  · rw [length_append, Header.length_encode, length_nil,
      SendItem.wire, length_append, length_leBytes]
    omega

theorem sendBatch_nil (id : Nat) (msgType : SendMessageType) (vtapId : UInt16)
    (first : Option SendItem) (sent : Nat) : (between id msgType vtapId first sent).sendBatch [] =
      some (between id msgType vtapId first sent, none) := rfl

/-- One frame is sent for every batch that is not empty, with the header of the
first item and consecutive numbers. -/
theorem runSteps_sendBatch {id : Nat} {msgType : SendMessageType} {vtapId : UInt16}
    {first : Option SendItem} {kind : SendItem} {sent : Nat} {batches : List (List SendItem)}
    (isKind : ∀ item ∈ first.or batches.flatten.head?, item = kind)
    (fits : ∀ batch ∈ batches, frameLen batch < 2 ^ 32) : ∃ encoder sends,
      runSteps sendBatch (between id msgType vtapId first sent) batches = some (encoder, sends) ∧
      sends.reduceOption = (batches.filter (· ≠ [])).mapIdx fun index batch =>
          frame (frameHeader vtapId kind (sent + index + 1)) batch := by
  induction batches generalizing first sent with
  | nil => exact ⟨_, [], rfl, rfl⟩
  | cons batch batches ih =>
    have fitsRest := fun batch isIn => fits batch (mem_cons_of_mem _ isIn)
    cases batch with
    | nil =>
      obtain ⟨encoder, sends, ran, areFrames⟩ := @ih first sent (by simpa using isKind) fitsRest
      refine ⟨encoder, none :: sends, ?_, ?_⟩
      · rw [runSteps_cons_of_step (sendBatch_nil ..), ran]
        rfl
      · rw [reduceOption_cons_of_none, areFrames]
        simp
    | cons item batch =>
      have same : first.getD item = kind := by
        cases first with
        | none => exact isKind item (by simp)
        | some first => exact isKind first (by simp)
      obtain ⟨encoder, sends, ran, areFrames⟩ := @ih (some kind) (sent + 1) (by simp) fitsRest
      have stepped := @sendBatch_cons id msgType vtapId first sent item batch
        (fits _ mem_cons_self)
      rw [same] at stepped
      refine ⟨encoder,
        some (frame (frameHeader vtapId kind (sent + 1)) (item :: batch)) :: sends, ?_, ?_⟩
      · rw [runSteps_cons_of_step stepped, ran]
        rfl
      · rw [reduceOption_cons_of_some, areFrames, filter_cons_of_pos (by simp), mapIdx_cons]
        simp only [Nat.add_zero, Nat.add_assoc, Nat.add_comm 1]

end Encoder
end Metaflow.Sender
