import Metaflow.Library.TrackedRead

/-!
# Message headers

`droplet-message.go`: every message to the server starts with the size of the
frame and the type of the message; messages of agents go on with a flow header.
-/

namespace Metaflow.Datatype

open Library

/-- The message types below `MESSAGE_TYPE_MAX`. -/
inductive MessageType where
  | compress
  | syslog
  | statsd
  | metrics
  | taggedflow
  | protocollog
  | opentelemetry
  | prometheus
  | telegraf
  | packetsequence
  | dfstatsd
  deriving DecidableEq

/-- The type with a number, `none` from `MESSAGE_TYPE_MAX` on. -/
def MessageType.ofByte (byte : UInt8) : Option MessageType :=
  match byte.toNat with
  | 0 => some .compress
  | 1 => some .syslog
  | 2 => some .statsd
  | 3 => some .metrics
  | 4 => some .taggedflow
  | 5 => some .protocollog
  | 6 => some .opentelemetry
  | 7 => some .prometheus
  | 8 => some .telegraf
  | 9 => some .packetsequence
  | 10 => some .dfstatsd
  | _ => none

/-- Which headers a message has, and whether its frame size is checked. -/
inductive MessageHeaderType where
  | lt
  | ltNocheck
  | ltVtap
  deriving DecidableEq

/-- `MessageHeaderTypes`; it has no entry for packet sequences, which get the
first header type. -/
def MessageType.headerType : MessageType -> MessageHeaderType
  | .compress => .lt
  | .syslog => .ltNocheck
  | .statsd => .ltNocheck
  | .metrics => .ltVtap
  | .taggedflow => .ltVtap
  | .protocollog => .ltVtap
  | .opentelemetry => .ltVtap
  | .prometheus => .ltVtap
  | .telegraf => .ltVtap
  | .packetsequence => .lt
  | .dfstatsd => .ltNocheck

/-- `MESSAGE_FRAME_SIZE_MAX` -/
def messageFrameSizeMax : Nat := 512000

/-- `MESSAGE_HEADER_LEN` -/
def messageHeaderLen : Nat := 5

/-- `FLOW_HEADER_LEN` -/
def flowHeaderLen : Nat := 14

structure BaseHeader where
  frameSize : UInt32
  type : MessageType
  deriving DecidableEq

namespace BaseHeader

/-- The error of a frame that is too small for its headers. -/
def tooSmall (type : UInt8) (frameSize : UInt32) (headerLen : Nat) : String :=
  "header type is " ++ toString type ++ " frame size is " ++
    toString frameSize ++ " smaller than header length " ++
    toString headerLen ++ ",  invalid"

/-- The checks of `Decode`. -/
def check (frameSize : UInt32) (byte : UInt8) : Except String BaseHeader :=
  match MessageType.ofByte byte with
  | none => .error ("header type " ++ toString byte ++ " is invalid")
  | some type =>
    match type.headerType with
    | .lt =>
      if frameSize.toNat ≤ messageHeaderLen then
        .error (tooSmall byte frameSize messageHeaderLen)
      else .ok { frameSize := frameSize, type := type }
    | .ltNocheck => .ok { frameSize := frameSize, type := type }
    | .ltVtap =>
      if frameSize.toNat < messageHeaderLen + flowHeaderLen then
        .error (tooSmall byte frameSize (messageHeaderLen + flowHeaderLen))
      else .ok { frameSize := frameSize, type := type }

/-- `Decode` -/
def decode (buf : Slice) : Reading (Except String BaseHeader) := do
  let frameSize ← buf.read 0 4
  let type ← buf.read 4 1
  return check (UInt32.ofNat (bigEndian frameSize)) (UInt8.ofNat (bigEndian type))

/-- What `Decode` answers for the bytes of a buffer. -/
def ofBytes (buf : Slice) : Except String BaseHeader :=
  check (UInt32.ofNat (bigEndian (buf.range 0 4))) (UInt8.ofNat (bigEndian (buf.range 4 1)))

theorem run_decode (inside : buf.offset + messageHeaderLen ≤ buf.bytes.length) (ranges : Ranges) :
    (decode buf).run ranges = some (ofBytes buf, ranges ++
        [(buf.offset, buf.offset + 4), (buf.offset + 4, buf.offset + 5)]) := by
  unfold messageHeaderLen at inside
  simp only [decode, StateT.run_bind, Option.bind_eq_bind,
    Slice.run_read (show buf.offset + 0 + 4 ≤ _ by omega),
    Slice.run_read (show buf.offset + 4 + 1 ≤ _ by omega), Option.bind_some]
  simp [ofBytes]

/-- A frame of a checked type is larger than its headers or as large. -/
theorem headers_le_of_check {frameSize : UInt32} (checked : check frameSize byte = .ok header) :
    (header.type.headerType = .lt -> messageHeaderLen < header.frameSize.toNat) ∧
    (header.type.headerType = .ltVtap ->
      messageHeaderLen + flowHeaderLen ≤ header.frameSize.toNat) := by
  unfold check at checked
  split at checked
  · cases checked
  · next type _ =>
      cases kind : type.headerType with
      | lt =>
        simp only [kind] at checked
        split at checked
        · cases checked
        · next large =>
            obtain rfl := Except.ok.inj checked
            simp only [kind, reduceCtorEq, false_implies, and_true]
            omega
      | ltNocheck =>
        simp only [kind] at checked
        obtain rfl := Except.ok.inj checked
        simp [kind]
      | ltVtap =>
        simp only [kind] at checked
        split at checked
        · cases checked
        · next large =>
            obtain rfl := Except.ok.inj checked
            simp only [kind, reduceCtorEq, false_implies, true_and]
            omega

end BaseHeader

structure FlowHeader where
  version : UInt32
  sequence : UInt64
  vtapID : UInt16
  deriving DecidableEq

namespace FlowHeader

/-- `Decode` -/
def decode (buf : Slice) : Reading FlowHeader := do
  let version ← buf.read 0 4
  let sequence ← buf.read 4 8
  let vtapID ← buf.read 12 2
  return {
    version := UInt32.ofNat (littleEndian version)
    sequence := UInt64.ofNat (littleEndian sequence)
    vtapID := UInt16.ofNat (littleEndian vtapID) }

/-- What `Decode` answers for the bytes of a buffer. -/
def ofBytes (buf : Slice) : FlowHeader where
  version := UInt32.ofNat (littleEndian (buf.range 0 4))
  sequence := UInt64.ofNat (littleEndian (buf.range 4 8))
  vtapID := UInt16.ofNat (littleEndian (buf.range 12 2))

theorem run_decode (inside : buf.offset + flowHeaderLen ≤ buf.bytes.length) (ranges : Ranges) :
    (decode buf).run ranges = some (ofBytes buf, ranges ++
        [(buf.offset, buf.offset + 4), (buf.offset + 4, buf.offset + 12),
          (buf.offset + 12, buf.offset + 14)]) := by
  unfold flowHeaderLen at inside
  simp only [decode, StateT.run_bind, Option.bind_eq_bind,
    Slice.run_read (show buf.offset + 0 + 4 ≤ _ by omega),
    Slice.run_read (show buf.offset + 4 + 8 ≤ _ by omega),
    Slice.run_read (show buf.offset + 12 + 2 ≤ _ by omega), Option.bind_some]
  simp [ofBytes]

end FlowHeader

end Metaflow.Datatype
