import Metaflow.Datatype.DropletMessage

/-!
# What the receive loops share

The receive buffers of `receiver.go`, the check of the version in a flow header
and the time in the first bytes of metrics.
-/

namespace Metaflow.Receiver

open Library
open Datatype

/-- `RECV_BUFSIZE` -/
def recvBufsize : Nat := messageFrameSizeMax

/-- The bytes of a receive buffer; the pool makes all of one length. -/
abbrev Buffer := { bytes : List UInt8 // bytes.length = recvBufsize }

/-- A whole buffer as a slice. -/
def Buffer.slice (buffer : Buffer) : Slice where
  bytes := buffer.val
  offset := 0

/-- A received message: the bytes from `beginAt` up to `endAt` are its body. -/
structure RecvBuffer where
  beginAt : Int
  endAt : Int
  buffer : Buffer
  ip : List UInt8
  vtapID : UInt16

/-- A message for the queue of its handler, with what is reported to the status
and to the drop detection. -/
structure Delivery where
  type : MessageType
  sequence : UInt64
  metricsTimestamp : UInt32
  recvBuffer : RecvBuffer

/-- The versions the decoders of a message type expect: `app.VERSION` and
`datatype.VERSION`. -/
def expectVersion : MessageType -> Option UInt32
  | .metrics => some 20220117
  | .taggedflow => some 20220128
  | .protocollog => some 20220128
  | _ => none

/-- `app.LAST_SIMPLE_CODEC_VERSION` -/
def lastSimpleCodecVersion : UInt32 := 20220111

def validateFlowVersion (type : MessageType) (version : UInt32) : Except String Unit :=
  match expectVersion type with
  | none => .ok ()
  | some expected =>
    if version ≠ expected then
      .error ("message version incorrect, expect " ++ toString expected ++
        ", found " ++ toString version ++ ".")
    else .ok ()

/-- A wrong version is only rejected if it is an old one. -/
def rejectsVersion (type : MessageType) (version : UInt32) : Bool :=
  match validateFlowVersion type version with
  | .ok _ => false
  | .error _ => version ≤ lastSimpleCodecVersion

/-- The first four bytes of metrics are their time; `now` stands in for it. -/
def getMetricsTimestamp (buffer : Slice) (now : UInt32) : Reading UInt32 :=
  if 4 ≤ buffer.length then do
    let timestamp ← buffer.read 0 4
    return UInt32.ofNat (littleEndian timestamp)
  else return now

theorem run_getMetricsTimestamp
    (inside : buffer.offset + 4 ≤ buffer.bytes.length) (now : UInt32) (ranges : Ranges) :
    (getMetricsTimestamp buffer now).run ranges =
      some (UInt32.ofNat (littleEndian (buffer.range 0 4)),
        ranges ++ [(buffer.offset, buffer.offset + 4)]) := by
  have long : 4 ≤ buffer.length := by
    unfold Slice.length
    omega
  simp only [getMetricsTimestamp, if_pos long, StateT.run_bind,
    Slice.run_read (show buffer.offset + 0 + 4 ≤ _ by omega)]
  rfl

end Metaflow.Receiver
