import Metaflow.Library.Run
import Metaflow.Receiver.RecvBuffer

/-!
# The TCP receive loop

`handleTCPConnection` cuts the bytes of a connection into frames: a message
header, for some types a flow header, and a body. The bytes arrive in pieces of
any length. `none` is a slice expression that panics.
-/

namespace Metaflow.Receiver

open Library List
open Datatype

/-- The pieces in which the rest of the bytes will arrive. -/
abbrev Conn := List (List UInt8)

/-- `ReadN`: read until the buffer is full, `none` if the connection ends
before. -/
def readN (count : Nat) : Conn -> Option (List UInt8 × Conn)
  | [] => if count = 0 then some ([], []) else none
  | piece :: rest =>
    if count = 0 then some ([], piece :: rest)
    else if count < piece.length then
      some (piece.take count, piece.drop count :: rest)
    else
      (readN (count - piece.length) rest).map fun (bytes, conn) =>
        (piece ++ bytes, conn)

/-- The buffer after bytes have been read to its beginning. -/
def Buffer.fill (buffer : Buffer) (bytes : List UInt8) : Buffer :=
  ⟨(bytes ++ buffer.val.drop bytes.length).take recvBufsize, by
    have length_eq := buffer.property
    rw [List.length_take, List.length_append, List.length_drop]
    omega⟩

/-- How a round ends: the connection is closed, a header-only frame is dropped,
complete or cut off, or a frame is queued. The last three say which bytes they
took. -/
inductive Outcome where
  | closed
  | truncated (header : BaseHeader) (bytes : List UInt8)
  | empty (header : BaseHeader) (bytes : List UInt8)
  | delivered (header : BaseHeader) (headerLen : Nat) (dataLen : Int)
      (bytes : List UInt8) (delivery : Delivery)

section Loop

variable (handlers : MessageType -> Bool) (now : UInt32) (ip : List UInt8)

/-- The time of a body in a buffer, 0 unless it is one of metrics. -/
def bodyTimestamp (header : BaseHeader) (buffer : Buffer) : Option UInt32 :=
  if header.type = .metrics then
    (getMetricsTimestamp buffer.slice now).run' []
  else some 0

/-- A round after the headers, which took `headerBytes`, with the buffer that
`AcquireRecvBuffer` returns. -/
def receiveBody (conn : Conn) (buffer : Buffer) (header : BaseHeader) (headerLen : Nat)
    (flowHeader : FlowHeader) (headerBytes : List UInt8) : Option (Option Conn × Outcome) :=
  let dataLen : Int := header.frameSize.toNat - headerLen
  if recvBufsize < dataLen then some (none, .closed)
  else if dataLen < 0 then none
  else
    match readN dataLen.toNat conn with
    | none => some (none, .closed)
    | some (body, conn) => do
        let buffer := buffer.fill body
        let metricsTimestamp ← bodyTimestamp now header buffer
        some (some conn, .delivered header headerLen dataLen (headerBytes ++ body)
          { type := header.type
            sequence := flowHeader.sequence
            metricsTimestamp := metricsTimestamp
            recvBuffer :=
              { beginAt := 0
                endAt := dataLen
                buffer := buffer
                ip := ip
                vtapID := flowHeader.vtapID } })

/-- The part of a round after the message header. -/
def receiveFrame (conn : Conn) (buffer : Buffer) (header : BaseHeader)
    (headerBytes : List UInt8) : Option (Option Conn × Outcome) :=
  if header.frameSize.toNat = messageHeaderLen + flowHeaderLen then
    match readN flowHeaderLen conn with
    | none => some (some [], .truncated header (headerBytes ++ conn.flatten))
    | some (flowBytes, conn) => some (some conn, .empty header (headerBytes ++ flowBytes))
  else if !handlers header.type then some (none, .closed)
  else if header.type.headerType = .ltVtap then
    match readN flowHeaderLen conn with
    | none => some (none, .closed)
    | some (flowBytes, conn) => do
        let flowHeader ← (FlowHeader.decode ⟨flowBytes, 0⟩).run' []
        if rejectsVersion header.type flowHeader.version then
          some (none, .closed)
        else
          receiveBody now ip conn buffer header (messageHeaderLen + flowHeaderLen) flowHeader
            (headerBytes ++ flowBytes)
  else
    receiveBody now ip conn buffer header messageHeaderLen ⟨0, 0, 0⟩ headerBytes

/-- One round of `handleTCPConnection`; nothing happens on a connection that
is closed. -/
def handleFrame : Option Conn -> Buffer -> Option (Option Conn × Outcome)
  | none, _ => some (none, .closed)
  | some conn, buffer =>
    match readN messageHeaderLen conn with
    | none => some (none, .closed)
    | some (headerBytes, conn) => do
        match ← (BaseHeader.decode ⟨headerBytes, 0⟩).run' [] with
        | .error _ => some (none, .closed)
        | .ok header => receiveFrame handlers now ip conn buffer header headerBytes

/-- `handleTCPConnection` until `exit` is set: one round for each buffer that
the pool hands out. -/
def handleTCPConnection (conn : Conn)
    (buffers : List Buffer) : Option (Option Conn × List Outcome) :=
  runSteps (handleFrame handlers now ip) (some conn) buffers

end Loop

variable {count : Nat} {conn : Conn}

/-- `ReadN` takes the next bytes, however they are cut into pieces. -/
theorem readN_of_le (enough : count ≤ conn.flatten.length) :
    ∃ rest, readN count conn = some (conn.flatten.take count, rest) ∧
      rest.flatten = conn.flatten.drop count := by
  induction conn generalizing count with
  | nil =>
    have isZero : count = 0 := by simpa using enough
    subst isZero
    exact ⟨[], rfl, rfl⟩
  | cons piece conn ih =>
    rw [flatten_cons, length_append] at enough
    unfold readN
    by_cases isZero : count = 0
    · subst isZero
      exact ⟨piece :: conn, by simp, by simp⟩
    · rw [if_neg isZero, flatten_cons]
      split_ifs with inside
      · refine ⟨piece.drop count :: conn, ?_, ?_⟩
        · rw [take_append_of_le_length (Nat.le_of_lt inside)]
        · rw [flatten_cons, drop_append_of_le_length (Nat.le_of_lt inside)]
      · obtain ⟨rest, isRead, remains⟩ := ih (show count - piece.length ≤ _ by omega)
        have whole : piece.length ≤ count := Nat.le_of_not_lt inside
        refine ⟨rest, ?_, ?_⟩
        · rw [isRead, take_append, take_of_length_le whole]
          rfl
        · rw [remains, drop_append, drop_of_length_le whole, nil_append]

theorem readN_of_lt (short : conn.flatten.length < count) : readN count conn = none := by
  induction conn generalizing count with
  | nil =>
    have notZero : count ≠ 0 := by
      rintro rfl
      simp at short
    exact if_neg notZero
  | cons piece conn ih =>
    rw [flatten_cons, length_append] at short
    unfold readN
    rw [if_neg (by omega), if_neg (by omega), ih (by omega)]
    rfl

theorem readN_spec (isRead : readN count conn = some (bytes, rest)) :
    bytes.length = count ∧ conn.flatten = bytes ++ rest.flatten := by
  by_cases enough : count ≤ conn.flatten.length
  · obtain ⟨rest', isRead', remains⟩ := readN_of_le enough
    rw [isRead] at isRead'
    obtain ⟨rfl, rfl⟩ := Prod.mk.inj (Option.some.inj isRead')
    rw [remains, take_append_drop]
    exact ⟨length_take_of_le enough, rfl⟩
  · rw [readN_of_lt (Nat.lt_of_not_le enough)] at isRead
    cases isRead

/-- The bytes that a round took. -/
def Outcome.bytes : Outcome -> List UInt8
  | .closed => []
  | .truncated _ bytes => bytes
  | .empty _ bytes => bytes
  | .delivered _ _ _ bytes _ => bytes

/-- The size covers the headers, a complete frame is as long as its header says,
and the body fits into a buffer. -/
def Outcome.WellFramed : Outcome -> Prop
  | .closed => True
  | .truncated header _ => messageHeaderLen + flowHeaderLen ≤ header.frameSize.toNat
  | .empty header bytes =>
    messageHeaderLen + flowHeaderLen ≤ header.frameSize.toNat ∧
      bytes.length = header.frameSize.toNat
  | .delivered header headerLen dataLen bytes delivery =>
    headerLen ≤ header.frameSize.toNat ∧ bytes.length = header.frameSize.toNat ∧
      0 ≤ dataLen ∧ dataLen ≤ recvBufsize ∧
      delivery.recvBuffer.beginAt = 0 ∧
      delivery.recvBuffer.endAt = dataLen

/-- A round is well framed, and the bytes it took and those left are the bytes
there were. -/
def Outcome.Framed (outcome : Outcome) (stream : List UInt8) (next : Option Conn) : Prop :=
  outcome.WellFramed ∧ ∀ rest, next = some rest -> stream = outcome.bytes ++ rest.flatten

theorem Outcome.framed_closed (stream : List UInt8) : Outcome.closed.Framed stream none :=
  ⟨trivial, by simp⟩

/-- The next header is not of an unchecked type with a handler and a frame size
below its own size. -/
def FrameFits (handlers : MessageType -> Bool) : Option Conn -> Buffer -> Prop
  | none, _ => True
  | some conn, _ =>
    ∀ headerBytes rest header, readN messageHeaderLen conn = some (headerBytes, rest) ->
      BaseHeader.ofBytes ⟨headerBytes, 0⟩ = .ok header ->
      header.type.headerType = .ltNocheck ->
      handlers header.type = true ->
      messageHeaderLen ≤ header.frameSize.toNat

section Proofs

variable {handlers : MessageType -> Bool} {now : UInt32} {ip : List UInt8}

/-- A receive buffer is long enough for the time of metrics. -/
theorem bodyTimestamp_isSome (now : UInt32) (header : BaseHeader) (buffer : Buffer) :
    ∃ timestamp, bodyTimestamp now header buffer = some timestamp := by
  unfold bodyTimestamp
  split
  · have inside : buffer.slice.offset + 4 ≤ buffer.slice.bytes.length := by
      change 0 + 4 ≤ buffer.val.length
      rw [buffer.property]
      decide
    have timed := run_getMetricsTimestamp inside now []
    exact ⟨_, congrArg (Option.map Prod.fst) timed⟩
  · exact ⟨0, rfl⟩

section

variable (state : Option Conn) (conn : Conn) (buffer : Buffer)

theorem receiveBody_framed (header : BaseHeader) (flowHeader : FlowHeader)
    (length_eq : headerBytes.length = headerLen) (covers : headerLen ≤ header.frameSize.toNat) :
    ∃ next outcome, receiveBody now ip conn buffer header headerLen flowHeader
        headerBytes = some (next, outcome) ∧ outcome.Framed (headerBytes ++ conn.flatten) next := by
  unfold receiveBody
  by_cases tooLong : (recvBufsize : Int) < header.frameSize.toNat - headerLen
  · exact ⟨none, .closed, if_pos tooLong, Outcome.framed_closed _⟩
  · have notNegative : ¬ (header.frameSize.toNat : Int) - headerLen < 0 := by omega
    simp only [if_neg tooLong, if_neg notNegative]
    cases isRead : readN ((header.frameSize.toNat : Int) - headerLen).toNat conn with
    | none => exact ⟨none, .closed, rfl, Outcome.framed_closed _⟩
    | some taken =>
      obtain ⟨body, rest⟩ := taken
      obtain ⟨bodyLength, split⟩ := readN_spec isRead
      obtain ⟨timestamp, timed⟩ := bodyTimestamp_isSome now header (buffer.fill body)
      simp only [timed, some_bind]
      refine ⟨_, _, rfl, ?_, ?_⟩
      · refine ⟨covers, ?_, by omega, by omega, rfl, rfl⟩
        rw [length_append, length_eq, bodyLength]
        omega
      · intro remaining isRest
        obtain rfl := Option.some.inj isRest
        rw [split, Outcome.bytes, append_assoc]

/-- The flow header of a buffer that `ReadN` has filled. -/
theorem decodeFlow_of_length (length_eq : flowBytes.length = flowHeaderLen) :
    (FlowHeader.decode ⟨flowBytes, 0⟩).run' [] = some (FlowHeader.ofBytes ⟨flowBytes, 0⟩) := by
  have inside : (⟨flowBytes, 0⟩ : Slice).offset + flowHeaderLen ≤
      (⟨flowBytes, 0⟩ : Slice).bytes.length := by simp [length_eq]
  exact congrArg (Option.map Prod.fst) (FlowHeader.run_decode inside [])

/-- The message header of a buffer that `ReadN` has filled. -/
theorem decodeBase_of_length (length_eq : headerBytes.length = messageHeaderLen) :
    (BaseHeader.decode ⟨headerBytes, 0⟩).run' [] = some (BaseHeader.ofBytes ⟨headerBytes, 0⟩) := by
  have inside : (⟨headerBytes, 0⟩ : Slice).offset + messageHeaderLen ≤
      (⟨headerBytes, 0⟩ : Slice).bytes.length := by simp [length_eq]
  exact congrArg (Option.map Prod.fst) (BaseHeader.run_decode inside [])

/-- After a message header that covers its headers the round is framed. -/
theorem receiveFrame_framed (length_eq : headerBytes.length = messageHeaderLen)
    (coversBase : handlers header.type = true -> messageHeaderLen ≤ header.frameSize.toNat)
    (coversFlow : header.type.headerType = .ltVtap ->
      messageHeaderLen + flowHeaderLen ≤ header.frameSize.toNat) : ∃ next outcome,
      receiveFrame handlers now ip conn buffer header headerBytes = some (next, outcome) ∧
      outcome.Framed (headerBytes ++ conn.flatten) next := by
  unfold receiveFrame
  by_cases headerOnly : header.frameSize.toNat = messageHeaderLen + flowHeaderLen
  · rw [if_pos headerOnly]
    cases isRead : readN flowHeaderLen conn with
    | none =>
      refine ⟨some [], _, rfl, Nat.le_of_eq headerOnly.symm, ?_⟩
      intro rest isRest
      obtain rfl := Option.some.inj isRest
      simp [Outcome.bytes]
    | some taken =>
      obtain ⟨flowBytes, rest⟩ := taken
      obtain ⟨flowLength, split⟩ := readN_spec isRead
      refine ⟨some rest, _, rfl, ⟨Nat.le_of_eq headerOnly.symm, ?_⟩, ?_⟩
      · rw [length_append, length_eq, flowLength, headerOnly]
      · intro remaining isRest
        obtain rfl := Option.some.inj isRest
        rw [split, Outcome.bytes, append_assoc]
  · rw [if_neg headerOnly]
    cases registered : handlers header.type with
    | false => exact ⟨none, .closed, rfl, Outcome.framed_closed _⟩
    | true =>
      simp only [Bool.not_true, Bool.false_eq_true, if_false]
      split_ifs with isFlow
      · cases isRead : readN flowHeaderLen conn with
        | none => exact ⟨none, .closed, rfl, Outcome.framed_closed _⟩
        | some taken =>
          obtain ⟨flowBytes, rest⟩ := taken
          obtain ⟨flowLength, split⟩ := readN_spec isRead
          simp only [decodeFlow_of_length flowLength, some_bind]
          split_ifs with rejected
          · exact ⟨none, .closed, rfl, Outcome.framed_closed _⟩
          · rw [split, ← append_assoc]
            apply receiveBody_framed
            · rw [length_append, length_eq, flowLength]
            · exact coversFlow isFlow
      · exact receiveBody_framed conn buffer header _ length_eq (coversBase registered)

/-- A round whose frame fits succeeds and is framed. -/
theorem handleFrame_framed (fits : FrameFits handlers state buffer) :
    ∃ next outcome, handleFrame handlers now ip state buffer = some (next, outcome) ∧
      outcome.WellFramed ∧ ∀ rest, next = some rest -> ∃ conn, state = some conn ∧
        conn.flatten = outcome.bytes ++ rest.flatten := by
  have closed : ∃ next outcome,
      (some (none, .closed) : Option (Option Conn × Outcome)) = some (next, outcome) ∧
      outcome.WellFramed ∧
      ∀ rest, next = some rest -> ∃ conn, state = some conn ∧
        conn.flatten = outcome.bytes ++ rest.flatten :=
    ⟨none, .closed, rfl, trivial, by simp⟩
  cases state with
  | none => exact closed
  | some conn =>
    simp only [handleFrame]
    cases isRead : readN messageHeaderLen conn with
    | none => exact closed
    | some taken =>
      obtain ⟨headerBytes, rest⟩ := taken
      obtain ⟨headerLength, split⟩ := readN_spec isRead
      simp only [decodeBase_of_length headerLength, some_bind]
      cases decoded : BaseHeader.ofBytes ⟨headerBytes, 0⟩ with
      | error message => exact closed
      | ok header =>
        obtain ⟨checkedLt, checkedFlow⟩ := BaseHeader.headers_le_of_check decoded
        have coversBase : handlers header.type = true ->
            messageHeaderLen ≤ header.frameSize.toNat := by
          intro registered
          cases kind : header.type.headerType with
          | lt => exact Nat.le_of_lt (checkedLt kind)
          | ltNocheck => exact fits headerBytes rest header isRead decoded kind registered
          | ltVtap => exact Nat.le_trans (Nat.le_add_right _ _) (checkedFlow kind)
        obtain ⟨next, outcome, received, wellFramed, accounts⟩ :=
          receiveFrame_framed rest buffer headerLength coversBase checkedFlow
        refine ⟨next, outcome, received, wellFramed, ?_⟩
        intro remaining isRest
        refine ⟨conn, rfl, ?_⟩
        rw [split]
        exact accounts remaining isRest

theorem handleFrame_eq_none (misfit : ¬ FrameFits handlers state buffer) :
    handleFrame handlers now ip state buffer = none := by
  cases state with
  | none => exact absurd trivial misfit
  | some conn =>
    simp only [FrameFits, not_forall, Nat.not_le] at misfit
    obtain ⟨headerBytes, rest, header, isRead, decoded, kind, registered, small⟩ := misfit
    obtain ⟨headerLength, _⟩ := readN_spec isRead
    have notHeaderOnly : header.frameSize.toNat ≠ messageHeaderLen + flowHeaderLen := by omega
    have notFlow : header.type.headerType ≠ .ltVtap := by
      rw [kind]
      decide
    have notLong : ¬ (recvBufsize : Int) < (header.frameSize.toNat : Int) - messageHeaderLen := by
      omega
    have negative : (header.frameSize.toNat : Int) - messageHeaderLen < 0 := by omega
    simp only [handleFrame, isRead, decodeBase_of_length headerLength,
      decoded, some_bind, receiveFrame,
      if_neg notHeaderOnly, registered, Bool.not_true, Bool.false_eq_true,
      if_false, if_neg notFlow, receiveBody, if_neg notLong,
      if_pos negative]

end

/-- Rounds whose frames fit cut the stream into frames. -/
theorem runSteps_framed
    (fits : Guarded (FrameFits handlers) (handleFrame handlers now ip) state buffers) :
    ∃ final outcomes,
      runSteps (handleFrame handlers now ip) state buffers = some (final, outcomes) ∧
      (∀ outcome ∈ outcomes, outcome.WellFramed) ∧
      ∀ rest, final = some rest -> ∃ conn, state = some conn ∧
        conn.flatten = outcomes.flatMap Outcome.bytes ++ rest.flatten := by
  induction buffers generalizing state with
  | nil =>
    refine ⟨state, [], rfl, by simp, ?_⟩
    intro rest isRest
    exact ⟨rest, isRest, by simp⟩
  | cons buffer buffers ih =>
    obtain ⟨fitsNow, fitsLater⟩ := fits
    obtain ⟨next, outcome, handled, wellFramed, accounts⟩ := handleFrame_framed state buffer fitsNow
    obtain ⟨final, outcomes, ran, allFramed, accountsLater⟩ := ih (fitsLater next outcome handled)
    refine ⟨final, outcome :: outcomes, ?_, ?_, ?_⟩
    · rw [runSteps_cons_of_step handled, ran]
      rfl
    · exact forall_mem_cons.mpr ⟨wellFramed, allFramed⟩
    · intro rest isRest
      obtain ⟨middle, isMiddle, splitLater⟩ := accountsLater rest isRest
      obtain ⟨conn, isConn, split⟩ := accounts middle isMiddle
      refine ⟨conn, isConn, ?_⟩
      rw [split, splitLater, flatMap_cons, append_assoc]

/-- On every connection, cut into any pieces, all rounds pass without a panic
and cut the stream into well-framed frames exactly if the header of every round
fits. -/
theorem handleTCPConnection_framed_iff (handlers : MessageType -> Bool) (now : UInt32)
    (ip : List UInt8) (conn : Conn) (buffers : List Buffer) :
    (∃ final outcomes, handleTCPConnection handlers now ip conn buffers = some (final, outcomes) ∧
      (∀ outcome ∈ outcomes, outcome.WellFramed) ∧
      ∀ rest, final = some rest -> conn.flatten = outcomes.flatMap Outcome.bytes ++ rest.flatten) ↔
      Guarded (FrameFits handlers) (handleFrame handlers now ip) (some conn)
        buffers := by
  constructor
  · rintro ⟨final, outcomes, ran, _⟩
    exact Guarded.of_runSteps handleFrame_eq_none ran
  · intro fits
    obtain ⟨final, outcomes, ran, allFramed, accounts⟩ := runSteps_framed fits
    refine ⟨final, outcomes, ran, allFramed, ?_⟩
    intro rest isRest
    obtain ⟨conn', isConn, split⟩ := accounts rest isRest
    obtain rfl := Option.some.inj isConn
    exact split

/-- A syslog message with frame size 0 makes the loop panic. -/
theorem small_frame_panics :
    handleTCPConnection (fun _ => true) 0 [127, 0, 0, 1] [[0, 0, 0, 0, 1]]
      [⟨List.replicate recvBufsize 0, List.length_replicate⟩] = none := by
  have misfit : ¬ FrameFits (fun _ => true) (some [[0, 0, 0, 0, 1]])
      ⟨List.replicate recvBufsize 0, List.length_replicate⟩ := by
    intro fits
    have large := fits [0, 0, 0, 0, 1] [] ⟨0, .syslog⟩ rfl rfl rfl rfl
    exact absurd large (by decide)
  unfold handleTCPConnection runSteps
  rw [handleFrame_eq_none _ _ misfit]

end Proofs

end Metaflow.Receiver
