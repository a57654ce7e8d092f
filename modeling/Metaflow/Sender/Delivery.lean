import Metaflow.Codec.SimpleDecoder
import Metaflow.Receiver.Frames
import Metaflow.Sender.Encoder
import Mathlib.Data.List.Forall2

/-!
# From the encoder to the decoders

The stream of an encoder, cut into any pieces, is received frame by frame by
the TCP loop of the server, and the length-prefixed reads of its decoders give
back the items.
-/

namespace Metaflow.Sender

open Library List
open Datatype
open Receiver
open Codec

/-- The frame of some items, as the server sees it. -/
def wireFrame (vtapId : UInt16) (kind : SendItem) (sequence : Nat)
    (batch : List SendItem) : WireFrame where
  typeByte := kind.messageType.toByte
  flowHeader :=
    { version := kind.version
      sequence := UInt64.ofNat sequence
      vtapID := vtapId }
  body := batch.flatMap SendItem.wire

theorem size_wireFrame (vtapId : UInt16) (kind : SendItem) (sequence : Nat)
    (batch : List SendItem) : (wireFrame vtapId kind sequence batch).size = frameLen batch := rfl

variable {batch : List SendItem} {type : MessageType} {α : Type}

/-- Both sides lay a frame out in the same way. -/
theorem frame_eq_bytes (vtapId : UInt16) (kind : SendItem) (sequence : Nat)
    (fits : frameLen batch < 2 ^ 32) : frame (Encoder.frameHeader vtapId kind sequence) batch =
      (wireFrame vtapId kind sequence batch).bytes := by
  have isSize : (UInt32.ofNat (frameLen batch)).toNat = frameLen batch := by
    rw [UInt32.toNat_ofNat', Nat.mod_eq_of_lt fits]
  simp only [frame, Header.encode, Encoder.frameHeader, isSize,
    WireFrame.bytes, WireFrame.baseBytes, WireFrame.flowBytes, size_wireFrame,
    nil_append, append_assoc]
  rfl

/-- The server knows the types of all items, and accepts their versions. -/
theorem SendItem.exists_messageType (item : SendItem) :
    ∃ type, MessageType.ofByte item.messageType.toByte = some type ∧ type.headerType = .ltVtap ∧
      rejectsVersion type item.version = false := by
  cases item with
  | l4FlowLog _ => exact ⟨.taggedflow, rfl, rfl, rfl⟩
  | l7FlowLog _ => exact ⟨.protocollog, rfl, rfl, rfl⟩
  | metrics _ => exact ⟨.metrics, rfl, rfl, rfl⟩
  | externalOtel _ => exact ⟨.opentelemetry, rfl, rfl, rfl⟩
  | externalProm _ => exact ⟨.prometheus, rfl, rfl, rfl⟩
  | externalTelegraf _ => exact ⟨.telegraf, rfl, rfl, rfl⟩

theorem wireFrame_accepted
    (registered : ∀ type, type.headerType = .ltVtap -> handlers type = true) (vtapId : UInt16)
    (isType : MessageType.ofByte kind.messageType.toByte = some type) (sequence : Nat)
    (notEmpty : batch ≠ []) (fits : frameLen batch ≤ messageFrameSizeMax) :
    (wireFrame vtapId kind sequence batch).Accepted handlers type := by
  obtain ⟨type', isType', hasFlowHeader, supported⟩ := kind.exists_messageType
  obtain rfl : type = type' := Option.some.inj (isType.symm.trans isType')
  refine ⟨isType, hasFlowHeader, registered _ hasFlowHeader, supported, ?_, fits⟩
  cases batch with
  | nil => exact absurd rfl notEmpty
  | cons item batch => simp [wireFrame, SendItem.wire]

/-- The frames of a run in which the first item is `kind`. -/
def wireFrames (vtapId : UInt16) (kind : SendItem)
    (batches : List (List SendItem)) : List WireFrame :=
  (batches.filter (· ≠ [])).mapIdx fun index batch =>
    wireFrame vtapId kind (index + 1) batch

/-- What an encoder sends is received as its frames, however it is cut into
pieces. -/
theorem handleTCPConnection_of_sends (id : Nat) (msgType : SendMessageType) (vtapId : UInt16)
    {batches : List (List SendItem)}
    (fits : ∀ batch ∈ batches, frameLen batch ≤ messageFrameSizeMax) {kind : SendItem}
    (isKind : ∀ item ∈ batches.flatten.head?, item = kind) {type : MessageType}
    (isType : MessageType.ofByte kind.messageType.toByte = some type)
    {handlers : MessageType -> Bool}
    (registered : ∀ type, type.headerType = .ltVtap -> handlers type = true) (now : UInt32)
    (ip : List UInt8) : ∃ encoder sends,
      runSteps Encoder.sendBatch (Encoder.new id msgType vtapId) batches = some (encoder, sends) ∧
      ∀ (pieces : Conn) (buffers : List Buffer), pieces.flatten = sends.reduceOption.flatten ->
        buffers.length = sends.reduceOption.length -> ∃ rest outcomes deliveries,
          handleTCPConnection handlers now ip pieces buffers = some (some rest, outcomes) ∧
          rest.flatten = [] ∧ outcomes.map Outcome.delivery = deliveries.map some ∧
          List.Forall₂ (fun delivery frame => delivery.Carries frame type)
            deliveries (wireFrames vtapId kind batches) := by
  have short : ∀ batch ∈ batches, frameLen batch < 2 ^ 32 := by
    intro batch isIn
    have := fits batch isIn
    unfold messageFrameSizeMax at this
    omega
  obtain ⟨encoder, sends, ran, areFrames⟩ :=
    @Encoder.runSteps_sendBatch id msgType vtapId none kind 0 batches (by simpa using isKind) short
  have areBytes : sends.reduceOption = (wireFrames vtapId kind batches).map WireFrame.bytes := by
    rw [areFrames, wireFrames]
    apply ext_getElem
    · simp
    · intro index inside _
      simp only [getElem_mapIdx, getElem_map, Nat.zero_add]
      apply frame_eq_bytes
      apply short
      exact mem_of_mem_filter (getElem_mem _)
  have accepted : ∀ frame ∈ wireFrames vtapId kind batches, frame.Accepted handlers type := by
    intro frame isIn
    obtain ⟨index, inside, rfl⟩ := mem_mapIdx.mp isIn
    have isBatch := getElem_mem inside
    rw [mem_filter] at isBatch
    exact wireFrame_accepted registered vtapId isType _
      (by simpa using isBatch.2) (fits _ isBatch.1)
  refine ⟨encoder, sends, ran, ?_⟩
  intro pieces buffers split length_eq
  rw [areBytes] at split length_eq
  obtain ⟨rest, outcomes, deliveries, handled, remains, areDeliveries, carried⟩ :=
    @handleTCPConnection_of_frames handlers now ip pieces
      ((wireFrames vtapId kind batches).map fun frame => (frame, type)) buffers
      (by simpa using accepted)
      (by rw [split, flatMap_map, flatMap_def])
      (by simpa using length_eq)
  rw [forall₂_map_right_iff] at carried
  exact ⟨rest, outcomes, deliveries, handled, remains, areDeliveries, carried⟩

/-- The deliveries give back all items in order, with the id of the agent, the
type of the first item and consecutive numbers. -/
structure Received {α : Type} (unmarshal : List UInt8 -> Except String α)
    (value : SendItem -> α) (vtapId : UInt16) (batches : List (List SendItem))
    (deliveries : List Delivery) : Prop where
  items_eq : ∃ bodies : List (List UInt8), deliveries.map (·.recvBuffer.body) = bodies.map some ∧
    bodies.flatMap (SimpleDecoder.items (SimpleDecoder.readPB unmarshal)) =
      batches.flatten.map (fun item => .ok (value item)) ∧
    bodies.flatMap (SimpleDecoder.items SimpleDecoder.readBytes) =
      batches.flatten.map SendItem.payload
  vtapID_eq : ∀ delivery ∈ deliveries, delivery.recvBuffer.vtapID = vtapId
  type_eq : ∀ delivery ∈ deliveries, ∀ first ∈ batches.flatten.head?,
    MessageType.ofByte first.messageType.toByte = some delivery.type
  sequence_eq : deliveries.map (·.sequence) =
    (List.range deliveries.length).map fun index => UInt64.ofNat (index + 1)

theorem map_eq_of_forall₂ {β γ : Type} {relation : α -> β -> Prop} {lefts : List α}
    {rights : List β} (related : List.Forall₂ relation lefts rights) {f : α -> γ} {g : β -> γ}
    (agree : ∀ left right, relation left right -> f left = g right) :
    lefts.map f = rights.map g := by
  have same : List.Forall₂ (· = ·) (lefts.map f) (rights.map g) := by
    rw [forall₂_map_left_iff, forall₂_map_right_iff]
    exact related.imp agree
  rwa [forall₂_eq_eq_eq] at same

/-- A payload in a frame that fits is short enough for its length field. -/
theorem payload_length_lt (fits : frameLen batch ≤ messageFrameSizeMax)
    (isIn : item ∈ batch) : item.payload.length < 2 ^ 32 := by
  obtain ⟨before, behind, rfl⟩ := append_of_mem isIn
  rw [frameLen, flatMap_append, flatMap_cons, length_append,
    length_append, SendItem.wire, length_append,
    messageFrameSizeMax] at fits
  omega

/-- The bodies of the frames are read back by a read that takes payloads. -/
theorem flatMap_items_bodies {read : SimpleDecoder -> SimpleDecoder × α}
    {item : SendItem -> α} {batches : List (List SendItem)}
    (reads : ∀ batch ∈ batches, ∀ s ∈ batch, SimpleDecoder.ReadsPrefixed read s.payload (item s))
    (vtapId : UInt16) (kind : SendItem) :
    ((wireFrames vtapId kind batches).map WireFrame.body).flatMap
        (SimpleDecoder.items read) = batches.flatten.map item := by
  have bodies_eq : (wireFrames vtapId kind batches).map WireFrame.body =
      (batches.filter (· ≠ [])).map (·.flatMap SendItem.wire) := by
    apply ext_getElem
    · simp [wireFrames]
    · intro index _ _
      simp [wireFrames, wireFrame]
  have perBatch : ∀ batch ∈ batches.filter (· ≠ []),
      SimpleDecoder.items read (batch.flatMap SendItem.wire) = batch.map item := by
    intro batch isIn
    exact SimpleDecoder.items_of_readsPrefixed (reads batch (mem_of_mem_filter isIn))
  rw [bodies_eq, flatMap_map, flatMap_congr perBatch,
    flatMap_def, ← map_flatten, flatten_filter_ne_nil]

theorem exists_frame_of_mem {deliveries : List Delivery} {frames : List WireFrame}
    (carried : List.Forall₂ (fun delivery frame => delivery.Carries frame type) deliveries frames)
    {delivery : Delivery} (isIn : delivery ∈ deliveries) :
    ∃ frame ∈ frames, delivery.Carries frame type := by
  obtain ⟨index, inside, rfl⟩ := getElem_of_mem isIn
  have inside' : index < frames.length := carried.length_eq ▸ inside
  exact ⟨frames[index], getElem_mem inside', carried.get inside inside'⟩

/-- Deliveries that carry the frames of a run give back its items. -/
theorem received_of_carries {unmarshal : List UInt8 -> Except String α}
    {value : SendItem -> α} {batches : List (List SendItem)}
    (fits : ∀ batch ∈ batches, frameLen batch ≤ messageFrameSizeMax)
    (reads : ∀ item ∈ batches.flatten, unmarshal item.payload = .ok (value item))
    {vtapId : UInt16} {kind : SendItem} (isKind : ∀ item ∈ batches.flatten.head?, item = kind)
    (isType : MessageType.ofByte kind.messageType.toByte = some type) {deliveries : List Delivery}
    (carried : List.Forall₂ (fun delivery frame => delivery.Carries frame type)
      deliveries (wireFrames vtapId kind batches)) :
    Received unmarshal value vtapId batches deliveries where
  items_eq := by
    refine ⟨(wireFrames vtapId kind batches).map WireFrame.body, ?_, ?_, ?_⟩
    · rw [map_map]
      exact map_eq_of_forall₂ carried fun _ _ carries => carries.body_eq
    · apply flatMap_items_bodies
      intro batch isBatch item isItem
      exact SimpleDecoder.readPB_readsPrefixed (payload_length_lt (fits batch isBatch) isItem)
        (reads item (mem_flatten_of_mem isBatch isItem))
    · apply flatMap_items_bodies
      intro batch isBatch item isItem
      exact SimpleDecoder.readBytes_readsPrefixed (payload_length_lt (fits batch isBatch) isItem)
  vtapID_eq := by
    intro delivery isIn
    obtain ⟨frame, isFrame, carries⟩ := exists_frame_of_mem carried isIn
    obtain ⟨index, inside, rfl⟩ := mem_mapIdx.mp isFrame
    exact carries.vtapID_eq
  type_eq := by
    intro delivery isIn first isFirst
    obtain ⟨frame, isFrame, carries⟩ := exists_frame_of_mem carried isIn
    rw [isKind first isFirst, isType, carries.type_eq]
  sequence_eq := by
    have same : deliveries.map (·.sequence) =
        (wireFrames vtapId kind batches).map (·.flowHeader.sequence) :=
      map_eq_of_forall₂ carried fun _ _ carries => carries.sequence_eq
    rw [same, carried.length_eq]
    apply ext_getElem
    · simp
    · intro index _ _
      simp [wireFrames, wireFrame]

/-- For every sequence of items and all flush points with frames that fit, the
stream is received completely, in any pieces: the decoders get back the items,
with the id of the agent, the type of the first item and consecutive numbers. -/
theorem stream_received (id : Nat) (msgType : SendMessageType) (vtapId : UInt16)
    {batches : List (List SendItem)}
    (fits : ∀ batch ∈ batches, frameLen batch ≤ messageFrameSizeMax)
    {handlers : MessageType -> Bool}
    (registered : ∀ type, type.headerType = .ltVtap -> handlers type = true) (now : UInt32)
    (ip : List UInt8) {α : Type} {unmarshal : List UInt8 -> Except String α} {value : SendItem -> α}
    (reads : ∀ item ∈ batches.flatten, unmarshal item.payload = .ok (value item)) :
    ∃ encoder sends,
      runSteps Encoder.sendBatch (Encoder.new id msgType vtapId) batches = some (encoder, sends) ∧
      ∀ (pieces : Conn) (buffers : List Buffer), pieces.flatten = sends.reduceOption.flatten ->
        buffers.length = sends.reduceOption.length ->
        ∃ rest outcomes deliveries,
          handleTCPConnection handlers now ip pieces buffers = some (some rest, outcomes) ∧
          rest.flatten = [] ∧
          outcomes.map Outcome.delivery = deliveries.map some ∧
          Received unmarshal value vtapId batches deliveries := by
  obtain ⟨kind, isKind⟩ : ∃ kind, ∀ item ∈ batches.flatten.head?, item = kind := by
    cases head : batches.flatten.head? with
    | none => exact ⟨.metrics [], by simp⟩
    | some first => exact ⟨first, by simp⟩
  obtain ⟨type, isType, _⟩ := kind.exists_messageType
  obtain ⟨encoder, sends, ran, received⟩ := handleTCPConnection_of_sends id
    msgType vtapId fits isKind isType registered now ip
  refine ⟨encoder, sends, ran, ?_⟩
  intro pieces buffers split length_eq
  obtain ⟨rest, outcomes, deliveries, handled, remains, areDeliveries,
    carried⟩ := received pieces buffers split length_eq
  exact ⟨rest, outcomes, deliveries, handled, remains, areDeliveries,
    received_of_carries fits reads isKind isType carried⟩

/-- Two batches with an empty one between them. -/
theorem stream_received_flows :
    ∃ encoder sends,
      runSteps Encoder.sendBatch (Encoder.new 0 .taggedFlow 7)
          [[.l4FlowLog [1]], [], [.l4FlowLog [2, 3], .l4FlowLog []]] =
        some (encoder, sends) ∧
      ∀ (pieces : Conn) (buffers : List Buffer), pieces.flatten = sends.reduceOption.flatten ->
        buffers.length = sends.reduceOption.length ->
        ∃ rest outcomes deliveries,
          handleTCPConnection (fun _ => true) 0 [] pieces buffers = some (some rest, outcomes) ∧
          rest.flatten = [] ∧
          outcomes.map Outcome.delivery = deliveries.map some ∧
          Received Except.ok SendItem.payload 7
            [[.l4FlowLog [1]], [], [.l4FlowLog [2, 3], .l4FlowLog []]]
            deliveries :=
  stream_received 0 .taggedFlow 7 (by decide) (fun _ _ => rfl) 0 [] (fun _ _ => rfl)

/-- A log behind a flow is received as a flow: the encoder never changes the
type. -/
theorem mixed_items_received :
    ∃ encoder sends,
      runSteps Encoder.sendBatch (Encoder.new 0 .taggedFlow 7)
          [[.l4FlowLog [1]], [.l7FlowLog [2]]] = some (encoder, sends) ∧
      ∀ (pieces : Conn) (buffers : List Buffer), pieces.flatten = sends.reduceOption.flatten ->
        buffers.length = 2 ->
        ∃ rest outcomes flow log,
          handleTCPConnection (fun _ => true) 0 [] pieces buffers = some (some rest, outcomes) ∧
          outcomes.map Outcome.delivery = [some flow, some log] ∧
          log.recvBuffer.body.map (SimpleDecoder.items SimpleDecoder.readBytes) = some [[2]] ∧
          log.type = .taggedflow ∧
          MessageType.ofByte (SendItem.l7FlowLog [2]).messageType.toByte = some .protocollog := by
  obtain ⟨encoder, sends, ran, received⟩ := @handleTCPConnection_of_sends 0 .taggedFlow 7
      [[.l4FlowLog [1]], [.l7FlowLog [2]]] (by decide) (.l4FlowLog [1])
      (by simp) .taggedflow rfl (fun _ => true) (fun _ _ => rfl) 0 []
  refine ⟨encoder, sends, ran, ?_⟩
  intro pieces buffers split length_eq
  have two : sends.reduceOption.length = 2 := by
    have counted : (runSteps Encoder.sendBatch (Encoder.new 0 .taggedFlow 7)
        [[.l4FlowLog [1]], [.l7FlowLog [2]]]).map
          (fun run => run.2.reduceOption.length) = some 2 := by
      decide +kernel
    rw [ran] at counted
    exact Option.some.inj counted
  obtain ⟨rest, outcomes, deliveries, handled, _, areDeliveries, carried⟩ :=
    received pieces buffers split (length_eq.trans two.symm)
  have frames_eq : wireFrames 7 (.l4FlowLog [1]) [[.l4FlowLog [1]], [.l7FlowLog [2]]] =
      [wireFrame 7 (.l4FlowLog [1]) 1 [.l4FlowLog [1]],
        wireFrame 7 (.l4FlowLog [1]) 2 [.l7FlowLog [2]]] := rfl
  rw [frames_eq, List.forall₂_cons_right_iff] at carried
  obtain ⟨flow, others, _, carried, rfl⟩ := carried
  rw [List.forall₂_cons_right_iff] at carried
  obtain ⟨log, others, carries, carried, rfl⟩ := carried
  obtain rfl := List.forall₂_nil_right_iff.mp carried
  refine ⟨rest, outcomes, flow, log, handled, areDeliveries, ?_, carries.type_eq, rfl⟩
  rw [carries.body_eq]
  decide +kernel

end Metaflow.Sender
