import Metaflow.Library.SideBySide
import Metaflow.AgentCommon.PacketSafety

/-!
# Tagged frames

What the parser finds in a frame with 802.1Q tags, compared with what it finds
in the frame without them. Behind one tag every offset moves by its length,
and the fields come out the same. Behind two tags nothing is parsed.
-/

namespace Metaflow.AgentCommon

open Library
open EthernetType
open Library.Bytes
open AgentPolicy (IpAddr)

namespace MetaPacket

/-- The addresses, the protocol, the ports, the TCP fields and the payload
lengths of a packet. -/
structure Reading where
  srcMac : BitVec 48
  dstMac : BitVec 48
  srcIp : IpAddr
  dstIp : IpAddr
  proto : IpProtocol
  srcPort : BitVec 16
  dstPort : BitVec 16
  tcpData : MetaPacketTcpHeader
  payloadLen : Nat
  l3PayloadLen : Nat
  l4PayloadLen : Nat

def reading (self : MetaPacket) : Reading where
  srcMac := self.lookupKey.srcMac
  dstMac := self.lookupKey.dstMac
  srcIp := self.lookupKey.srcIp
  dstIp := self.lookupKey.dstIp
  proto := self.lookupKey.proto
  srcPort := self.lookupKey.srcPort
  dstPort := self.lookupKey.dstPort
  tcpData := self.tcpData
  payloadLen := self.payloadLen
  l3PayloadLen := self.l3PayloadLen
  l4PayloadLen := self.l4PayloadLen

/-- Two packets that agree behind the MAC addresses, up to bytes in the second
one. -/
structure Behind (shift : Nat) (packet tagged : List UInt8) : Prop where
  length : tagged.length = packet.length + shift
  byte : ∀ offset, 12 ≤ offset -> byte tagged (offset + shift) = byte packet offset
  range : ∀ offset count, 12 ≤ offset ->
    range tagged (offset + shift) count = range packet offset count

/-- The parser has come equally far in a frame and in a tagged one. -/
structure Aligned (shift : Nat) (vlan : BitVec 16) (current tagged : MetaPacket) : Prop where
  reading : tagged.reading = current.reading
  vlan : tagged.vlan = vlan
  port0 : current.offsetPort0 = 34 ∧ tagged.offsetPort0 = 34
  port1 : current.offsetPort1 = 36 ∧ tagged.offsetPort1 = 36
  headerType : tagged.headerType = current.headerType
  optSize : tagged.l2L3OptSize = current.l2L3OptSize + shift
  l4OptSize : tagged.l4OptSize = current.l4OptSize
  packetLen : tagged.packetLen = current.packetLen + shift

/-- The same answer for both frames, and the id of the tag. -/
def SameAnswer (vlan : BitVec 16) (answer tagged : Updated) : Prop :=
  tagged.1 = answer.1 ∧ tagged.2.reading = answer.2.reading ∧ tagged.2.vlan = vlan

section Simulation

variable {shift : Nat} {vlan : BitVec 16} {packet tagged : List UInt8}
  {self other : MetaPacket}

theorem Behind.word (behind : Behind shift packet tagged) (offset count : Nat)
    (after : 12 ≤ offset) : word tagged (offset + shift) count = word packet offset count := by
  rw [Bytes.word, Bytes.word, behind.range offset count after]

namespace Aligned

variable (aligned : Aligned shift vlan self other)
include aligned

theorem sameAnswer (answer : Except String Unit) : SameAnswer vlan (answer, self) (answer, other) :=
  ⟨rfl, aligned.reading, aligned.vlan⟩

theorem setPayloadLen (length : Nat) :
    Aligned shift vlan (self.setPayloadLen length) (other.setPayloadLen length) :=
  { aligned with
    reading := congrArg (fun fields : Reading => { fields with payloadLen := length % 0x10000 })
      aligned.reading }

theorem raisePacketLen (shortest : Nat) :
    Aligned shift vlan (self.raisePacketLen (shortest + self.l2L3OptSize))
      (other.raisePacketLen (shortest + other.l2L3OptSize)) := by
  refine { aligned with packetLen := ?_ }
  simp only [MetaPacket.raisePacketLen, aligned.optSize, aligned.packetLen]
  omega

theorem setTransport (payload : Nat) (headerType : HeaderType) :
    Aligned shift vlan (self.setTransport payload headerType)
      (other.setTransport payload headerType) :=
  { aligned.setPayloadLen payload with
    reading := congrArg (fun fields : Reading => { fields with l4PayloadLen := payload })
      (aligned.setPayloadLen payload).reading
    headerType := rfl }

theorem setTcpData (tcpData : MetaPacketTcpHeader) :
    Aligned shift vlan (self.setTcpData tcpData) (other.setTcpData tcpData) :=
  { aligned with
    reading := congrArg (fun fields : Reading => { fields with tcpData := tcpData })
      aligned.reading }

theorem setProto (proto : IpProtocol) :
    Aligned shift vlan (self.setProto proto) (other.setProto proto) :=
  { aligned with
    reading := congrArg (fun fields : Reading => { fields with proto := proto }) aligned.reading }

theorem setDataOffset (dataOffset l4OptSize : Nat) :
    Aligned shift vlan (self.setDataOffset dataOffset l4OptSize)
      (other.setDataOffset dataOffset l4OptSize) :=
  { aligned with l4OptSize := rfl }

theorem tcpData : other.tcpData = self.tcpData :=
  congrArg Reading.tcpData aligned.reading

theorem srcIp : other.lookupKey.srcIp = self.lookupKey.srcIp :=
  congrArg Reading.srcIp aligned.reading

end Aligned

/-- A round over the options that ends the same way in both frames. -/
inductive SameRound (shift : Nat) (vlan : BitVec 16) : OptionRound -> OptionRound -> Prop
  | returns : SameRound shift vlan .returns .returns
  | goesOn
      {self other : MetaPacket}
      (aligned : Aligned shift vlan self other)
      (offset : Nat) :
      SameRound shift vlan (.goesOn self offset) (.goesOn other (offset + shift))

theorem SameRound.setTcp (aligned : Aligned shift vlan self other)
    (offset : Nat) (tcpData : MetaPacketTcpHeader) (isNext : { self.setTcpData tcpData with
      tcpOptionsFlag := next.tcpOptionsFlag
      tcpOptMssOffset := next.tcpOptMssOffset
      tcpOptWinScaleOffset := next.tcpOptWinScaleOffset
      tcpOptSackOffset := next.tcpOptSackOffset } = next)
    (isOther : { other.setTcpData tcpData with
      tcpOptionsFlag := nextOther.tcpOptionsFlag
      tcpOptMssOffset := nextOther.tcpOptMssOffset
      tcpOptWinScaleOffset := nextOther.tcpOptWinScaleOffset
      tcpOptSackOffset := nextOther.tcpOptSackOffset } = nextOther) :
    SameRound shift vlan (.goesOn next offset) (.goesOn nextOther (offset + shift)) := by
  have set := aligned.setTcpData tcpData
  refine .goesOn ?_ offset
  rw [← isNext, ← isOther]
  exact { set with }

variable {sizeChecker offset stop originalLength originalOther : Nat}

theorem lt_of_goesOn (isRound : readTcpOption self packet stop offset = some (.goesOn next later)) :
    offset < later := by
  have isNext := @next_readTcpOption packet self stop offset
  rw [isRound] at isNext
  split_ifs at isNext
  · exact lt_optionNext (Option.some.inj isNext).symm
  · cases isNext

theorem minPacketSize_bounds {headerType : HeaderType}
    (isSize : headerType.minPacketSize = some size) : 14 ≤ size := by
  cases headerType <;> simp [HeaderType.minPacketSize] at isSize <;> omega

section

variable (behind : Behind shift packet tagged)
include behind

theorem payloadSize_aligned (packetLen : other.packetLen = self.packetLen + shift)
    (inside : sizeChecker ≤ packet.length) :
    other.payloadSize tagged sizeChecker = self.payloadSize packet sizeChecker := by
  have covered : tagged.length - sizeChecker ≤ other.packetLen ↔
      packet.length - sizeChecker ≤ self.packetLen := by
    rw [behind.length, packetLen]
    omega
  have rest : other.packetLen - (tagged.length - sizeChecker) =
      self.packetLen - (packet.length - sizeChecker) := by
    rw [behind.length, packetLen]
    omega
  have taggedInside : sizeChecker ≤ tagged.length := by
    rw [behind.length]
    omega
  simp only [payloadSize, subSize, if_pos inside, if_pos taggedInside, some_bind, covered, rest]

variable (aligned : Aligned shift vlan self other)
include aligned

theorem readMss_aligned (after : 12 ≤ offset) :
    Option.Rel (SameRound shift vlan) (readMss self packet offset)
      (readMss other tagged (offset + shift)) := by
  rw [readMss, readMss, Nat.add_right_comm, behind.word _ 2 (by omega), aligned.tcpData]
  refine rel_bind_same fun mss _ => .some ?_
  rw [Nat.add_right_comm offset shift 4]
  exact .setTcp aligned _ { self.tcpData with mss := BitVec.ofNat 16 mss } rfl rfl

theorem readWinScale_aligned (after : 12 ≤ offset) :
    Option.Rel (SameRound shift vlan) (readWinScale self packet offset)
      (readWinScale other tagged (offset + shift)) := by
  rw [readWinScale, readWinScale, Nat.add_right_comm, behind.byte _ (by omega), aligned.tcpData]
  refine rel_bind_same fun winScale _ => .some ?_
  rw [Nat.add_right_comm offset shift 3]
  exact .setTcp aligned _ { self.tcpData with winScale := winScale.toBitVec } rfl rfl

theorem readSack_aligned (assumeLength : Nat) (after : 12 ≤ offset) :
    Option.Rel (SameRound shift vlan) (readSack self packet offset assumeLength)
      (readSack other tagged (offset + shift) assumeLength) := by
  rw [readSack, readSack, Nat.add_right_comm, behind.range _ _ (by omega), aligned.tcpData]
  refine rel_bind_same fun sack _ => .some ?_
  rw [Nat.add_right_comm offset shift assumeLength]
  exact .setTcp aligned _ { self.tcpData with sack := some sack } rfl rfl

theorem readTcpOption_aligned (after : 12 ≤ offset) :
    Option.Rel (SameRound shift vlan) (readTcpOption self packet stop offset)
      (readTcpOption other tagged (stop + shift) (offset + shift)) := by
  have length := behind.byte (offset + 1) (by omega)
  have kind := behind.byte offset after
  have limit : ∀ size, stop + shift < offset + shift + size ↔ stop < offset + size := by omega
  rw [readTcpOption, readTcpOption, Nat.add_right_comm offset shift 1, length, kind]
  refine rel_bind_same fun size _ => rel_bind_same fun number _ => ?_
  cases TcpOptionNumber.new number with
  | eol => exact .some .returns
  | nop => exact .some (.goesOn aligned (offset + 1))
  | mss =>
    simp only [limit]
    exact rel_ite (fun _ => .some .returns) fun _ =>
      readMss_aligned behind aligned after
  | wscale =>
    simp only [limit]
    exact rel_ite (fun _ => .some .returns) fun _ =>
      readWinScale_aligned behind aligned after
  | sackPermitted =>
    have kept := aligned.tcpData
    rw [Nat.add_right_comm offset shift 2]
    refine .some (.setTcp aligned (offset + 2) { self.tcpData with sackPermitted := true } rfl ?_)
    simp only [MetaPacket.setTcpData, kept]
  | sack =>
    simp only [limit]
    exact rel_ite (fun _ => .some .returns) fun _ =>
      rel_ite (fun _ => .some .returns) fun _ =>
        readSack_aligned behind aligned (assumeLength size) after
  | other =>
    rw [Nat.add_right_comm offset shift (assumeLength size)]
    exact .some (.goesOn aligned (offset + assumeLength size))

/-- The rounds over the options; more fuel than needed changes nothing. -/
theorem readTcpOptions_aligned (after : 12 ≤ offset) (enough : stop ≤ offset + fuel) :
    Option.Rel (Aligned shift vlan) (readTcpOptions packet stop fuel offset self)
      (readTcpOptions tagged (stop + shift) (fuel + extra) (offset + shift) other) := by
  have limit : offset + shift + 1 < stop + shift ↔ offset + 1 < stop := by omega
  induction fuel generalizing offset self other with
  | zero =>
    rw [readTcpOptions, if_neg (by omega)]
    cases extra with
    | zero =>
      rw [readTcpOptions, if_neg (by omega)]
      exact .some aligned
    | succ extra =>
      rw [← Nat.add_assoc, readTcpOptions, if_neg (by omega)]
      exact .some aligned
  | succ fuel ih =>
    rw [Nat.add_right_comm, readTcpOptions, readTcpOptions]
    simp only [limit]
    refine rel_ite (fun before => ?_) fun _ => .some aligned
    have round : Option.Rel (SameRound shift vlan) (readTcpOption self packet stop offset)
        (readTcpOption other tagged (stop + shift) (offset + shift)) :=
      readTcpOption_aligned behind aligned after
    generalize isRound : readTcpOption self packet stop offset = outcome at round ⊢
    generalize readTcpOption other tagged (stop + shift) (offset + shift) = outcomeOther at round ⊢
    cases round with
    | none => exact .none
    | some same =>
      cases same with
      | returns => exact .some aligned
      | goesOn nextAligned next =>
        have later := lt_of_goesOn isRound
        exact ih nextAligned (by omega) (by omega) (by omega)

theorem updateTcpOpt_aligned :
    Option.Rel (Aligned shift vlan) (self.updateTcpOpt packet) (other.updateTcpOpt tagged) := by
  simp only [updateTcpOpt, aligned.headerType, aligned.optSize, aligned.l4OptSize, ← Nat.add_assoc,
    Nat.add_right_comm _ shift]
  refine rel_bind_same fun size isSize => ?_
  have bounds := minPacketSize_bounds isSize
  exact readTcpOptions_aligned behind aligned (by omega) (by omega)

theorem updatePorts_aligned :
    Option.Rel (SameAnswer vlan) (self.updatePorts packet dstEndpoint originalLength)
      (other.updatePorts tagged dstEndpoint originalOther) := by
  have reading := aligned.reading
  simp (disch := omega) only [updatePorts, aligned.port0, aligned.port1, aligned.optSize,
    ← Nat.add_assoc, behind.word]
  refine rel_bind_same fun port0 _ => rel_bind_same fun port1 _ => .some ?_
  refine ⟨rfl, ?_, aligned.vlan⟩
  simp only [MetaPacket.reading, Reading.mk.injEq] at reading ⊢
  simp only [reading, and_self]

theorem updateTcpData_aligned (dataOffset : Nat) :
    Option.Rel (Aligned shift vlan) (self.updateTcpData packet dataOffset)
      (other.updateTcpData tagged dataOffset) := by
  simp (disch := omega) only [updateTcpData, aligned.optSize, aligned.tcpData, ← Nat.add_assoc,
    behind.word, behind.byte]
  refine rel_bind_same fun _ _ => rel_bind_same fun _ _ =>
    rel_bind_same fun _ _ => rel_bind_same fun _ _ => ?_
  exact rel_ite (fun _ => updateTcpOpt_aligned behind (aligned.setTcpData _))
    fun _ => .some (aligned.setTcpData _)

variable (inside : sizeChecker ≤ packet.length)
include inside

theorem updatePayloadLen_aligned :
    Option.Rel (SameAnswer vlan) (self.updatePayloadLen packet sizeChecker)
      (other.updatePayloadLen tagged sizeChecker) := by
  rw [updatePayloadLen, updatePayloadLen, payloadSize_aligned behind aligned.packetLen inside]
  exact rel_bind_same fun payload _ =>
    .some ((aligned.setPayloadLen payload).sameAnswer _)

theorem updateIcmpv4_aligned : Option.Rel (SameAnswer vlan) (self.updateIcmpv4 packet sizeChecker)
      (other.updateIcmpv4 tagged sizeChecker) := by
  have raised := aligned.raisePacketLen 42
  have optSize : (other.raisePacketLen (42 + other.l2L3OptSize)).l2L3OptSize =
      self.l2L3OptSize + shift := aligned.optSize
  simp (disch := omega) only [updateIcmpv4, optSize, ← Nat.add_assoc, behind.byte]
  refine rel_ite (fun _ => .some (raised.sameAnswer _)) fun _ => ?_
  refine rel_bind_same fun kind _ => rel_ite (fun _ => ?_) fun _ => ?_
  · exact .some ⟨rfl, raised.reading, raised.vlan⟩
  · rw [payloadSize_aligned behind raised.packetLen (by omega)]
    refine rel_bind_same fun payload _ => .some ?_
    have set := raised.setPayloadLen payload
    exact ⟨rfl, set.reading, set.vlan⟩

variable (ethType : EthernetType)

theorem updateUdp_aligned : Option.Rel (SameAnswer vlan)
      (self.updateUdp packet dstEndpoint originalLength ethType sizeChecker)
      (other.updateUdp tagged dstEndpoint originalOther ethType sizeChecker) := by
  rw [updateUdp, updateUdp]
  refine rel_bind_same fun shortest _ => ?_
  have raised := aligned.raisePacketLen shortest
  refine rel_ite (fun _ => .some (raised.sameAnswer _)) fun _ => ?_
  rw [payloadSize_aligned behind raised.packetLen (by omega)]
  refine rel_bind_same fun payload _ => ?_
  rw [transportHeader, transportHeader, raised.headerType]
  exact updatePorts_aligned behind (raised.setTransport payload _)

theorem updateTcp_aligned : Option.Rel (SameAnswer vlan)
      (self.updateTcp packet dstEndpoint originalLength ethType sizeChecker)
      (other.updateTcp tagged dstEndpoint originalOther ethType sizeChecker) := by
  rw [updateTcp, updateTcp]
  refine rel_bind_same fun shortest _ => ?_
  have raised := aligned.raisePacketLen shortest
  refine rel_ite (fun _ => .some ⟨rfl, raised.reading, raised.vlan⟩) fun _ => ?_
  rw [raised.optSize, ← Nat.add_assoc, behind.byte _ (by omega)]
  refine rel_bind_same fun offsetByte _ => ?_
  have set := raised.setDataOffset (offsetByte.toNat / 16) (offsetByte.toNat / 16 * 4 - 20)
  refine rel_ite (fun _ => .some ⟨rfl, set.reading, set.vlan⟩) fun _ => ?_
  rw [payloadSize_aligned behind set.packetLen (by omega)]
  refine rel_bind_same fun payload _ => ?_
  rw [transportHeader, transportHeader, set.headerType]
  exact rel_bind (updateTcpData_aligned behind (set.setTransport payload _) _) fun _ _ after =>
      updatePorts_aligned behind after

theorem updateIcmpv6_aligned : Option.Rel (SameAnswer vlan) (self.updateIcmpv6 packet sizeChecker)
      (other.updateIcmpv6 tagged sizeChecker) := by
  have offset : subSize (54 + self.l2L3OptSize) 20 = some (34 + self.l2L3OptSize) := by
    rw [subSize, if_pos (by omega)]
    congr 1
    omega
  have offsetOther : subSize (54 + other.l2L3OptSize) 20 =
      some (34 + self.l2L3OptSize + shift) := by
    rw [subSize, aligned.optSize, if_pos (by omega)]
    congr 1
    omega
  rw [updateIcmpv6, updateIcmpv6, offset, offsetOther]
  refine rel_ite (fun _ => ?_) fun _ =>
    updatePayloadLen_aligned behind aligned inside
  simp (disch := omega) only [some_bind, behind.byte, isNeighborAdvert, aligned.srcIp]
  refine rel_bind_same fun kind _ => rel_bind_same fun advert _ => ?_
  exact updatePayloadLen_aligned behind { aligned with } inside

theorem updateTransport_aligned (proto : IpProtocol) : Option.Rel (SameAnswer vlan)
      (self.updateTransport packet dstEndpoint originalLength ethType proto sizeChecker)
      (other.updateTransport tagged dstEndpoint originalOther ethType proto sizeChecker) := by
  cases proto with
  | icmpv4 => exact updateIcmpv4_aligned behind aligned inside
  | udp => exact updateUdp_aligned behind aligned inside ethType
  | tcp => exact updateTcp_aligned behind aligned inside ethType
  | icmpv6 => exact updateIcmpv6_aligned behind aligned inside
  | _ => exact updatePayloadLen_aligned behind aligned inside

end

/-- The parser is about to read layer 3 in both frames. -/
structure NetworkAligned (shift : Nat) (vlan : BitVec 16) (current tagged : MetaPacket) : Prop where
  reading : tagged.reading = current.reading
  vlan : tagged.vlan = vlan
  ip0 : current.offsetIp0 = 26 ∧ tagged.offsetIp0 = 26
  ip1 : current.offsetIp1 = 30 ∧ tagged.offsetIp1 = 30
  port0 : current.offsetPort0 = 34 ∧ tagged.offsetPort0 = 34
  port1 : current.offsetPort1 = 36 ∧ tagged.offsetPort1 = 36
  l4OptSize : tagged.l4OptSize = current.l4OptSize
  tagSize : tagged.vlanTagSize = current.vlanTagSize + shift

theorem NetworkAligned.setIp4Header (aligned : NetworkAligned shift vlan self other)
    (dstEndpoint : Bool) (header : Ip4Header) (optSize l3PayloadLen : Nat) :
    Aligned shift vlan ((self.setIp4Header dstEndpoint header).setIp4Sizes optSize l3PayloadLen)
      ((other.setIp4Header dstEndpoint header).setIp4Sizes optSize l3PayloadLen) := by
  have tagSize := aligned.tagSize
  refine ⟨?_, aligned.vlan, aligned.port0, aligned.port1, rfl, ?_, aligned.l4OptSize, ?_⟩
  · exact congrArg (fun fields : Reading =>
      { fields with
        srcIp := .v4 (BitVec.ofNat 32 header.srcIp)
        dstIp := .v4 (BitVec.ofNat 32 header.dstIp)
        l3PayloadLen := l3PayloadLen }) aligned.reading
  · simp only [MetaPacket.setIp4Header, setIp4Sizes]
    omega
  · simp only [MetaPacket.setIp4Header, setIp4Sizes]
    omega

/-- The loop over the extension headers is equally far in both frames. -/
structure SameOptions (shift : Nat) (options tagged : Ip6Options) : Prop where
  nextHeader : tagged.nextHeader = options.nextHeader
  optionOffset : tagged.optionOffset = options.optionOffset + shift
  sizeChecker : tagged.sizeChecker = options.sizeChecker

/-- A round over the extension headers that ends the same way in both. -/
inductive SameIp6Round (shift : Nat) : Ip6Round -> Ip6Round -> Prop
  | breaks : SameIp6Round shift .breaks .breaks
  | returns
      {options tagged : Ip6Options}
      (same : SameOptions shift options tagged) :
      SameIp6Round shift (.returns options) (.returns tagged)
  | goesOn
      {options tagged : Ip6Options}
      (same : SameOptions shift options tagged) :
      SameIp6Round shift (.goesOn options) (.goesOn tagged)

/-- What the extension headers say, but for their offsets. -/
structure SameScan (scan tagged : Ip6Scan) : Prop where
  firstHeader : tagged.firstHeader = scan.firstHeader
  nextHeader : tagged.nextHeader = scan.nextHeader
  optionsLength : tagged.optionsLength = scan.optionsLength

/-- What an IPv6 header says, but for the offsets of its options. -/
structure SameIp6Header (header tagged : Ip6Header) : Prop where
  srcIp : tagged.srcIp = header.srcIp
  dstIp : tagged.dstIp = header.dstIp
  payload : tagged.payload = header.payload
  scan : SameScan header.scan tagged.scan

theorem NetworkAligned.setIp6Protocol
    (aligned : NetworkAligned shift vlan self other) (same : SameIp6Header header headerOther)
    (dstEndpoint : Bool) (proto : IpProtocol) (l3PayloadLen : Nat) :
    Aligned shift vlan (((self.setIp6Header dstEndpoint header).setIp6Protocol header
        proto).setL3PayloadLen l3PayloadLen)
      (((other.setIp6Header dstEndpoint headerOther).setIp6Protocol
        headerOther proto).setL3PayloadLen l3PayloadLen) := by
  have reading := aligned.reading
  have tagSize := aligned.tagSize
  have optionsLength := same.scan.optionsLength
  have payload := same.payload
  refine ⟨?_, aligned.vlan, aligned.port0, aligned.port1, rfl, ?_, aligned.l4OptSize, ?_⟩
  · simp only [MetaPacket.reading, MetaPacket.setIp6Header,
      MetaPacket.setIp6Protocol, setL3PayloadLen, same.srcIp, same.dstIp,
      Reading.mk.injEq] at reading ⊢
    simp only [reading, and_self]
  · simp only [MetaPacket.setIp6Header, MetaPacket.setIp6Protocol, setL3PayloadLen]
    omega
  · simp only [MetaPacket.setIp6Header, MetaPacket.setIp6Protocol, setL3PayloadLen]
    omega

section

variable (behind : Behind shift packet tagged)
include behind

theorem updateIp4Protocol_aligned (aligned : Aligned shift vlan self other)
    (tagSize : other.vlanTagSize = self.vlanTagSize + shift)
    (inside : sizeChecker ≤ packet.length) : Option.Rel (SameAnswer vlan)
      (self.updateIp4Protocol packet dstEndpoint originalLength sizeChecker)
      (other.updateIp4Protocol tagged dstEndpoint originalOther sizeChecker) := by
  have sameTag : ∀ proto, (other.setProto proto).vlanTagSize =
      self.vlanTagSize + shift := fun _ => tagSize
  simp (disch := omega) only [updateIp4Protocol, tagSize, sameTag, ← Nat.add_assoc, behind.byte,
    behind.word]
  refine rel_bind_same fun number _ => ?_
  cases IpProtocol.tryFrom number with
  | none => exact .some (aligned.sameAnswer _)
  | some proto =>
    have set := aligned.setProto proto
    refine rel_bind_same fun flags _ => rel_ite (fun _ => .some ?_) fun _ =>
      updateTransport_aligned behind set inside _ _
    have reading := set.reading
    refine ⟨rfl, ?_, set.vlan⟩
    simp only [MetaPacket.reading, Reading.mk.injEq] at reading ⊢
    simp only [reading, and_self]

section

variable {options other : Ip6Options} (same : SameOptions shift options other)
  (after : 12 ≤ options.optionOffset)
include same after

theorem readAuthentication_aligned :
    Option.Rel (SameIp6Round shift) (readAuthentication packet options)
      (readAuthentication tagged other) := by
  simp (disch := omega) only [readAuthentication, same.sizeChecker, same.optionOffset,
    Nat.add_right_comm _ shift, behind.byte]
  exact rel_ite (fun _ => .some .breaks) fun _ =>
    rel_bind_same fun _ _ => rel_bind_same fun _ _ =>
      rel_ite (fun _ => .some .breaks) fun _ =>
        .some (.goesOn ⟨rfl, rfl, rfl⟩)

theorem readExtension_aligned : Option.Rel (SameIp6Round shift) (readExtension packet options)
      (readExtension tagged other) := by
  simp (disch := omega) only [readExtension, same.sizeChecker, same.optionOffset,
    Nat.add_right_comm _ shift, behind.byte]
  exact rel_ite (fun _ => .some .breaks) fun _ =>
    rel_bind_same fun _ _ => rel_bind_same fun _ _ =>
      rel_ite (fun _ => .some .breaks) fun _ =>
        .some (.goesOn ⟨rfl, rfl, rfl⟩)

theorem readFragment_aligned :
    Option.Rel (SameIp6Round shift) (readFragment packet options) (readFragment tagged other) := by
  simp only [readFragment, same.sizeChecker, same.optionOffset,
    Nat.add_right_comm _ shift, behind.byte _ after]
  exact rel_ite (fun _ => .some .breaks) fun _ =>
    rel_bind_same fun _ _ => .some (.goesOn ⟨rfl, rfl, rfl⟩)

theorem readIp6Option_aligned : Option.Rel (SameIp6Round shift) (readIp6Option packet options)
      (readIp6Option tagged other) := by
  have nextHeader := same.nextHeader
  have optionOffset := same.optionOffset
  have sizeChecker := same.sizeChecker
  rw [readIp6Option, readIp6Option, same.nextHeader]
  split
  · exact readAuthentication_aligned behind same after
  · exact readExtension_aligned behind same after
  · exact readExtension_aligned behind same after
  · exact readExtension_aligned behind same after
  · exact readFragment_aligned behind same after
  · exact .some (.returns ⟨rfl, optionOffset, sizeChecker⟩)
  · refine .some (.returns ⟨rfl, ?_, sizeChecker⟩)
    simp only
    omega
  · exact .some (.returns same)

end

/-- The rounds over the extension headers; more fuel than needed changes
nothing. -/
theorem readIp6Options_aligned {options other : Ip6Options}
    (same : SameOptions shift options other) (after : 12 ≤ start)
    (valid : options.Valid packet start) (enough : options.sizeChecker < fuel) :
    Option.Rel (Option.Rel (SameOptions shift)) (readIp6Options packet fuel options)
      (readIp6Options tagged (fuel + extra) other) := by
  induction fuel generalizing options other with
  | zero => omega
  | succ fuel ih =>
    have round := readIp6Option_aligned behind same (Nat.le_trans after valid.start_le)
    obtain ⟨outcome, isRound, roundValid⟩ := readIp6Option_valid valid
    rw [Nat.add_right_comm, readIp6Options, readIp6Options]
    rw [isRound] at round ⊢
    generalize readIp6Option tagged other = outcomeOther at round ⊢
    cases round with
    | some sameRound =>
      cases sameRound with
      | breaks => exact .some .none
      | returns found => exact .some (.some found)
      | goesOn next =>
        obtain ⟨nextValid, smaller⟩ := roundValid
        exact ih next nextValid (by omega)

theorem updateIp6Opt_aligned {vlanTagSize : Nat} :
    Option.Rel SameScan (updateIp6Opt packet vlanTagSize)
      (updateIp6Opt tagged (vlanTagSize + shift)) := by
  have first := behind.byte (20 + vlanTagSize) (by omega)
  simp only [updateIp6Opt, ← Nat.add_assoc 20, first]
  refine rel_bind_same fun firstHeader _ => ?_
  by_cases whole : 54 + vlanTagSize ≤ packet.length
  · have wholeTagged : 54 + (vlanTagSize + shift) ≤ tagged.length := by
      rw [behind.length]
      omega
    have left : tagged.length - (54 + (vlanTagSize + shift)) =
        packet.length - (54 + vlanTagSize) := by
      rw [behind.length]
      omega
    rw [subSize, subSize, if_pos whole, if_pos wholeTagged, left, behind.length]
    have options : SameOptions shift
        ⟨firstHeader, 54 + vlanTagSize, packet.length - (54 + vlanTagSize), 0, 0⟩
        ⟨firstHeader, 54 + (vlanTagSize + shift), packet.length - (54 + vlanTagSize), 0, 0⟩ :=
      ⟨rfl, (Nat.add_assoc ..).symm, rfl⟩
    have valid : Ip6Options.Valid packet (54 + vlanTagSize)
        ⟨firstHeader, 54 + vlanTagSize, packet.length - (54 + vlanTagSize), 0, 0⟩ :=
      ⟨Nat.le_refl _, by simp only; omega⟩
    have enough : packet.length - (54 + vlanTagSize) < packet.length + 1 := by omega
    rw [Nat.add_right_comm packet.length shift 1, some_bind, some_bind]
    refine rel_bind (readIp6Options_aligned behind options (by omega) valid
      enough) fun outcome outcomeOther same => ?_
    cases same with
    | none => exact .some ⟨rfl, rfl, rfl⟩
    | some found =>
      have offset := found.optionOffset
      refine .some ⟨rfl, found.nextHeader, ?_⟩
      simp only
      omega
  · rw [subSize, subSize, if_neg whole, if_neg (by
      rw [behind.length]
      omega)]
    exact .none

theorem readIp6Header_aligned {vlanTagSize : Nat} (sizeChecker : Nat) :
    Option.Rel SameIp6Header (readIp6Header packet vlanTagSize sizeChecker)
      (readIp6Header tagged (vlanTagSize + shift) sizeChecker) := by
  simp (disch := omega) only [readIp6Header, ← Nat.add_assoc, behind.word, behind.byte]
  refine rel_bind_same fun _ _ => rel_bind_same fun _ _ =>
    rel_bind_same fun _ _ => rel_bind_same fun _ _ =>
      rel_bind_same fun _ _ => ?_
  exact rel_bind (updateIp6Opt_aligned behind) fun _ _ same =>
    .some ⟨rfl, rfl, rfl, same⟩

variable (aligned : NetworkAligned shift vlan self other)
include aligned

theorem updateArp_aligned :
    Option.Rel (SameAnswer vlan) (self.updateArp packet dstEndpoint sizeChecker)
      (other.updateArp tagged dstEndpoint sizeChecker) := by
  simp (disch := omega) only [updateArp, aligned.tagSize, ← Nat.add_assoc, behind.word]
  refine rel_ite (fun _ => .some ⟨rfl, aligned.reading, aligned.vlan⟩) fun _ => ?_
  refine rel_bind_same fun _ _ => rel_bind_same fun _ _ =>
    rel_bind_same fun _ _ => .some ⟨rfl, ?_, aligned.vlan⟩
  have reading := aligned.reading
  simp only [MetaPacket.reading, Reading.mk.injEq] at reading ⊢
  simp only [reading, and_self]

theorem readIp4Header_aligned (sizeChecker : Nat) :
    other.readIp4Header tagged sizeChecker = self.readIp4Header packet sizeChecker := by
  simp (disch := omega) only [readIp4Header, aligned.ip0, aligned.ip1, aligned.tagSize,
    ← Nat.add_assoc, behind.word, behind.byte]

variable (inside : sizeChecker ≤ packet.length)
include inside

theorem updateIpv4_aligned :
    Option.Rel (SameAnswer vlan) (self.updateIpv4 packet dstEndpoint originalLength sizeChecker)
      (other.updateIpv4 tagged dstEndpoint originalOther sizeChecker) := by
  simp only [updateIpv4, readIp4Header_aligned behind aligned]
  refine rel_ite (fun _ => .some ⟨rfl, aligned.reading, aligned.vlan⟩)
    fun _ => rel_bind_same fun header _ => ?_
  have set := aligned.setIp4Header dstEndpoint header
  refine rel_ite (fun _ => .some ⟨rfl, ?_, aligned.vlan⟩) fun _ => ?_
  · have reading := aligned.reading
    simp only [MetaPacket.reading, MetaPacket.setIp4Header, Reading.mk.injEq] at reading ⊢
    simp only [reading, and_self]
  · have packetLen : (other.setIp4Header dstEndpoint header).packetLen =
        (self.setIp4Header dstEndpoint header).packetLen + shift := (set 0 0).packetLen
    rw [payloadSize_aligned behind packetLen (by omega)]
    refine rel_bind_same fun l3PayloadLen _ => ?_
    exact updateIp4Protocol_aligned behind (set _ _) aligned.tagSize (by omega)

theorem updateIpv6_aligned :
    Option.Rel (SameAnswer vlan) (self.updateIpv6 packet dstEndpoint originalLength sizeChecker)
      (other.updateIpv6 tagged dstEndpoint originalOther sizeChecker) := by
  simp only [updateIpv6, aligned.tagSize]
  refine rel_ite (fun _ => .some ⟨rfl, aligned.reading, aligned.vlan⟩)
    fun _ => rel_bind (readIp6Header_aligned behind _) fun header headerOther same => ?_
  simp only [same.scan.nextHeader, same.scan.optionsLength]
  have reading := aligned.reading
  cases IpProtocol.tryFrom header.scan.nextHeader with
  | none =>
    refine .some ⟨rfl, ?_, aligned.vlan⟩
    simp only [MetaPacket.reading, setIp6Header, same.srcIp, same.dstIp,
      Reading.mk.injEq] at reading ⊢
    simp only [reading, and_self]
  | some proto =>
    refine rel_ite (fun _ => .some ⟨rfl, ?_, aligned.vlan⟩) fun _ => ?_
    · simp only [MetaPacket.reading, setIp6Header, setIp6Protocol,
        same.srcIp, same.dstIp, Reading.mk.injEq] at reading ⊢
      simp only [reading, and_self]
    · exact updateTransport_aligned behind
        (aligned.setIp6Protocol same dstEndpoint proto _) (by omega) _ _

theorem updateNetwork_aligned : Option.Rel (SameAnswer vlan)
      (self.updateNetwork packet dstEndpoint originalLength ⟨ethType, size, sizeChecker⟩)
      (other.updateNetwork tagged dstEndpoint originalOther ⟨ethType, sizeOther, sizeChecker⟩) := by
  rw [updateNetwork, updateNetwork]
  cases ethType with
  | arp => exact updateArp_aligned behind aligned
  | ipv4 => exact updateIpv4_aligned behind aligned inside
  | ipv6 => exact updateIpv6_aligned behind aligned inside
  | _ => exact .some ⟨rfl, aligned.reading, aligned.vlan⟩

end

end Simulation

/-- The control information of a tag. -/
structure Tag where
  high : UInt8
  low : UInt8

/-- A tag in a frame, with the type 802.1Q. -/
def Tag.bytes (tag : Tag) : List UInt8 := [0x81, 0x00, tag.high, tag.low]

/-- The VLAN id of a tag. -/
def Tag.id (tag : Tag) : Nat := (tag.high.toNat * 256 + tag.low.toNat) % 0x1000

/-- Up to two stacked tags. -/
inductive Tags where
  | untagged
  | single (tag : Tag)
  | double (outer inner : Tag)

/-- The frame with the tags behind its MAC addresses. -/
def Tags.insert (frame : List UInt8) : Tags -> List UInt8
  | .untagged => frame
  | .single tag => insertAt frame 12 tag.bytes
  | .double outer inner => insertAt frame 12 (outer.bytes ++ inner.bytes)

/-- The number of tags. -/
def Tags.count : Tags -> Nat
  | .untagged => 0
  | .single _ => 1
  | .double _ _ => 2

/-- The tag next to the type of the frame. -/
def Tags.innermost : Tags -> Option Tag
  | .untagged => none
  | .single tag => some tag
  | .double _ inner => some inner

/-- An Ethernet frame that carries ARP, IPv4 or IPv6. -/
structure NetworkFrame where
  bytes : List UInt8
  whole : 14 ≤ bytes.length
  carries : EthernetType.ofU16 (wordAt bytes 12 2) = .arp ∨
    EthernetType.ofU16 (wordAt bytes 12 2) = .ipv4 ∨
    EthernetType.ofU16 (wordAt bytes 12 2) = .ipv6

/-- The type of a frame that carries one of these is not a tag. -/
theorem NetworkFrame.untagged (frame : NetworkFrame) :
    ofU16 (wordAt frame.bytes 12 2) ≠ .dot1Q := by
  rcases frame.carries with isType | isType | isType <;> rw [isType] <;>
    decide

section Frames

variable (frame : NetworkFrame)

theorem NetworkFrame.twelve_le : 12 ≤ frame.bytes.length :=
  Nat.le_trans (by decide) frame.whole

theorem NetworkFrame.behind (tag : Tag) :
    Behind 4 frame.bytes ((Tags.single tag).insert frame.bytes) where
  length := length_insertAt ..
  byte _ after := byte_insertAt frame.twelve_le after
  range _ _ after := range_insertAt frame.twelve_le after

section

variable (inserted : List UInt8)

theorem NetworkFrame.wordAt_front (before : offset + count ≤ 12) :
    wordAt (insertAt frame.bytes 12 inserted) offset count = wordAt frame.bytes offset count := by
  rw [wordAt, wordAt, window_insertAt_front frame.twelve_le before]

/-- The tags follow. -/
theorem NetworkFrame.wordAt_inserted (inside : offset + count ≤ inserted.length) :
    wordAt (insertAt frame.bytes 12 inserted) (12 + offset) count =
      wordAt inserted offset count := by
  rw [wordAt, wordAt, window_insertAt frame.twelve_le inside]

theorem NetworkFrame.wordAt_type :
    wordAt (insertAt frame.bytes 12 inserted) (12 + inserted.length) 2 =
      wordAt frame.bytes 12 2 := by
  rw [wordAt, wordAt, window_insertAt_behind frame.twelve_le (Nat.le_refl _)]

end

/-- What the MAC addresses of a frame are, and nothing else. -/
def addresses (bytes : List UInt8) : Reading :=
  { empty.reading with
    srcMac := BitVec.ofNat 48 (wordAt bytes 6 6)
    dstMac := BitVec.ofNat 48 (wordAt bytes 0 6) }

variable {srcEndpoint dstEndpoint : Bool} {timestamp : Duration}
  {originalLength originalOther : Nat}

/-- The fields of the tagged frame are those of the frame, and the VLAN is the
innermost one. -/
def SameFields (tags : Tags) (answer tagged : Updated) : Prop :=
  tagged.1 = answer.1 ∧ tagged.2.reading = answer.2.reading ∧
    ∀ tag ∈ tags.innermost, tagged.2.vlan = BitVec.ofNat 16 tag.id

section

variable (tag : Tag)

theorem Tag.wordAt_type : ofU16 (wordAt tag.bytes 0 2) = .dot1Q := by
  have type : wordAt tag.bytes 0 2 = 0x8100 := by simp [wordAt, window, Tag.bytes, bigEndian]
  rw [type]
  rfl

theorem Tag.wordAt_control : wordAt tag.bytes 2 2 % 0x1000 = tag.id := by
  simp [wordAt, window, Tag.bytes, Tag.id, bigEndian]

theorem update_single : Option.Rel (SameFields (.single tag))
      (empty.update frame.bytes srcEndpoint dstEndpoint timestamp originalLength)
      (empty.update ((Tags.single tag).insert frame.bytes) srcEndpoint
        dstEndpoint timestamp originalOther) := by
  have behind := frame.behind tag
  have whole := frame.whole
  have length := behind.length
  have srcMac : wordAt ((Tags.single tag).insert frame.bytes) 6 6 = _ :=
    frame.wordAt_front tag.bytes (by decide)
  have dstMac : wordAt ((Tags.single tag).insert frame.bytes) 0 6 = _ :=
    frame.wordAt_front tag.bytes (by decide)
  have tagType : wordAt ((Tags.single tag).insert frame.bytes) 12 2 = _ :=
    frame.wordAt_inserted tag.bytes (by decide : 0 + 2 ≤ 4)
  have vlanTag : wordAt ((Tags.single tag).insert frame.bytes) 14 2 = _ :=
    frame.wordAt_inserted tag.bytes (by decide : 2 + 2 ≤ 4)
  have type : wordAt ((Tags.single tag).insert frame.bytes) 16 2 = _ := frame.wordAt_type tag.bytes
  generalize (Tags.single tag).insert frame.bytes = tagged at *
  have isTag : ofU16 (wordAt tagged 12 2) = .dot1Q := by
    rw [tagType]
    exact tag.wordAt_type
  have single : ofU16 (wordAt tagged 16 2) ≠ .dot1Q := by
    rw [type]
    exact frame.untagged
  have left : tagged.length - 14 - 4 = frame.bytes.length - 14 := by omega
  rw [update_of_header whole (readEtherHeader_untagged whole frame.untagged),
    update_of_header (by omega) (readEtherHeader_single isTag (by omega) single),
    srcMac, dstMac, type, left]
  refine @rel_mono _ _ (SameAnswer (BitVec.ofNat 16 tag.id)) _ _ _ ?_ ?_
  · refine updateNetwork_aligned behind ?_ (by omega)
    rw [← tag.wordAt_control, ← vlanTag]
    exact ⟨rfl, rfl, ⟨rfl, rfl⟩, ⟨rfl, rfl⟩, ⟨rfl, rfl⟩, ⟨rfl, rfl⟩, rfl, rfl⟩
  · rintro answer answerTagged ⟨sameResult, sameReading, isVlan⟩
    refine ⟨sameResult, sameReading, ?_⟩
    rintro _ ⟨rfl⟩
    exact isVlan

/-- The original length has no part in these fields. -/
theorem update_untagged : Option.Rel (SameFields .untagged)
      (empty.update frame.bytes srcEndpoint dstEndpoint timestamp originalLength)
      (empty.update frame.bytes srcEndpoint dstEndpoint timestamp originalOther) := by
  have behind : Behind 0 frame.bytes frame.bytes := ⟨rfl, fun _ _ => rfl, fun _ _ _ => rfl⟩
  rw [update_of_header frame.whole (readEtherHeader_untagged frame.whole frame.untagged),
    update_of_header frame.whole (readEtherHeader_untagged frame.whole frame.untagged)]
  refine @rel_mono _ _ (SameAnswer 0) _ _ _ ?_ ?_
  · refine updateNetwork_aligned behind ?_ (Nat.sub_le ..)
    exact ⟨rfl, rfl, ⟨rfl, rfl⟩, ⟨rfl, rfl⟩, ⟨rfl, rfl⟩, ⟨rfl, rfl⟩, rfl, rfl⟩
  · rintro answer answerTagged ⟨sameResult, sameReading, -⟩
    exact ⟨sameResult, sameReading, by rintro _ ⟨⟩⟩

theorem Tag.id_lt : tag.id < 0x1000 :=
  Nat.mod_lt _ (by decide)

end

/-- Ids are told apart in 16 bits. -/
theorem ofNat_injective (leftLt : left < 0x1000) (rightLt : right < 0x1000)
    (same : BitVec.ofNat 16 left = BitVec.ofNat 16 right) : left = right := by
  have values := congrArg BitVec.toNat same
  rw [BitVec.toNat_ofNat, BitVec.toNat_ofNat] at values
  omega

/-- Behind two tags are the MAC addresses, and the frame type is taken for the
inner tag. -/
theorem update_double (outer inner : Tag) :
    ∃ next, empty.update ((Tags.double outer inner).insert frame.bytes)
        srcEndpoint dstEndpoint timestamp originalOther = some (.ok (), next) ∧
      next.reading = addresses frame.bytes ∧
      next.vlan = BitVec.ofNat 16 (wordAt frame.bytes 12 2 % 0x1000) := by
  have whole := frame.whole
  have length : ((Tags.double outer inner).insert frame.bytes).length =
      frame.bytes.length + 8 := length_insertAt ..
  have srcMac : wordAt ((Tags.double outer inner).insert frame.bytes) 6 6 =
      _ := frame.wordAt_front (outer.bytes ++ inner.bytes) (by decide)
  have dstMac : wordAt ((Tags.double outer inner).insert frame.bytes) 0 6 =
      _ := frame.wordAt_front (outer.bytes ++ inner.bytes) (by decide)
  have outerType : wordAt ((Tags.double outer inner).insert frame.bytes) 12 2 =
      wordAt outer.bytes 0 2 := frame.wordAt_inserted
        (outer.bytes ++ inner.bytes) (by decide : 0 + 2 ≤ 8)
  have innerType : wordAt ((Tags.double outer inner).insert frame.bytes) 16 2 =
      wordAt inner.bytes 0 2 := frame.wordAt_inserted
        (outer.bytes ++ inner.bytes) (by decide : 4 + 2 ≤ 8)
  have type : wordAt ((Tags.double outer inner).insert frame.bytes) 20 2 = _ :=
    frame.wordAt_type (outer.bytes ++ inner.bytes)
  generalize (Tags.double outer inner).insert frame.bytes = tagged at *
  have isTag : ofU16 (wordAt tagged 12 2) = .dot1Q := by
    rw [outerType]
    exact outer.wordAt_type
  have double : ofU16 (wordAt tagged 16 2) = .dot1Q := by
    rw [innerType]
    exact inner.wordAt_type
  refine ⟨_, update_of_double (by omega) isTag double, ?_, ?_⟩
  · rw [srcMac, dstMac]
    rfl
  · rw [type]
    rfl

variable (srcEndpoint dstEndpoint timestamp originalLength originalOther)

/-- The fields agree exactly for at most one tag, unless the second id is the
end of the frame's type. -/
theorem update_tags_iff (tags : Tags) (apart : ∀ outer inner, tags = .double outer inner ->
      inner.id ≠ wordAt frame.bytes 12 2 % 0x1000) :
    Option.Rel (SameFields tags)
      (empty.update frame.bytes srcEndpoint dstEndpoint timestamp originalLength)
      (empty.update (tags.insert frame.bytes) srcEndpoint dstEndpoint timestamp originalOther) ↔
    tags.count ≤ 1 := by
  cases tags with
  | untagged => exact iff_of_true (update_untagged frame) (by decide)
  | single tag => exact iff_of_true (update_single frame tag) (by simp [Tags.count])
  | double outer inner =>
    obtain ⟨tagged, isTagged, -, isVlan⟩ := update_double frame outer inner
    rw [isTagged]
    refine iff_of_false ?_ (by simp [Tags.count])
    intro agree
    generalize empty.update frame.bytes srcEndpoint dstEndpoint timestamp
      originalLength = outcome at agree
    cases agree with
    | some same =>
      have sameId := same.2.2 inner rfl
      rw [isVlan] at sameId
      exact apart outer inner rfl
        (ofNat_injective (Nat.mod_lt _ (by decide)) inner.id_lt sameId).symm

/-- A UDP packet of 42 bytes. -/
def udpFrame : NetworkFrame where
  bytes := List.replicate 12 0 ++
    [0x08, 0x00, 0x45, 0, 0, 28, 0, 0, 0, 0, 64, 17] ++ List.replicate 18 0
  whole := by decide
  carries := .inr (.inl (by decide))

/-- Its fields behind one tag and behind two. -/
theorem update_tags_iff_udp :
    Option.Rel (SameFields (.single ⟨0, 1⟩)) (empty.update udpFrame.bytes false false 0 42)
        (empty.update ((Tags.single ⟨0, 1⟩).insert udpFrame.bytes) false false 0 46) ∧
      ¬ Option.Rel (SameFields (.double ⟨0, 1⟩ ⟨0, 2⟩))
        (empty.update udpFrame.bytes false false 0 42)
        (empty.update ((Tags.double ⟨0, 1⟩ ⟨0, 2⟩).insert udpFrame.bytes) false false 0 50) := by
  refine ⟨(update_tags_iff udpFrame false false 0 42 46 (.single ⟨0, 1⟩) ?_).mpr (by decide),
    fun agree => ?_⟩
  · rintro _ _ ⟨⟩
  · have few := (update_tags_iff udpFrame false false 0 42 50 (.double ⟨0, 1⟩ ⟨0, 2⟩) (by
      rintro _ _ ⟨⟩
      decide)).mp agree
    exact absurd few (by decide)

/-- A UDP packet behind two tags: neither its protocol nor the id of the inner
tag is found. -/
theorem double_tag_hides_packet :
    let tagged := (Tags.double ⟨0, 1⟩ ⟨0, 2⟩).insert udpFrame.bytes
    (empty.update udpFrame.bytes false false 0 42).map (·.2.lookupKey.proto) = some .udp ∧
    (empty.update tagged false false 0 50).map
      (fun answer => (answer.2.lookupKey.proto, answer.2.vlan)) = some (.unknown, 0x800) := by
  decide

end Frames

end MetaPacket
end Metaflow.AgentCommon
