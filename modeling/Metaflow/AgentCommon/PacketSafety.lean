import Metaflow.AgentCommon.PacketUpdate

/-!
# When the packet parser does not panic

The exact condition on the bytes of a packet under which `update` returns.
-/

namespace Metaflow.AgentCommon

open Library
open EthernetType
open Library.Bytes

namespace MetaPacket

/-- The end of the bytes that a round over the TCP options reads. -/
def optionReach (packet : List UInt8) (stop offset : Nat) : Nat :=
  let length := assumeLength (byteAt packet (offset + 1))
  match TcpOptionNumber.new (byteAt packet offset) with
  | .mss => if stop < offset + 4 then offset + 2 else offset + 4
  | .wscale => if stop < offset + 3 then offset + 2 else offset + 3
  | .sack =>
    if stop < offset + length then offset + 2
    else if 32 < length - 2 then offset + 2
    else offset + length
  | _ => offset + 2

/-- Where the next round starts, unless the round is the last. -/
def optionNext (packet : List UInt8) (stop offset : Nat) : Option Nat :=
  let length := assumeLength (byteAt packet (offset + 1))
  match TcpOptionNumber.new (byteAt packet offset) with
  | .eol => none
  | .nop => some (offset + 1)
  | .mss => if stop < offset + 4 then none else some (offset + 4)
  | .wscale => if stop < offset + 3 then none else some (offset + 3)
  | .sackPermitted => some (offset + 2)
  | .sack =>
    if stop < offset + length then none
    else if 32 < length - 2 then none
    else some (offset + length)
  | .other => some (offset + length)

/-- The rounds over the TCP options read inside the packet. -/
inductive OptionsInside (packet : List UInt8) (stop : Nat) : Nat -> Prop
  | finished
      (offset : Nat)
      (atEnd : stop ≤ offset + 1) : OptionsInside packet stop offset
  | returns
      (offset : Nat)
      (inside : optionReach packet stop offset ≤ packet.length)
      (isLast : optionNext packet stop offset = none) :
      OptionsInside packet stop offset
  | goesOn
      (offset next : Nat)
      (inside : optionReach packet stop offset ≤ packet.length)
      (isNext : optionNext packet stop offset = some next)
      (rest : OptionsInside packet stop next) :
      OptionsInside packet stop offset

/-- Where a round says that the next one starts. -/
def OptionRound.next : OptionRound -> Option Nat
  | .returns => none
  | .goesOn _ offset => some offset

theorem two_le_assumeLength (length : UInt8) : 2 ≤ assumeLength length :=
  Nat.le_max_right ..

theorem add_two_le_optionReach (packet : List UInt8) (stop offset : Nat) :
    offset + 2 ≤ optionReach packet stop offset := by
  have length := two_le_assumeLength (byteAt packet (offset + 1))
  cases isKind : TcpOptionNumber.new (byteAt packet offset) <;>
    simp only [optionReach, isKind] <;> (try split_ifs) <;> omega

variable {packet : List UInt8} {self : MetaPacket} {sizeChecker : Nat}

theorem lt_optionNext (isNext : optionNext packet stop offset = some next) : offset < next := by
  have length := two_le_assumeLength (byteAt packet (offset + 1))
  cases isKind : TcpOptionNumber.new (byteAt packet offset) <;>
    simp only [optionNext, isKind, reduceCtorEq, Option.some.injEq,
      Option.ite_none_left_eq_some] at isNext <;> omega

/-- A round succeeds up to its reach, and says where the next one starts. -/
theorem next_readTcpOption (self : MetaPacket) (stop offset : Nat) :
    (readTcpOption self packet stop offset).map OptionRound.next =
      if optionReach packet stop offset ≤ packet.length then some (optionNext packet stop offset)
      else none := by
  have reach := add_two_le_optionReach packet stop offset
  have length := two_le_assumeLength (byteAt packet (offset + 1))
  rw [readTcpOption]
  by_cases second : offset + 1 < packet.length
  · rw [byte_of_lt second, byte_of_lt (show offset < _ by omega), some_bind, some_bind]
    cases isKind : TcpOptionNumber.new (byteAt packet offset) with
    | eol | nop | sackPermitted | other =>
      simp only [optionReach, optionNext, isKind]
      exact (if_pos second).symm
    | mss =>
      simp only [optionReach, optionNext, isKind, readMss, word_eq, bind_guard]
      split_ifs <;> first | rfl | omega
    | wscale =>
      simp only [optionReach, optionNext, isKind, readWinScale, byte_eq, bind_guard]
      split_ifs <;> first | rfl | omega
    | sack =>
      simp only [optionReach, optionNext, isKind, readSack, range, bind_guard]
      split_ifs <;> first | rfl | omega
  · rw [byte_of_le (by omega), if_neg (show ¬ optionReach packet stop offset ≤ _ by omega)]
    rfl

/-- The loop over the TCP options ends, and it reads inside the packet exactly
if its rounds do. -/
theorem readTcpOptions_isSome_iff (self : MetaPacket) (enough : stop ≤ offset + fuel) :
    (readTcpOptions packet stop fuel offset self).isSome ↔ OptionsInside packet stop offset := by
  induction fuel generalizing offset self with
  | zero =>
    rw [readTcpOptions, if_neg (by omega)]
    exact iff_of_true rfl (.finished offset (by omega))
  | succ fuel ih =>
    rw [readTcpOptions]
    split_ifs with before
    · have isNext := @next_readTcpOption packet self stop offset
      split_ifs at isNext with inside
      · obtain ⟨round, isRound, isNext⟩ := Option.map_eq_some_iff.mp isNext
        rw [isRound]
        cases round with
        | returns => exact iff_of_true rfl (.returns offset inside isNext.symm)
        | goesOn self next =>
          have later := lt_optionNext isNext.symm
          have rest := ih self (show stop ≤ next + fuel by omega)
          refine rest.trans ⟨.goesOn offset next inside isNext.symm, ?_⟩
          intro whole
          cases whole with
          | finished _ atEnd => omega
          | returns _ _ isLast => simp [isLast, OptionRound.next] at isNext
          | goesOn _ other _ isOther others =>
            obtain rfl : next = other := by
              simpa [isOther, OptionRound.next] using isNext
            exact others
      · rw [Option.map_eq_none_iff.mp isNext]
        refine iff_of_false (by simp) ?_
        intro whole
        cases whole <;> omega
    · exact iff_of_true rfl (.finished offset (by omega))

/-- The offset is not before the first header, and the bytes behind it are those
that are left. -/
structure Ip6Options.Valid (packet : List UInt8) (start : Nat) (options : Ip6Options) : Prop where
  start_le : start ≤ options.optionOffset
  left : options.optionOffset + options.sizeChecker = packet.length

/-- A round goes on behind the header it has read, or it is the last. -/
def Ip6Round.Valid (packet : List UInt8) (start size : Nat) : Ip6Round -> Prop
  | .breaks => True
  | .returns options => start ≤ options.optionOffset ∧ options.optionOffset ≤ packet.length
  | .goesOn options => options.Valid packet start ∧ options.sizeChecker < size

section Ip6

variable {start : Nat} {options : Ip6Options}

section

variable (valid : options.Valid packet start)
include valid

theorem readAuthentication_valid : ∃ round, readAuthentication packet options = some round ∧
      round.Valid packet start options.sizeChecker := by
  obtain ⟨start_le, left⟩ := valid
  rw [readAuthentication]
  by_cases short : options.sizeChecker < 2
  · exact ⟨.breaks, if_pos short, trivial⟩
  · rw [if_neg short, byte_of_lt (by omega), byte_of_lt (by omega)]
    simp only [some_bind]
    split_ifs with shorter
    · exact ⟨.breaks, rfl, trivial⟩
    · refine ⟨_, rfl, ⟨?_, ?_⟩, ?_⟩ <;> simp only <;> omega

theorem readExtension_valid : ∃ round, readExtension packet options = some round ∧
      round.Valid packet start options.sizeChecker := by
  obtain ⟨start_le, left⟩ := valid
  rw [readExtension]
  by_cases short : options.sizeChecker < 8
  · exact ⟨.breaks, if_pos short, trivial⟩
  · rw [if_neg short, byte_of_lt (by omega), byte_of_lt (by omega)]
    simp only [some_bind]
    split_ifs with shorter
    · exact ⟨.breaks, rfl, trivial⟩
    · refine ⟨_, rfl, ⟨?_, ?_⟩, ?_⟩ <;> simp only <;> omega

theorem readFragment_valid : ∃ round, readFragment packet options = some round ∧
      round.Valid packet start options.sizeChecker := by
  obtain ⟨start_le, left⟩ := valid
  rw [readFragment]
  by_cases short : options.sizeChecker < 8
  · exact ⟨.breaks, if_pos short, trivial⟩
  · rw [if_neg short, byte_of_lt (by omega)]
    refine ⟨_, rfl, ⟨?_, ?_⟩, ?_⟩ <;> simp only <;> omega

theorem readIp6Option_valid : ∃ round, readIp6Option packet options = some round ∧
      round.Valid packet start options.sizeChecker := by
  have start_le := valid.start_le
  have left := valid.left
  rw [readIp6Option]
  split
  · exact readAuthentication_valid valid
  · exact readExtension_valid valid
  · exact readExtension_valid valid
  · exact readExtension_valid valid
  · exact readFragment_valid valid
  · exact ⟨_, rfl, start_le, by simp only; omega⟩
  · exact ⟨_, rfl, by simp only; omega, by simp only; omega⟩
  · exact ⟨_, rfl, start_le, by omega⟩

/-- The loop over the extension headers ends inside the packet. -/
theorem readIp6Options_valid (enough : options.sizeChecker < fuel) :
    ∃ outcome, readIp6Options packet fuel options = some outcome ∧
      ∀ found ∈ outcome, start ≤ found.optionOffset ∧ found.optionOffset ≤ packet.length := by
  induction fuel generalizing options with
  | zero => omega
  | succ fuel ih =>
    obtain ⟨round, isRound, roundValid⟩ := readIp6Option_valid valid
    rw [readIp6Options, isRound]
    cases round with
    | breaks => exact ⟨none, rfl, by simp⟩
    | returns found =>
      refine ⟨some found, rfl, ?_⟩
      intro other mem
      obtain rfl := Option.mem_some_iff.mp mem
      exact roundValid
    | goesOn next =>
      obtain ⟨nextValid, smaller⟩ := roundValid
      exact ih nextValid (by omega)

end

end Ip6

/-- The options of an IPv6 packet with a whole fixed header end inside it. -/
theorem updateIp6Opt_of_le (whole : 54 + l2OptSize ≤ packet.length) :
    ∃ scan, updateIp6Opt packet l2OptSize = some scan ∧
      54 + l2OptSize + scan.optionsLength ≤ packet.length := by
  have first : 20 + l2OptSize < packet.length := by omega
  simp only [updateIp6Opt, byte_of_lt first, subSize, if_pos whole, some_bind]
  have valid : Ip6Options.Valid packet (54 + l2OptSize)
      ⟨byteAt packet (20 + l2OptSize), 54 + l2OptSize, packet.length - (54 + l2OptSize), 0, 0⟩ :=
    ⟨Nat.le_refl _, by simp only; omega⟩
  obtain ⟨outcome, isOutcome, found⟩ := readIp6Options_valid valid
    (show packet.length - (54 + l2OptSize) < packet.length + 1 by omega)
  rw [isOutcome]
  cases outcome with
  | none => exact ⟨_, rfl, by simpa using whole⟩
  | some options =>
    have bounds := found options rfl
    exact ⟨_, rfl, by simp only; omega⟩

/-- How the transport header is reached: the version, its start, and the packet
length by the IP header. -/
structure Transport where
  isV6 : Bool
  start : Nat
  length : Nat

namespace Transport

variable (transport : Transport) (packet : List UInt8)

def ethType : EthernetType :=
  if transport.isV6 then .ipv6 else .ipv4

/-- An IPv6 header is taken to be as long as one of IPv4, so as many bytes are
counted twice. -/
def slack : Nat :=
  if transport.isV6 then 20 else 0

/-- The options of a TCP header. -/
def tcpOptSize : Nat :=
  (byteAt packet (transport.start + 12)).toNat / 16 * 4 - 20

/-- The bytes do not suffice for a TCP header, or header and options are there
and the length covers both. -/
def TcpFits : Prop :=
  let size := transport.tcpOptSize packet
  packet.length + transport.slack < transport.start + 20 ∨
  (transport.start + 12 < packet.length ∧
    (packet.length + transport.slack < transport.start + 20 + size ∨
      (transport.start + 16 ≤ packet.length ∧
        transport.start + 20 + size ≤
          max transport.length (transport.start + 20) + transport.slack ∧
        OptionsInside packet (transport.start + 20 + size) (transport.start + 20))))

/-- The bytes do not suffice for an ICMP header, or its type is there and the
length covers the quoted packet. -/
def IcmpFits : Prop :=
  packet.length + transport.slack < transport.start + 8 ∨
  (transport.start < packet.length ∧
    (hasIcmpRest (byteAt packet transport.start) = true ->
      packet.length + transport.slack < transport.start + 36 ∨
      transport.start + 36 ≤ max transport.length (transport.start + 8) + transport.slack))

/-- The condition under which the transport header is parsed. -/
def Fits (proto : IpProtocol) : Prop :=
  match proto with
  | .icmpv4 => transport.IcmpFits packet
  | .udp =>
    packet.length + transport.slack < transport.start + 8 ∨ transport.start + 4 ≤ packet.length
  | .tcp => transport.TcpFits packet
  | .icmpv6 =>
    (packet.length + transport.slack = transport.start ∨
      (transport.start < packet.length ∧ transport.isV6 = true)) ∧
    transport.start ≤ transport.length + transport.slack
  | _ => transport.start ≤ transport.length + transport.slack

end Transport

/-- The packet as the layers below have left it. -/
structure AtTransport (current : MetaPacket) (transport : Transport) (packet : List UInt8)
    (sizeChecker : Nat) : Prop where
  port0 : current.offsetPort0 = 34
  port1 : current.offsetPort1 = 36
  start : transport.start = 34 + current.l2L3OptSize
  length : transport.length = current.packetLen
  size : transport.start + sizeChecker = packet.length + transport.slack
  slack_le : 14 + transport.slack ≤ transport.start
  srcIp : (∃ address, current.lookupKey.srcIp = .v6 address) ↔ transport.isV6 = true

section Transport

theorem payloadSize_eq (self : MetaPacket) (packet : List UInt8) (sizeChecker : Nat) :
    self.payloadSize packet sizeChecker =
      if sizeChecker ≤ packet.length ∧ packet.length ≤ self.packetLen + sizeChecker then
        some (self.packetLen - (packet.length - sizeChecker)) else none := by
  simp only [payloadSize, subSize, bind_guard, some_bind]
  split_ifs <;> first | rfl | omega

theorem updatePorts_isSome_iff (port0 : self.offsetPort0 = 34) (port1 : self.offsetPort1 = 36) :
    (self.updatePorts packet dstEndpoint originalLength).isSome ↔
      38 + self.l2L3OptSize ≤ packet.length := by
  simp only [updatePorts, port0, port1, word_eq, bind_guard, some_bind, isSome_guard,
    Option.isSome_some, and_true]
  omega

theorem transportSize_udp (transport : Transport) :
    transportSize transport.ethType .ipv4Udp .ipv6Udp = some 42 := by
  cases isV6 : transport.isV6 <;> simp [Transport.ethType, isV6] <;> rfl

theorem transportSize_tcp (transport : Transport) :
    transportSize transport.ethType .ipv4Tcp .ipv6Tcp = some 54 := by
  cases isV6 : transport.isV6 <;> simp [Transport.ethType, isV6] <;> rfl

/-- The options do not change where the ports are. -/
def SamePorts (self after : MetaPacket) : Prop :=
  after.l2L3OptSize = self.l2L3OptSize ∧ after.offsetPort0 = self.offsetPort0 ∧
    after.offsetPort1 = self.offsetPort1

theorem readTcpOption_samePorts
    (isRound : readTcpOption self packet stop offset = some (.goesOn after next)) :
    SamePorts self after := by
  simp only [readTcpOption, bind_eq_some] at isRound
  obtain ⟨length, -, kind, -, outcome⟩ := isRound
  cases isKind : TcpOptionNumber.new kind with
  | eol =>
    simp only [isKind] at outcome
    cases outcome
  | nop | other | sackPermitted =>
    simp only [isKind] at outcome
    cases outcome
    exact ⟨rfl, rfl, rfl⟩
  | mss | wscale | sack =>
    simp only [isKind, readMss, readWinScale, readSack, Option.bind_eq_bind] at outcome
    split_ifs at outcome
    all_goals first
      | cases outcome
      | obtain ⟨_, -, same⟩ := Option.bind_eq_some_iff.mp outcome
        cases same
        exact ⟨rfl, rfl, rfl⟩

theorem readTcpOptions_samePorts
    (isRead : readTcpOptions packet stop fuel offset self = some after) : SamePorts self after := by
  induction fuel generalizing offset self with
  | zero =>
    rw [readTcpOptions, Option.ite_none_left_eq_some] at isRead
    obtain rfl := Option.some.inj isRead.2
    exact ⟨rfl, rfl, rfl⟩
  | succ fuel ih =>
    rw [readTcpOptions] at isRead
    split at isRead
    · split at isRead
      · cases isRead
      · obtain rfl := Option.some.inj isRead
        exact ⟨rfl, rfl, rfl⟩
      · next middle next isRound =>
          have first := readTcpOption_samePorts isRound
          have rest := ih isRead
          exact ⟨rest.1.trans first.1, rest.2.1.trans first.2.1, rest.2.2.trans first.2.2⟩
    · obtain rfl := Option.some.inj isRead
      exact ⟨rfl, rfl, rfl⟩

variable {dataOffset : Nat}

theorem updateTcpData_samePorts (isRead : self.updateTcpData packet dataOffset = some after) :
    SamePorts self after := by
  simp only [updateTcpData, bind_eq_some] at isRead
  obtain ⟨winSize, -, flags, -, seq, -, ack, -, outcome⟩ := isRead
  split at outcome
  · simp only [updateTcpOpt, bind_eq_some] at outcome
    obtain ⟨size, -, rounds⟩ := outcome
    have same := readTcpOptions_samePorts rounds
    exact ⟨same.1, same.2.1, same.2.2⟩
  · obtain rfl := Option.some.inj outcome
    exact ⟨rfl, rfl, rfl⟩

section

variable (sizes : self.headerType.minPacketSize = some 54)
  (options : self.l4OptSize = dataOffset * 4 - 20)
include sizes options

theorem updateTcpData_isSome_iff : (self.updateTcpData packet dataOffset).isSome ↔
      50 + self.l2L3OptSize ≤ packet.length ∧
        OptionsInside packet (54 + self.l2L3OptSize + self.l4OptSize) (54 + self.l2L3OptSize) := by
  simp only [updateTcpData, word_eq, byte_eq, bind_guard, some_bind, isSome_guard]
  rw [← and_assoc, ← and_assoc, ← and_assoc]
  refine and_congr (by omega) ?_
  split_ifs with some
  · rw [updateTcpOpt]
    change ((self.headerType.minPacketSize).bind fun size => _).isSome ↔ _
    rw [sizes]
    exact readTcpOptions_isSome_iff _ (Nat.le_add_left ..)
  · exact iff_of_true rfl (.finished _ (by omega))

/-- The rest of the parser once a TCP header and its options are known to be
counted. -/
theorem updateTcpData_ports_isSome_iff (port0 : self.offsetPort0 = 34)
    (port1 : self.offsetPort1 = 36) :
    (self.updateTcpData packet dataOffset >>= fun after =>
      after.updatePorts packet dstEndpoint originalLength).isSome ↔
    50 + self.l2L3OptSize ≤ packet.length ∧
      OptionsInside packet (54 + self.l2L3OptSize + self.l4OptSize) (54 + self.l2L3OptSize) := by
  have ports : ∀ after, self.updateTcpData packet dataOffset = some after ->
      ((after.updatePorts packet dstEndpoint originalLength).isSome ↔
        38 + self.l2L3OptSize ≤ packet.length) := by
    intro after isAfter
    obtain ⟨sameSize, same0, same1⟩ := updateTcpData_samePorts isAfter
    rw [← sameSize]
    exact updatePorts_isSome_iff (same0.trans port0) (same1.trans port1)
  rw [isSome_bind_iff_and ports, updateTcpData_isSome_iff sizes options]
  constructor
  · exact And.left
  · intro both
    exact ⟨both, by omega⟩

end

theorem minPacketSize_transportHeader (self : MetaPacket) :
    (self.transportHeader .ipv4Tcp .ipv6Tcp).minPacketSize = some 54 := by
  rw [transportHeader]
  split <;> rfl

variable (reached : AtTransport self transport packet sizeChecker)
include reached

theorem updateIcmpv4_isSome_iff :
    (self.updateIcmpv4 packet sizeChecker).isSome ↔ transport.IcmpFits packet := by
  obtain ⟨-, -, start, length, size, slack_le, -⟩ := reached
  simp only [updateIcmpv4, raisePacketLen, ← start, byte_eq, bind_guard, some_bind,
    isSome_return, isSome_guard, Transport.IcmpFits]
  cases hasIcmpRest (byteAt packet transport.start) with
  | false =>
    simp only [payloadSize_eq, bind_guard, some_bind, isSome_guard, Option.isSome_some,
      Bool.false_and, Bool.false_eq_true, if_false, false_or, false_implies, and_true]
    omega
  | true =>
    simp only [payloadSize_eq, bind_guard, some_bind, isSome_guard, Option.isSome_some,
      Bool.true_and, decide_eq_true_eq, if_true, true_implies, and_true]
    omega

theorem updateUdp_isSome_iff :
    (self.updateUdp packet dstEndpoint originalLength transport.ethType sizeChecker).isSome ↔
    (packet.length + transport.slack < transport.start + 8 ∨
      transport.start + 4 ≤ packet.length) := by
  obtain ⟨port0, port1, start, length, size, slack_le, -⟩ := reached
  simp only [updateUdp, transportSize_udp, updatePorts, raisePacketLen, setTransport, setPayloadLen,
    port0, port1, payloadSize_eq, word_eq, bind_guard, some_bind,
    isSome_return, isSome_guard, Option.isSome_some, and_true]
  omega

theorem updateTcp_isSome_iff : (self.updateTcp packet dstEndpoint originalLength transport.ethType
      sizeChecker).isSome ↔ transport.TcpFits packet := by
  obtain ⟨port0, port1, start, length, size, slack_le, -⟩ := reached
  have offset : 46 + self.l2L3OptSize = transport.start + 12 := by omega
  have options : 54 + self.l2L3OptSize = transport.start + 20 := by omega
  simp only [updateTcp, transportSize_tcp, raisePacketLen, byte_eq, payloadSize_eq,
    bind_guard, some_bind, isSome_return, isSome_guard]
  simp only [updateTcpData_ports_isSome_iff, minPacketSize_transportHeader, port0, port1,
    setTransport, setPayloadLen, setDataOffset, offset, options, Transport.TcpFits,
    Transport.tcpOptSize]
  generalize (byteAt packet (transport.start + 12)).toNat / 16 * 4 - 20 = optSize
  by_cases inside : OptionsInside packet (transport.start + 20 + optSize) (transport.start + 20)
  · simp only [inside, and_true]
    omega
  · simp only [inside, and_false, or_false]
    omega

theorem updateIcmpv6_isSome_iff : (self.updateIcmpv6 packet sizeChecker).isSome ↔
      (packet.length + transport.slack = transport.start ∨
        (transport.start < packet.length ∧ transport.isV6 = true)) ∧
      transport.start ≤ transport.length + transport.slack := by
  obtain ⟨-, -, start, length, size, slack_le, srcIp⟩ := reached
  have offset : subSize (54 + self.l2L3OptSize) 20 = some transport.start := by
    rw [subSize, if_pos (by omega), show 54 + self.l2L3OptSize - 20 = transport.start by omega]
  simp only [updateIcmpv6, updatePayloadLen, isNeighborAdvert, offset, byte_eq, payloadSize_eq,
    bind_guard, some_bind]
  by_cases some : 0 < sizeChecker
  · cases isIp : self.lookupKey.srcIp with
    | v4 address =>
      have isV4 : transport.isV6 = false := by simpa [isIp] using srcIp
      simp only [if_pos some, isV4, Option.bind_eq_bind, Option.bind_none, ite_self,
        Option.isSome_none, Bool.false_eq_true, and_false, or_false, false_iff]
      omega
    | v6 address =>
      have isV6 : transport.isV6 = true := srcIp.mp ⟨address, isIp⟩
      simp only [if_pos some, isV6, some_bind, isSome_guard, Option.isSome_some, and_true]
      omega
  · simp only [if_neg some, isSome_guard, Option.isSome_some, and_true]
    omega

theorem updateTransport_isSome_iff (proto : IpProtocol) :
    (self.updateTransport packet dstEndpoint originalLength transport.ethType
      proto sizeChecker).isSome ↔ transport.Fits packet proto := by
  have others : (self.updatePayloadLen packet sizeChecker).isSome ↔
      transport.start ≤ transport.length + transport.slack := by
    obtain ⟨-, -, start, length, size, slack_le, -⟩ := reached
    simp only [updatePayloadLen, payloadSize_eq, bind_guard, some_bind,
      isSome_guard, Option.isSome_some, and_true]
    omega
  cases proto with
  | icmpv4 => exact updateIcmpv4_isSome_iff reached
  | udp => exact updateUdp_isSome_iff reached
  | tcp => exact updateTcp_isSome_iff reached
  | icmpv6 => exact updateIcmpv6_isSome_iff reached
  | _ => exact others

end Transport

section

variable (packet : List UInt8) (vlanTagSize : Nat)

/-- The header of an IPv4 packet. -/
def ip4Header : Ip4Header where
  ihl := (byteAt packet (14 + vlanTagSize)).toNat % 16
  srcIp := wordAt packet (26 + vlanTagSize) 4
  dstIp := wordAt packet (30 + vlanTagSize) 4
  ttl := byteAt packet (22 + vlanTagSize)
  totalLength :=
    if wordAt packet (16 + vlanTagSize) 2 = 0
    then packet.length - (14 + vlanTagSize)
    else wordAt packet (16 + vlanTagSize) 2

/-- Where the transport header of an IPv4 packet starts, and the length of the
packet by its header. -/
def ip4Transport : Transport where
  isV6 := false
  start := 34 + vlanTagSize + (ip4Header packet vlanTagSize).optSize
  length := max ((ip4Header packet vlanTagSize).totalLength + 14 + vlanTagSize) (34 + vlanTagSize)

/-- The packet ends before its transport header, or its length covers the IPv4
header and, unless it is a fragment, the transport header fits. -/
def Ip4Fits : Prop :=
  let transport := ip4Transport packet vlanTagSize
  packet.length < transport.start ∨
  (transport.start ≤ transport.length ∧
    ∀ proto, IpProtocol.tryFrom (byteAt packet (23 + vlanTagSize)) = some proto ->
      wordAt packet (20 + vlanTagSize) 2 % 0x1000 = 0 ->
      transport.Fits packet proto)

/-- The same for an IPv6 packet, with the options that were found. -/
def ip6Transport (scan : Ip6Scan) : Transport :=
  let payload := wordAt packet (18 + vlanTagSize) 2
  { isV6 := true
    start := 54 + vlanTagSize + scan.optionsLength
    length := 54 + vlanTagSize +
      (if payload = 0 then (packet.length - (34 + vlanTagSize)) % 0x10000
        else payload) }

/-- The packet is shorter than an IPv4 header, or has an IPv6 header and the
transport header fits. -/
def Ip6Fits : Prop :=
  packet.length < 34 + vlanTagSize ∨
  (54 + vlanTagSize ≤ packet.length ∧
    ∀ scan proto, updateIp6Opt packet vlanTagSize = some scan ->
      IpProtocol.tryFrom scan.nextHeader = some proto ->
      (ip6Transport packet vlanTagSize scan).Fits packet proto)

end

/-- The packet as layer 2 has left it. -/
structure AtNetwork (current : MetaPacket) (packet : List UInt8) (sizeChecker : Nat) : Prop where
  ip0 : current.offsetIp0 = 26
  ip1 : current.offsetIp1 = 30
  port0 : current.offsetPort0 = 34
  port1 : current.offsetPort1 = 36
  size : 14 + current.vlanTagSize + sizeChecker = packet.length

/-- The protocol of an IPv4 packet whose header and length are known. -/
theorem updateIp4Protocol_isSome_iff (reached : AtTransport self transport packet sizeChecker)
    (over4 : transport.isV6 = false) (whole : 34 + self.vlanTagSize ≤ packet.length) :
    (self.updateIp4Protocol packet dstEndpoint originalLength sizeChecker).isSome ↔
    ∀ proto, IpProtocol.tryFrom (byteAt packet (23 + self.vlanTagSize)) = some proto ->
      wordAt packet (20 + self.vlanTagSize) 2 % 0x1000 = 0 -> transport.Fits packet proto := by
  have ethType : transport.ethType = .ipv4 := by simp [Transport.ethType, over4]
  have sameTag : ∀ proto, (self.setProto proto).vlanTagSize = self.vlanTagSize := fun _ => rfl
  simp only [updateIp4Protocol, sameTag, Option.bind_eq_bind,
    byte_of_lt (show 23 + self.vlanTagSize < packet.length by omega),
    word_of_le (show 20 + self.vlanTagSize + 2 ≤ packet.length by omega),
    Option.bind_some]
  cases isProto : IpProtocol.tryFrom (byteAt packet (23 + self.vlanTagSize)) with
  | none => simp
  | some proto =>
    simp only [Option.some.injEq, forall_eq']
    by_cases fragment : wordAt packet (20 + self.vlanTagSize) 2 % 0x1000 = 0
    · rw [if_neg (not_not_intro fragment), ← ethType]
      simp only [fragment, true_implies]
      refine updateTransport_isSome_iff ?_ proto
      exact ⟨reached.port0, reached.port1, reached.start, reached.length,
        reached.size, reached.slack_le, reached.srcIp⟩
    · rw [if_pos fragment]
      simp [fragment]

/-- The header of an IPv6 packet, with the options that were found. -/
def ip6Header (packet : List UInt8) (vlanTagSize : Nat) (scan : Ip6Scan) : Ip6Header where
  srcIp := wordAt packet (22 + vlanTagSize) 16
  dstIp := wordAt packet (38 + vlanTagSize) 16
  ttl := byteAt packet (21 + vlanTagSize)
  payload :=
    if wordAt packet (18 + vlanTagSize) 2 = 0
    then (packet.length - (34 + vlanTagSize)) % 0x10000
    else wordAt packet (18 + vlanTagSize) 2
  label := wordAt packet (18 + vlanTagSize) 4
  scan := scan

theorem readIp6Header_of_le {vlanTagSize : Nat}
    (size : 14 + vlanTagSize + sizeChecker = packet.length) (whole : 40 ≤ sizeChecker)
    (scanned : updateIp6Opt packet vlanTagSize = some scan) :
    readIp6Header packet vlanTagSize (sizeChecker - 20) =
      some (ip6Header packet vlanTagSize scan) := by
  rw [readIp6Header, word_of_le (by omega), word_of_le (by omega),
    byte_of_lt (by omega), word_of_le (by omega), word_of_le (by omega),
    scanned]
  simp only [some_bind, ip6Header]
  rw [show sizeChecker - 20 = packet.length - (34 + vlanTagSize) by omega]

/-- A packet as long as an IPv4 header passes the size check, but its second
address is outside. -/
theorem readIp6Header_of_lt {vlanTagSize : Nat}
    (size : 14 + vlanTagSize + sizeChecker = packet.length) (short : sizeChecker < 40) :
    readIp6Header packet vlanTagSize (sizeChecker - 20) = none := by
  rw [readIp6Header]
  by_cases outside : packet.length < 22 + vlanTagSize + 16
  · rw [word_of_lt outside]
    rfl
  · rw [word_of_le (by omega), word_of_lt (by omega)]
    rfl

section Network

variable (reached : AtNetwork self packet sizeChecker)
include reached

theorem updateArp_isSome (dstEndpoint : Bool) :
    (self.updateArp packet dstEndpoint sizeChecker).isSome := by
  have size := reached.size
  simp only [updateArp, word_eq, bind_guard, some_bind, isSome_return, isSome_guard,
    Option.isSome_some, and_true]
  omega

theorem readIp4Header_of_le (whole : 20 ≤ sizeChecker) :
    self.readIp4Header packet (sizeChecker - 20) = some (ip4Header packet self.vlanTagSize) := by
  obtain ⟨ip0, ip1, -, -, size⟩ := reached
  rw [readIp4Header, ip0, ip1, byte_of_lt (by omega), word_of_le (by omega),
    word_of_le (by omega), byte_of_lt (by omega), word_of_le (by omega)]
  simp only [some_bind, ip4Header]
  rw [show sizeChecker - 20 + 20 = packet.length - (14 + self.vlanTagSize) by
    omega]

theorem atTransport_ip4 (dstEndpoint : Bool)
    (header : Ip4Header) (l3PayloadLen : Nat) (whole : 20 ≤ sizeChecker)
    (uncut : header.optSize ≤ sizeChecker - 20) :
    AtTransport ((self.setIp4Header dstEndpoint header).setIp4Sizes header.optSize l3PayloadLen)
      { isV6 := false
        start := 34 + self.vlanTagSize + header.optSize
        length := max (header.totalLength + 14 + self.vlanTagSize) (34 + self.vlanTagSize) }
      packet (sizeChecker - 20 - header.optSize) := by
  have size := reached.size
  refine ⟨reached.port0, reached.port1, Nat.add_assoc .., rfl, ?_, ?_, ?_⟩
  · simp only [Transport.slack, Bool.false_eq_true, if_false]
    omega
  · simp only [Transport.slack, Bool.false_eq_true, if_false]
    omega
  · simp [setIp4Sizes, setIp4Header]

theorem updateIpv4_isSome_iff :
    (self.updateIpv4 packet dstEndpoint originalLength sizeChecker).isSome ↔
      Ip4Fits packet self.vlanTagSize := by
  rw [updateIpv4, Ip4Fits]
  have size := reached.size
  split_ifs with short
  · refine iff_of_true rfl (Or.inl ?_)
    simp only [ip4Transport]
    omega
  · simp only [readIp4Header_of_le reached (by omega), payloadSize_eq,
      bind_guard, some_bind, isSome_return, isSome_guard, ip4Transport]
    generalize ip4Header packet self.vlanTagSize = header
    by_cases cut : sizeChecker - 20 < header.optSize
    · exact iff_of_true (Or.inl cut) (Or.inl (by omega))
    · have uncut : ¬ packet.length < 34 + self.vlanTagSize + header.optSize := by omega
      rw [updateIp4Protocol_isSome_iff
        (atTransport_ip4 reached dstEndpoint header _ (by omega) (by omega)) rfl
        (show 34 + self.vlanTagSize ≤ packet.length by omega)]
      simp only [setIp4Header, setIp4Sizes, cut, uncut, false_or]
      exact and_congr_left' (by omega)

theorem atTransport_ip6 (dstEndpoint : Bool)
    (scan : Ip6Scan) (proto : IpProtocol) (l3PayloadLen : Nat)
    (inside : 54 + self.vlanTagSize + scan.optionsLength ≤ packet.length) : AtTransport
      (((self.setIp6Header dstEndpoint (ip6Header packet self.vlanTagSize scan)).setIp6Protocol
        (ip6Header packet self.vlanTagSize scan) proto).setL3PayloadLen l3PayloadLen)
      (ip6Transport packet self.vlanTagSize scan) packet
      (sizeChecker - 20 - scan.optionsLength) := by
  have size := reached.size
  refine ⟨reached.port0, reached.port1, ?_, ?_, ?_, ?_, ?_⟩
  · simp only [ip6Transport, setL3PayloadLen, setIp6Protocol, setIp6Header, ip6Header]
    omega
  · simp only [ip6Transport, setL3PayloadLen, setIp6Protocol, setIp6Header, ip6Header]
    omega
  · simp only [Transport.slack, ip6Transport, if_true]
    omega
  · simp only [Transport.slack, ip6Transport, if_true]
    omega
  · simp [ip6Transport, setL3PayloadLen, setIp6Protocol, setIp6Header]

theorem updateIpv6_isSome_iff :
    (self.updateIpv6 packet dstEndpoint originalLength sizeChecker).isSome ↔
      Ip6Fits packet self.vlanTagSize := by
  rw [updateIpv6, Ip6Fits]
  have size := reached.size
  split_ifs with short
  · exact iff_of_true rfl (Or.inl (by omega))
  · by_cases half : sizeChecker < 40
    · simp only [readIp6Header_of_lt size half]
      exact iff_of_false (by simp) (by omega)
    · have whole : 54 + self.vlanTagSize ≤ packet.length := by omega
      obtain ⟨scan, scanned, inside⟩ := updateIp6Opt_of_le whole
      have uncut : ¬ sizeChecker - 20 < scan.optionsLength := by omega
      have sameScan : (ip6Header packet self.vlanTagSize scan).scan = scan := rfl
      have notShort : ¬ packet.length < 34 + self.vlanTagSize := by omega
      simp only [sameScan, if_neg uncut, readIp6Header_of_le size (by omega) scanned, scanned,
        some_bind, Option.some.injEq,
        notShort, whole, false_or, true_and]
      cases isProto : IpProtocol.tryFrom scan.nextHeader with
      | none =>
        refine iff_of_true rfl ?_
        rintro _ proto rfl found
        rw [isProto] at found
        cases found
      | some proto =>
        refine (updateTransport_isSome_iff
          (atTransport_ip6 reached dstEndpoint scan proto _ inside) proto).trans
            ⟨?_, fun fits => fits scan proto rfl isProto⟩
        rintro fits _ found rfl isFound
        rw [isProto, Option.some.injEq] at isFound
        exact isFound ▸ fits

end Network

/-- The condition of the protocol the type in front of layer 3 names. -/
def NetworkFits (packet : List UInt8) (vlanTagSize : Nat) : EthernetType -> Prop
  | .ipv4 => Ip4Fits packet vlanTagSize
  | .ipv6 => Ip6Fits packet vlanTagSize
  | _ => True

/-- The frames `update` gets through: behind two tags layer 3 is not looked at.
-/
def FrameFits (packet : List UInt8) : Prop :=
  let ethType := EthernetType.ofU16 (wordAt packet 12 2)
  let innerType := EthernetType.ofU16 (wordAt packet 16 2)
  packet.length < 14 ∨
  (ethType ≠ .dot1Q ∧ NetworkFits packet 0 ethType) ∨
  (ethType = .dot1Q ∧ (packet.length < 18 ∨ NetworkFits packet 4 innerType))

/-- The layers behind the Ethernet header, whose offsets are still those of an
empty packet. -/
theorem updateNetwork_isSome_iff (srcMac dstMac : Nat)
    (ip0 : self.offsetIp0 = 26) (ip1 : self.offsetIp1 = 30)
    (port0 : self.offsetPort0 = 34) (port1 : self.offsetPort1 = 36)
    (size : 14 + header.vlanTagSize + header.sizeChecker = packet.length) :
    ((self.setEtherHeader dstEndpoint header srcMac dstMac).updateNetwork
      packet dstEndpoint originalLength header).isSome ↔
    NetworkFits packet header.vlanTagSize header.ethType := by
  have reached : AtNetwork (self.setEtherHeader dstEndpoint header srcMac dstMac) packet
        header.sizeChecker := ⟨ip0, ip1, port0, port1, size⟩
  rw [updateNetwork]
  cases isType : header.ethType with
  | arp => exact iff_of_true (updateArp_isSome reached dstEndpoint) trivial
  | ipv4 => exact updateIpv4_isSome_iff reached
  | ipv6 => exact updateIpv6_isSome_iff reached
  | _ => exact iff_of_true rfl trivial

/-- The packet with the id a tag carries. -/
def setVlan (self : MetaPacket) (vlanTag : Nat) : MetaPacket :=
  { self with vlan := BitVec.ofNat 16 (vlanTag % 0x1000) }

theorem readEtherHeader_untagged (whole : 14 ≤ packet.length)
    (untagged : ofU16 (wordAt packet 12 2) ≠ .dot1Q) : self.readEtherHeader packet =
      some (.ok ⟨.ofU16 (wordAt packet 12 2), 0, packet.length - 14⟩, self) := by
  rw [readEtherHeader, if_neg (by omega), word_of_le whole]
  exact if_neg untagged

section Tagged

variable (tagged : EthernetType.ofU16 (wordAt packet 12 2) = .dot1Q)
include tagged

theorem readEtherHeader_tagged (whole : 14 ≤ packet.length) :
    self.readEtherHeader packet = self.readOuterTag packet (packet.length - 14) := by
  rw [readEtherHeader, if_neg (by omega), word_of_le whole]
  exact if_pos tagged

theorem readEtherHeader_single (whole : 18 ≤ packet.length)
    (single : ofU16 (wordAt packet 16 2) ≠ .dot1Q) : self.readEtherHeader packet =
      some (.ok ⟨.ofU16 (wordAt packet 16 2), 4, packet.length - 14 - 4⟩,
        self.setVlan (wordAt packet 14 2)) := by
  rw [readEtherHeader_tagged tagged (by omega), readOuterTag, if_neg (by omega),
    word_of_le (by omega), word_of_le whole]
  exact if_neg single

theorem readEtherHeader_double (whole : 18 ≤ packet.length)
    (double : ofU16 (wordAt packet 16 2) = .dot1Q) : self.readEtherHeader packet =
      (self.setVlan (wordAt packet 14 2)).readInnerTag packet (packet.length - 14 - 4) := by
  rw [readEtherHeader_tagged tagged (by omega), readOuterTag, if_neg (by omega),
    word_of_le (by omega), word_of_le whole]
  exact if_pos double

end Tagged

/-- A frame that ends in front of the type of layer 3. -/
theorem readEtherHeader_cut (cut : packet.length < 14 ∨
      ofU16 (wordAt packet 12 2) = .dot1Q ∧ (packet.length < 18 ∨
        ofU16 (wordAt packet 16 2) = .dot1Q ∧ packet.length < 22)) :
    ∃ next, self.readEtherHeader packet = some (.error packetTruncated, next) := by
  by_cases short : packet.length < 14
  · exact ⟨_, if_pos short⟩
  obtain ⟨tagged, cut⟩ := cut.resolve_left short
  by_cases shortTag : packet.length < 18
  · rw [readEtherHeader_tagged tagged (by omega)]
    exact ⟨_, if_pos (by omega)⟩
  obtain ⟨double, cut⟩ := cut.resolve_left shortTag
  rw [readEtherHeader_double tagged (by omega) double]
  exact ⟨_, if_pos (by omega)⟩

theorem update_of_error (read : (self.setArrival packet srcEndpoint dstEndpoint
      timestamp).readEtherHeader packet = some (.error message, next)) :
    self.update packet srcEndpoint dstEndpoint timestamp originalLength =
      some (.error message, next) := by
  simp only [update, read, some_bind]

theorem update_of_header (whole : 14 ≤ packet.length)
    (read : (self.setArrival packet srcEndpoint dstEndpoint
      timestamp).readEtherHeader packet = some (.ok header, next)) :
    self.update packet srcEndpoint dstEndpoint timestamp originalLength =
      (next.setEtherHeader dstEndpoint header (wordAt packet 6 6)
        (wordAt packet 0 6)).updateNetwork packet dstEndpoint originalLength header := by
  simp only [update, read, some_bind, word_of_le (show 6 + 6 ≤ packet.length by omega),
    word_of_le (show 0 + 6 ≤ packet.length by omega)]

/-- Two tags: the type in front of the second one names no layer 3. -/
theorem update_of_double (whole : 22 ≤ packet.length) (tagged : ofU16 (wordAt packet 12 2) = .dot1Q)
    (double : ofU16 (wordAt packet 16 2) = .dot1Q) :
    self.update packet srcEndpoint dstEndpoint timestamp originalLength = some (.ok (),
        (((self.setArrival packet srcEndpoint dstEndpoint timestamp).setVlan
            (wordAt packet 14 2)).setVlan (wordAt packet 20 2)).setEtherHeader
          dstEndpoint ⟨.dot1Q, 4, packet.length - 14 - 4 - 4⟩
            (wordAt packet 6 6) (wordAt packet 0 6)) := by
  have read : (self.setArrival packet srcEndpoint dstEndpoint timestamp).readEtherHeader packet =
      some (.ok ⟨.ofU16 (wordAt packet 16 2), 4, packet.length - 14 - 4 - 4⟩,
        ((self.setArrival packet srcEndpoint dstEndpoint timestamp).setVlan
          (wordAt packet 14 2)).setVlan (wordAt packet 20 2)) := by
    rw [readEtherHeader_double tagged (by omega) double, readInnerTag, if_neg (by omega),
      word_of_le whole, word_of_le (by omega)]
    rfl
  rw [update_of_header (by omega) read, double]
  rfl

/-- The parser comes back, with a result or an error, on exactly the frames
that fit. -/
theorem update_isSome_iff (packet : List UInt8) (srcEndpoint dstEndpoint : Bool)
    (timestamp : Duration) (originalLength : Nat) :
    (empty.update packet srcEndpoint dstEndpoint timestamp
      originalLength).isSome ↔ FrameFits packet := by
  rw [FrameFits]
  by_cases cut : packet.length < 14 ∨
      ofU16 (wordAt packet 12 2) = .dot1Q ∧ (packet.length < 18 ∨
        ofU16 (wordAt packet 16 2) = .dot1Q ∧ packet.length < 22)
  · obtain ⟨next, read⟩ := readEtherHeader_cut cut
    rw [update_of_error read]
    refine iff_of_true rfl (cut.imp_right fun ⟨tagged, inner⟩ => Or.inr ⟨tagged, ?_⟩)
    refine inner.imp_right fun ⟨double, _⟩ => ?_
    rw [double]
    trivial
  rw [not_or, not_and, not_or] at cut
  obtain ⟨whole, cut⟩ := cut
  simp only [whole, false_or]
  by_cases tagged : ofU16 (wordAt packet 12 2) = .dot1Q
  · obtain ⟨outer, inner⟩ := cut tagged
    simp only [tagged, ne_eq, not_true_eq_false, false_and, false_or, true_and, outer]
    by_cases double : ofU16 (wordAt packet 16 2) = .dot1Q
    · rw [update_of_double (Nat.not_lt.mp fun short => inner ⟨double, short⟩) tagged double, double]
      exact iff_of_true rfl trivial
    · rw [update_of_header (by omega)
          (readEtherHeader_single tagged (by omega) double),
        updateNetwork_isSome_iff _ _ rfl rfl rfl
          rfl (show 14 + 4 + (packet.length - 14 - 4) = packet.length by
            omega)]
  · rw [update_of_header (by omega)
        (readEtherHeader_untagged (by omega) tagged),
      updateNetwork_isSome_iff _ _ rfl rfl rfl rfl
        (show 14 + 0 + (packet.length - 14) = packet.length by omega)]
    simp only [tagged, ne_eq, not_false_eq_true, true_and, false_and, or_false]

/-- Frames that do not fit: a short IPv6 header, an IPv4 length that does not
cover the options, ICMPv6 over IPv4. -/
theorem malformed_frames_panic :
    (empty.update (List.replicate 12 0 ++ [0x86, 0xdd] ++ List.replicate 20 0)
      false false 0 34).isNone ∧
    (empty.update
      (List.replicate 12 0 ++ [0x08, 0x00, 0x4f, 0, 0, 20] ++
        List.replicate 60 0) false false 0 78).isNone ∧
    (empty.update
      (List.replicate 12 0 ++ [0x08, 0x00, 0x45, 0, 0, 21, 0, 0, 0, 0, 0, 58] ++
        List.replicate 11 0) false false 0 35).isNone := by
  decide

end MetaPacket
end Metaflow.AgentCommon
