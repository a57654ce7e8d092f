import Metaflow.ProtocolLogs.Dns

/-!
# When DNS messages are parsed without a panic

The exact condition under which `DnsLog::parse` returns.
-/

namespace Metaflow.ProtocolLogs

open Library
open Library.Bytes
open AgentCommon (IpProtocol PacketDirection)

variable {payload : List UInt8} {addressText : List UInt8 -> List UInt8} {self : DnsLog}

section Names

variable {gOffset : Nat}

theorem decodeName_of_label (inside : gOffset < payload.length)
    (label : byteAt payload gOffset ≠ 0) : decodeName payload gOffset =
      nameRounds payload gOffset payload.length ⟨gOffset, gOffset, []⟩ := by
  rw [decodeName, decodeNameWithin, if_neg (Nat.not_le.mpr inside), byte_of_lt inside]
  exact if_neg label

theorem decodeName_of_tail (inside : gOffset < payload.length) (tail : byteAt payload gOffset = 0) :
    decodeName payload gOffset = some (.ok ([], gOffset + 1)) := by
  rw [decodeName, decodeNameWithin, if_neg (Nat.not_le.mpr inside), byte_of_lt inside]
  exact if_pos tail

theorem decodeName_of_le (outside : payload.length ≤ gOffset) :
    decodeName payload gOffset = some (.error ("payload too short: " ++ toString payload.length)) :=
  if_pos outside

/-- A name is decoded exactly if its positions are all different. -/
theorem decodeName_isSome_iff :
    (decodeName payload gOffset).isSome ↔ NeverReturns (nextIndex payload gOffset) gOffset := by
  by_cases inside : gOffset < payload.length
  · by_cases tail : byteAt payload gOffset = 0
    · rw [decodeName_of_tail inside tail]
      refine iff_of_true rfl (neverReturns_of_ended (walk_succ_of_end ?_ 0))
      exact nextIndex_of_tail (by rw [byte_of_lt inside, tail])
    · rw [decodeName_of_label inside tail]
      refine (nameRounds_isSome_iff inside).trans ⟨neverReturns_of_ended, fun neverReturns => ?_⟩
      exact walk_eq_none_of_neverReturns inside (fun _ _ => nextIndex_lt) neverReturns
  · rw [decodeName_of_le (Nat.not_lt.mp inside)]
    refine iff_of_true rfl (neverReturns_of_ended (walk_succ_of_end ?_ 0))
    rw [nextIndex, byte_of_le (Nat.not_lt.mp inside)]
    rfl

/-- The offset is a position that has been looked at, or the second byte of a
pointer behind one. -/
structure NameState.Valid (payload : List UInt8) (state : NameState) : Prop where
  index_lt : state.index < payload.length
  lOffset_lt : state.lOffset < payload.length
  pointer : byteAt payload state.index ≠ 0 ->
    state.index = state.lOffset ∨
      (state.lOffset + 2 ≤ payload.length ∧ byteAt payload state.lOffset ≠ 0)

variable {state later : NameState}

section

variable (valid : state.Valid payload)
include valid

theorem moveOffset_valid (notTail : byteAt payload state.index ≠ 0)
    (forward : state.index < later.index) (inside : later.index < payload.length)
    (isOffset : later.lOffset = moveOffset state.lOffset later.index (byteAt payload later.index)) :
    later.Valid payload := by
  obtain ⟨index_lt, lOffset_lt, pointer⟩ := valid
  rw [moveOffset] at isOffset
  by_cases further : state.lOffset < later.index
  · rw [if_pos further] at isOffset
    exact ⟨inside, isOffset ▸ inside, fun _ => Or.inl isOffset.symm⟩
  · have found := (pointer notTail).resolve_left (by omega)
    rw [if_neg further] at isOffset
    split_ifs at isOffset with tail
    · exact ⟨inside, by omega, fun label => absurd tail label⟩
    · exact ⟨inside, isOffset ▸ lOffset_lt, fun _ => Or.inr (isOffset ▸ found)⟩

theorem moves_valid (notTail : byteAt payload state.index ≠ 0)
    (isNext : nextIndex payload gOffset state.index = some later.index)
    (moves : Moves payload state later) : later.Valid payload := by
  have inside := nextIndex_lt isNext
  obtain ⟨isPointer, sameOffset⟩ | ⟨-, isIndex, isOffset⟩ := moves
  · refine ⟨inside, sameOffset ▸ valid.lOffset_lt, fun _ => Or.inr ?_⟩
    rw [sameOffset]
    rcases valid.pointer notTail with same | found
    · rw [← same]
      exact ⟨pointer_le notTail isPointer isNext, notTail⟩
    · exact found
  · exact moveOffset_valid valid notTail (by omega) inside isOffset

theorem nameRounds_offset_le
    (isName : nameRounds payload gOffset rounds state = some (.ok (name, offset))) :
    offset ≤ payload.length := by
  induction rounds generalizing state with
  | zero => cases isName
  | succ rounds ih =>
    obtain ⟨-, rfl⟩ | ⟨notTail, later, isNext, moves, rest⟩ :=
      nameRounds_succ_ok valid.index_lt isName
    · exact valid.lOffset_lt
    · exact ih (moves_valid valid notTail isNext moves) rest

end

/-- The offset behind a name is inside the payload or its end. -/
theorem decodeName_offset_le (isName : decodeName payload gOffset = some (.ok (name, offset))) :
    offset ≤ payload.length := by
  by_cases inside : gOffset < payload.length
  · by_cases tail : byteAt payload gOffset = 0
    · rw [decodeName_of_tail inside tail] at isName
      cases isName
      exact inside
    · rw [decodeName_of_label inside tail] at isName
      exact nameRounds_offset_le ⟨inside, inside, fun _ => Or.inl rfl⟩ isName
  · rw [decodeName_of_le (Nat.not_lt.mp inside)] at isName
    cases isName

end Names

namespace DnsLog

/-- An address is inside the payload, and a name is decoded. -/
def DataFits (payload : List UInt8) (gOffset dataLength : Nat) : DomainType -> Prop
  | .address => dataLength = 4 ∨ dataLength = 16 ->
      gOffset + dataLength ≤ payload.length
  | .name => dataLength ≤ 255 ->
      NeverReturns (nextIndex payload gOffset) gOffset
  | .wks => 5 ≤ dataLength -> gOffset + dataLength ≤ payload.length
  | .ptr => True
  | .other => True

/-- The data of a record: the answers do not end inside a character, and
the data fit. -/
structure RdataFits (payload answers : List UInt8)
    (domainType gOffset dataLength : Nat) : Prop where
  split : ∀ last ∈ answers.getLast?, isContinuation last = false
  data : DataFits payload gOffset dataLength (.ofNat domainType)

/-- The name is decoded, and if the fixed fields are inside the payload and it
has data, these fit. -/
structure RecordFits (payload answers : List UInt8) (gOffset : Nat) : Prop where
  name : NeverReturns (nextIndex payload gOffset) gOffset
  data : ∀ name offset, decodeName payload gOffset = some (.ok (name, offset)) ->
    offset + 10 ≤ payload.length ->
    wordAt payload (offset + 8) 2 ≠ 0 ->
    RdataFits payload answers (wordAt payload offset 2) (offset + 10)
      (wordAt payload (offset + 8) 2)

theorem decodeQuestion_isSome_iff : (decodeQuestion payload self gOffset).isSome ↔
      NeverReturns (nextIndex payload gOffset) gOffset := by
  rw [← decodeName_isSome_iff, decodeQuestion]
  cases isName : decodeName payload gOffset with
  | none => simp
  | some outcome =>
    refine iff_of_true ?_ rfl
    simp only [some_bind]
    cases outcome with
    | error message => rfl
    | ok found =>
      have inside := decodeName_offset_le isName
      simp only [readQuestion, suffixFrom_of_le inside, some_bind]
      split
      · rfl
      case isFalse long =>
        rw [List.length_drop] at long
        rw [word_of_le (by omega)]
        rfl

theorem splitAnswers_isSome_iff : self.splitAnswers.isSome ↔
      ∀ last ∈ self.info.answers.getLast?, isContinuation last = false := by
  rw [splitAnswers]
  cases self.info.answers.getLast? with
  | none => simp
  | some last =>
    by_cases inside : isContinuation last = true
    · simp [inside]
    · rw [Bool.not_eq_true] at inside
      simp only [inside, Bool.false_eq_true, if_false]
      refine iff_of_true ?_ ?_
      · split <;> rfl
      · rintro _ ⟨rfl⟩
        exact inside

theorem splitAnswers_domainType (isSplit : self.splitAnswers = some split) :
    split.info.domainType = self.info.domainType := by
  rw [splitAnswers] at isSplit
  split at isSplit
  · cases isSplit
    rfl
  · split_ifs at isSplit
    · cases isSplit
      rfl
    · cases isSplit
      rfl

theorem readAddress_isSome_iff : (self.readAddress addressText payload gOffset dataLength).isSome ↔
      gOffset + dataLength ≤ payload.length := by
  rw [readAddress]
  by_cases inside : gOffset + dataLength ≤ payload.length
  · rw [range_of_le inside]
    exact iff_of_true rfl inside
  · rw [range_of_lt (by omega)]
    exact iff_of_false (by simp) inside

theorem readName_isSome_iff :
    (self.readName payload gOffset).isSome ↔ NeverReturns (nextIndex payload gOffset) gOffset := by
  rw [← decodeName_isSome_iff, readName]
  refine isSome_bind_of_forall fun outcome => ?_
  cases outcome <;> rfl

theorem readRdata_isSome_iff : (self.readRdata addressText payload gOffset dataLength).isSome ↔
      DataFits payload gOffset dataLength (.ofNat self.info.domainType) := by
  rw [readRdata]
  cases DomainType.ofNat self.info.domainType with
  | address =>
    by_cases isAddress : dataLength = 4 ∨ dataLength = 16
    · simp only [DataFits, isAddress, true_implies]
      exact readAddress_isSome_iff
    · simp only [DataFits, isAddress, false_implies]
      exact iff_of_true rfl trivial
  | name =>
    by_cases long : 255 < dataLength
    · simp only [if_pos long, DataFits, Nat.not_le.mpr long, false_implies]
      exact iff_of_true rfl trivial
    · simp only [if_neg long, DataFits, Nat.not_lt.mp long, true_implies]
      exact readName_isSome_iff
  | wks =>
    by_cases short : dataLength < 5
    · simp only [if_pos short, DataFits, Nat.not_le.mpr short, false_implies]
      exact iff_of_true rfl trivial
    · simp only [if_neg short, DataFits, Nat.not_lt.mp short, true_implies]
      exact readAddress_isSome_iff
  | ptr =>
    refine iff_of_true ?_ trivial
    simp only
    split <;> rfl
  | other => exact iff_of_true rfl trivial

theorem decodeRdata_isSome_iff : (self.decodeRdata addressText payload gOffset dataLength).isSome ↔
      RdataFits payload self.info.answers self.info.domainType gOffset dataLength := by
  rw [decodeRdata, isSome_bind_iff_and fun split isSplit => by
      rw [readRdata_isSome_iff, splitAnswers_domainType isSplit],
    splitAnswers_isSome_iff]
  exact ⟨fun ⟨split, data⟩ => ⟨split, data⟩, fun fits => ⟨fits.split, fits.data⟩⟩

theorem readData_isSome_iff : (self.readData addressText payload gOffset dataLength).isSome ↔
      (dataLength ≠ 0 -> RdataFits payload self.info.answers
        self.info.domainType gOffset dataLength) := by
  rw [readData]
  split_ifs with empty
  · exact iff_of_true rfl (fun some => absurd empty some)
  · rw [← decodeRdata_isSome_iff]
    simp only [ne_eq, empty, not_false_eq_true, true_implies]
    refine isSome_bind_of_forall fun decoded => ?_
    obtain ⟨outcome, log⟩ := decoded
    cases outcome <;> rfl

theorem readRecord_isSome_iff : (self.readRecord addressText payload offset).isSome ↔
      (offset + 10 ≤ payload.length -> wordAt payload (offset + 8) 2 ≠ 0 ->
        RdataFits payload self.info.answers (wordAt payload offset 2)
          (offset + 10) (wordAt payload (offset + 8) 2)) := by
  rw [readRecord]
  split_ifs with outside
  · exact iff_of_true rfl (fun inside => by omega)
  · rw [suffixFrom_of_le (by omega)]
    simp only [some_bind, List.length_drop]
    split_ifs with short
    · exact iff_of_true rfl (fun inside => by omega)
    · have whole : offset + 10 ≤ payload.length := by omega
      rw [word_of_le (by omega), word_of_le (by omega)]
      simp only [some_bind, whole, true_implies]
      exact readData_isSome_iff

theorem decodeResourceRecord_isSome_iff :
    (decodeResourceRecord addressText payload self gOffset).isSome ↔
      RecordFits payload self.info.answers gOffset := by
  rw [decodeResourceRecord]
  cases isName : decodeName payload gOffset with
  | none =>
    refine iff_of_false (by simp) fun fits => ?_
    have isSome := decodeName_isSome_iff.mpr fits.name
    rw [isName] at isSome
    cases isSome
  | some outcome =>
    have neverReturns := decodeName_isSome_iff.mp (Option.isSome_of_eq_some isName)
    simp only [some_bind]
    cases outcome with
    | error message =>
      refine iff_of_true rfl ⟨neverReturns, ?_⟩
      intro name offset isOther
      rw [isName] at isOther
      cases isOther
    | ok found =>
      obtain ⟨name, offset⟩ := found
      refine readRecord_isSome_iff.trans
        ⟨fun fits => ⟨neverReturns, ?_⟩, fun fits => fits.data name offset isName⟩
      intro other otherOffset isOther
      rw [isName] at isOther
      cases isOther
      exact fits

section Loops

variable {fits : DnsLog -> Nat -> Prop}

/-- A loop does not fail exactly if each state before a round meets the
decoder's condition. -/
theorem repeatDecode_isSome_iff
    (decodes : ∀ self gOffset, (decode self gOffset).isSome ↔ fits self gOffset) (count : Nat)
    (self : DnsLog) (gOffset : Nat) :
    (repeatDecode decode count self gOffset).isSome ↔ ∀ earlier < count, ∀ log offset,
        repeatDecode decode earlier self gOffset = some (.ok offset, log) -> fits log offset := by
  induction count generalizing self gOffset with
  | zero =>
    refine iff_of_true rfl ?_
    omega
  | succ count ih =>
    cases isDecoded : decode self gOffset with
    | none =>
      simp only [repeatDecode, isDecoded, Option.bind_eq_bind, Option.bind_none]
      refine iff_of_false (by simp) fun each => ?_
      have isSome := (decodes self gOffset).mpr (each 0 (Nat.succ_pos count) self gOffset rfl)
      rw [isDecoded] at isSome
      cases isSome
    | some decoded =>
      obtain ⟨outcome, next⟩ := decoded
      have first : fits self gOffset := (decodes self gOffset).mp
        (Option.isSome_of_eq_some isDecoded)
      cases outcome with
      | error message =>
        simp only [repeatDecode, isDecoded, some_bind]
        refine iff_of_true rfl fun earlier _ log offset isLog => ?_
        cases earlier with
        | zero =>
          cases isLog
          exact first
        | succ earlier =>
          rw [repeatDecode, isDecoded] at isLog
          cases isLog
      | ok later =>
        have step : ∀ rounds, repeatDecode decode (rounds + 1) self
            gOffset = repeatDecode decode rounds next later := by
          intro rounds
          rw [repeatDecode, isDecoded]
          rfl
        rw [step, ih]
        constructor
        · intro each earlier before log offset isLog
          cases earlier with
          | zero =>
            cases isLog
            exact first
          | succ earlier =>
            rw [step] at isLog
            exact each earlier (by omega) log offset isLog
        · intro each earlier before log offset isLog
          rw [← step] at isLog
          exact each (earlier + 1) (by omega) log offset isLog

theorem repeatDecode_add (first second : Nat) (self : DnsLog) (gOffset : Nat) :
    repeatDecode decode (first + second) self gOffset =
      (repeatDecode decode first self gOffset).bind fun decoded =>
        match decoded with
        | (.error message, log) => some (.error message, log)
        | (.ok offset, log) => repeatDecode decode second log offset := by
  induction first generalizing self gOffset with
  | zero => rw [Nat.zero_add]; rfl
  | succ first ih =>
    rw [Nat.add_right_comm, repeatDecode, repeatDecode]
    cases decode self gOffset with
    | none => rfl
    | some decoded =>
      obtain ⟨outcome, next⟩ := decoded
      cases outcome with
      | error message => rfl
      | ok later => exact ih next later

end Loops

/-- Every question and, in a response, every record that is reached fits. -/
structure BodyFits (addressText : List UInt8 -> List UInt8) (payload : List UInt8) (start : DnsLog)
    (counts : Counts) : Prop where
  questions : ∀ earlier < counts.qdCount, ∀ log offset,
    repeatDecode (decodeQuestion payload) earlier start 12 = some (.ok offset, log) ->
    NeverReturns (nextIndex payload offset) offset
  records : ∀ asked offset,
    repeatDecode (decodeQuestion payload) counts.qdCount start 12 = some (.ok offset, asked) ->
    asked.info.queryType = 0x80 ->
    ∀ earlier < counts.anCount + counts.nsCount, ∀ log later,
      repeatDecode (decodeResourceRecord addressText payload) earlier
        (asked.setQueryType 1) offset = some (.ok later, log) ->
      RecordFits payload log.info.answers later

/-- A message whose header is cut off, or whose body fits. -/
def MessageFits (addressText : List UInt8 -> List UInt8) (self : DnsLog)
    (payload : List UInt8) : Prop :=
  12 < payload.length ->
  BodyFits addressText payload
    (self.setHeader (wordAt payload 0 2) (byteAt payload 2) (byteAt payload 3))
    ⟨wordAt payload 4 2, wordAt payload 6 2, wordAt payload 8 2⟩

/-- A message over UDP, or one over TCP that is not longer than it says. -/
def ParseFits (addressText : List UInt8 -> List UInt8) (self : DnsLog)
    (payload : List UInt8) : IpProtocol -> Prop
  | .udp => MessageFits addressText self.resetLogs payload
  | .tcp => 2 < payload.length ->
      payload.length - 2 ≤ wordAt payload 0 2 ->
      MessageFits addressText self.resetLogs (payload.drop 2)
  | _ => True

theorem questions_isSome_iff (count : Nat) (gOffset : Nat) :
    (repeatDecode (decodeQuestion payload) count self gOffset).isSome ↔
      ∀ earlier < count, ∀ log offset,
        repeatDecode (decodeQuestion payload) earlier self gOffset = some (.ok offset, log) ->
        NeverReturns (nextIndex payload offset) offset :=
  repeatDecode_isSome_iff (fun _ _ => decodeQuestion_isSome_iff) count self gOffset

theorem records_isSome_iff (count : Nat) (gOffset : Nat) :
    (repeatDecode (decodeResourceRecord addressText payload) count self gOffset).isSome ↔
      ∀ earlier < count, ∀ log offset,
        repeatDecode (decodeResourceRecord addressText payload) earlier self
          gOffset = some (.ok offset, log) -> RecordFits payload log.info.answers offset :=
  repeatDecode_isSome_iff (fun _ _ => decodeResourceRecord_isSome_iff) count self gOffset

variable (counts : Counts)

theorem decodeRecords_isSome_iff (gOffset : Nat) :
    (self.decodeRecords addressText payload counts gOffset).isSome ↔
      ∀ earlier < counts.anCount + counts.nsCount, ∀ log later,
        repeatDecode (decodeResourceRecord addressText payload) earlier
          (self.setQueryType 1) gOffset = some (.ok later, log) ->
        RecordFits payload log.info.answers later := by
  rw [← records_isSome_iff, repeatDecode_add, decodeRecords]
  cases repeatDecode (decodeResourceRecord addressText payload)
      counts.anCount (self.setQueryType 1) gOffset with
  | none => rfl
  | some decoded =>
    obtain ⟨outcome, log⟩ := decoded
    cases outcome with
    | error message => rfl
    | ok later =>
      simp only [some_bind]
      refine isSome_bind_of_forall fun decoded => ?_
      obtain ⟨last, _⟩ := decoded
      cases last <;> rfl

theorem decodeBody_isSome_iff :
    (self.decodeBody addressText payload counts).isSome ↔
      BodyFits addressText payload self counts := by
  have loop : (repeatDecode (decodeQuestion payload) counts.qdCount self
      12).isSome ↔ _ := questions_isSome_iff counts.qdCount 12
  rw [decodeBody]
  cases isAsked : repeatDecode (decodeQuestion payload) counts.qdCount self 12 with
  | none =>
    rw [isAsked] at loop
    refine iff_of_false (by simp) fun fits => ?_
    cases loop.mpr fits.questions
  | some decoded =>
    rw [isAsked] at loop
    have questions := loop.mp rfl
    obtain ⟨outcome, asked⟩ := decoded
    simp only [some_bind]
    cases outcome with
    | error message =>
      refine iff_of_true rfl ⟨questions, ?_⟩
      intro other offset isOther
      rw [isAsked] at isOther
      cases isOther
    | ok offset =>
      by_cases response : asked.info.queryType = 0x80
      · simp only [response, if_true]
        rw [decodeRecords_isSome_iff]
        refine ⟨fun records => ⟨questions, ?_⟩,
          fun fits => fits.records asked offset isAsked response⟩
        intro other otherOffset isOther _
        rw [isAsked] at isOther
        cases isOther
        exact records
      · simp only [response, if_false]
        refine iff_of_true rfl ⟨questions, ?_⟩
        intro other otherOffset isOther isResponse
        rw [isAsked] at isOther
        cases isOther
        exact absurd isResponse response

theorem decodePayload_isSome_iff :
    (self.decodePayload addressText payload).isSome ↔ MessageFits addressText self payload := by
  rw [decodePayload, MessageFits]
  split_ifs with short
  · exact iff_of_true rfl (fun long => by omega)
  · have long : 12 < payload.length := Nat.lt_of_not_le short
    rw [readHeader, word_of_le (by omega),
      byte_of_lt (by omega), byte_of_lt (by omega), word_of_le (by omega),
      word_of_le (by omega), word_of_le (by omega)]
    simp only [some_bind, long, true_implies]
    exact decodeBody_isSome_iff _

/-- A message is parsed, with a result or an error, exactly if it fits. -/
theorem parse_isSome_iff (addressText : List UInt8 -> List UInt8) (self : DnsLog)
    (payload : List UInt8) (proto : IpProtocol) (direction : PacketDirection) :
    (self.parse addressText payload proto direction).isSome ↔
      ParseFits addressText self payload proto := by
  cases proto with
  | udp => exact decodePayload_isSome_iff
  | tcp =>
    change (self.resetLogs.parseTcp addressText payload).isSome ↔
      (2 < payload.length -> payload.length - 2 ≤ wordAt payload 0 2 ->
        MessageFits addressText self.resetLogs (payload.drop 2))
    rw [parseTcp]
    split_ifs with short
    · exact iff_of_true rfl (fun long => by omega)
    · have long : 2 < payload.length := Nat.lt_of_not_le short
      rw [word_of_le (by omega), suffixFrom_of_le (by omega)]
      simp only [some_bind, List.length_drop, long, true_implies]
      split_ifs with longer
      · exact iff_of_true rfl (fun fits => by omega)
      · simp only [Nat.not_lt.mp longer, true_implies]
        exact decodePayload_isSome_iff
  | _ => exact iff_of_true rfl trivial

/-- A response that ends inside an address, a record behind a name with a letter
outside ASCII, and a question whose name leads around for ever. -/
theorem malformed_messages_fail :
    (({} : DnsLog).parse (fun _ => [])
      ([0, 0, 0x80, 0, 0, 0, 0, 1, 0, 0, 0, 0] ++ [0, 0, 1, 0, 1, 0, 0, 0, 0, 0, 4, 10, 0]) .udp
      .serverToClient).isNone ∧
    (({} : DnsLog).parse (fun _ => [])
      ([0, 0, 0x80, 0, 0, 0, 0, 2, 0, 0, 0, 0] ++
        [0, 0, 2, 0, 1, 0, 0, 0, 0, 0, 4, 2, 0xc3, 0xa9, 0] ++
        [0, 0, 2, 0, 1, 0, 0, 0, 0, 0, 1, 0]) .udp
      .serverToClient).isNone ∧
    (({} : DnsLog).parse (fun _ => [])
      ([0, 0, 0, 0, 0, 1, 0, 0, 0, 0, 0, 0] ++
        [1, 0x61, 0xc0, 12, 0, 1, 0, 1]) .udp .clientToServer).isNone := by
  decide +kernel

end DnsLog
end Metaflow.ProtocolLogs
