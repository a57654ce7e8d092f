import Metaflow.Library.Bytes
import Metaflow.Library.Run
import Metaflow.Library.Utf8
import Metaflow.Library.Walk

/-!
# Names in DNS messages

`decode_name` of `protocol_logs/dns.rs`. Labels lead forward and compression
pointers back, and no record is kept, so a pointer to a label in front of it
leads around for ever.
-/

namespace Metaflow.ProtocolLogs

open Library
open Library.Bytes

/-- The variables of the loop in `decode_name`. -/
structure NameState where
  index : Nat
  lOffset : Nat
  buffer : List UInt8

/-- How a round ends. -/
inductive NameRound where
  | fails (message : String)
  | goesOn (state : NameState)

def invalidIndex (index : Nat) : String :=
  "dns name invalid index: " ++ toString index

section

variable (payload : List UInt8) (gOffset : Nat)

def readPointer (state : NameState) : Option NameRound :=
  if payload.length < state.index + 2 then
    some (.fails (invalidIndex state.index))
  else do
    let pointer <- word payload state.index 2
    let indexPtr := pointer % 0x4000
    if state.index ≤ indexPtr then
      some (.fails ("dns name compress pointer invalid: " ++ toString indexPtr))
    else some (.goesOn { state with index := indexPtr })

/-- A label behind others is set off by a dot. -/
def appendLabel (buffer label : List UInt8) : List UInt8 :=
  (if buffer = [] then [] else buffer ++ [0x2e]) ++ label

/-- The offset moves with the labels, and by one at the end of a name that a
pointer led to. -/
def moveOffset (lOffset index : Nat) (atIndex : UInt8) : Nat :=
  if lOffset < index then index
  else if atIndex = 0 then lOffset + 1
  else lOffset

/-- The end of a label of a valid text. -/
def takeLabel (state : NameState) (label : List UInt8) (size : Nat) : Option NameRound :=
  if payload.length ≤ size then some (.fails (invalidIndex size))
  else do
    let atIndex <- byte payload size
    some (.goesOn
      { index := size
        lOffset := moveOffset state.lOffset size atIndex
        buffer := appendLabel state.buffer label })

/-- A label; a name has at most `DNS_NAME_MAX_SIZE` bytes. -/
def readLabel (state : NameState) (length : Nat) : Option NameRound :=
  let size := state.index + 1 + length
  if payload.length < size ∨ (gOffset < size ∧ 255 < size - gOffset) then
    some (.fails (invalidIndex size))
  else do
    let label <- range payload (state.index + 1) length
    match utf8Error 0 label with
    | some error => some (.fails ("decode name error " ++ error.message))
    | none => takeLabel payload state label size

/-- A round at a position that is not the end of the name. -/
def nameRound (state : NameState) (first : UInt8) : Option NameRound :=
  let nameType := first &&& 0xc0
  if nameType = 0x40 ∨ nameType = 0x80 then
    some (.fails ("dns name label type error: " ++ toString first))
  else if nameType = 0xc0 then readPointer payload state
  else readLabel payload gOffset state first.toNat

/-- The rounds of `decode_name`, with a bound on their number. -/
def nameRounds (payload : List UInt8) (gOffset : Nat) :
    (rounds : Nat) -> NameState -> Option (Except String (List UInt8 × Nat))
  | 0, _ => none
  | rounds + 1, state => do
      let first <- byte payload state.index
      if first = 0 then some (.ok (state.buffer, state.lOffset + 1))
      else
        match <- nameRound payload gOffset state first with
        | .fails message => some (.error message)
        | .goesOn state => nameRounds payload gOffset rounds state

/-- `decode_name` within a number of rounds: the name, and the offset behind
it. -/
def decodeNameWithin (rounds : Nat) (payload : List UInt8)
    (gOffset : Nat) : Option (Except String (List UInt8 × Nat)) :=
  if payload.length ≤ gOffset then
    some (.error ("payload too short: " ++ toString payload.length))
  else do
    let first <- byte payload gOffset
    if first = 0 then some (.ok ([], gOffset + 1))
    else nameRounds payload gOffset rounds ⟨gOffset, gOffset, []⟩

/-- Where a round goes on. -/
def NameRound.next : NameRound -> Option Nat
  | .fails _ => none
  | .goesOn state => some state.index

/-- The position behind another one, unless the loop ends there. -/
def nextIndex (gOffset index : Nat) : Option Nat := do
  let first <- byte payload index
  if first = 0 then none
  else
    let round <- nameRound payload gOffset ⟨index, 0, []⟩ first
    round.next

/-- The bytes of a label at a position with its length byte; a pointer has
none. -/
def labelSize (index : Nat) : Nat :=
  if byteAt payload index &&& 0xc0 = 0xc0 then 0
  else (byteAt payload index).toNat + 1

/-- The bytes of the labels on the way. -/
def labelsSize (payload : List UInt8) (gOffset : Nat) : (steps : Nat) -> (index : Nat) -> Nat
  | 0, _ => 0
  | steps + 1, index =>
    labelSize payload index +
      match nextIndex payload gOffset index with
      | none => 0
      | some later => labelsSize payload gOffset steps later

/-- The bytes that a name takes with a length byte for each label. -/
def nameSize (buffer : List UInt8) : Nat :=
  if buffer = [] then 0 else buffer.length + 1

theorem nameSize_appendLabel (buffer : List UInt8) (positive : 0 < label.length) :
    nameSize (appendLabel buffer label) = nameSize buffer + (label.length + 1) := by
  have nonempty : appendLabel buffer label ≠ [] := by
    intro isNil
    have noLabel := (List.append_eq_nil_iff.mp isNil).2
    rw [noLabel] at positive
    cases positive
  rw [nameSize, if_neg nonempty, nameSize, appendLabel]
  split
  · simp
  · simp only [List.length_append, List.length_singleton]
    omega

/-- Where a pointer leads, if it is one that leads back. -/
def pointerNext (index : Nat) : Option Nat :=
  if index + 2 ≤ payload.length ∧ wordAt payload index 2 % 0x4000 < index then
    some (wordAt payload index 2 % 0x4000)
  else none

/-- Where a label leads, if it is a text that the name may have. -/
def labelNext (gOffset index length : Nat) : Option Nat :=
  if index + 1 + length < payload.length ∧ index + 1 + length ≤ gOffset + 255 ∧
      utf8Error 0 (window payload (index + 1) length) = none then
    some (index + 1 + length)
  else none

/-- What a round does with the offset: a pointer leaves it, a label moves it. -/
def Moves (state later : NameState) : Prop :=
  byteAt payload state.index &&& 0xc0 = 0xc0 ∧ later.lOffset = state.lOffset ∨
  byteAt payload state.index &&& 0xc0 ≠ 0xc0 ∧
    later.index = state.index + 1 + (byteAt payload state.index).toNat ∧
    later.lOffset = moveOffset state.lOffset later.index (byteAt payload later.index)

end

section

variable (state : NameState)

theorem readPointer_reads :
    ∃ round, readPointer payload state = some round ∧ round.next = pointerNext payload state.index ∧
      ∀ later, round = .goesOn later ->
        later.buffer = state.buffer ∧ later.lOffset = state.lOffset := by
  rw [readPointer, pointerNext]
  by_cases whole : state.index + 2 ≤ payload.length
  · rw [if_neg (by omega), word_of_le whole]
    by_cases back : wordAt payload state.index 2 % 0x4000 < state.index
    · rw [if_pos ⟨whole, back⟩]
      simp only [some_bind, if_neg (Nat.not_le.mpr back)]
      exact ⟨_, rfl, rfl, by rintro _ ⟨⟩; exact ⟨rfl, rfl⟩⟩
    · rw [if_neg (fun both => back both.2)]
      simp only [some_bind, if_pos (Nat.not_lt.mp back)]
      exact ⟨_, rfl, rfl, by rintro _ ⟨⟩⟩
  · rw [if_pos (by omega), if_neg (fun both => whole both.1)]
    exact ⟨_, rfl, rfl, by rintro _ ⟨⟩⟩

theorem readLabel_reads (positive : 0 < length) :
    ∃ round, readLabel payload gOffset state length = some round ∧
      round.next = labelNext payload gOffset state.index length ∧ ∀ later, round = .goesOn later ->
        nameSize later.buffer = nameSize state.buffer + (length + 1) ∧
        later.index = state.index + 1 + length ∧
        later.lOffset = moveOffset state.lOffset later.index (byteAt payload later.index) := by
  simp only [readLabel, labelNext]
  by_cases fits : state.index + 1 + length ≤ payload.length ∧
      state.index + 1 + length ≤ gOffset + 255
  · obtain ⟨inside, short⟩ := fits
    have labelLength := length_of_range (range_of_le inside)
    rw [if_neg (by omega), range_of_le inside]
    simp only [some_bind, short, true_and]
    generalize window payload (state.index + 1) length = label at *
    cases isText : utf8Error 0 label with
    | some error => exact ⟨_, rfl, by simp [NameRound.next], by rintro _ ⟨⟩⟩
    | none =>
      simp only [takeLabel, and_true]
      by_cases before : state.index + 1 + length < payload.length
      · rw [if_neg (by omega), if_pos before, byte_of_lt before]
        refine ⟨_, rfl, rfl, ?_⟩
        rintro _ ⟨⟩
        refine ⟨?_, rfl, rfl⟩
        rw [nameSize_appendLabel _ (by omega), labelLength]
      · rw [if_pos (by omega), if_neg before]
        exact ⟨_, rfl, rfl, by rintro _ ⟨⟩⟩
  · rw [if_pos (by omega), if_neg (by omega)]
    exact ⟨_, rfl, rfl, by rintro _ ⟨⟩⟩

/-- Where a byte leads that is not the end of the name. -/
def byteNext (payload : List UInt8) (gOffset index : Nat) (first : UInt8) : Option Nat :=
  if first &&& 0xc0 = 0x40 ∨ first &&& 0xc0 = 0x80 then none
  else if first &&& 0xc0 = 0xc0 then pointerNext payload index
  else labelNext payload gOffset index first.toNat

/-- The position does not depend on what has been read, and the buffer takes the
label. -/
theorem nameRound_reads (isFirst : byteAt payload state.index = first) (notTail : first ≠ 0) :
    ∃ round, nameRound payload gOffset state first = some round ∧
      round.next = byteNext payload gOffset state.index first ∧ ∀ later, round = .goesOn later ->
        nameSize later.buffer = nameSize state.buffer + labelSize payload state.index ∧
        Moves payload state later := by
  simp only [nameRound, byteNext, labelSize, Moves, isFirst]
  by_cases reserved : first &&& 0xc0 = 0x40 ∨ first &&& 0xc0 = 0x80
  · rw [if_pos reserved, if_pos reserved]
    exact ⟨_, rfl, rfl, by rintro _ ⟨⟩⟩
  · rw [if_neg reserved, if_neg reserved]
    split_ifs with pointer
    · obtain ⟨round, isRound, next, goesOn⟩ := readPointer_reads state
      refine ⟨round, isRound, next, fun later isLater => ?_⟩
      obtain ⟨buffer, offset⟩ := goesOn later isLater
      exact ⟨by rw [buffer, Nat.add_zero], .inl ⟨pointer, offset⟩⟩
    · have positive : 0 < first.toNat := by
        refine Nat.pos_of_ne_zero fun isZero => notTail ?_
        exact UInt8.toNat_inj.mp isZero
      obtain ⟨round, isRound, next, goesOn⟩ := readLabel_reads state positive
      exact ⟨round, isRound, next, fun later isLater =>
        (goesOn later isLater).imp_right fun moves => .inr ⟨pointer, moves⟩⟩

end

theorem nextIndex_eq (inside : index < payload.length) (notTail : byteAt payload index ≠ 0) :
    nextIndex payload gOffset index = byteNext payload gOffset index (byteAt payload index) := by
  obtain ⟨round, isRound, next, -⟩ : ∃ round,
      nameRound payload gOffset ⟨index, 0, []⟩ (byteAt payload index) = some round ∧
      round.next = byteNext payload gOffset index (byteAt payload index) ∧
      _ :=
    nameRound_reads ⟨index, 0, []⟩ rfl notTail
  rw [nextIndex, byte_of_lt inside]
  simp only [some_bind, if_neg notTail, isRound]
  exact next

theorem nextIndex_of_tail (tail : byte payload index = some 0) :
    nextIndex payload gOffset index = none := by
  rw [nextIndex, tail]
  rfl

/-- The positions stay inside the payload. -/
theorem nextIndex_lt (isNext : nextIndex payload gOffset index = some later) :
    later < payload.length := by
  by_cases inside : index < payload.length
  · by_cases tail : byteAt payload index = 0
    · rw [nextIndex_of_tail (by rw [byte_of_lt inside, tail])] at isNext
      cases isNext
    · rw [nextIndex_eq inside tail, byteNext] at isNext
      split_ifs at isNext
      · rw [pointerNext, Option.ite_none_right_eq_some] at isNext
        simp only [Option.some.injEq] at isNext
        omega
      · rw [labelNext, Option.ite_none_right_eq_some] at isNext
        simp only [Option.some.injEq] at isNext
        omega
  · rw [nextIndex, byte_of_le (by omega)] at isNext
    cases isNext

theorem pointer_le (notTail : byteAt payload index ≠ 0)
    (isPointer : byteAt payload index &&& 0xc0 = 0xc0)
    (isNext : nextIndex payload gOffset index = some later) : index + 2 ≤ payload.length := by
  by_cases inside : index < payload.length
  · rw [nextIndex_eq inside notTail, byteNext, isPointer, if_neg (by decide), if_pos rfl,
      pointerNext, Option.ite_none_right_eq_some] at isNext
    exact isNext.1.1
  · rw [nextIndex, byte_of_le (by omega)] at isNext
    cases isNext

/-- The rounds end at the last position of the walk, with a name as long as the
labels on the way if it is the end of a name. -/
def EndsWell (payload : List UInt8) (gOffset : Nat) (state : NameState)
    (outcome : Except String (List UInt8 × Nat)) : Prop :=
  ∃ steps index, walk (nextIndex payload gOffset) state.index steps = some index ∧
    nextIndex payload gOffset index = none ∧
    (byte payload index = some 0 ->
      ∃ name offset, outcome = .ok (name, offset) ∧
        nameSize name = nameSize state.buffer + labelsSize payload gOffset steps state.index) ∧
    (byte payload index ≠ some 0 -> ∃ message, outcome = .error message)

theorem nameRounds_isSome_iff (inside : state.index < payload.length) :
    (nameRounds payload gOffset rounds state).isSome ↔
      walk (nextIndex payload gOffset) state.index rounds = none := by
  induction rounds generalizing state with
  | zero => simp [nameRounds]
  | succ rounds ih =>
    rw [nameRounds, byte_of_lt inside, some_bind]
    split_ifs with tail
    · refine iff_of_true rfl (walk_succ_of_end ?_ rounds)
      exact nextIndex_of_tail (by rw [byte_of_lt inside, tail])
    · obtain ⟨round, isRound, next, -⟩ := nameRound_reads state rfl tail
      rw [isRound]
      rw [← nextIndex_eq inside tail] at next
      cases round with
      | fails message => exact iff_of_true rfl (walk_succ_of_end next.symm rounds)
      | goesOn later =>
        rw [walk_succ_of_next next.symm]
        exact ih (nextIndex_lt next.symm)

theorem nameRounds_succ_ok (inside : state.index < payload.length)
    (isDecoded : nameRounds payload gOffset (rounds + 1) state = some (.ok (name, offset))) :
    byteAt payload state.index = 0 ∧ offset = state.lOffset + 1 ∨
    byteAt payload state.index ≠ 0 ∧ ∃ later,
      nextIndex payload gOffset state.index = some later.index ∧ Moves payload state later ∧
      nameRounds payload gOffset rounds later = some (.ok (name, offset)) := by
  rw [nameRounds, byte_of_lt inside, some_bind] at isDecoded
  split_ifs at isDecoded with isTail
  · cases isDecoded
    exact .inl ⟨isTail, rfl⟩
  · obtain ⟨round, isRound, next, goesOn⟩ := nameRound_reads state rfl isTail
    rw [isRound] at isDecoded
    rw [← nextIndex_eq inside isTail] at next
    cases round with
    | fails message => cases isDecoded
    | goesOn later =>
      exact .inr ⟨isTail, later, next.symm, (goesOn later rfl).2, isDecoded⟩

theorem nameRounds_endsWell (inside : state.index < payload.length)
    (isOutcome : nameRounds payload gOffset rounds state = some outcome) :
    EndsWell payload gOffset state outcome := by
  induction rounds generalizing state with
  | zero => cases isOutcome
  | succ rounds ih =>
    rw [nameRounds, byte_of_lt inside] at isOutcome
    simp only [some_bind] at isOutcome
    by_cases tail : byteAt payload state.index = 0
    · have isTail : byte payload state.index = some 0 := by rw [byte_of_lt inside, tail]
      rw [if_pos tail, Option.some.injEq] at isOutcome
      refine ⟨0, state.index, rfl, nextIndex_of_tail isTail, fun _ => ?_,
        fun other => absurd isTail other⟩
      exact ⟨state.buffer, _, isOutcome.symm, rfl⟩
    · obtain ⟨round, isRound, next, goesOn⟩ := nameRound_reads state rfl tail
      rw [if_neg tail, isRound] at isOutcome
      rw [← nextIndex_eq inside tail] at next
      cases round with
      | fails message =>
        refine ⟨0, state.index, rfl, next.symm, fun isTail => ?_,
          fun _ => ⟨message, (Option.some.inj isOutcome).symm⟩⟩
        rw [byte_of_lt inside, Option.some.injEq] at isTail
        exact absurd isTail tail
      | goesOn later =>
        obtain ⟨steps, index, reached, ends, named, failed⟩ := ih (nextIndex_lt next.symm) isOutcome
        refine ⟨steps + 1, index, ?_, ends, fun isTail => ?_, failed⟩
        · rw [walk_succ_of_next next.symm]
          exact reached
        · obtain ⟨name, offset, isName, isSize⟩ := named isTail
          refine ⟨name, offset, isName, ?_⟩
          rw [isSize, (goesOn later rfl).1, labelsSize, ← next]
          simp only [NameRound.next]
          omega

/-- The positions are all different, and the labels have at most 255 bytes with
their dots. -/
structure NameFits (payload : List UInt8) (gOffset : Nat) : Prop where
  neverReturns : NeverReturns (nextIndex payload gOffset) gOffset
  short : ∀ steps index, walk (nextIndex payload gOffset) gOffset steps = some index ->
    byte payload index = some 0 ->
    labelsSize payload gOffset steps gOffset ≤ 256

/-- `decode_name` returns within as many rounds as the payload has bytes, a name
of at most 255 bytes. -/
def IsBounded (payload : List UInt8) (gOffset : Nat) : Prop :=
  ∃ rounds outcome, rounds ≤ payload.length ∧
    decodeNameWithin rounds payload gOffset = some outcome ∧
    ∀ name offset, outcome = .ok (name, offset) -> name.length ≤ 255

theorem length_le_iff_nameSize_le (name : List UInt8) :
    name.length ≤ 255 ↔ nameSize name ≤ 256 := by
  rw [nameSize]
  split
  case isTrue isNil => simp [isNil]
  case isFalse => omega

theorem nameFits_of_end (ends : nextIndex payload gOffset gOffset = none) :
    NameFits payload gOffset where
  neverReturns := neverReturns_of_ended (walk_succ_of_end ends 0)
  short := by
    intro steps index reached _
    cases steps with
    | zero => exact Nat.zero_le _
    | succ steps =>
      rw [walk_succ_of_end ends] at reached
      cases reached

/-- The positions of a name that fits are read, and its size is bounded. -/
theorem bounded_of_nameFits (inside : gOffset < payload.length) (fits : NameFits payload gOffset) :
    ∃ outcome, nameRounds payload gOffset payload.length ⟨gOffset, gOffset, []⟩ = some outcome ∧
      ∀ name offset, outcome = .ok (name, offset) -> name.length ≤ 255 := by
  have ended : walk (nextIndex payload gOffset) gOffset payload.length =
      none := walk_eq_none_of_neverReturns inside (fun _ _ => nextIndex_lt) fits.neverReturns
  have isSome : (nameRounds payload gOffset payload.length ⟨gOffset, gOffset, []⟩).isSome :=
    (nameRounds_isSome_iff inside).mpr ended
  obtain ⟨outcome, isOutcome⟩ := Option.isSome_iff_exists.mp isSome
  refine ⟨outcome, isOutcome, fun name offset isName => ?_⟩
  obtain ⟨steps, index, reached, -, named, failed⟩ := nameRounds_endsWell inside isOutcome
  by_cases tail : byte payload index = some 0
  · obtain ⟨found, _, isFound, size⟩ := named tail
    obtain ⟨rfl, -⟩ : name = found ∧ _ := Prod.mk.inj (Except.ok.inj (isName.symm.trans isFound))
    have short := fits.short steps index reached tail
    rw [length_le_iff_nameSize_le, size]
    exact Nat.le_trans (Nat.le_of_eq (Nat.zero_add _)) short
  · obtain ⟨message, isMessage⟩ := failed tail
    rw [isName] at isMessage
    cases isMessage

theorem nameFits_of_bounded (inside : gOffset < payload.length)
    (isOutcome : nameRounds payload gOffset rounds ⟨gOffset, gOffset, []⟩ = some outcome)
    (short : ∀ name offset, outcome = .ok (name, offset) -> name.length ≤ 255) :
    NameFits payload gOffset where
  neverReturns := neverReturns_of_ended
    ((nameRounds_isSome_iff inside).mp (Option.isSome_of_eq_some isOutcome))
  short := by
    intro steps index reached tail
    obtain ⟨last, lastIndex, lastReached, lastEnds, named, -⟩ :=
      nameRounds_endsWell inside isOutcome
    have ends : nextIndex payload gOffset index = none := nextIndex_of_tail tail
    have same : steps = last := by
      refine Nat.le_antisymm (last_le lastReached lastEnds ?_) (last_le reached ends ?_)
      · rw [reached]
        exact Option.some_ne_none _
      · rw [lastReached]
        exact Option.some_ne_none _
    subst same
    obtain rfl : index = lastIndex := Option.some.inj (reached.symm.trans lastReached)
    obtain ⟨name, offset, isName, size⟩ := named tail
    have bound := (length_le_iff_nameSize_le name).mp (short name offset isName)
    rw [size] at bound
    exact Nat.le_trans (Nat.le_of_eq (Nat.zero_add _).symm) bound

/-- The names decoded within the payload's length and the protocol's limit. -/
theorem decodeName_bounded_iff (payload : List UInt8) (gOffset : Nat) :
    IsBounded payload gOffset ↔ NameFits payload gOffset := by
  by_cases inside : gOffset < payload.length
  · by_cases tail : byteAt payload gOffset = 0
    · have isTail : byte payload gOffset = some 0 := by rw [byte_of_lt inside, tail]
      refine iff_of_true ?_ (nameFits_of_end (nextIndex_of_tail isTail))
      refine ⟨0, .ok ([], gOffset + 1), Nat.zero_le _, ?_, ?_⟩
      · rw [decodeNameWithin, if_neg (Nat.not_le.mpr inside), isTail]
        rfl
      · rintro _ _ ⟨⟩
        exact Nat.zero_le _
    · have rest : ∀ rounds, decodeNameWithin rounds payload gOffset =
          nameRounds payload gOffset rounds ⟨gOffset, gOffset, []⟩ := by
        intro rounds
        rw [decodeNameWithin, if_neg (Nat.not_le.mpr inside), byte_of_lt inside]
        exact if_neg tail
      simp only [IsBounded, rest]
      constructor
      · rintro ⟨rounds, outcome, -, isOutcome, short⟩
        exact nameFits_of_bounded inside isOutcome short
      · intro fits
        obtain ⟨outcome, isOutcome, short⟩ := bounded_of_nameFits inside fits
        exact ⟨payload.length, outcome, Nat.le_refl _, isOutcome, short⟩
  · have outside : payload.length ≤ gOffset := Nat.not_lt.mp inside
    refine iff_of_true ?_ (nameFits_of_end ?_)
    · refine ⟨0, _, Nat.zero_le _, if_pos outside, ?_⟩
      rintro _ _ ⟨⟩
    · rw [nextIndex, byte_of_le outside]
      rfl

/-- A pointer to the label in front of it leads around for ever; a name in front
of the offset may exceed the limit. -/
theorem decodeName_unbounded :
    (∀ rounds, decodeNameWithin rounds (List.replicate 12 0 ++ [1, 0x61, 0xc0, 12]) 12 = none) ∧
    (decodeNameWithin 7
      (List.replicate 12 0 ++ (List.replicate 5 (63 :: List.replicate 63 0x61)).flatten ++
        [0, 0xc0, 12]) 333).map (·.toOption.map (·.1.length)) =
      some (some 319) := by
  refine ⟨fun rounds => ?_, by decide +kernel⟩
  cases isOutcome : decodeNameWithin rounds (List.replicate 12 0 ++ [1, 0x61, 0xc0, 12]) 12 with
  | none => rfl
  | some outcome =>
    have isSome : (nameRounds (List.replicate 12 0 ++ [1, 0x61, 0xc0, 12])
        12 rounds ⟨12, 12, []⟩).isSome := Option.isSome_of_eq_some isOutcome
    have ended := (nameRounds_isSome_iff (by decide)).mp isSome
    exact absurd (by decide) (neverReturns_of_ended ended 0 2 12 (by decide)
      rfl)

end Metaflow.ProtocolLogs
