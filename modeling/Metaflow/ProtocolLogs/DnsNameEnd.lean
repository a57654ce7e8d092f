import Metaflow.ProtocolLogs.DnsName

/-!
# Where the name of a DNS message ends

`decode_name` returns the offset behind the name. It is right if the labels
behind the first pointer end in front of it and the last step of all is a label.
-/

namespace Metaflow.ProtocolLogs

open Library
open Library.Bytes

variable {payload : List UInt8} {gOffset : Nat}

/-- The last position of a name as written, and its bytes there: one for the
zero byte, two for a pointer. -/
inductive WrittenTo (payload : List UInt8) : (index last size : Nat) -> Prop
  | tail (isTail : byteAt payload index = 0) : WrittenTo payload index index 1
  | pointer (isPointer : byteAt payload index &&& 0xc0 = 0xc0) : WrittenTo payload index index 2
  | label (notTail : byteAt payload index ≠ 0) (isLabel : byteAt payload index &&& 0xc0 ≠ 0xc0)
      (rest : WrittenTo payload (index + 1 + (byteAt payload index).toNat) last size) :
      WrittenTo payload index last size

/-- No position on the way is behind the last one as written, and no pointer
leads to a name's end. -/
def PointsBack (payload : List UInt8) (gOffset rounds last : Nat) : Prop :=
  ∀ steps ≤ rounds, ∀ index ∈ walk (nextIndex payload gOffset) gOffset steps, index ≤ last ∧
    (byteAt payload index &&& 0xc0 = 0xc0 ->
      ∀ later ∈ nextIndex payload gOffset index, byteAt payload later ≠ 0)

section Rounds

variable {state : NameState} (inside : state.index < payload.length)
  (reached : walk (nextIndex payload gOffset) gOffset steps = some state.index)
  (within : steps + rounds ≤ total)
include inside reached within

/-- Behind a pointer the offset stays there, and moves by one with the last
label. -/
theorem nameRounds_offset_of_pointer (pointsBack : PointsBack payload gOffset total last)
    (atLast : state.lOffset = last + if byteAt payload state.index = 0 then 1 else 0)
    (isDecoded : nameRounds payload gOffset rounds state = some (.ok (name, offset))) :
    offset = last + 2 := by
  induction rounds generalizing state steps with
  | zero => cases isDecoded
  | succ rounds ih =>
    obtain ⟨isTail, rfl⟩ | ⟨notTail, later, isNext, moves, rest⟩ :=
      nameRounds_succ_ok inside isDecoded
    · rw [atLast, if_pos isTail]
    · rw [if_neg notTail] at atLast
      have further := (walk_succ reached).trans isNext
      refine ih (nextIndex_lt isNext) further (by omega) ?_ rest
      rcases moves with ⟨isPointer, sameOffset⟩ | ⟨-, -, isOffset⟩
      · have isNamed := (pointsBack steps (by omega) _ reached).2 isPointer _ isNext
        rw [sameOffset, atLast, if_neg isNamed]
      · have before := (pointsBack (steps + 1) (by omega) _ further).1
        rw [isOffset, moveOffset, if_neg (by omega), atLast]
        split <;> rfl

theorem nameRounds_offset (atIndex : state.lOffset = state.index)
    (isDecoded : nameRounds payload gOffset rounds state = some (.ok (name, offset))) :
    ∃ last size, WrittenTo payload state.index last size ∧
      (PointsBack payload gOffset total last -> offset = last + size) := by
  induction rounds generalizing state steps with
  | zero => cases isDecoded
  | succ rounds ih =>
    obtain ⟨isTail, rfl⟩ | ⟨notTail, later, isNext, moves, rest⟩ :=
      nameRounds_succ_ok inside isDecoded
    · exact ⟨_, _, .tail isTail, fun _ => by rw [atIndex]⟩
    · have further := (walk_succ reached).trans isNext
      rcases moves with ⟨isPointer, sameOffset⟩ | ⟨isLabel, isIndex, isOffset⟩
      · refine ⟨_, _, .pointer isPointer, fun pointsBack => ?_⟩
        have isNamed := (pointsBack steps (by omega) _ reached).2 isPointer _ isNext
        refine nameRounds_offset_of_pointer (nextIndex_lt isNext) further (by omega) pointsBack
          ?_ rest
        rw [sameOffset, atIndex, if_neg isNamed, Nat.add_zero]
      · obtain ⟨last, size, written, isEnd⟩ := ih (nextIndex_lt isNext) further (by omega)
          (by rw [isOffset, moveOffset, if_pos (by omega)]) rest
        rw [isIndex] at written
        exact ⟨last, size, .label notTail isLabel written, isEnd⟩

end Rounds

/-- The offset is the end of the name as written if all positions are in front
of it and a label leads to the zero byte. -/
theorem decodeName_offset
    (isDecoded : decodeNameWithin rounds payload gOffset = some (.ok (name, offset))) :
    ∃ last size, WrittenTo payload gOffset last size ∧
      (PointsBack payload gOffset rounds last -> offset = last + size) := by
  rw [decodeNameWithin] at isDecoded
  split_ifs at isDecoded with outside
  · cases isDecoded
  · have inside : gOffset < payload.length := Nat.not_le.mp outside
    rw [byte_of_lt inside, some_bind] at isDecoded
    split_ifs at isDecoded with isTail
    · cases isDecoded
      exact ⟨gOffset, 1, .tail isTail, fun _ => rfl⟩
    · exact nameRounds_offset (by exact inside) (by exact walk_zero)
        (Nat.le_of_eq (Nat.zero_add rounds)) rfl isDecoded

/-- A pointer to a label in front of it. -/
theorem decodeName_offset_pointer : PointsBack [1, 0x61, 0, 0xc0, 0] 3 3 3 ∧
    ∃ last size, WrittenTo [1, 0x61, 0, 0xc0, 0] 3 last size ∧
      (PointsBack [1, 0x61, 0, 0xc0, 0] 3 3 last -> 5 = last + size) :=
  ⟨by unfold PointsBack; decide +kernel, decodeName_offset
    (show decodeNameWithin 3 _ 3 = some (.ok ([0x61], 5)) by decide +kernel)⟩

/-- A pointer to the root is taken for one byte, one to a label that covers it
for the label. -/
theorem decodeName_offset_fails :
    decodeNameWithin 2 (List.replicate 12 0 ++ [0xc0, 0]) 12 = some (.ok ([], 13)) ∧
    WrittenTo (List.replicate 12 0 ++ [0xc0, 0]) 12 12 2 ∧
    decodeNameWithin 3 (List.replicate 640 0 ++ [2, 0xc2, 0x80, 0]) 641 =
      some (.ok ([0xc2, 0x80], 644)) ∧
    WrittenTo (List.replicate 640 0 ++ [2, 0xc2, 0x80, 0]) 641 641 2 :=
  ⟨by decide +kernel, .pointer (by decide +kernel), by decide +kernel, .pointer (by decide +kernel)⟩

end Metaflow.ProtocolLogs
