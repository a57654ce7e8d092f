import Metaflow.Datatype.MatchedField
import Metaflow.Library.BitField

/-!
# The parts of a matched field

`matched_field.go` and `matched_field6.go`: addresses, networks, ports, a
protocol and a tap type, each in the bits from an offset on. A field is known by
its parts if its other bits are zero.
-/

namespace Metaflow.Datatype

open Library

/-- No part crosses a word, no two meet, and they leave no bit before the last
one. -/
structure FieldLayout (words : Nat) (Flag : Type) where
  offset : Flag -> Nat
  length : Flag -> Nat
  mask : Flag -> BitVec 64
  bitsLen : Nat
  mask_eq : ∀ flag, mask flag = lowMask (length flag)
  inWord : ∀ flag, offset flag % 64 + length flag ≤ 64
  inside : ∀ flag, offset flag / 64 < words
  ends : ∀ flag, offset flag + length flag ≤ bitsLen
  separate : ∀ flag other, flag ≠ other ->
    Separate (offset flag) (length flag) (offset other) (length other)
  covers : ∀ position < bitsLen, ∃ flag,
    offset flag ≤ position ∧ position < offset flag + length flag

namespace MatchedField

section

variable {Flag : Type} (layout : FieldLayout words Flag)

def get (f : MatchedField words) (flag : Flag) : BitVec 64 :=
  let index := layout.offset flag >>> 6
  let offset := layout.offset flag &&& 0x3f
  (f.word index >>> offset) &&& layout.mask flag

def set (f : MatchedField words) (flag : Flag) (value : BitVec 64) : MatchedField words :=
  let index := layout.offset flag >>> 6
  let offset := layout.offset flag &&& 0x3f
  let word := f.word index &&& ~~~(layout.mask flag <<< offset)
  ⟨f.fields.setIfInBounds index (word ||| (value <<< offset))⟩

theorem split_offset (offset : Nat) : offset >>> 6 = offset / 64 ∧ offset &&& 0x3f = offset % 64 :=
  ⟨Nat.shiftRight_eq_div_pow _ 6, Nat.and_two_pow_sub_one_eq_mod _ 6⟩

section

variable (f : MatchedField words)

variable (flag : Flag)

theorem get_eq : f.get layout flag = getField (layout.offset flag % 64)
      (layout.length flag) (f.word (layout.offset flag / 64)) := by
  rw [get, (split_offset _).1, (split_offset _).2, layout.mask_eq, getField]

theorem set_eq (value : BitVec 64) : f.set layout flag value =
      ⟨f.fields.setIfInBounds (layout.offset flag / 64)
        (setField (layout.offset flag % 64) (layout.length flag)
          (f.word (layout.offset flag / 64)) value)⟩ := by
  rw [set, (split_offset _).1, (split_offset _).2, layout.mask_eq, setField]

/-- A bit of a part is a bit of the field. -/
theorem getLsbD_get (position : Nat) : (f.get layout flag).getLsbD position =
      (decide (position < layout.length flag) && f.bit (layout.offset flag + position)) := by
  have inWord := layout.inWord flag
  rw [get_eq, getLsbD_getField]
  by_cases short : position < layout.length flag
  · have sameWord : (layout.offset flag + position) / 64 = layout.offset flag / 64 := by omega
    have sameBit : (layout.offset flag + position) % 64 =
        layout.offset flag % 64 + position := by omega
    rw [bit, sameWord, sameBit]
  · simp [short]

theorem bit_set (fits : FitsField (layout.length flag) value) (position : Nat) :
    (f.set layout flag value).bit position =
      if layout.offset flag ≤ position ∧ position < layout.offset flag + layout.length flag then
        value.getLsbD (position - layout.offset flag) else f.bit position := by
  have inWord := layout.inWord flag
  have inBounds := layout.inside flag
  rw [set_eq]
  simp only [bit, word, Vector.getElem?_setIfInBounds]
  by_cases sameWord : layout.offset flag / 64 = position / 64
  · rw [if_pos sameWord, if_pos inBounds, Option.getD_some, getLsbD_setField, sameWord]
    have small : position % 64 < 64 := Nat.mod_lt _ (by decide)
    have reached : layout.offset flag % 64 ≤ position % 64 ↔
        layout.offset flag ≤ position := by omega
    have ended : position % 64 < layout.offset flag % 64 + layout.length flag ↔
        position < layout.offset flag + layout.length flag := by omega
    simp only [small, reached, ended, decide_true, Bool.true_and]
    by_cases starts : layout.offset flag ≤ position
    · have rest : position % 64 - layout.offset flag % 64 =
          position - layout.offset flag := by omega
      rw [rest]
      by_cases ends : position < layout.offset flag + layout.length flag
      · simp [starts, ends]
      · have zero := fits (position - layout.offset flag) (by omega)
        simp [ends, zero]
    · simp [starts]
  · rw [if_neg sameWord, if_neg (by omega)]

/-- A bit of the value behind the part is set in the rest of the word. -/
theorem bit_set_of_spill (sameWord : (layout.offset flag + above) / 64 = layout.offset flag / 64)
    (spills : value.getLsbD above = true) :
    (f.set layout flag value).bit (layout.offset flag + above) = true := by
  have rest : (layout.offset flag + above) % 64 - layout.offset flag % 64 = above := by omega
  have small : (layout.offset flag + above) % 64 < 64 := Nat.mod_lt _ (by decide)
  have starts : layout.offset flag % 64 ≤ (layout.offset flag + above) % 64 := by omega
  rw [set_eq, bit, word, Vector.getElem?_setIfInBounds, if_pos sameWord.symm,
    if_pos (layout.inside flag), Option.getD_some, getLsbD_setField, rest, spills]
  simp [small, starts]

end

/-- The field has the values as its parts, and no other bits. -/
structure Has (f : MatchedField words) (values : Flag -> BitVec 64) : Prop where
  get_eq : ∀ flag, f.get layout flag = values flag
  tidy : ∀ position, layout.bitsLen ≤ position -> f.bit position = false

theorem has_blank : Has layout blank fun _ => 0 where
  get_eq flag := by
    refine BitVec.eq_of_getLsbD_eq fun position _ => ?_
    rw [getLsbD_get, bit_blank, Bool.and_false]
    exact BitVec.getLsbD_zero.symm
  tidy position _ := bit_blank position

variable [DecidableEq Flag]

/-- A part that is written is read again, and the others are not changed. -/
theorem get_set (f : MatchedField words) (flag other : Flag)
    (fits : FitsField (layout.length flag) value) : (f.set layout flag value).get layout other =
      if other = flag then value else f.get layout other := by
  refine BitVec.eq_of_getLsbD_eq fun position _ => ?_
  rw [getLsbD_get, bit_set layout f flag fits]
  by_cases same : other = flag
  · subst same
    by_cases short : position < layout.length other
    · simp [short]
    · simp [short, fits position (by omega)]
  · rw [if_neg same, getLsbD_get]
    by_cases short : position < layout.length other
    · rcases layout.separate flag other (Ne.symm same) with before | behind <;>
        rw [if_neg (by omega)]
    · simp [short]

variable {layout}

theorem Has.set (has : Has layout f values) (flag : Flag)
    (fits : FitsField (layout.length flag) value) :
    Has layout (f.set layout flag value) (Function.update values flag value) where
  get_eq other := by
    rw [get_set layout f flag other fits, Function.update_apply, has.get_eq other]
  tidy position behind := by
    have ends := layout.ends flag
    rw [bit_set layout f flag fits, if_neg (by omega), has.tidy position behind]

end

theorem equal_iff_bit (f n : MatchedField words) :
    f.equal n ↔ ∀ position, f.bit position = n.bit position := by
  rw [equal, decide_eq_true_eq]
  constructor
  · intro same position
    rw [bit, bit, word, word, same]
  · intro same
    refine Vector.ext fun index small => BitVec.eq_of_getLsbD_eq fun low inside => ?_
    have bits := same (64 * index + low)
    have isIndex : (64 * index + low) / 64 = index := by omega
    have isLow : (64 * index + low) % 64 = low := by omega
    simpa [bit, word, isIndex, isLow, small] using bits

/-- A key matches if each of its parts does. -/
theorem and_equal_iff {Flag : Type} {layout : FieldLayout words Flag}
    {matchedValues maskValues : Flag -> BitVec 64}
    (hasMatched : Has layout matched matchedValues) (hasMask : Has layout mask maskValues)
    (key : MatchedField words) : (key.and mask).equal matched ↔
      ∀ flag, key.get layout flag &&& maskValues flag = matchedValues flag := by
  rw [equal_iff_bit]
  constructor
  · intro same flag
    refine BitVec.eq_of_getLsbD_eq fun position _ => ?_
    rw [← hasMask.get_eq, ← hasMatched.get_eq, BitVec.getLsbD_and,
      getLsbD_get, getLsbD_get, getLsbD_get]
    by_cases short : position < layout.length flag
    · have bits := same (layout.offset flag + position)
      rw [bit_and] at bits
      simp [short, bits]
    · simp [short]
  · intro same position
    rw [bit_and]
    by_cases covered : position < layout.bitsLen
    · obtain ⟨flag, reached, ended⟩ := layout.covers position covered
      have short : position - layout.offset flag < layout.length flag := by omega
      have parts := congrArg (fun part => part.getLsbD (position - layout.offset flag)) (same flag)
      rw [← hasMask.get_eq, ← hasMatched.get_eq] at parts
      simpa [getLsbD_get, short, Nat.add_sub_cancel' reached] using parts
    · rw [hasMask.tidy position (by omega), hasMatched.tidy position (by omega), Bool.and_false]

end MatchedField

/-- The parts of a field for IPv4. -/
inductive MatchFlag where
  | srcIp
  | dstIp
  | srcEpc
  | dstEpc
  | srcPort
  | dstPort
  | proto
  | tapType
  deriving DecidableEq

/-- `fieldOffset` -/
def fieldOffset : MatchFlag -> Nat
  | .srcIp => 0
  | .dstIp => 32
  | .srcEpc => 64
  | .dstEpc => 80
  | .srcPort => 96
  | .dstPort => 112
  | .proto => 128
  | .tapType => 136

/-- `fieldMask` -/
def fieldMask : MatchFlag -> BitVec 64
  | .srcIp => 0xffffffff
  | .dstIp => 0xffffffff
  | .srcEpc => 0xffff
  | .dstEpc => 0xffff
  | .srcPort => 0xffff
  | .dstPort => 0xffff
  | .proto => 0xff
  | .tapType => 0xff

def fieldLength : MatchFlag -> Nat
  | .srcIp => 32
  | .dstIp => 32
  | .srcEpc => 16
  | .dstEpc => 16
  | .srcPort => 16
  | .dstPort => 16
  | .proto => 8
  | .tapType => 8

def matchedLayout : FieldLayout matchedFieldLen MatchFlag where
  offset := fieldOffset
  length := fieldLength
  mask := fieldMask
  bitsLen := 144
  mask_eq := by intro flag; cases flag <;> rfl
  inWord := by intro flag; cases flag <;> decide
  inside := by intro flag; cases flag <;> decide
  ends := by intro flag; cases flag <;> decide
  separate := by
    intro flag other differs
    cases flag <;> cases other <;>
      first
      | exact absurd rfl differs
      | exact .inl (by decide)
      | exact .inr (by decide)
  covers := by
    intro position small
    by_cases isSrcIp : position < 32
    · exact ⟨.srcIp, Nat.zero_le _, isSrcIp⟩
    by_cases isDstIp : position < 64
    · exact ⟨.dstIp, Nat.le_of_not_lt isSrcIp, isDstIp⟩
    by_cases isSrcEpc : position < 80
    · exact ⟨.srcEpc, Nat.le_of_not_lt isDstIp, isSrcEpc⟩
    by_cases isDstEpc : position < 96
    · exact ⟨.dstEpc, Nat.le_of_not_lt isSrcEpc, isDstEpc⟩
    by_cases isSrcPort : position < 112
    · exact ⟨.srcPort, Nat.le_of_not_lt isDstEpc, isSrcPort⟩
    by_cases isDstPort : position < 128
    · exact ⟨.dstPort, Nat.le_of_not_lt isSrcPort, isDstPort⟩
    by_cases isProto : position < 136
    · exact ⟨.proto, Nat.le_of_not_lt isDstPort, isProto⟩
    exact ⟨.tapType, Nat.le_of_not_lt isProto, small⟩

/-- The parts of a field for IPv6, whose addresses are in two parts. -/
inductive MatchFlag6 where
  | srcIp0
  | srcIp1
  | dstIp0
  | dstIp1
  | srcEpc
  | dstEpc
  | srcPort
  | dstPort
  | proto
  | tapType
  deriving DecidableEq

/-- `field6Offset` -/
def field6Offset : MatchFlag6 -> Nat
  | .srcIp0 => 0
  | .srcIp1 => 64
  | .dstIp0 => 128
  | .dstIp1 => 192
  | .srcEpc => 256
  | .dstEpc => 272
  | .srcPort => 288
  | .dstPort => 304
  | .proto => 320
  | .tapType => 328

/-- `field6Mask` -/
def field6Mask : MatchFlag6 -> BitVec 64
  | .srcIp0 => 0xffffffffffffffff
  | .srcIp1 => 0xffffffffffffffff
  | .dstIp0 => 0xffffffffffffffff
  | .dstIp1 => 0xffffffffffffffff
  | .srcEpc => 0xffff
  | .dstEpc => 0xffff
  | .srcPort => 0xffff
  | .dstPort => 0xffff
  | .proto => 0xff
  | .tapType => 0xff

def field6Length : MatchFlag6 -> Nat
  | .srcIp0 => 64
  | .srcIp1 => 64
  | .dstIp0 => 64
  | .dstIp1 => 64
  | .srcEpc => 16
  | .dstEpc => 16
  | .srcPort => 16
  | .dstPort => 16
  | .proto => 8
  | .tapType => 8

def matched6Layout : FieldLayout matchedField6Len MatchFlag6 where
  offset := field6Offset
  length := field6Length
  mask := field6Mask
  bitsLen := 336
  mask_eq := by intro flag; cases flag <;> rfl
  inWord := by intro flag; cases flag <;> decide
  inside := by intro flag; cases flag <;> decide
  ends := by intro flag; cases flag <;> decide
  separate := by
    intro flag other differs
    cases flag <;> cases other <;>
      first
      | exact absurd rfl differs
      | exact .inl (by decide)
      | exact .inr (by decide)
  covers := by
    intro position small
    by_cases isSrcIp0 : position < 64
    · exact ⟨.srcIp0, Nat.zero_le _, isSrcIp0⟩
    by_cases isSrcIp1 : position < 128
    · exact ⟨.srcIp1, Nat.le_of_not_lt isSrcIp0, isSrcIp1⟩
    by_cases isDstIp0 : position < 192
    · exact ⟨.dstIp0, Nat.le_of_not_lt isSrcIp1, isDstIp0⟩
    by_cases isDstIp1 : position < 256
    · exact ⟨.dstIp1, Nat.le_of_not_lt isDstIp0, isDstIp1⟩
    by_cases isSrcEpc : position < 272
    · exact ⟨.srcEpc, Nat.le_of_not_lt isDstIp1, isSrcEpc⟩
    by_cases isDstEpc : position < 288
    · exact ⟨.dstEpc, Nat.le_of_not_lt isSrcEpc, isDstEpc⟩
    by_cases isSrcPort : position < 304
    · exact ⟨.srcPort, Nat.le_of_not_lt isDstEpc, isSrcPort⟩
    by_cases isDstPort : position < 320
    · exact ⟨.dstPort, Nat.le_of_not_lt isSrcPort, isDstPort⟩
    by_cases isProto : position < 328
    · exact ⟨.proto, Nat.le_of_not_lt isDstPort, isProto⟩
    exact ⟨.tapType, Nat.le_of_not_lt isProto, small⟩

end Metaflow.Datatype
