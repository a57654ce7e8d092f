import Mathlib.Data.Nat.Bitwise

/-!
# Fields of words

A word holds several numbers, each in the bits from a start on. A field is
read by a shift and a mask, and written by clearing its bits and setting them
anew. Fields that do not meet do not disturb each other.
-/

namespace Metaflow.Library

open BitVec

variable {width : Nat}

/-- The word whose lowest bits are ones. -/
def lowMask (length : Nat) : BitVec width :=
  (BitVec.allOnes length).setWidth width

theorem getLsbD_lowMask (length position : Nat) : (lowMask length : BitVec width).getLsbD position =
      (decide (position < width) && decide (position < length)) := by
  simp [lowMask]

/-- The value has no bits behind the length of the field. -/
def FitsField (length : Nat) (value : BitVec width) : Prop :=
  ∀ position, length ≤ position -> value.getLsbD position = false

theorem fitsField_and_lowMask (length : Nat) (value : BitVec width) :
    FitsField length (value &&& lowMask length) := by
  intro position behind
  simp [getLsbD_lowMask, Nat.not_lt_of_le behind]

theorem fitsField_lowMask (length : Nat) : FitsField length (lowMask length : BitVec width) := by
  intro position behind
  simp [getLsbD_lowMask, Nat.not_lt_of_le behind]

theorem fitsField_zero (length : Nat) : FitsField length (0 : BitVec width) := by
  intro position _
  exact getLsbD_zero

theorem fitsField_setWidth (fits : narrow ≤ length) (value : BitVec narrow) :
    FitsField length (value.setWidth width) := by
  intro position behind
  rw [getLsbD_setWidth, getLsbD_of_ge _ _ (by omega), Bool.and_false]

variable {value other : BitVec width}

section

variable (fits : FitsField length value)
include fits

theorem FitsField.or (otherFits : FitsField length other) : FitsField length (value ||| other) := by
  intro position behind
  rw [getLsbD_or, fits position behind, otherFits position behind, Bool.or_false]

end

/-- Read the field. -/
def getField (start length : Nat) (word : BitVec width) : BitVec width :=
  (word >>> start) &&& lowMask length

/-- Write the field. -/
def setField (start length : Nat) (word value : BitVec width) : BitVec width :=
  (word &&& ~~~(lowMask length <<< start)) ||| (value <<< start)

/-- Set more bits of the field. -/
def addField (start : Nat) (word value : BitVec width) : BitVec width :=
  word ||| (value <<< start)

theorem getLsbD_getField (start length : Nat) (word : BitVec width) (position : Nat) :
    (getField start length word).getLsbD position =
      (decide (position < length) && word.getLsbD (start + position)) := by
  rw [getField, getLsbD_and, getLsbD_ushiftRight, getLsbD_lowMask]
  by_cases inside : position < width
  · simp [inside, Bool.and_comm]
  · rw [getLsbD_of_ge word _ (by omega)]
    simp

theorem getLsbD_setField (start length : Nat) (word value : BitVec width) (position : Nat) :
    (setField start length word value).getLsbD position = ((word.getLsbD position &&
          !(decide (start ≤ position) && decide (position < start + length))) ||
        (decide (position < width) && decide (start ≤ position) &&
          value.getLsbD (position - start))) := by
  rw [setField, getLsbD_or, getLsbD_and, getLsbD_not,
    getLsbD_shiftLeft, getLsbD_shiftLeft, getLsbD_lowMask]
  by_cases inside : position < width
  · by_cases before : position < start
    · simp [inside, before, Nat.not_le_of_lt before]
    · have reached := Nat.le_of_not_lt before
      have same : position - start < length ↔ position < start + length := by omega
      have small : position - start < width := by omega
      simp [inside, before, reached, same, small]
  · rw [getLsbD_of_ge word _ (by omega)]
    simp [inside]

theorem getLsbD_addField (start : Nat) (word value : BitVec width) (position : Nat) :
    (addField start word value).getLsbD position = (word.getLsbD position ||
        (decide (position < width) && decide (start ≤ position) &&
          value.getLsbD (position - start))) := by
  rw [addField, getLsbD_or, getLsbD_shiftLeft]
  by_cases before : position < start
  · simp [before, Nat.not_le_of_lt before]
  · simp [before, Nat.le_of_not_lt before]

section

variable {start length otherStart otherLength : Nat}
variable {word value other : BitVec width}

theorem getField_setField_same (inside : start + length ≤ width) (fits : FitsField length value) :
    getField start length (setField start length word value) = value := by
  refine eq_of_getLsbD_eq fun position _ => ?_
  rw [getLsbD_getField, getLsbD_setField]
  by_cases short : position < length
  · have small : start + position < width := by omega
    simp [short, small]
  · simp [short, fits position (by omega)]

/-- A field that lies before or behind another one. -/
def Separate (start length otherStart otherLength : Nat) : Prop :=
  otherStart + otherLength ≤ start ∨ start + length ≤ otherStart

/-- A field that fits replaces its own bits. -/
theorem getLsbD_setField_of_fits (fits : FitsField length value) (position : Nat) :
    (setField start length word value).getLsbD position =
      if start ≤ position ∧ position < start + length then
        decide (position < width) && value.getLsbD (position - start)
      else word.getLsbD position := by
  rw [getLsbD_setField]
  by_cases starts : start ≤ position
  · by_cases ends : position < start + length
    · simp [starts, ends]
    · simp [ends, fits (position - start) (by omega)]
  · simp [starts]

theorem getField_congr
    (same : ∀ position, otherStart ≤ position -> position < otherStart + otherLength ->
      changed.getLsbD position = word.getLsbD position) :
    getField otherStart otherLength changed = getField otherStart otherLength word := by
  refine eq_of_getLsbD_eq fun position _ => ?_
  rw [getLsbD_getField, getLsbD_getField]
  by_cases short : position < otherLength
  · rw [same _ (Nat.le_add_right ..) (by omega)]
  · simp [short]

variable (fits : FitsField length value)
include fits

section

variable (separate : Separate start length otherStart otherLength)
include separate

theorem getField_setField_of_separate :
    getField otherStart otherLength (setField start length word value) =
      getField otherStart otherLength word := by
  refine getField_congr fun position reached below => ?_
  rw [getLsbD_setField_of_fits fits, if_neg]
  rcases separate with before | behind <;> omega

theorem getField_addField_of_separate :
    getField otherStart otherLength (addField start word value) =
      getField otherStart otherLength word := by
  refine getField_congr fun position reached below => ?_
  rw [getLsbD_addField]
  rcases separate with before | behind
  · simp [show ¬ start ≤ position by omega]
  · simp [fits (position - start) (by omega)]

end

theorem addField_setField (moreFits : FitsField length more) :
    addField start (setField start length word value) more =
      setField start length word (value ||| more) := by
  refine eq_of_getLsbD_eq fun position small => ?_
  rw [getLsbD_addField, getLsbD_setField_of_fits fits,
    getLsbD_setField_of_fits (fits.or moreFits), getLsbD_or]
  split_ifs with inside
  · simp [inside.1, small]
  · by_cases starts : start ≤ position
    · simp [moreFits (position - start) (by omega)]
    · simp [starts]

omit fits in
theorem setField_getField : setField start length word (getField start length word) = word := by
  have fits : FitsField length (getField start length word) := fitsField_and_lowMask length _
  refine eq_of_getLsbD_eq fun position small => ?_
  rw [getLsbD_setField_of_fits fits, getLsbD_getField]
  split_ifs with inside
  · have short : position - start < length := by omega
    simp [small, short, Nat.add_sub_cancel' inside.1]
  · rfl

end

/-- A mask of ones with zeros behind them. -/
def IsNetmask (mask : BitVec width) : Prop :=
  ∃ zeros : Nat, mask = BitVec.allOnes width <<< zeros

theorem isNetmask_zero : IsNetmask (0 : BitVec width) :=
  ⟨width, by simp [shiftLeft_eq_zero (Nat.le_refl width)]⟩

/-- More zeros behind the ones leave fewer ones. -/
theorem shiftLeft_and_shiftLeft_of_le {few many : Nat} (fewer : few ≤ many) :
    (allOnes width <<< many) &&& (allOnes width <<< few) = allOnes width <<< many := by
  refine eq_of_getLsbD_eq fun position inside => ?_
  rw [getLsbD_and, getLsbD_shiftLeft, getLsbD_shiftLeft]
  by_cases before : position < many
  · simp [before]
  · have notBefore : ¬ position < few := by omega
    have small : position - few < width := by omega
    simp [before, notBefore, small, inside]

/-- Of two masks of leading ones the smaller one has the fewer ones. -/
theorem IsNetmask.and_eq_of_le {mask longer : BitVec width} (isNetmask : IsNetmask mask)
    (longerIs : IsNetmask longer) (atMost : mask ≤ longer) : mask &&& longer = mask := by
  obtain ⟨zeros, rfl⟩ := isNetmask
  obtain ⟨longerZeros, rfl⟩ := longerIs
  rcases Nat.le_total longerZeros zeros with fewer | more
  · exact shiftLeft_and_shiftLeft_of_le fewer
  · have contained := @shiftLeft_and_shiftLeft_of_le width _ _ more
    have atLeast : allOnes width <<< longerZeros ≤ allOnes width <<< zeros := by
      rw [← contained, le_def, toNat_and]
      exact Nat.and_le_right
    rw [BitVec.le_antisymm atMost atLeast, BitVec.and_self]

/-- Numbers that agree under a mask agree under its parts. -/
theorem and_eq_and_of_and_eq
    (contained : mask &&& longer = mask) (same : number &&& longer = other &&& longer) :
    number &&& mask = other &&& mask := by
  rw [← contained, BitVec.and_comm mask, ← BitVec.and_assoc, same, BitVec.and_assoc]

end Metaflow.Library
