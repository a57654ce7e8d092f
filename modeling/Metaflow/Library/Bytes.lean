import Metaflow.Library.TrackedRead

/-!
# Bytes of a packet

Reads at offsets of a list of bytes; one outside the list has no result. A read
depends only on the bytes from its offset on.
-/

namespace Metaflow.Library.Bytes

open List

section

variable (bytes : List UInt8) (offset count : Nat)

/-- The bytes of a range, as far as there are any. -/
def window : List UInt8 :=
  (bytes.drop offset).take count

/-- The bytes of a range. -/
def range : Option (List UInt8) :=
  if offset + count ≤ bytes.length then some (window bytes offset count)
  else none

/-- A byte, 0 outside the list. -/
def byteAt (offset : Nat) : UInt8 :=
  bytes.getD offset 0

/-- A byte. -/
def byte (offset : Nat) : Option UInt8 :=
  bytes[offset]?

/-- The number in a range with the most significant byte first, as far as
there are bytes. -/
def wordAt : Nat :=
  bigEndian (window bytes offset count)

/-- The number in a range with the most significant byte first. -/
def word : Option Nat :=
  (range bytes offset count).map bigEndian

end

variable {offset : Nat}

variable {bytes : List UInt8} {count : Nat}

theorem byte_of_lt (inside : offset < bytes.length) :
    byte bytes offset = some (byteAt bytes offset) := by
  rw [byte, byteAt, getElem?_eq_getElem inside, getD_eq_getElem?_getD,
    getElem?_eq_getElem inside, Option.getD_some]

theorem byte_of_le (outside : bytes.length ≤ offset) : byte bytes offset = none :=
  getElem?_eq_none outside

theorem range_of_le (inside : offset + count ≤ bytes.length) :
    range bytes offset count = some (window bytes offset count) :=
  if_pos inside

theorem range_of_lt (outside : bytes.length < offset + count) : range bytes offset count = none :=
  if_neg (Nat.not_le.mpr outside)

theorem length_of_range (isFound : range bytes offset count = some found) :
    found.length = count := by
  rw [range, Option.ite_none_right_eq_some, Option.some.injEq] at isFound
  obtain ⟨inside, rfl⟩ := isFound
  rw [window, length_take, length_drop]
  omega

theorem word_of_le (inside : offset + count ≤ bytes.length) :
    word bytes offset count = some (wordAt bytes offset count) := by
  rw [word, range_of_le inside]
  rfl

theorem word_of_lt (outside : bytes.length < offset + count) : word bytes offset count = none := by
  rw [word, range_of_lt outside]
  rfl

/-! ## When a sequence of reads succeeds

Each read is a guard on its range, so a sequence of reads and early returns
succeeds under the conditions that it passes. -/

theorem byte_eq (bytes : List UInt8) (offset : Nat) :
    byte bytes offset = if offset < bytes.length then some (byteAt bytes offset) else none := by
  split
  · exact byte_of_lt ‹_›
  · exact byte_of_le (Nat.not_lt.mp ‹_›)

theorem word_eq (bytes : List UInt8) (offset count : Nat) : word bytes offset count =
      if offset + count ≤ bytes.length then some (wordAt bytes offset count) else none := by
  rw [word, range]
  split <;> rfl

section Guards

variable {α β : Type} {condition : Prop} {_ : Decidable condition} {value : α}

theorem bind_guard {next : α -> Option β} : ((if condition then rest else none) >>= next) =
      if condition then rest >>= next else none := by
  split <;> rfl

theorem isSome_guard : (if condition then rest else none).isSome ↔ condition ∧ rest.isSome := by
  split <;> simp_all

theorem isSome_return :
    (if condition then some value else rest).isSome ↔ condition ∨ rest.isSome := by
  split <;> simp_all

end Guards

/-- The number in a range with the least significant byte first. -/
def wordLe (bytes : List UInt8) (offset count : Nat) : Option Nat :=
  (range bytes offset count).map littleEndian

theorem wordLe_eq (bytes : List UInt8) (offset count : Nat) : wordLe bytes offset count =
      if offset + count ≤ bytes.length then some (littleEndian (window bytes offset count))
      else none := by
  rw [wordLe, range]
  split <;> rfl

/-- The bytes from an offset on. -/
def suffixFrom (bytes : List UInt8) (offset : Nat) : Option (List UInt8) :=
  if offset ≤ bytes.length then some (bytes.drop offset) else none

theorem suffixFrom_of_le (inside : offset ≤ bytes.length) :
    suffixFrom bytes offset = some (bytes.drop offset) :=
  if_pos inside

/-- Overwrite the bytes at an offset. -/
def write (bytes : List UInt8) (offset : Nat) (values : List UInt8) : Option (List UInt8) :=
  if offset + values.length ≤ bytes.length then
    some (bytes.take offset ++ values ++ bytes.drop (offset + values.length))
  else none

/-- A last step that does not fail leaves the outcome to the steps before. -/
theorem isSome_bind_of_forall {α β : Type} {step : Option α} {next : α -> Option β}
    (total : ∀ value, (next value).isSome) : (step >>= next).isSome ↔ step.isSome := by
  cases step with
  | none => rfl
  | some value => simpa using total value

/-- If the steps behind fail or not whatever the value is, both have to
succeed. -/
theorem isSome_bind_iff_and {α β : Type} {step : Option α} {next : α -> Option β} {condition : Prop}
    (same : ∀ value, step = some value -> ((next value).isSome ↔ condition)) :
    (step >>= next).isSome ↔ step.isSome ∧ condition := by
  cases step with
  | none => simp
  | some value => simpa using same value rfl

/-- Put bytes in front of a position. -/
def insertAt (bytes : List UInt8) (position : Nat) (inserted : List UInt8) : List UInt8 :=
  bytes.take position ++ inserted ++ bytes.drop position

section Insertions

variable {bytes inserted : List UInt8} {position offset : Nat}

theorem length_insertAt (bytes : List UInt8) (position : Nat) (inserted : List UInt8) :
    (insertAt bytes position inserted).length = bytes.length + inserted.length := by
  rw [insertAt, length_append, length_append, length_take, length_drop]
  omega

theorem drop_insertAt (enough : position ≤ bytes.length) (behind : position ≤ offset) :
    (insertAt bytes position inserted).drop (offset + inserted.length) = bytes.drop offset := by
  have front : (bytes.take position ++ inserted).length = position + inserted.length := by
    rw [length_append, length_take, Nat.min_eq_left enough]
  obtain ⟨further, rfl⟩ := Nat.exists_eq_add_of_le behind
  rw [insertAt, drop_append, drop_of_length_le (by omega),
    nil_append, drop_drop, front]
  congr 1
  omega

theorem byte_insertAt (enough : position ≤ bytes.length) (behind : position ≤ offset) :
    byte (insertAt bytes position inserted) (offset + inserted.length) = byte bytes offset := by
  rw [byte, byte, ← head?_drop, drop_insertAt enough behind, head?_drop]

variable {count : Nat}

section

variable (enough : position ≤ bytes.length)
include enough

theorem window_insertAt_behind (behind : position ≤ offset) :
    window (insertAt bytes position inserted) (offset + inserted.length)
      count = window bytes offset count := by
  rw [window, window, drop_insertAt enough behind]

theorem range_insertAt (behind : position ≤ offset) :
    range (insertAt bytes position inserted) (offset + inserted.length)
      count = range bytes offset count := by
  rw [range, range, window_insertAt_behind enough behind, length_insertAt]
  have same : offset + inserted.length + count ≤
      bytes.length + inserted.length ↔ offset + count ≤ bytes.length := by omega
  simp only [same]

theorem window_insertAt_front (before : offset + count ≤ position) :
    window (insertAt bytes position inserted) offset count = window bytes offset count := by
  rw [window, window, insertAt, append_assoc, drop_append_of_le_length (by rw [length_take]; omega),
    take_append_of_le_length (by rw [length_drop, length_take]; omega),
    drop_take, take_take, Nat.min_eq_left (by omega)]

theorem window_insertAt (inside : offset + count ≤ inserted.length) :
    window (insertAt bytes position inserted) (position + offset) count =
      window inserted offset count := by
  have front : (bytes.take position).length = position := by
    rw [length_take, Nat.min_eq_left enough]
  rw [window, window, insertAt, append_assoc, ← drop_drop,
    drop_left' front, drop_append_of_le_length (by omega),
    take_append_of_le_length (by rw [length_drop]; omega)]

end

end Insertions

end Metaflow.Library.Bytes
