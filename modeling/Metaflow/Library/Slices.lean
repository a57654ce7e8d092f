import Mathlib.Logic.Function.Basic
import Mathlib.Tactic.SplitIfs

/-!
# Slices that share arrays

A slice is a window on an array. Appending writes behind the window if the
array has room there, and what stands there may be in the window of another
slice; only without room the window is copied to a new array.
-/

namespace Metaflow.Library

open List

/-- The arrays made so far. -/
structure Heap (α : Type*) where
  arrays : Nat -> List α
  count : Nat

/-- The first `len` elements of an array with room for `cap`. -/
structure HeapSlice where
  array : Nat
  len : Nat
  cap : Nat
  deriving DecidableEq

variable {α : Type*}

namespace Heap

def empty : Heap α := ⟨fun _ => [], 0⟩

/-- A new array. -/
def make (heap : Heap α) (elements : List α) (cap : Nat) : Heap α × HeapSlice :=
  ({ arrays := Function.update heap.arrays heap.count elements
     count := heap.count + 1 },
    ⟨heap.count, elements.length, cap⟩)

/-- Change the array behind a slice. -/
def change (heap : Heap α) (array : Nat) (elements : List α) : Heap α :=
  { heap with arrays := Function.update heap.arrays array elements }

variable {heap : Heap α}

theorem arrays_change_self : (heap.change array elements).arrays array = elements :=
  Function.update_self ..

theorem arrays_change_of_ne (different : other ≠ array) :
    (heap.change array elements).arrays other = heap.arrays other :=
  Function.update_of_ne different ..

theorem arrays_make_self : (heap.make elements cap).1.arrays heap.count = elements :=
  Function.update_self ..

theorem arrays_make_of_ne (different : other ≠ heap.count) :
    (heap.make elements cap).1.arrays other = heap.arrays other :=
  Function.update_of_ne different ..

end Heap

namespace HeapSlice

/-- The slice without an array. -/
def nil : HeapSlice := ⟨0, 0, 0⟩

def read (slice : HeapSlice) (heap : Heap α) : List α :=
  (heap.arrays slice.array).take slice.len

/-- `append(slice, element)`; `grow` is the room of the array that replaces a
full one. -/
def append (grow : Nat -> Nat) (heap : Heap α) (slice : HeapSlice)
    (element : α) : Heap α × HeapSlice :=
  if slice.len < slice.cap then
    let array := heap.arrays slice.array
    (heap.change slice.array (array.take slice.len ++ element :: array.drop (slice.len + 1)),
      { slice with len := slice.len + 1 })
  else heap.make (slice.read heap ++ [element]) (grow slice.len)

/-- `append(slice, elements...)` -/
def appendAll (grow : Nat -> Nat) (heap : Heap α) (slice : HeapSlice)
    (elements : List α) : Heap α × HeapSlice :=
  if slice.len + elements.length ≤ slice.cap then
    let array := heap.arrays slice.array
    (heap.change slice.array
      (array.take slice.len ++ elements ++ array.drop (slice.len + elements.length)),
      { slice with len := slice.len + elements.length })
  else
    heap.make (slice.read heap ++ elements) (grow (slice.len + elements.length))

/-- `slice[:len]` -/
def front (slice : HeapSlice) (len : Nat) : HeapSlice :=
  { slice with len := len }

/-- Sort the window in place. -/
def sortBy (sort : List α -> List α) (heap : Heap α) (slice : HeapSlice) : Heap α :=
  let array := heap.arrays slice.array
  heap.change slice.array (sort (array.take slice.len) ++ array.drop slice.len)

/-- The window lies inside an array that was made. -/
structure Valid (heap : Heap α) (slice : HeapSlice) : Prop where
  made : slice.array < heap.count
  inside : slice.len ≤ (heap.arrays slice.array).length

/-- What holds of every slice: its length is inside its room, and it is empty
or has an array. -/
structure Sound (heap : Heap α) (slice : HeapSlice) : Prop where
  lenLeCap : slice.len ≤ slice.cap
  valid : Valid heap slice ∨ slice.cap = 0

variable {sort : List α -> List α} {heap : Heap α} {slice other : HeapSlice} {element : α}

theorem Valid.length_read (valid : Valid heap slice) : (slice.read heap).length = slice.len := by
  rw [read, length_take, Nat.min_eq_left valid.inside]

variable {array : Nat} {elements : List α} {len : Nat}

section

variable (elements : List α)

/-- A slice keeps its elements if its array stays. -/
theorem read_change_of_ne (different : slice.array ≠ array) :
    slice.read (heap.change array elements) = slice.read heap := by
  rw [read, Heap.arrays_change_of_ne different, read]

theorem read_make_of_valid (valid : Valid heap slice) (elements : List α) (cap : Nat) :
    slice.read (heap.make elements cap).1 = slice.read heap := by
  rw [read, Heap.arrays_make_of_ne (Nat.ne_of_lt valid.made), read]

theorem read_make (cap : Nat) :
    (heap.make elements cap).2.read (heap.make elements cap).1 = elements := by
  simp [read, Heap.make]

theorem valid_make (cap : Nat) : Valid (heap.make elements cap).1 (heap.make elements cap).2 :=
  ⟨Nat.lt_succ_self _, by simp [Heap.make]⟩

end

theorem Valid.make (valid : Valid heap slice) (elements : List α) (cap : Nat) :
    Valid (heap.make elements cap).1 slice := by
  refine ⟨Nat.lt_succ_of_lt valid.made, ?_⟩
  rw [Heap.arrays_make_of_ne (Nat.ne_of_lt valid.made)]
  exact valid.inside

/-- A window stays inside its array if no array gets shorter. -/
theorem Valid.change (valid : Valid heap slice)
    (notShorter : (heap.arrays array).length ≤ elements.length) :
    Valid (heap.change array elements) slice := by
  refine ⟨valid.made, ?_⟩
  by_cases same : slice.array = array
  · subst same
    rw [Heap.arrays_change_self]
    exact Nat.le_trans valid.inside notShorter
  · rw [Heap.arrays_change_of_ne same]
    exact valid.inside

theorem length_written (array : List α) (len : Nat) (element : α) :
    array.length ≤ (array.take len ++ element :: array.drop (len + 1)).length := by
  simp only [length_append, length_take, length_cons, length_drop]
  omega

theorem Valid.append (valid : Valid heap other) (grow : Nat -> Nat) (slice : HeapSlice)
    (element : α) : Valid (slice.append grow heap element).1 other := by
  unfold HeapSlice.append
  split_ifs
  · exact valid.change (length_written _ _ _)
  · exact valid.make _ _

theorem valid_append (valid : Valid heap slice ∨ slice.cap = 0) (grow : Nat -> Nat) (element : α) :
    Valid (slice.append grow heap element).1 (slice.append grow heap element).2 := by
  unfold HeapSlice.append
  split_ifs with room
  · have valid : Valid heap slice := valid.resolve_right (by omega)
    refine ⟨valid.made, ?_⟩
    simp only [Heap.change, Function.update_self, length_append,
      length_take, length_cons, Nat.min_eq_left valid.inside]
    omega
  · exact valid_make _ _

theorem read_append (valid : Valid heap slice ∨ slice.cap = 0) (grow : Nat -> Nat) (element : α) :
    (slice.append grow heap element).2.read (slice.append grow heap element).1 =
      slice.read heap ++ [element] := by
  unfold HeapSlice.append
  split_ifs with room
  · have valid : Valid heap slice := valid.resolve_right (by omega)
    simp only [read, Heap.change, Function.update_self]
    rw [take_append, length_take, Nat.min_eq_left valid.inside, Nat.add_sub_cancel_left, take_take,
      Nat.min_eq_right (Nat.le_succ _)]
    simp
  · exact read_make _ _

theorem read_append_of_ne (valid : Valid heap other) (different : other.array ≠ slice.array)
    (grow : Nat -> Nat) (element : α) :
    other.read (slice.append grow heap element).1 = other.read heap := by
  unfold HeapSlice.append
  split_ifs
  · exact read_change_of_ne _ different
  · exact read_make_of_valid valid _ _

/-- The array of the new slice is that of the old one, or it is new. -/
theorem array_append (grow : Nat -> Nat) (heap : Heap α) (slice : HeapSlice) (element : α) :
    (slice.append grow heap element).2.array = slice.array ∧ 0 < slice.cap ∨
      (slice.append grow heap element).2.array = heap.count := by
  unfold HeapSlice.append
  split_ifs with room
  · exact .inl ⟨rfl, by omega⟩
  · exact .inr rfl

/-- Where the elements of the array of the new slice come from. -/
theorem mem_array_append (mem : found ∈ (slice.append grow heap element).1.arrays
      (slice.append grow heap element).2.array) :
    found = element ∨ found ∈ heap.arrays slice.array := by
  unfold HeapSlice.append at mem
  split_ifs at mem with room
  · rw [Heap.arrays_change_self, mem_append, mem_cons] at mem
    rcases mem with mem | rfl | mem
    · exact .inr (mem_of_mem_take mem)
    · exact .inl rfl
    · exact .inr (mem_of_mem_drop mem)
  · have new : (heap.make (slice.read heap ++ [element])
        (grow slice.len)).2.array = heap.count := rfl
    rw [new, Heap.arrays_make_self, mem_append, mem_singleton] at mem
    rcases mem with mem | rfl
    · exact .inr (mem_of_mem_take mem)
    · exact .inl rfl

theorem arrays_append_of_ne (different : array ≠ (slice.append grow heap element).2.array) :
    (slice.append grow heap element).1.arrays array = heap.arrays array := by
  unfold HeapSlice.append at different ⊢
  split_ifs at different ⊢ with room
  · exact Heap.arrays_change_of_ne different
  · exact Heap.arrays_make_of_ne different

theorem Sound.append (sound : Sound heap other) (grow : Nat -> Nat) (slice : HeapSlice)
    (element : α) : Sound (slice.append grow heap element).1 other :=
  ⟨sound.lenLeCap, sound.valid.imp_left fun valid => valid.append grow slice element⟩

theorem sound_append (sound : Sound heap slice) (grows : ∀ len, len < grow len) (element : α) :
    Sound (slice.append grow heap element).1 (slice.append grow heap element).2 := by
  refine ⟨?_, .inl (valid_append sound.valid grow element)⟩
  unfold HeapSlice.append
  split_ifs with room
  · exact room
  · have notLonger : (slice.read heap).length ≤ slice.len := length_take_le _ _
    have more := grows slice.len
    simp only [Heap.make, length_append, length_singleton]
    omega

theorem read_append_self (sound : Sound heap slice) (grow : Nat -> Nat) (element : α) :
    slice.read (slice.append grow heap element).1 = slice.read heap := by
  unfold HeapSlice.append
  split_ifs with room
  · have valid := sound.valid.resolve_right (by omega)
    rw [read, Heap.arrays_change_self]
    exact take_left' valid.length_read
  · rcases sound.valid with valid | empty
    · exact read_make_of_valid valid _ _
    · have noLen : slice.len = 0 := by
        have := sound.lenLeCap
        omega
      rw [read, read, noLen, take_zero, take_zero]

/-- Appending no more than what stands behind a front part overwrites it. -/
theorem appendAll_front (sound : Sound heap slice)
    (fits : len + elements.length ≤ slice.len) (grow : Nat -> Nat) :
    (slice.front len).appendAll grow heap elements = (heap.change slice.array
        ((heap.arrays slice.array).take len ++ elements ++
          (heap.arrays slice.array).drop (len + elements.length)),
        slice.front (len + elements.length)) :=
  if_pos (Nat.le_trans fits sound.lenLeCap)

theorem length_overwritten (array elements : List α) (len : Nat) :
    array.length ≤ (array.take len ++ elements ++ array.drop (len + elements.length)).length := by
  simp only [length_append, length_take, length_drop]
  omega

theorem Sound.appendAll (sound : Sound heap other) (grow : Nat -> Nat) (slice : HeapSlice)
    (elements : List α) : Sound (slice.appendAll grow heap elements).1 other := by
  refine ⟨sound.lenLeCap, sound.valid.imp_left fun valid => ?_⟩
  unfold HeapSlice.appendAll
  split_ifs
  · exact valid.change (length_overwritten _ _ _)
  · exact valid.make _ _

theorem sound_appendAll (sound : Sound heap slice) (grows : ∀ len, len < grow len)
    (elements : List α) :
    Sound (slice.appendAll grow heap elements).1 (slice.appendAll grow heap elements).2 := by
  unfold HeapSlice.appendAll
  split_ifs with room
  · refine ⟨room, sound.valid.imp_left fun valid => ⟨valid.made, ?_⟩⟩
    have inside := valid.inside
    simp only [Heap.arrays_change_self, length_append, length_take, length_drop]
    omega
  · refine ⟨?_, .inl (valid_make _ _)⟩
    have notLonger : (slice.read heap).length ≤ slice.len := length_take_le _ _
    have more := grows (slice.len + elements.length)
    simp only [Heap.make, length_append]
    omega

theorem read_appendAll (sound : Sound heap slice) (grow : Nat -> Nat) (elements : List α) :
    (slice.appendAll grow heap elements).2.read (slice.appendAll grow heap elements).1 =
      slice.read heap ++ elements := by
  unfold HeapSlice.appendAll
  split_ifs with room
  · rcases sound.valid with valid | empty
    · have front : (slice.read heap ++ elements).length = slice.len + elements.length := by
        rw [length_append, valid.length_read]
      rw [read, Heap.arrays_change_self]
      exact take_left' front
    · have noLen : slice.len = 0 := by omega
      have noElements : elements = [] := eq_nil_of_length_eq_zero (by omega)
      simp [read, noLen, noElements]
  · exact read_make _ _

theorem read_front (notLonger : len ≤ slice.len) :
    (slice.front len).read heap = (slice.read heap).take len := by
  rw [read, read, take_take, Nat.min_eq_left notLonger]
  rfl

theorem Sound.front (sound : Sound heap slice) (notLonger : len ≤ slice.len) :
    Sound heap (slice.front len) :=
  ⟨Nat.le_trans notLonger sound.lenLeCap, sound.valid.imp_left fun valid =>
    ⟨valid.made, Nat.le_trans notLonger valid.inside⟩⟩

theorem read_overwritten (valid : Valid heap slice) (fits : len + elements.length ≤ slice.len) :
    slice.read (heap.change slice.array ((heap.arrays slice.array).take len ++ elements ++
          (heap.arrays slice.array).drop (len + elements.length))) =
      (slice.read heap).take len ++ elements ++ (slice.read heap).drop (len + elements.length) := by
  have inside := valid.inside
  have front : ((heap.arrays slice.array).take len ++ elements).length = len + elements.length := by
    rw [length_append, length_take]
    omega
  rw [read, Heap.arrays_change_self, take_append, front,
    take_of_length_le (by omega), read, take_take,
    Nat.min_eq_left (by omega), drop_take]

section Sorting

variable (keeps : ∀ list, (sort list).Perm list)

include keeps

theorem Valid.sortBy (valid : Valid heap other) (slice : HeapSlice) :
    Valid (slice.sortBy sort heap) other := by
  refine valid.change (Nat.le_of_eq ?_)
  rw [length_append, (keeps _).length_eq, length_take, length_drop]
  omega

theorem mem_arrays_sortBy :
    found ∈ (slice.sortBy sort heap).arrays array ↔ found ∈ heap.arrays array := by
  by_cases same : array = slice.array
  · subst same
    rw [HeapSlice.sortBy, Heap.arrays_change_self, mem_append,
      (keeps _).mem_iff, ← mem_append, take_append_drop]
  · rw [HeapSlice.sortBy, Heap.arrays_change_of_ne same]

theorem read_sortBy_self (valid : Valid heap slice) :
    slice.read (slice.sortBy sort heap) = sort (slice.read heap) := by
  have length : (sort ((heap.arrays slice.array).take slice.len)).length = slice.len := by
    rw [(keeps _).length_eq]
    exact valid.length_read
  rw [read, HeapSlice.sortBy, Heap.arrays_change_self, take_left' length]
  rfl

omit keeps in
theorem read_sortBy_of_ne (different : other.array ≠ slice.array) :
    other.read (slice.sortBy sort heap) = other.read heap :=
  read_change_of_ne _ different

end Sorting

end HeapSlice

end Metaflow.Library
