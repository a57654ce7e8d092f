import Metaflow.Library.CircularView

/-!
# Ring buffers with doubled positions

The slot of a position is its remainder by `size`; a machine stores a position
modulo `2 * size`. At most `size` positions are in use at a time, and within
such a window both are faithful.
-/

namespace Metaflow.Library

variable {α : Type*} {size first last : Nat}

/-- Masking with `size - 1` is the remainder by a power of two. -/
theorem and_pred_eq_mod (power : size.isPowerOfTwo) (position : Nat) :
    position &&& (size - 1) = position % size := by
  obtain ⟨exponent, rfl⟩ := power
  exact Nat.and_two_pow_sub_one_eq_mod position exponent

theorem isPowerOfTwo_two_mul (power : size.isPowerOfTwo) : (2 * size).isPowerOfTwo := by
  rw [Nat.mul_comm]
  exact Nat.isPowerOfTwo_mul_two_of_isPowerOfTwo power

/-- The slot can be read off the stored position. -/
@[simp] theorem mod_two_mul_mod (position size : Nat) :
    position % (2 * size) % size = position % size :=
  Nat.mod_mod_of_dvd position (Nat.dvd_mul_left size 2)

/-- The stored end, moved behind the stored start if it has wrapped. -/
def unwrapped (size start stop : Nat) : Nat :=
  if stop < start then stop + 2 * size else stop

/-- The stored positions of a window are as far apart as the positions. -/
theorem unwrapped_eq (positive : 0 < size) (ordered : first ≤ last)
    (bounded : last ≤ first + size) :
    unwrapped size (first % (2 * size)) (last % (2 * size)) =
      first % (2 * size) + (last - first) := by
  obtain ⟨distance, rfl⟩ := Nat.exists_eq_add_of_le ordered
  have startBound := Nat.mod_lt first (show 0 < 2 * size by omega)
  rw [Nat.add_mod, Nat.mod_eq_of_lt (show distance < 2 * size by omega)]
  generalize first % (2 * size) = start at *
  by_cases wraps : start + distance < 2 * size
  · rw [Nat.mod_eq_of_lt wraps, unwrapped, if_neg (by omega)]
    omega
  · rw [Nat.mod_eq_sub_mod (by omega),
      Nat.mod_eq_of_lt (show start + distance - 2 * size < 2 * size by omega),
      unwrapped, if_pos (by omega)]
    omega

/-- The slot `index` positions on, for less than one round. -/
theorem add_mod_cases (inside : index < size) : (position + index) % size =
      if position % size + index < size then position % size + index
      else position % size + index - size := by
  rw [← Nat.mod_add_mod]
  exact ringIndex_eq (Nat.mod_lt position (Nat.zero_lt_of_lt inside)) (Nat.le_of_lt inside)

theorem mod_ne_of_lt (ordered : left < right) (bounded : right < left + size) :
    left % size ≠ right % size := by
  intro same
  have divides : size ∣ right - left :=
    Nat.dvd_of_mod_eq_zero (Nat.sub_mod_eq_zero_of_mod_eq same.symm)
  have := Nat.le_of_dvd (by omega) divides
  omega

/-- From position `first` on, the ring holds `items`. -/
def Holds (size : Nat) (buffer : Nat -> Option α) (first : Nat) (items : List α) : Prop :=
  ∀ index (inside : index < items.length), buffer ((first + index) % size) = some items[index]

namespace Holds

variable {buffer : Nat -> Option α} {items more : List α}

theorem nil : Holds size buffer first ([] : List α) := by
  intro index inside
  exact absurd inside (Nat.not_lt_zero index)

section

variable (holds : Holds size buffer first items)
include holds

theorem drop (count : Nat) : Holds size buffer (first + count) (items.drop count) := by
  intro index inside
  rw [List.length_drop] at inside
  rw [List.getElem_drop, Nat.add_assoc]
  exact holds (count + index) (by omega)

theorem append (holdsMore : Holds size buffer (first + items.length) more) :
    Holds size buffer first (items ++ more) := by
  intro index inside
  by_cases early : index < items.length
  · rw [List.getElem_append_left early]
    exact holds index early
  · have late : items.length ≤ index := Nat.le_of_not_lt early
    rw [List.length_append] at inside
    rw [List.getElem_append_right late]
    have found := holdsMore (index - items.length) (by omega)
    rwa [Nat.add_assoc, Nat.add_sub_cancel' late] at found

/-- Writes outside the window leave it alone. -/
theorem of_eq (same : ∀ index, index < items.length ->
      buffer' ((first + index) % size) = buffer ((first + index) % size)) :
    Holds size buffer' first items := by
  intro index inside
  rw [same index inside]
  exact holds index inside

theorem map_range_eq (inside : count ≤ items.length) :
    (List.range count).map (fun index => buffer ((first + index) % size)) =
      (items.take count).map some := by
  apply List.ext_getElem
  · simp [inside]
  · intro index before _
    simp only [List.length_map, List.length_range] at before
    simp only [List.getElem_map, List.getElem_range, List.getElem_take]
    exact holds index (by omega)

end

end Holds

end Metaflow.Library
