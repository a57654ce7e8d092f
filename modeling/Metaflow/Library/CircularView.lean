import Mathlib.Data.List.Basic

/-!
# Views of circular buffers

A circular buffer is a list of cells with a start position. `Shows` says what
a reader sees who begins at the start and wraps around at the end.
-/

namespace Metaflow.Library

open List

variable {α : Type*}

/-- From `start` on, the cells hold `view 0`, `view 1` and so on. -/
structure Shows (cells : List α) (start : Nat) (view : Nat -> α) : Prop where
  start_lt : start < cells.length
  reads : ∀ k < cells.length, cells[(start + k) % cells.length]? = some (view k)

/-- One step around the ring wraps at most once. -/
theorem ringIndex_eq {size start k : Nat} (startBelow : start < size) (below : k ≤ size) :
    (start + k) % size = if start + k < size then start + k else start + k - size := by
  split
  · next inside => exact Nat.mod_eq_of_lt inside
  · next outside =>
      rw [Nat.mod_eq_sub_mod (Nat.le_of_not_lt outside)]
      apply Nat.mod_eq_of_lt
      omega

namespace Shows

variable {cells : List α} {start : Nat} {view view' : Nat -> α}

section

variable (visible : Shows cells start view)
include visible

theorem head : cells[start]? = some (view 0) := by
  have positive : 0 < cells.length := Nat.lt_of_le_of_lt (Nat.zero_le _) visible.start_lt
  have read := visible.reads 0 positive
  rwa [Nat.add_zero, Nat.mod_eq_of_lt visible.start_lt] at read

theorem congr (same : ∀ k < cells.length, view' k = view k) : Shows cells start view' := by
  refine ⟨visible.start_lt, ?_⟩
  intro k below
  rw [visible.reads k below, same k below]

/-- Overwrite the first cell and start behind it: the view moves by one and
the cell comes last. -/
theorem advance {filler : α} (moved : ∀ k, k + 1 < cells.length -> view' k = view (k + 1))
    (last : view' (cells.length - 1) = filler) :
    Shows (cells.set start filler) ((start + 1) % cells.length) view' := by
  have startBelow := visible.start_lt
  have nextBelow : (start + 1) % cells.length < cells.length := Nat.mod_lt _ (by omega)
  constructor
  · rw [length_set]
    exact nextBelow
  · intro k below
    rw [length_set] at below ⊢
    have index_eq : ((start + 1) % cells.length + k) % cells.length =
        (start + (k + 1)) % cells.length := by rw [Nat.mod_add_mod, Nat.add_assoc, Nat.add_comm 1 k]
    rw [index_eq]
    by_cases isLast : k + 1 < cells.length
    · have apart : start ≠ (start + (k + 1)) % cells.length := by
        rw [ringIndex_eq startBelow (Nat.le_of_lt isLast)]
        split <;> omega
      rw [getElem?_set_ne apart, visible.reads (k + 1) isLast, moved k isLast]
    · have wraps : k + 1 = cells.length := by omega
      have isEnd : k = cells.length - 1 := by omega
      rw [wraps, Nat.add_mod_right, Nat.mod_eq_of_lt startBelow,
        getElem?_set_self startBelow, isEnd, last]

theorem write {position : Nat} (inRange : position < cells.length) (value : α) :
    Shows (cells.set ((start + position) % cells.length) value) start
      (Function.update view position value) := by
  have startBelow := visible.start_lt
  have indexBelow : (start + position) % cells.length < cells.length := Nat.mod_lt _ (by omega)
  constructor
  · rw [length_set]
    exact startBelow
  · intro k below
    rw [length_set] at below ⊢
    by_cases same : k = position
    · subst same
      rw [getElem?_set_self indexBelow, Function.update_self]
    · have apart : (start + position) % cells.length ≠ (start + k) % cells.length := by
        rw [ringIndex_eq startBelow (Nat.le_of_lt inRange),
          ringIndex_eq startBelow (Nat.le_of_lt below)]
        split <;> split <;> omega
      rw [getElem?_set_ne apart, visible.reads k below, Function.update_of_ne same]

end

theorem of_constant (constant : ∀ cell ∈ cells, cell = value)
    (startBelow : start < cells.length) (same : ∀ k < cells.length, view k = value) :
    Shows cells start view := by
  refine ⟨startBelow, ?_⟩
  intro k below
  have indexBelow : (start + k) % cells.length < cells.length := Nat.mod_lt _ (by omega)
  rw [getElem?_eq_getElem indexBelow, constant _ (getElem_mem indexBelow), same k below]

theorem constant (visible : Shows cells start view) {value : α}
    (same : ∀ k < cells.length, view k = value) : ∀ cell ∈ cells, cell = value := by
  intro cell present
  have startBelow := visible.start_lt
  obtain ⟨index, below, rfl⟩ := mem_iff_getElem.mp present
  obtain ⟨k, kBelow, index_eq⟩ : ∃ k < cells.length, (start + k) % cells.length = index := by
    by_cases behind : start ≤ index
    · refine ⟨index - start, by omega, ?_⟩
      rw [ringIndex_eq startBelow (by omega)]
      split <;> omega
    · refine ⟨index + cells.length - start, by omega, ?_⟩
      rw [ringIndex_eq startBelow (by omega)]
      split <;> omega
  have read := visible.reads k kBelow
  rw [index_eq, getElem?_eq_getElem below, same k kBelow] at read
  exact Option.some.inj read

end Shows

end Metaflow.Library
