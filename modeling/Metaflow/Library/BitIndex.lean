import Mathlib.Data.List.Nodup

/-!
# Indices made of chosen bits

`packBits` gathers chosen bits of a word into a short index, one after the
other. `expand` lists the indices that arise when some bits of an index may be
anything.
-/

namespace Metaflow.Library

open BitVec List

variable {width : Nat} {α : Type*}

/-- `word | 1 << offset` -/
def setBit (word : BitVec width) (offset : Nat) : BitVec width :=
  word ||| BitVec.ofNat width 1 <<< offset

/-- `word &^ (1 << offset)` -/
def clearBit (word : BitVec width) (offset : Nat) : BitVec width :=
  word &&& ~~~(BitVec.ofNat width 1 <<< offset)

section

variable (word : BitVec width) (offset position : Nat)

theorem getLsbD_setBit : (setBit word offset).getLsbD position = (word.getLsbD position ||
        (decide (position < width) && decide (position = offset))) := by
  rw [setBit, getLsbD_or, ← twoPow_eq, getLsbD_twoPow]
  by_cases same : position = offset <;> simp [same, Ne.symm]

theorem getLsbD_clearBit : (clearBit word offset).getLsbD position =
      (word.getLsbD position && !decide (position = offset)) := by
  rw [clearBit, getLsbD_and, getLsbD_not, ← twoPow_eq, getLsbD_twoPow]
  by_cases small : position < width
  · by_cases same : position = offset <;> simp [same, small, Ne.symm]
  · simp [getLsbD_of_ge word position (by omega)]

end

theorem shifted_and_one_eq_zero (word : BitVec 64) (offset : Nat) :
    ((word >>> offset) &&& 1 == 0) = !word.getLsbD offset := by
  have last : (word >>> offset) &&& 1 = setWidth 64 (ofBool (word.getLsbD offset)) := by
    have := and_one_eq_setWidth_ofBool_getLsbD (x := word >>> offset)
    simpa using this
  rw [last]
  cases word.getLsbD offset <;> rfl

theorem getLsbD_foldl_clearBit (offsets : List Nat) (word : BitVec width) (position : Nat) :
    (offsets.foldl clearBit word).getLsbD position =
      (word.getLsbD position && !decide (position ∈ offsets)) := by
  induction offsets generalizing word with
  | nil => simp
  | cons offset offsets ih =>
    rw [foldl_cons, ih, getLsbD_clearBit]
    simp [Bool.and_assoc]

/-- The loop that appends the bits at the given positions to an index of
`offset` bits. -/
def packBits (read : α -> Bool) (state : BitVec width × Nat) (positions : List α) :
    BitVec width × Nat :=
  positions.foldl
    (fun state position =>
      (if read position then setBit state.1 state.2 else state.1, state.2 + 1))
    state

theorem getLsbD_packBits (read : α -> Bool) (index : BitVec width) (offset : Nat)
    (positions : List α) (bit : Nat) (small : bit < width) :
    (packBits read (index, offset) positions).1.getLsbD bit = (index.getLsbD bit ||
        (decide (offset ≤ bit) && positions[bit - offset]?.any read)) := by
  induction positions generalizing index offset with
  | nil => simp [packBits]
  | cons position positions ih =>
    have step : (if read position then setBit index offset
        else index).getLsbD bit =
          (index.getLsbD bit || (decide (bit = offset) && read position)) := by
      cases read position with
      | false => simp
      | true => rw [if_pos rfl, getLsbD_setBit, decide_eq_true small, Bool.true_and, Bool.and_true]
    rw [packBits, foldl_cons]
    refine (ih _ _).trans ?_
    rw [step, Bool.or_assoc]
    congr 1
    rcases Nat.lt_trichotomy bit offset with before | rfl | behind
    · rw [decide_eq_false (by omega : ¬ bit = offset),
        decide_eq_false (by omega : ¬ offset + 1 ≤ bit),
        decide_eq_false (by omega : ¬ offset ≤ bit)]
      rfl
    · rw [decide_eq_false (by omega : ¬ bit + 1 ≤ bit)]
      simp
    · obtain ⟨more, rfl⟩ := Nat.exists_eq_add_of_lt behind
      have shift : offset + more + 1 - offset = more + 1 := by omega
      have shiftSucc : offset + more + 1 - (offset + 1) = more := by omega
      rw [shift, shiftSucc, getElem?_cons_succ,
        decide_eq_false (by omega : ¬ offset + more + 1 = offset),
        decide_eq_true (by omega : offset + 1 ≤ offset + more + 1),
        decide_eq_true (by omega : offset ≤ offset + more + 1)]
      rfl

/-- The loop that doubles a list of indices for every free bit. -/
def expand (free : List Nat) (base : List (BitVec width)) : List (BitVec width) :=
  free.foldl (fun base offset => base ++ base.map fun index => setBit index offset) base

/-- None of the bits is set in any of the indices. -/
def ZeroAt (free : List Nat) (base : List (BitVec width)) : Prop :=
  ∀ index ∈ base, ∀ offset ∈ free, index.getLsbD offset = false

variable {base : List (BitVec width)}

theorem ZeroAt.double (zero : ZeroAt (offset :: free) base) (fresh : offset ∉ free) :
    ZeroAt free (base ++ base.map fun index => setBit index offset) := by
  intro index mem other otherMem
  rcases mem_append.mp mem with old | new
  · exact zero index old other (mem_cons_of_mem _ otherMem)
  · obtain ⟨from_, fromMem, rfl⟩ := mem_map.mp new
    have apart : other ≠ offset := fun same => fresh (same ▸ otherMem)
    rw [getLsbD_setBit, zero from_ fromMem other (mem_cons_of_mem _ otherMem)]
    simp [apart]

/-- An index that differs from one of the base only in free bits is listed. -/
theorem mem_expand (distinct : free.Nodup) (zero : ZeroAt free base) (mem : origin ∈ base)
    (agrees : ∀ position, position ∉ free -> index.getLsbD position = origin.getLsbD position) :
    index ∈ expand free base := by
  induction free generalizing base origin with
  | nil =>
    have same : index = origin := eq_of_getLsbD_eq fun position _ => agrees position (by simp)
    rwa [same]
  | cons offset free ih =>
    obtain ⟨fresh, distinct⟩ := nodup_cons.mp distinct
    have originZero : origin.getLsbD offset = false := zero origin mem offset (by simp)
    cases chosen : index.getLsbD offset with
    | false =>
      refine ih distinct (zero.double fresh) (mem_append_left _ mem) ?_
      intro position notFree
      by_cases here : position = offset
      · rw [here, chosen, originZero]
      · exact agrees position (by simp [here, notFree])
    | true =>
      refine ih distinct (zero.double fresh)
        (mem_append_right _ (mem_map.mpr ⟨origin, mem, rfl⟩)) ?_
      intro position notFree
      rw [getLsbD_setBit]
      by_cases here : position = offset
      · subst here
        rw [chosen, decide_eq_true (lt_of_getLsbD chosen)]
        simp
      · rw [agrees position (by simp [here, notFree])]
        simp [here]

theorem mem_expand_of_mem (free : List Nat) (mem : index ∈ base) : index ∈ expand free base := by
  induction free generalizing base with
  | nil => exact mem
  | cons offset free ih => exact ih (mem_append_left _ mem)

theorem nodup_expand (distinct : free.Nodup)
    (small : ∀ offset ∈ free, offset < width) (zero : ZeroAt free base) (nodup : base.Nodup) :
    (expand free base).Nodup := by
  induction free generalizing base with
  | nil => exact nodup
  | cons offset free ih =>
    obtain ⟨fresh, distinct⟩ := nodup_cons.mp distinct
    have offsetSmall : offset < width := small offset (by simp)
    have unset : ∀ index ∈ base, index.getLsbD offset = false :=
      fun index mem => zero index mem offset (by simp)
    refine ih distinct (fun other mem => small other (by simp [mem])) (zero.double fresh) ?_
    refine List.Nodup.append nodup (nodup.map_on ?_) ?_
    · intro left leftMem right rightMem same
      refine eq_of_getLsbD_eq fun position _ => ?_
      by_cases here : position = offset
      · rw [here, unset left leftMem, unset right rightMem]
      · have bits := congrArg (getLsbD · position) same
        simpa [getLsbD_setBit, here] using bits
    · intro index old new
      obtain ⟨origin, -, rfl⟩ := mem_map.mp new
      have clash := unset _ old
      rw [getLsbD_setBit] at clash
      simp [offsetSmall] at clash

end Metaflow.Library
