import Metaflow.Library.BitIndex
import Mathlib.Data.List.Sort

/-!
# Matched fields

`matched_field.go` and `matched_field6.go`: keys, matches and masks are rows of
64-bit words. Chosen bits of a key make the index of a slot; a node belongs into
every slot that its unmasked bits leave open.
-/

namespace Metaflow.Datatype

open Library

/-- `MatchedField` and `MatchedField6` differ in the number of words only. -/
structure MatchedField (words : Nat) where
  fields : Vector (BitVec 64) words
  deriving DecidableEq

/-- `MATCHED_FIELD_LEN` -/
def matchedFieldLen : Nat := 3

/-- `MATCHED_FIELD6_LEN` -/
def matchedField6Len : Nat := 6

namespace MatchedField

def blank : MatchedField words := ⟨Vector.replicate words 0⟩

/-- Positions behind the last word, which are not used, read as zero. -/
def word (f : MatchedField words) (index : Nat) : BitVec 64 :=
  f.fields[index]?.getD 0

def isBitZero (f : MatchedField words) (offset : Nat) : Bool :=
  (f.word (offset >>> 6) >>> (offset &&& 0x3f)) &&& 1 == 0

def setBits (whichs : List Nat) : MatchedField words :=
  whichs.foldl
    (fun f which =>
      let index := which >>> 6
      let offset := which &&& 0x3f
      ⟨f.fields.setIfInBounds index (setBit (f.word index) offset)⟩)
    blank

def and (f n : MatchedField words) : MatchedField words :=
  ⟨Vector.zipWith (· &&& ·) f.fields n.fields⟩

def equal (f n : MatchedField words) : Bool :=
  decide (f.fields = n.fields)

/-- The loop body of `GetTableIndex`, on `index` and `offset`. -/
def gather (result maskVector : MatchedField words) (state : BitVec 16 × Nat) (i : Nat) :
    BitVec 16 × Nat :=
  let (index, offset) := state
  (if !result.isBitZero i then setBit index offset else index,
    if !maskVector.isBitZero i then offset + 1 else offset)

def getTableIndex (f maskVector : MatchedField words) (min max : Nat) : BitVec 16 :=
  let result := f.and maskVector
  ((List.range' min (max + 1 - min)).foldl (gather result maskVector) (0, 0)).1

/-- The places of the vector bits that the mask leaves open. -/
def indexOffset (mask : MatchedField words) (vectorBits : List Nat) : List Nat :=
  (vectorBits.zipIdx.filter fun (offset, _) => mask.isBitZero offset).map Prod.snd

def getAllTableIndex (f maskVector mask : MatchedField words) (min max : Nat)
    (vectorBits : List Nat) : List (BitVec 16) :=
  let index := f.getTableIndex maskVector min max
  let offsets := mask.indexOffset vectorBits
  expand offsets [offsets.foldl clearBit index]

/-- The bit at a position. -/
def bit (f : MatchedField words) (position : Nat) : Bool :=
  (f.word (position / 64)).getLsbD (position % 64)

theorem isBitZero_eq (f : MatchedField words) (offset : Nat) :
    f.isBitZero offset = !f.bit offset := by
  have high : offset >>> 6 = offset / 64 := Nat.shiftRight_eq_div_pow offset 6
  have low : offset &&& 0x3f = offset % 64 := Nat.and_two_pow_sub_one_eq_mod offset 6
  rw [isBitZero, high, low, shifted_and_one_eq_zero, bit]

variable (f n : MatchedField words) (position : Nat)

theorem word_and (index : Nat) : (f.and n).word index = f.word index &&& n.word index := by
  simp only [word, MatchedField.and, Vector.getElem?_zipWith]
  by_cases small : index < words <;> simp [small]

theorem bit_and : (f.and n).bit position = (f.bit position && n.bit position) := by
  simp only [bit, word_and, BitVec.getLsbD_and]

@[simp] theorem bit_blank : (blank : MatchedField words).bit position = false := by
  by_cases small : position / 64 < words <;> simp [bit, word, blank, small]

theorem bit_setIfInBounds (f : MatchedField words) (small : which < 64 * words) (position : Nat) :
    MatchedField.bit
      ⟨f.fields.setIfInBounds (which / 64) (setBit (f.word (which / 64)) (which % 64))⟩ position =
      (f.bit position || decide (position = which)) := by
  have inBounds : which / 64 < words := by omega
  simp only [bit, word, Vector.getElem?_setIfInBounds]
  by_cases sameWord : which / 64 = position / 64
  · have sameBit : position % 64 = which % 64 ↔ position = which := by omega
    have low : position % 64 < 64 := Nat.mod_lt _ (by decide)
    rw [if_pos sameWord, if_pos inBounds, Option.getD_some, getLsbD_setBit,
      sameWord, decide_eq_true low, Bool.true_and, decide_eq_decide.mpr sameBit]
  · have apart : position ≠ which := fun same => sameWord (same ▸ rfl)
    rw [if_neg sameWord, decide_eq_false apart, Bool.or_false]

theorem bit_setBits (small : ∀ which ∈ whichs, which < 64 * words) (position : Nat) :
    (setBits whichs : MatchedField words).bit position = decide (position ∈ whichs) := by
  have general : ∀ f : MatchedField words, (whichs.foldl
        (fun f which => ⟨f.fields.setIfInBounds (which >>> 6)
          (setBit (f.word (which >>> 6)) (which &&& 0x3f))⟩) f).bit position =
        (f.bit position || decide (position ∈ whichs)) := by
    induction whichs with
    | nil => simp
    | cons which whichs ih =>
      intro f
      have high : which >>> 6 = which / 64 := Nat.shiftRight_eq_div_pow which 6
      have low : which &&& 0x3f = which % 64 := Nat.and_two_pow_sub_one_eq_mod which 6
      rw [List.foldl_cons, ih fun other mem => small other (by simp [mem]),
        high, low, bit_setIfInBounds f (small which (by simp))]
      simp [Bool.or_assoc]
  exact (general blank).trans (by simp)

end MatchedField

/-- At most 16 ascending positions inside a field. -/
structure VectorBits (words : Nat) where
  bits : List Nat
  ascending : bits.Pairwise (· < ·)
  length_le : bits.length ≤ 16
  bounded : ∀ bit ∈ bits, bit < 64 * words

namespace VectorBits

def minBit (vector : VectorBits words) : Nat :=
  vector.bits.head?.getD 0

def maxBit (vector : VectorBits words) : Nat :=
  vector.bits.getLast?.getD 0

def maskVector (vector : VectorBits words) : MatchedField words :=
  .setBits vector.bits

variable (vector : VectorBits words)

theorem bit_maskVector (position : Nat) :
    vector.maskVector.bit position = decide (position ∈ vector.bits) :=
  MatchedField.bit_setBits vector.bounded position

theorem minBit_le : ∀ bit ∈ vector.bits, vector.minBit ≤ bit := by
  intro bit mem
  have ascending := vector.ascending
  unfold minBit
  cases bits : vector.bits with
  | nil => simp [bits] at mem
  | cons first rest =>
    rw [bits] at mem ascending
    rcases List.mem_cons.mp mem with rfl | later
    · exact Nat.le_refl _
    · exact Nat.le_of_lt (List.rel_of_pairwise_cons ascending later)

theorem le_maxBit : ∀ bit ∈ vector.bits, bit ≤ vector.maxBit := by
  intro bit mem
  have ascending := vector.ascending
  unfold maxBit
  rcases List.eq_nil_or_concat vector.bits with empty | ⟨before, last, bits⟩
  · simp [empty] at mem
  · rw [bits, List.concat_eq_append] at mem ascending ⊢
    rw [List.getLast?_concat, Option.getD_some]
    rcases List.mem_append.mp mem with earlier | atLast
    · exact Nat.le_of_lt ((List.pairwise_append.mp ascending).2.2 bit earlier last (by simp))
    · exact Nat.le_of_eq (List.mem_singleton.mp atLast)

/-- The positions that the loop of `GetTableIndex` counts. -/
theorem filter_range : (List.range' vector.minBit (vector.maxBit + 1 - vector.minBit)).filter
      (fun position => decide (position ∈ vector.bits)) = vector.bits := by
  apply List.Pairwise.eq_of_mem_iff
    (List.Pairwise.filter _ (List.pairwise_lt_range' 1)) vector.ascending
  intro position
  rw [List.mem_filter, List.mem_range'_1, decide_eq_true_iff]
  constructor
  · exact And.right
  · intro mem
    have := vector.minBit_le position mem
    have := vector.le_maxBit position mem
    exact ⟨by omega, mem⟩

end VectorBits

namespace MatchedField

/-- Bit `j` of the table index is the bit of the field at the `j`-th vector
bit. -/
theorem getLsbD_getTableIndex (f : MatchedField words) (vector : VectorBits words) (j : Nat) :
    (f.getTableIndex vector.maskVector vector.minBit vector.maxBit).getLsbD j =
      vector.bits[j]?.any f.bit := by
  have skips : gather (f.and vector.maskVector) vector.maskVector = fun state position =>
        if decide (position ∈ vector.bits) then
          (if f.bit position then setBit state.1 state.2 else state.1, state.2 + 1)
        else state := by
    funext state position
    simp only [gather, isBitZero_eq, bit_and, vector.bit_maskVector]
    by_cases mem : position ∈ vector.bits <;> simp [mem]
  have gathered : f.getTableIndex vector.maskVector vector.minBit
      vector.maxBit = (packBits f.bit (0, 0) vector.bits).1 := by
    rw [getTableIndex, skips, packBits]
    rw [← List.foldl_filter, vector.filter_range]
  rw [gathered]
  by_cases small : j < 16
  · rw [getLsbD_packBits _ _ _ _ _ small]
    simp
  · have tooLong : vector.bits.length ≤ j := by
      have := vector.length_le
      omega
    rw [BitVec.getLsbD_of_ge _ _ (by omega), List.getElem?_eq_none tooLong]
    rfl

section

variable (mask : MatchedField words) (vectorBits : List Nat)

theorem mem_indexOffset (j : Nat) : j ∈ mask.indexOffset vectorBits ↔
      ∃ position, vectorBits[j]? = some position ∧ mask.bit position = false := by
  simp only [indexOffset, List.mem_map, List.mem_filter, isBitZero_eq,
    Prod.exists, exists_eq_right, List.mem_zipIdx_iff_getElem?,
    Bool.not_eq_true']

theorem nodup_indexOffset : (mask.indexOffset vectorBits).Nodup := by
  have places : (vectorBits.zipIdx.map Prod.snd).Nodup := by
    rw [List.zipIdx_map_snd]
    exact List.nodup_range'
  exact places.sublist (List.filter_sublist.map _)

end

section AllIndices

variable (f mask : MatchedField words) (vector : VectorBits words)

theorem zeroAt_cleared (offsets : List Nat) (index : BitVec 16) :
    ZeroAt offsets [offsets.foldl clearBit index] := by
  intro other mem offset offsetMem
  rw [List.mem_singleton.mp mem, getLsbD_foldl_clearBit, decide_eq_true offsetMem]
  simp

/-- A node is put into each of its slots once. -/
theorem nodup_getAllTableIndex :
    (f.getAllTableIndex vector.maskVector mask vector.minBit vector.maxBit vector.bits).Nodup := by
  refine nodup_expand (nodup_indexOffset mask _) ?_ (zeroAt_cleared _ _) (List.nodup_singleton _)
  intro offset mem
  obtain ⟨position, found, -⟩ := (mem_indexOffset _ _ _).mp mem
  have inBounds := (List.getElem?_eq_some_iff.mp found).1
  have := vector.length_le
  omega

/-- The slot of every key that the node matches is one of its slots. -/
theorem getTableIndex_mem_getAllTableIndex {key : MatchedField words} (matched : key.and mask = f) :
    key.getTableIndex vector.maskVector vector.minBit vector.maxBit ∈
      f.getAllTableIndex vector.maskVector mask vector.minBit vector.maxBit vector.bits := by
  refine mem_expand (nodup_indexOffset mask _) (zeroAt_cleared _ _) (List.mem_singleton_self _) ?_
  intro j closed
  rw [getLsbD_foldl_clearBit, decide_eq_false closed, getLsbD_getTableIndex, getLsbD_getTableIndex]
  cases found : vector.bits[j]? with
  | none => rfl
  | some position =>
    have masked : mask.bit position = true := by
      by_contra isOpen
      exact closed ((mem_indexOffset _ _ _).mpr ⟨position, found, Bool.eq_false_iff.mpr isOpen⟩)
    rw [← matched]
    simp [bit_and, masked]

end AllIndices

end MatchedField
end Metaflow.Datatype
