import Mathlib.Algebra.Group.Nat.Defs
import Mathlib.Data.Nat.Basic

/-!
# Aligned blocks of numbers

The numbers are cut into blocks of one size. A size that divides another one
cuts every block of the other into blocks of its own.
-/

namespace Metaflow.Library

/-- The first number of the block with `number`. -/
def blockBase (size number : Nat) : Nat :=
  number / size * size

variable {size small large number first : Nat}

theorem blockBase_le : blockBase size number ≤ number :=
  Nat.div_mul_le_self number size

theorem lt_blockBase_add (positive : 0 < size) : number < blockBase size number + size := by
  rw [blockBase, ← Nat.succ_mul]
  exact Nat.lt_mul_of_div_lt (Nat.lt_succ_self _) positive

theorem dvd_blockBase : size ∣ blockBase size number :=
  Nat.dvd_mul_left size _

/-- A block is known by its first number. -/
theorem blockBase_eq (aligned : size ∣ first) (low : first ≤ number)
    (high : number < first + size) : blockBase size number = first := by
  obtain ⟨count, rfl⟩ := aligned
  have quotient : number / size = count := by
    apply Nat.div_eq_of_lt_le
    · rwa [Nat.mul_comm]
    · rw [Nat.succ_mul, Nat.mul_comm]
      exact high
  rw [blockBase, quotient, Nat.mul_comm]

theorem blockBase_eq_self_iff (positive : 0 < size) :
    blockBase size number = number ↔ size ∣ number := by
  constructor
  · intro same
    rw [← same]
    exact dvd_blockBase
  · intro aligned
    exact blockBase_eq aligned (Nat.le_refl _) (by omega)

/-- The first number of a smaller block lies in the larger one. -/
theorem blockBase_mono (divides : small ∣ large) :
    blockBase large number ≤ blockBase small number := by
  obtain ⟨count, rfl⟩ := divides
  have nested : number / (small * count) * count ≤ number / small := by
    rw [← Nat.div_div_eq_div_mul]
    exact Nat.div_mul_le_self _ _
  calc blockBase (small * count) number = number / (small * count) * count * small := by
        rw [blockBase, Nat.mul_assoc, Nat.mul_comm count]
    _ ≤ number / small * small := Nat.mul_le_mul_right small nested

theorem blockBase_add_mono (positive : 0 < large) (divides : small ∣ large) :
    blockBase small number + small ≤ blockBase large number + large := by
  have before : blockBase small number < blockBase large number + large :=
    Nat.lt_of_le_of_lt blockBase_le (lt_blockBase_add positive)
  have aligned : small ∣ blockBase large number + large - blockBase small number :=
    Nat.dvd_sub (Nat.dvd_add (Nat.dvd_trans divides dvd_blockBase) divides) dvd_blockBase
  have fits := Nat.le_of_dvd (Nat.sub_pos_of_lt before) aligned
  omega

theorem blockBase_div (positive : 0 < large) (divides : small ∣ large) :
    blockBase small number / large = number / large := by
  apply Nat.le_antisymm
  · exact Nat.div_le_div_right blockBase_le
  · exact (Nat.le_div_iff_mul_le positive).mpr (blockBase_mono divides)

/-- A number lies in the block that begins at a multiple of the size. -/
theorem blockBase_eq_iff (positive : 0 < size) (aligned : size ∣ first) :
    blockBase size number = first ↔
      first ≤ number ∧ number < first + size := by
  constructor
  · rintro rfl
    exact ⟨blockBase_le, lt_blockBase_add positive⟩
  · exact fun bounds => blockBase_eq aligned bounds.1 bounds.2

/-- A mask of leading ones keeps the first number of a block. -/
theorem and_leadingOnes (fits : number < 2 ^ width) :
    number &&& ((2 ^ width - 1) <<< shift % 2 ^ width) = blockBase (2 ^ shift) number := by
  refine Nat.eq_of_testBit_eq fun position => ?_
  have zero : width ≤ position -> number.testBit position = false :=
    fun above => Nat.testBit_lt_two_pow
      (Nat.lt_of_lt_of_le fits (Nat.pow_le_pow_right (by omega) above))
  rw [blockBase, Nat.testBit_and, Nat.testBit_mod_two_pow,
    Nat.testBit_shiftLeft, Nat.testBit_two_pow_sub_one,
    Nat.testBit_mul_two_pow, Nat.testBit_div_two_pow]
  by_cases above : width ≤ position
  · by_cases shifted : shift ≤ position <;> simp [shifted, Nat.sub_add_cancel, zero above]
  · by_cases shifted : shift ≤ position
    · have below : position - shift < width := by omega
      simp [shifted, below, Nat.sub_add_cancel, Nat.lt_of_not_le above]
    · simp [shifted]

theorem add_le_of_dvd (aligned : size ∣ first) (divides : size ∣ bound) (inside : first < bound) :
    first + size ≤ bound := by
  have remaining := Nat.le_of_dvd (Nat.sub_pos_of_lt inside) (Nat.dvd_sub divides aligned)
  omega

/-- An aligned word whose next bit is clear is aligned to twice the size. -/
theorem dvd_of_and_eq_zero (aligned : 2 ^ bit ∣ start.toNat) (small : bit < width)
    (clear : start &&& (1 : BitVec width) <<< bit = 0) : 2 ^ (bit + 1) ∣ start.toNat := by
  have isClear : start.toNat.testBit bit = false := by
    have zero := congrArg (fun word => word.getLsbD bit) clear
    have one : (1 : BitVec width).getLsbD 0 = true := by
      have positive : 0 < width := by omega
      simpa using positive
    rw [BitVec.testBit_toNat]
    simpa [BitVec.getLsbD_and, BitVec.getLsbD_shiftLeft, small, one] using zero
  obtain ⟨count, isCount⟩ := aligned
  rw [isCount, Nat.testBit_eq_decide_div_mod_eq,
    Nat.mul_div_cancel_left _ (Nat.two_pow_pos bit), decide_eq_false_iff_not]
    at isClear
  have even : 2 ∣ count := by omega
  rw [isCount, Nat.pow_succ]
  exact Nat.mul_dvd_mul_left _ even

/-- The word behind a block that does not end at the last word. -/
theorem toNat_add_block {width bit : Nat} {start : BitVec width}
    (inside : start.toNat + 2 ^ bit < 2 ^ width) :
    (start + (1 : BitVec width) <<< bit).toNat = start.toNat + 2 ^ bit := by
  have positive : 0 < width := by
    rcases Nat.eq_zero_or_pos width with rfl | positive
    · have := Nat.two_pow_pos bit
      omega
    · exact positive
  have one : (1 : BitVec width).toNat = 1 := BitVec.toNat_one positive
  rw [BitVec.toNat_add, BitVec.toNat_shiftLeft, Nat.shiftLeft_eq, one,
    Nat.one_mul, Nat.add_mod_mod, Nat.mod_eq_of_lt inside]

end Metaflow.Library
