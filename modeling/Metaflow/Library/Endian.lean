import Metaflow.Library.TrackedRead
import Mathlib.Tactic.Ring

/-!
# Numbers as bytes

A number written to a fixed count of bytes, in either byte order. Reading the
bytes gives the number back as far as it fits.
-/

namespace Metaflow.Library

/-- The lowest bytes of a number, the least significant first. -/
def leBytes : Nat -> Nat -> List UInt8
  | 0, _ => []
  | count + 1, value => UInt8.ofNat value :: leBytes count (value / 256)

/-- The lowest bytes of a number, the most significant first. -/
def beBytes (count value : Nat) : List UInt8 :=
  (leBytes count value).reverse

section

variable (count value : Nat)

@[simp] theorem length_leBytes : (leBytes count value).length = count := by
  induction count generalizing value with
  | zero => rfl
  | succ count ih => rw [leBytes, List.length_cons, ih]

@[simp] theorem length_beBytes : (beBytes count value).length = count := by
  rw [beBytes, List.length_reverse, length_leBytes]

theorem littleEndian_leBytes : littleEndian (leBytes count value) = value % 256 ^ count := by
  induction count generalizing value with
  | zero => simp [leBytes, littleEndian, Nat.mod_one]
  | succ count ih =>
    have split : littleEndian (leBytes (count + 1) value) =
        (UInt8.ofNat value).toNat + 256 * littleEndian (leBytes count (value / 256)) := rfl
    rw [split, ih, UInt8.toNat_ofNat', @Nat.pow_succ' 256, @Nat.mod_mul 256]

theorem leBytes_littleEndian (bytes : List UInt8) :
    leBytes bytes.length (littleEndian bytes) = bytes := by
  induction bytes with
  | nil => rfl
  | cons byte bytes ih =>
    have small := byte.toNat_lt
    have split : littleEndian (byte :: bytes) = byte.toNat + 256 * littleEndian bytes := rfl
    rw [split, List.length_cons, leBytes, Nat.add_mul_div_left _ _ (by decide),
      Nat.div_eq_of_lt small, Nat.zero_add, ih]
    congr 1
    apply UInt8.toNat.inj
    rw [UInt8.toNat_ofNat', Nat.add_mul_mod_self_left, Nat.mod_eq_of_lt small]

theorem bigEndian_reverse (bytes : List UInt8) : bigEndian bytes.reverse = littleEndian bytes := by
  rw [bigEndian, List.foldl_reverse, littleEndian]
  congr 1
  funext byte value
  ring

theorem bigEndian_beBytes : bigEndian (beBytes count value) = value % 256 ^ count := by
  rw [beBytes, bigEndian_reverse, littleEndian_leBytes]

end

/-- Bytes that are enough for a number give it back. -/
theorem littleEndian_leBytes_of_lt (fits : value < 256 ^ count) :
    littleEndian (leBytes count value) = value := by
  rw [littleEndian_leBytes, Nat.mod_eq_of_lt fits]

theorem bigEndian_beBytes_of_lt (fits : value < 256 ^ count) :
    bigEndian (beBytes count value) = value := by
  rw [bigEndian_beBytes, Nat.mod_eq_of_lt fits]

end Metaflow.Library
