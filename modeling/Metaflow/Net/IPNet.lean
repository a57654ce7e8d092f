import Metaflow.Library.AlignedBlock

/-!
# Networks of package `net`

The addresses, masks and networks of the Go library. An address has 4 or 16
bytes; an IPv4 address may be given in 16 bytes too, and a network compares
the short forms.
-/

namespace Metaflow.Net

open Library BitVec

/-- The word of the given width whose first bits are ones. -/
def leadingOnes (width ones : Nat) : BitVec width :=
  BitVec.allOnes width <<< (width - ones)

/-- The masked word is the first one of its network. -/
theorem toNat_and_leadingOnes (word : BitVec width) (ones : Nat) :
    (word &&& leadingOnes width ones).toNat = blockBase (2 ^ (width - ones)) word.toNat := by
  rw [leadingOnes, toNat_and, toNat_shiftLeft, toNat_allOnes]
  exact and_leadingOnes word.isLt

/-- Words are in one network if their first bits agree. -/
theorem and_leadingOnes_eq_iff {word other : BitVec width} :
    word &&& leadingOnes width ones = other &&& leadingOnes width ones ↔
      blockBase (2 ^ (width - ones)) word.toNat = blockBase (2 ^ (width - ones)) other.toNat := by
  rw [toNat_inj.symm, toNat_and_leadingOnes, toNat_and_leadingOnes]

/-- The words that a mask leaves open. -/
theorem toNat_not_leadingOnes (small : ones ≤ width) :
    (~~~leadingOnes width ones).toNat = 2 ^ (width - ones) - 1 := by
  refine Nat.eq_of_testBit_eq fun position => ?_
  rw [Nat.testBit_two_pow_sub_one, testBit_toNat, leadingOnes,
    getLsbD_not, getLsbD_shiftLeft, getLsbD_allOnes]
  by_cases inside : position < width
  · by_cases open' : position < width - ones
    · simp [inside, open']
    · have kept : position - (width - ones) < width := by omega
      simp [inside, open', kept]
  · have outside : ¬ position < width - ones := by omega
    simp [inside, outside]

/-- A word that begins a network begins one with a shorter mask if its next bit
is clear; that one ends before `stop` if its last word is not behind it. -/
theorem shorter_fits (aligned : 2 ^ (width - (ones + 1)) ∣ start.toNat) (small : ones < width)
    (clear : start &&& (1 : BitVec width) <<< (width - (ones + 1)) = 0)
    (room : ¬ stop < start + ~~~leadingOnes width ones) :
    2 ^ (width - ones) ∣ start.toNat ∧ start.toNat + 2 ^ (width - ones) ≤ stop.toNat + 1 := by
  have twice := dvd_of_and_eq_zero aligned (by omega) clear
  rw [show width - (ones + 1) + 1 = width - ones by omega] at twice
  have noOverflow := add_le_of_dvd twice (Nat.pow_dvd_pow 2 (Nat.sub_le width ones)) start.isLt
  have positive := Nat.two_pow_pos (width - ones)
  rw [lt_def, toNat_add, toNat_not_leadingOnes (by omega), Nat.mod_eq_of_lt (by omega)] at room
  exact ⟨twice, by omega⟩

/-- A `net.IPMask` of 4 or 16 bytes. -/
inductive IPMask where
  | v4 (bits : BitVec 32)
  | v6 (bits : BitVec 128)
  deriving DecidableEq

/-- `CIDRMask(ones, 32)` -/
def cidrMask4 (ones : Nat) : IPMask :=
  .v4 (leadingOnes 32 ones)

/-- `simpleMaskLength`: the number of ones if they are the first bits. -/
def simpleMaskLength {width : Nat} (mask : BitVec width) : Option Nat :=
  (List.range (width + 1)).find? fun ones => mask == leadingOnes width ones

/-- The ones that `Mask.Size()` counts, 0 unless they are the first bits. -/
def IPMask.ones : IPMask -> Nat
  | .v4 bits => (simpleMaskLength bits).getD 0
  | .v6 bits => (simpleMaskLength bits).getD 0

/-- A `net.IP` of 4 or 16 bytes. -/
inductive IP where
  | v4 (bits : BitVec 32)
  | v6 (bits : BitVec 128)
  deriving DecidableEq

/-- `To4`: the address in 4 bytes if it is an IPv4 address. -/
def IP.to4 : IP -> Option (BitVec 32)
  | .v4 bits => some bits
  | .v6 bits => if bits >>> 32 = 0xffff then some (bits.setWidth 32) else none

/-- The address in 4 bytes if `To4` has one. -/
def IP.short (ip : IP) : IP :=
  match ip.to4 with
  | some bits => .v4 bits
  | none => ip

/-- A `net.IPNet` -/
structure IPNet where
  ip : IP
  mask : IPMask
  deriving DecidableEq

namespace IPNet

/-- `Contains`: a mask of 16 bytes is cut for a network in 4 bytes, and a
network in 16 bytes with a mask of 4 bytes has no addresses. -/
def contains (n : IPNet) (ip : IP) : Bool :=
  match n.ip.short, n.mask, ip.short with
  | .v4 number, .v4 mask, .v4 bits => number &&& mask == bits &&& mask
  | .v4 number, .v6 mask, .v4 bits => number &&& mask.setWidth 32 == bits &&& mask.setWidth 32
  | .v6 number, .v6 mask, .v6 bits => number &&& mask == bits &&& mask
  | _, _, _ => false

theorem short_of_some {ip : IP} (isShort : ip.to4 = some bits) : ip.short = .v4 bits := by
  rw [IP.short, isShort]

theorem short_of_none {ip : IP} (long : ip.to4 = none) : ∃ bits, ip.short = .v6 bits := by
  cases ip with
  | v4 bits => cases long
  | v6 bits => exact ⟨bits, by rw [IP.short, long]⟩

/-- The addresses of an IPv4 network that begins with its address. -/
theorem contains_v4_iff {first : BitVec 32} {ones : Nat} {ip : IP}
    (aligned : 2 ^ (32 - ones) ∣ first.toNat) :
    contains ⟨.v4 first, cidrMask4 ones⟩ ip ↔
      ∃ bits, ip.to4 = some bits ∧
        first.toNat ≤ bits.toNat ∧ bits.toNat < first.toNat + 2 ^ (32 - ones) := by
  have positive := Nat.two_pow_pos (32 - ones)
  cases known : ip.to4 with
  | none =>
    obtain ⟨bits, isLong⟩ := short_of_none known
    simp [contains, isLong, short_of_some, IP.to4, cidrMask4]
  | some bits =>
    simp only [contains, short_of_some known, short_of_some, IP.to4,
      cidrMask4, Option.some.injEq, exists_eq_left', beq_iff_eq]
    rw [← blockBase_eq_iff positive aligned, and_leadingOnes_eq_iff,
      (blockBase_eq_self_iff positive).mpr aligned]
    exact eq_comm

end IPNet

end Metaflow.Net
