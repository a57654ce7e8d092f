import Mathlib.Data.List.TakeWhile
import Metaflow.Datatype.PortRange
import Metaflow.Library.AlignedBlock

/-!
# Port segments

`port_segment.go`: a range of ports is cut into aligned blocks, each the largest
that begins where the one before ended. All numbers have 16 bits; a sum that
leaves them ends the loop.
-/

namespace Metaflow.Policy

open Datatype
open Library

structure PortSegment where
  port : UInt16
  mask : UInt16
  deriving DecidableEq

/-- `allPortSegment` -/
def allPortSegment : PortSegment := ⟨0, 0⟩

/-- A shift of a 16-bit number; what leaves the bits is lost. -/
def shiftLeft (number : UInt16) (count : Nat) : UInt16 :=
  .ofNat (number.toNat <<< count)

/-- The number of low bits that are zero. -/
def calcZeroCount (port : UInt16) : Nat :=
  ((List.range 16).takeWhile fun i => (port.toNat >>> i) &&& 1 = 0).length

/-- The loop tries the blocks of the ports before the next multiple from the
largest on. -/
def calcMask (port maxPort : UInt16) (count : Nat) : UInt16 × Nat :=
  match (List.range count).find? fun i =>
      port + shiftLeft 1 (count - i) - 1 ≤ maxPort with
  | some i => (shiftLeft 65535 (count - i), count - i)
  | none => (65535, 0)

/-- The loop of `newPortSegments`. -/
def portSegmentsFrom (maxPort : UInt16) : Nat -> UInt16 -> Option (List PortSegment)
  | 0, _ => none
  | fuel + 1, i =>
    if i ≤ maxPort then
      let (mask, n) := calcMask i maxPort (calcZeroCount i)
      let next := i + shiftLeft 1 n
      if next = 0 then some [⟨i, mask⟩]
      else (portSegmentsFrom maxPort fuel next).map fun segments =>
        ⟨i, mask⟩ :: segments
    else some []

/-- Every round passes at least one port, so there are at most as many rounds
as there are ports. -/
def newPortSegments (port : PortRange) : Option (List PortSegment) :=
  portSegmentsFrom port.max (portCount + 1) port.min

/-- The port has the value of the segment under its mask. -/
def PortSegment.Matches (segment : PortSegment) (port : UInt16) : Prop :=
  port &&& segment.mask = segment.port

instance (segment : PortSegment) (port : UInt16) : Decidable (segment.Matches port) :=
  inferInstanceAs (Decidable (_ = _))

theorem block_matches_iff (aligned : 2 ^ count ∣ port.toNat) (other : UInt16) :
    PortSegment.Matches ⟨port, shiftLeft 65535 count⟩ other ↔
      port.toNat ≤ other.toNat ∧ other.toNat < port.toNat + 2 ^ count := by
  have masked : (other &&& shiftLeft 65535 count).toNat = blockBase (2 ^ count) other.toNat := by
    rw [UInt16.toNat_and, shiftLeft, UInt16.toNat_ofNat']
    exact and_leadingOnes other.toNat_lt
  rw [PortSegment.Matches, ← UInt16.toNat_inj, masked]
  exact blockBase_eq_iff (Nat.two_pow_pos count) aligned

theorem calcZeroCount_le (port : UInt16) : calcZeroCount port ≤ 16 := by
  have shorter := (List.takeWhile_sublist (l := List.range 16)
    (fun i => decide ((port.toNat >>> i) &&& 1 = 0))).length_le
  rwa [List.length_range] at shorter

theorem testBit_of_lt_calcZeroCount (low : i < calcZeroCount port) :
    port.toNat.testBit i = false := by
  have isPrefixed := List.takeWhile_prefix (l := List.range 16)
    (fun i => decide ((port.toNat >>> i) &&& 1 = 0))
  have isIn := List.getElem_mem low
  rw [isPrefixed.getElem low, List.getElem_range] at isIn
  have zero := List.mem_takeWhile_imp isIn
  rw [Nat.testBit, Nat.and_comm, of_decide_eq_true zero]
  rfl

theorem dvd_of_calcZeroCount (port : UInt16) : 2 ^ calcZeroCount port ∣ port.toNat := by
  refine Nat.dvd_of_mod_eq_zero (Nat.eq_of_testBit_eq fun i => ?_)
  rw [Nat.testBit_mod_two_pow, Nat.zero_testBit]
  by_cases low : i < calcZeroCount port
  · rw [testBit_of_lt_calcZeroCount low, Bool.and_false]
  · rw [decide_eq_false low, Bool.false_and]

/-- The last port of a block, whose end may be that of all ports. -/
theorem toNat_lastPort (few : n ≤ 16) (aligned : 2 ^ n ∣ port.toNat) :
    port.toNat + 2 ^ n ≤ portCount ∧
    (port + shiftLeft 1 n).toNat = (port.toNat + 2 ^ n) % portCount ∧
    (port + shiftLeft 1 n - 1).toNat = port.toNat + 2 ^ n - 1 := by
  have positive := Nat.two_pow_pos n
  have small := port.toNat_lt
  have blocks : 2 ^ n ∣ portCount - port.toNat := Nat.dvd_sub (Nat.pow_dvd_pow 2 few) aligned
  have inside : 2 ^ n ≤ portCount - port.toNat := Nat.le_of_dvd (Nat.sub_pos_of_lt small) blocks
  have shifted : (shiftLeft 1 n).toNat = 2 ^ n % portCount := by
    rw [shiftLeft, UInt16.toNat_ofNat', Nat.shiftLeft_eq]
    exact congrArg (· % portCount) (Nat.one_mul _)
  have one : (1 : UInt16).toNat = 1 := rfl
  simp only [UInt16.toNat_sub, UInt16.toNat_add, shifted, one]
  generalize 2 ^ n = size at positive inside ⊢
  change port.toNat < 65536 at small
  simp only [portCount] at inside ⊢
  refine ⟨by omega, by omega, by omega⟩

/-- The block that is chosen does not reach behind the last port. -/
theorem calcMask_spec (inRange : port ≤ maxPort)
    (few : count ≤ 16) (aligned : 2 ^ count ∣ port.toNat) :
    ∃ n, calcMask port maxPort count = (shiftLeft 65535 n, n) ∧ n ≤ 16 ∧ 2 ^ n ∣ port.toNat ∧
      port.toNat + 2 ^ n ≤ maxPort.toNat + 1 := by
  unfold calcMask
  cases found : (List.range count).find? fun i =>
      port + shiftLeft 1 (count - i) - 1 ≤ maxPort with
  | none =>
    refine ⟨0, rfl, Nat.zero_le _, Nat.one_dvd _, ?_⟩
    exact Nat.succ_le_succ (UInt16.le_iff_toNat_le.mp inRange)
  | some i =>
    have smaller : count - i ≤ count := Nat.sub_le _ _
    have divides := Nat.dvd_trans (Nat.pow_dvd_pow 2 smaller) aligned
    have fits : port + shiftLeft 1 (count - i) - 1 ≤ maxPort := by simpa using List.find?_some found
    rw [UInt16.le_iff_toNat_le, (toNat_lastPort (Nat.le_trans smaller few) divides).2.2] at fits
    exact ⟨count - i, rfl, by omega, divides, by omega⟩

/-- The segments match the ports of an interval, each port by one of them. -/
structure Tiles (low high : Nat) (segments : List PortSegment) : Prop where
  disjoint : segments.Pairwise fun segment other =>
    ∀ port, segment.Matches port -> ¬ other.Matches port
  matches_iff : ∀ port : UInt16, (∃ segment ∈ segments, segment.Matches port) ↔
    low ≤ port.toNat ∧ port.toNat ≤ high

theorem Tiles.nil (empty : high < low) : Tiles low high [] where
  disjoint := .nil
  matches_iff port := by
    constructor
    · rintro ⟨segment, isIn, _⟩
      exact absurd isIn List.not_mem_nil
    · intro bounds
      omega

/-- A block in front of the segments. -/
theorem Tiles.cons (tiles : Tiles (port.toNat + 2 ^ n) high segments) (aligned : 2 ^ n ∣ port.toNat)
    (fits : port.toNat + 2 ^ n ≤ high + 1) :
    Tiles port.toNat high (⟨port, shiftLeft 65535 n⟩ :: segments) where
  disjoint := by
    refine .cons ?_ tiles.disjoint
    intro segment isIn other first second
    have before := ((block_matches_iff aligned other).mp first).2
    have behind := ((tiles.matches_iff other).mp ⟨segment, isIn, second⟩).1
    omega
  matches_iff other := by
    simp only [List.mem_cons, exists_eq_or_imp]
    rw [block_matches_iff aligned, tiles.matches_iff]
    have positive := Nat.two_pow_pos n
    omega

theorem portSegmentsFrom_spec (maxPort : UInt16) (enough : portCount - i.toNat < fuel) :
    ∃ segments, portSegmentsFrom maxPort fuel i = some segments ∧
      Tiles i.toNat maxPort.toNat segments := by
  induction fuel generalizing i with
  | zero => exact absurd enough (Nat.not_lt_zero _)
  | succ fuel ih =>
    unfold portSegmentsFrom
    by_cases inRange : i ≤ maxPort
    · obtain ⟨n, chosen, few, aligned, fits⟩ := calcMask_spec inRange
        (calcZeroCount_le i) (dvd_of_calcZeroCount i)
      obtain ⟨inside, next_eq, _⟩ := toNat_lastPort few aligned
      have positive := Nat.two_pow_pos n
      simp only [if_pos inRange, chosen]
      split_ifs with wraps
      · have isEnd : i.toNat + 2 ^ n = portCount := by
          rw [wraps] at next_eq
          change 0 = _ at next_eq
          by_contra notEnd
          rw [Nat.mod_eq_of_lt (by omega)] at next_eq
          omega
        refine ⟨_, rfl, Tiles.cons (.nil ?_) aligned fits⟩
        rw [isEnd]
        exact maxPort.toNat_lt
      · have next : (i + shiftLeft 1 n).toNat = i.toNat + 2 ^ n := by
          have notZero : (i + shiftLeft 1 n).toNat ≠ 0 :=
            fun zero => wraps (UInt16.toNat_inj.mp zero)
          rw [next_eq] at notZero ⊢
          refine Nat.mod_eq_of_lt (Nat.lt_of_le_of_ne inside ?_)
          intro isEnd
          rw [isEnd, Nat.mod_self] at notZero
          exact notZero rfl
        obtain ⟨segments, rest, tiles⟩ := @ih (i + shiftLeft 1 n) (by omega)
        rw [next] at tiles
        rw [rest]
        exact ⟨_, rfl, tiles.cons aligned fits⟩
    · rw [if_neg inRange]
      refine ⟨[], rfl, .nil ?_⟩
      exact Nat.lt_of_not_le (inRange ∘ UInt16.le_iff_toNat_le.mpr)

theorem newPortSegments_spec (range : PortRange) :
    ∃ segments, newPortSegments range = some segments ∧
      Tiles range.min.toNat range.max.toNat segments :=
  portSegmentsFrom_spec range.max (by omega)

/-- `newPortSegments` returns segments that match exactly the ports of the
range, each once. -/
theorem newPortSegments_tiles (range : PortRange) :
    ∃ segments, newPortSegments range = some segments ∧
      (segments.Pairwise fun segment other =>
        ∀ port, segment.Matches port -> ¬ other.Matches port) ∧
      ∀ port : UInt16, (∃ segment ∈ segments, segment.Matches port) ↔
        range.min ≤ port ∧ port ≤ range.max := by
  obtain ⟨segments, isResult, tiles⟩ := newPortSegments_spec range
  exact ⟨segments, isResult, tiles.disjoint, tiles.matches_iff⟩

end Metaflow.Policy
