import Metaflow.Cache.DropDetection
import Metaflow.Library.CircularView
import Metaflow.Library.Missing
import Mathlib.Data.Nat.Bitwise

/-!
# The window of drop detection

The window represents a base and a set of received numbers. Every loop of
`Detect` moves the base, keeps the set and counts the missing numbers between
the two bases.
-/

namespace Metaflow.Cache

open Library

/-- `windowSize` is a power of two, as the masks of the source require. -/
def IsPowerOfTwo (windowSize : UInt64) : Prop :=
  ∃ bits, windowSize.toNat = 1 <<< bits

namespace IsPowerOfTwo

section

variable (powerOfTwo : IsPowerOfTwo windowSize)
include powerOfTwo

theorem positive : 0 < windowSize.toNat := by
  obtain ⟨bits, isPower⟩ := powerOfTwo
  rw [isPower, Nat.one_shiftLeft]
  exact Nat.two_pow_pos bits

theorem dvd : windowSize.toNat ∣ 18446744073709551616 := by
  obtain ⟨bits, isPower⟩ := powerOfTwo
  have below := windowSize.toNat_lt
  rw [isPower, Nat.one_shiftLeft] at below ⊢
  have few : bits ≤ 64 := Nat.le_of_lt ((Nat.pow_lt_pow_iff_right (by decide)).mp below)
  exact Nat.pow_dvd_pow 2 few

/-- `& (windowSize - 1)` is the remainder. -/
theorem toNat_mask (value : UInt64) :
    (value &&& (windowSize - 1)).toNat = value.toNat % windowSize.toNat := by
  have positive := powerOfTwo.positive
  have one_le : (1 : UInt64) ≤ windowSize := by
    rw [UInt64.le_iff_toNat_le]
    exact positive
  rw [UInt64.toNat_and, UInt64.toNat_sub_of_le _ _ one_le]
  obtain ⟨bits, isPower⟩ := powerOfTwo
  rw [isPower, Nat.one_shiftLeft]
  exact Nat.and_two_pow_sub_one_eq_mod value.toNat bits

theorem toNat_add_mask (value increment : UInt64) :
    ((value + increment) &&& (windowSize - 1)).toNat =
      (value.toNat + increment.toNat) % windowSize.toNat := by
  rw [powerOfTwo.toNat_mask, UInt64.toNat_add]
  exact Nat.mod_mod_of_dvd _ powerOfTwo.dvd

/-- One position back around the ring. -/
theorem toNat_pred_mask (isIndex : value.toNat = (start + (k + 1)) % windowSize.toNat) :
    ((value - 1) &&& (windowSize - 1)).toNat = (start + k) % windowSize.toNat := by
  obtain ⟨count, isMultiple⟩ := powerOfTwo.dvd
  rw [powerOfTwo.toNat_mask, UInt64.toNat_sub, Nat.mod_mod_of_dvd _ powerOfTwo.dvd]
  change (18446744073709551616 - 1 + value.toNat) % windowSize.toNat = _
  have unwrapped : 18446744073709551616 - 1 + (start + (k + 1)) =
      start + k + windowSize.toNat * count := by omega
  rw [isIndex, Nat.add_mod_mod, unwrapped, Nat.add_mul_mod_self_left]

end

end IsPowerOfTwo

/-- The flags are the received numbers from the base on. The base may be `2 ^
64`, when `seq` is 0. -/
structure Represents (windowSize : UInt64) (inst : Instance) (base : Nat)
    (received : Finset Nat) : Prop where
  seq_eq : inst.seq.toNat = base % 18446744073709551616
  length_eq : inst.cache.length = windowSize.toNat
  visible : Shows inst.cache inst.cacheStartIndex.toNat fun k => decide (base + k ∈ received)
  bounded : ∀ number ∈ received, number < base + windowSize.toNat

theorem represents_empty (length_eq : inst.cache.length = windowSize.toNat)
    (start_lt : inst.cacheStartIndex.toNat < windowSize.toNat)
    (unset : ∀ flag ∈ inst.cache, flag = false) : Represents windowSize inst inst.seq.toNat ∅ := by
  refine ⟨?_, length_eq, ?_, ?_⟩
  · exact (Nat.mod_eq_of_lt inst.seq.toNat_lt).symm
  · apply Shows.of_constant unset
    · rw [length_eq]
      exact start_lt
    · intro k below
      simp
  · intro number present
    simp at present

namespace Represents

section

variable (represents : Represents windowSize inst base received)
include represents

theorem first : inst.cache[inst.cacheStartIndex.toNat]? = some (decide (base ∈ received)) := by
  simpa using represents.visible.head

/-- Only the flags and the positions matter. -/
theorem setTimestamp (timestamp : UInt32) :
    Represents windowSize { inst with maxTimestamp := timestamp } base received :=
  ⟨represents.seq_eq, represents.length_eq, represents.visible, represents.bounded⟩

variable (powerOfTwo : IsPowerOfTwo windowSize)
include powerOfTwo

theorem moveOn : Represents windowSize (inst.moveOn windowSize) (base + 1) received := by
  have positive := powerOfTwo.positive
  have length_eq := represents.length_eq
  refine ⟨?_, ?_, ?_, ?_⟩
  · have seq_eq := represents.seq_eq
    simp only [Instance.moveOn, UInt64.toNat_add, UInt64.reduceToNat]
    omega
  · simp only [Instance.moveOn, List.length_set, length_eq]
  · simp only [Instance.moveOn, powerOfTwo.toNat_add_mask, ← length_eq]
    apply represents.visible.advance
    · intro k inside
      simp only [Nat.add_assoc, Nat.add_comm 1 k]
    · have outside : base + 1 + (inst.cache.length - 1) ∉ received := by
        intro present
        have small := represents.bounded _ present
        omega
      simp [outside]
  · intro number present
    have small := represents.bounded number present
    omega

/-- The first loop passes numbers up to the offset or for all rounds, and counts
those not received. -/
theorem flushUntilFits (rounds : Nat) (offset dropped : UInt64)
    (small : dropped.toNat + offset.toNat < 18446744073709551616) :
    ∃ inst' offset' dropped' passed, Instance.flushUntilFits windowSize rounds inst offset dropped =
        some (inst', offset', dropped') ∧
      passed = min rounds (offset.toNat + 1 - windowSize.toNat) ∧
      Represents windowSize inst' (base + passed) received ∧ offset'.toNat = offset.toNat - passed ∧
      dropped'.toNat = dropped.toNat + missing received base (base + passed) := by
  induction rounds generalizing inst base offset dropped with
  | zero => exact ⟨inst, offset, dropped, 0, rfl, by simp, represents, rfl, by simp⟩
  | succ rounds ih =>
    unfold Instance.flushUntilFits
    have positive := powerOfTwo.positive
    by_cases outside : windowSize ≤ offset
    · have large := UInt64.le_iff_toNat_le.mp outside
      have one_le : (1 : UInt64) ≤ offset := by
        rw [UInt64.le_iff_toNat_le, UInt64.toNat_one]
        omega
      have offset_eq : (offset - 1).toNat = offset.toNat - 1 := UInt64.toNat_sub_of_le _ _ one_le
      have dropped_eq : (if decide (base ∈ received) = true then dropped
          else dropped + 1).toNat =
          dropped.toNat + missing received base (base + 1) := by
        rw [missing_succ]
        by_cases present : base ∈ received
        · simp [present]
        · simp only [present, decide_false, Bool.false_eq_true, if_false,
            UInt64.toNat_add, UInt64.reduceToNat]
          omega
      have added := missing_le received base (base + 1)
      obtain ⟨inst', offset', dropped', passed, flushed, isPassed,
        represents', offset'_eq, dropped'_eq⟩ :=
        ih (represents.moveOn powerOfTwo) (offset - 1)
          (if decide (base ∈ received) = true then dropped
            else dropped + 1) (by omega)
      refine ⟨inst', offset', dropped', passed + 1, ?_, ?_, ?_, ?_, ?_⟩
      · rw [if_pos outside, represents.first]
        exact flushed
      · omega
      · rwa [Nat.add_assoc, Nat.add_comm 1 passed] at represents'
      · omega
      · have sameEnd : base + 1 + passed = base + (passed + 1) := by omega
        rw [dropped'_eq, dropped_eq, sameEnd, Nat.add_assoc,
          missing_add _ (Nat.le_succ base) (by omega)]
    · have fits : offset.toNat < windowSize.toNat := by
        rw [UInt64.le_iff_toNat_le] at outside
        omega
      refine ⟨inst, offset, dropped, 0, ?_, ?_, represents, rfl, ?_⟩
      · rw [if_neg outside]
      · omega
      · simp

/-- A window that has passed every received number may jump. -/
theorem jump (passedAll : ∀ number ∈ received, number < base) (gap : UInt64) : Represents windowSize
      { inst with
        seq := inst.seq + gap
        cacheStartIndex :=
          (inst.cacheStartIndex + gap) &&& (windowSize - 1) }
      (base + gap.toNat) received := by
  have length_eq := represents.length_eq
  have noFlag : ∀ start k, base ≤ start ->
      decide (start + k ∈ received) = false := by
    intro start k behind
    apply decide_eq_false
    intro present
    have small := passedAll _ present
    omega
  refine ⟨?_, length_eq, ?_, ?_⟩
  · have seq_eq := represents.seq_eq
    simp only [UInt64.toNat_add]
    omega
  · apply Shows.of_constant
    · apply represents.visible.constant
      intro k below
      exact noFlag base k (Nat.le_refl base)
    · rw [powerOfTwo.toNat_add_mask, length_eq]
      exact Nat.mod_lt _ powerOfTwo.positive
    · intro k below
      exact noFlag _ k (Nat.le_add_right base _)
  · intro number present
    have small := passedAll number present
    omega

/-- Loop and jump together: the window ends with the number, if it did not
reach it before. -/
theorem flushBefore (offset : UInt64) : ∃ inst' offset' dropped,
      (Instance.flushUntilFits windowSize windowSize.toNat inst offset
          0).map (fun (inst, offset, dropped) =>
        inst.skipGap windowSize offset dropped) =
        some (inst', offset', dropped) ∧
      Represents windowSize inst' (base + (offset.toNat + 1 - windowSize.toNat)) received ∧
      offset'.toNat = offset.toNat - (offset.toNat + 1 - windowSize.toNat) ∧
      dropped.toNat = missing received base (base + (offset.toNat + 1 - windowSize.toNat)) := by
  have offsetBelow := offset.toNat_lt
  have positive := powerOfTwo.positive
  obtain ⟨inst', offset', dropped', passed, flushed, isPassed, represents',
    offset'_eq, dropped'_eq⟩ := represents.flushUntilFits powerOfTwo
      windowSize.toNat offset 0 (by simpa using offsetBelow)
  rw [UInt64.toNat_zero, Nat.zero_add] at dropped'_eq
  simp only [flushed, Option.map_some]
  unfold Instance.skipGap
  split_ifs with outside
  · have large := UInt64.le_iff_toNat_le.mp outside
    have allRounds : passed = windowSize.toNat := by omega
    subst allRounds
    have gap_eq : (offset' - windowSize + 1).toNat = offset'.toNat - windowSize.toNat + 1 := by
      rw [UInt64.toNat_add, UInt64.toNat_sub_of_le _ _ outside, UInt64.toNat_one]
      omega
    have jumped := represents'.jump powerOfTwo represents.bounded (offset' - windowSize + 1)
    have gapMissing : missing received (base + windowSize.toNat)
        (base + (offset.toNat + 1 - windowSize.toNat)) = (offset' - windowSize + 1).toNat := by
      rw [missing_eq_length]
      · omega
      · intro number behind _ present
        have small := represents.bounded number present
        omega
    have sameBase : base + windowSize.toNat +
        (offset' - windowSize + 1).toNat = base + (offset.toNat + 1 - windowSize.toNat) := by omega
    refine ⟨_, _, _, rfl, ?_, ?_, ?_⟩
    · rwa [sameBase] at jumped
    · have gap_le : offset' - windowSize + 1 ≤ offset' := by
        rw [UInt64.le_iff_toNat_le]
        omega
      rw [UInt64.toNat_sub_of_le _ _ gap_le]
      omega
    · have total := missing_add received (Nat.le_add_right base
        windowSize.toNat) (show base + windowSize.toNat ≤
          base + (offset.toNat + 1 - windowSize.toNat) by omega)
      have bound := missing_le received base (base + (offset.toNat + 1 - windowSize.toNat))
      rw [UInt64.toNat_add, dropped'_eq, ← gapMissing, total]
      omega
  · have fits : offset'.toNat < windowSize.toNat := by
      rw [UInt64.le_iff_toNat_le] at outside
      omega
    have allPassed : passed = offset.toNat + 1 - windowSize.toNat := by omega
    rw [← allPassed]
    exact ⟨inst', offset', dropped', rfl, represents', offset'_eq, dropped'_eq⟩

theorem scanBack (enough : k < fuel)
    (isIndex : i.toNat = (inst.cacheStartIndex.toNat + k) % windowSize.toNat) :
    inst.scanBack windowSize fuel i = some () := by
  have start_lt := represents.visible.start_lt
  have length_eq := represents.length_eq
  induction fuel generalizing k i with
  | zero => omega
  | succ fuel ih =>
    unfold Instance.scanBack
    by_cases atStart : i = inst.cacheStartIndex
    · rw [if_neg (not_not_intro atStart)]
    · rw [if_pos atStart]
      cases k with
      | zero =>
        rw [Nat.add_zero, Nat.mod_eq_of_lt (by omega)] at isIndex
        exact absurd (UInt64.toNat_inj.mp isIndex) atStart
      | succ k =>
        have isPrevious := powerOfTwo.toNat_pred_mask isIndex
        have inRange : ((i - 1) &&& (windowSize - 1)).toNat < inst.cache.length := by
          rw [isPrevious, length_eq]
          exact Nat.mod_lt _ powerOfTwo.positive
        simp only [List.getElem?_eq_getElem inRange, some_bind]
        split
        · rfl
        · exact ih (by omega) isPrevious

theorem setFlag (inside : offset.toNat < windowSize.toNat) :
    ∃ inst', inst.setFlag windowSize offset = some inst' ∧
      Represents windowSize inst' base (insert (base + offset.toNat) received) := by
  have length_eq := represents.length_eq
  have isCurrent := powerOfTwo.toNat_add_mask inst.cacheStartIndex offset
  have inRange : ((inst.cacheStartIndex + offset) &&&
      (windowSize - 1)).toNat < inst.cache.length := by
    rw [isCurrent, length_eq]
    exact Nat.mod_lt _ powerOfTwo.positive
  set flagged : Instance :=
    { inst with
      cache := inst.cache.set ((inst.cacheStartIndex + offset) &&& (windowSize - 1)).toNat true }
    with isFlagged
  have represents' : Represents windowSize flagged base
      (insert (base + offset.toNat) received) := by
    refine ⟨represents.seq_eq, ?_, ?_, ?_⟩
    · simp only [isFlagged, List.length_set, length_eq]
    · simp only [isFlagged, isCurrent, ← length_eq]
      apply Shows.congr (represents.visible.write (by omega) true)
      intro k below
      by_cases same : k = offset.toNat <;> simp [same]
    · intro number present
      rcases Finset.mem_insert.mp present with rfl | old
      · omega
      · exact represents.bounded number old
  refine ⟨flagged, ?_, represents'⟩
  have ended := represents'.scanBack powerOfTwo inside isCurrent
  unfold Instance.setFlag
  simp only [if_pos inRange, ← isFlagged, ended, some_bind]

/-- The last loop moves over received numbers only. -/
theorem flushReceived (rounds : Nat) :
    ∃ inst' base', Instance.flushReceived windowSize rounds inst = some inst' ∧
      Represents windowSize inst' base' received ∧ base ≤ base' ∧
      (0 < rounds -> base ∈ received -> base < base') ∧
      ∀ number, base ≤ number -> number < base' -> number ∈ received := by
  induction rounds generalizing inst base with
  | zero =>
    refine ⟨inst, base, rfl, represents, Nat.le_refl base, ?_, ?_⟩
    · intro none
      exact absurd none (Nat.lt_irrefl 0)
    · intro number lower upper
      omega
  | succ rounds ih =>
    simp only [Instance.flushReceived, represents.first, some_bind, decide_eq_true_eq]
    split_ifs with present
    · obtain ⟨inst', base', flushed, represents', lower, _, passed⟩ :=
        ih (represents.moveOn powerOfTwo)
      refine ⟨inst', base', flushed, represents', by omega, fun _ _ => lower, ?_⟩
      intro number atLeast below
      by_cases isBase : number = base
      · rw [isBase]
        exact present
      · exact passed number (by omega) below
    · refine ⟨inst, base, rfl, represents, Nat.le_refl base, ?_, ?_⟩
      · intro _ isPresent
        exact absurd isPresent present
      · intro number lower upper
        omega

/-- A number from the base on is received, the window moves, and the count is
that of the missing numbers passed. -/
theorem receive (numbers : ∀ number ∈ received, number < 18446744073709551616)
    (notBefore : base ≤ seq.toNat) (started : 0 < base ∨ base = seq.toNat) (timestamp : UInt32) :
    ∃ inst' base' dropped, inst.receive windowSize seq timestamp = some (inst', dropped) ∧
      Represents windowSize inst' base' (insert seq.toNat received) ∧
      base ≤ base' ∧ 0 < base' ∧ base' ≤ 18446744073709551616 ∧
      dropped.toNat = missing (insert seq.toNat received) base base' := by
  have seqBelow := seq.toNat_lt
  have positive := powerOfTwo.positive
  obtain ⟨timed, isTimed, represents, sameSeq⟩ : ∃ timed : Instance,
      (if inst.maxTimestamp < timestamp then
        { inst with maxTimestamp := timestamp } else inst) = timed ∧
      Represents windowSize timed base received ∧ timed.seq = inst.seq := by
    split
    · exact ⟨_, rfl, represents.setTimestamp timestamp, rfl⟩
    · exact ⟨_, rfl, represents, rfl⟩
  have seq_eq : timed.seq.toNat = base := by
    rw [represents.seq_eq]
    omega
  have offset_eq : (seq - timed.seq).toNat = seq.toNat - base := by
    rw [UInt64.toNat_sub_of_le, seq_eq]
    rw [UInt64.le_iff_toNat_le, seq_eq]
    exact notBefore
  obtain ⟨flushed, offset, dropped, isFlushed, represents', isOffset,
    isDropped⟩ := represents.flushBefore powerOfTwo (seq - timed.seq)
  obtain ⟨⟨looped, loopOffset, loopDropped⟩, isLooped, isSkipped⟩ :=
    Option.map_eq_some_iff.mp isFlushed
  simp only at isSkipped
  obtain ⟨flagged, isFlagged, represents''⟩ :=
    represents'.setFlag powerOfTwo (show offset.toNat < _ by omega)
  rw [offset_eq] at represents' represents'' isOffset isDropped
  have isSeq : base + (seq.toNat - base + 1 - windowSize.toNat) +
      offset.toNat = seq.toNat := by omega
  rw [isSeq] at represents''
  obtain ⟨inst', base', isReceived, represents''', lower, moves, passed⟩ :=
    represents''.flushReceived powerOfTwo windowSize.toNat
  refine ⟨inst', base', dropped, ?_, represents''', by omega, ?_, ?_, ?_⟩
  · simp only [Instance.receive, isTimed, isLooped, isSkipped, isFlagged, isReceived, some_bind]
  · rcases started with positiveBase | isSeqBase
    · omega
    · have atSeq : base + (seq.toNat - base + 1 - windowSize.toNat) = seq.toNat := by omega
      have moved := moves positive (by rw [atSeq]; simp)
      omega
  · by_contra large
    have last := passed (base' - 1) (by omega) (by omega)
    rcases Finset.mem_insert.mp last with isSeq | old
    · omega
    · have small := numbers _ old
      omega
  · rw [isDropped, ← missing_add _ (show base ≤
      base + (seq.toNat - base + 1 - windowSize.toNat) by omega) lower,
      missing_eq_zero passed, Nat.add_zero]
    apply missing_congr
    intro number _ below
    have apart : number ≠ seq.toNat := by omega
    simp [apart]

end

end Represents

end Metaflow.Cache
