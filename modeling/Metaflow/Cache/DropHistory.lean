import Metaflow.Cache.DropWindow

/-!
# What drop detection counts

The history of a sender since its last restart: the numbers received, and those
that came in time. In every run the window has the received numbers as flags,
and the count has grown by the passed numbers that had not come in time.
-/

namespace Metaflow.Cache

open Library Finset
open DropDetection
open Instance

/-- A sender since its last restart: the base at that time, the numbers
received, those that came in time, and what was added to the count of dropped
packets. -/
structure History where
  start : Nat
  received : Finset Nat
  inTime : Finset Nat
  dropped : Nat

namespace DropDetection

/-- The call is the first one, starts again with number 1, or has a smaller
number and a later time. -/
def Restarts (d : DropDetection) (id : UInt32) (seq : UInt64) (timestamp : UInt32) : Prop :=
  (d.findAndAdd id).seq = 0 ∨ (seq = 1 ∧ (d.findAndAdd id).seq ≠ 1) ∨
    (seq < (d.findAndAdd id).seq ∧ (d.findAndAdd id).maxTimestamp < timestamp)

instance (d : DropDetection) (id : UInt32) (seq : UInt64)
    (timestamp : UInt32) : Decidable (d.Restarts id seq timestamp) :=
  inferInstanceAs (Decidable (_ ∨ _ ∨ _))

/-- The base that a restart sets. -/
def restartBase (d : DropDetection) (id : UInt32) (seq : UInt64) : Nat :=
  if (d.findAndAdd id).seq = 0 ∨ seq = 1 then seq.toNat
  else if d.windowSize < seq then (seq - d.windowSize).toNat
  else 1

end DropDetection

/-- A detection with the histories of the senders and what was added to the
count since it was read. -/
structure Observed where
  detection : DropDetection
  history : UInt32 -> History
  total : Nat

/-- The calls. -/
inductive Op where
  | detect (id : UInt32) (seq : UInt64) (timestamp : UInt32)
  | getCounter

namespace Observed

def init (windowSize : UInt64) : Observed where
  detection := DropDetection.init windowSize
  history _ := { start := 0, received := ∅, inTime := ∅, dropped := 0 }
  total := 0

/-- The history after a call that adds `dropped` to the count. -/
def record (o : Observed) (id : UInt32) (seq : UInt64) (timestamp : UInt32)
    (dropped : Nat) : History :=
  if o.detection.Restarts id seq timestamp then
    { start := o.detection.restartBase id seq
      received := {seq.toNat}
      inTime := {seq.toNat}
      dropped := dropped }
  else
    { start := (o.history id).start
      received := insert seq.toNat (o.history id).received
      inTime :=
        if (o.detection.findAndAdd id).seq ≤ seq then
          insert seq.toNat (o.history id).inTime
        else (o.history id).inTime
      dropped := (o.history id).dropped + dropped }

def step (o : Observed) : Op -> Option (Observed × Unit)
  | .detect id seq timestamp => do
      let d ← o.detection.detect id seq timestamp
      let dropped := (d.counter.dropped - o.detection.counter.dropped).toNat
      some
        ({ detection := d
           history := Function.update o.history id
             (o.record id seq timestamp dropped)
           total := o.total + dropped }, ())
  | .getCounter =>
    some
      ({ o with
        detection := o.detection.getCounter.1
        total := 0 }, ())

/-- A restart with number 1 finds no flag set, and no restart by time has
number 0. -/
def CleanRestart (o : Observed) : Op -> Prop
  | .detect id seq timestamp =>
    (seq = 1 -> (o.detection.findAndAdd id).seq ≠ 0 -> (o.detection.findAndAdd id).seq ≠ 1 ->
      ∀ flag ∈ (o.detection.findAndAdd id).cache, flag = false) ∧
    (seq = 0 -> (o.detection.findAndAdd id).seq ≠ 0 ->
      timestamp ≤ (o.detection.findAndAdd id).maxTimestamp)
  | .getCounter => True

instance (o : Observed) : DecidablePred o.CleanRestart
  | .detect _ _ _ => inferInstanceAs (Decidable (_ ∧ _))
  | .getCounter => isTrue trivial

end Observed

/-- The flag of the `k`-th number from the base on. -/
def Instance.flag (windowSize : UInt64) (inst : Instance) (k : Nat) : Option Bool :=
  inst.cache[(inst.cacheStartIndex.toNat + k) % windowSize.toNat]?

/-- The window and the history of a sender agree. -/
structure Tracks (windowSize : UInt64) (inst : Instance) (history : History)
    (base : Nat) : Prop where
  represents : Represents windowSize inst base history.inTime
  start_le : history.start ≤ base
  positive : 0 < base
  base_le : base ≤ 18446744073709551616
  numbers : ∀ number ∈ history.received, number < 18446744073709551616
  inTime_subset : history.inTime ⊆ history.received
  late : ∀ number ∈ history.received, number ∉ history.inTime -> number < base
  dropped_eq : history.dropped = missing history.inTime history.start base

namespace Tracks

variable {windowSize : UInt64} {inst : Instance} {history : History}
  {base : Nat}

section

variable (tracks : Tracks windowSize inst history base)
include tracks

theorem seq_eq_zero_iff : inst.seq = 0 ↔ base = 18446744073709551616 := by
  have positive := tracks.positive
  have base_le := tracks.base_le
  rw [← UInt64.toNat_inj, tracks.represents.seq_eq, UInt64.toNat_zero]
  omega

theorem seq_eq (running : inst.seq ≠ 0) : inst.seq.toNat = base := by
  have base_le := tracks.base_le
  have notEnd := mt tracks.seq_eq_zero_iff.mpr running
  rw [tracks.represents.seq_eq]
  omega

/-- At the last base no flag is set. -/
theorem unset_of_seq_eq_zero (ended : inst.seq = 0) : ∀ flag ∈ inst.cache, flag = false := by
  apply tracks.represents.visible.constant
  intro k _
  apply decide_eq_false
  intro present
  have small := tracks.numbers _ (tracks.inTime_subset present)
  have isEnd := tracks.seq_eq_zero_iff.mp ended
  omega

/-- From the base on, received is received in time. -/
theorem mem_received_iff (notBefore : base ≤ number) :
    number ∈ history.received ↔ number ∈ history.inTime := by
  constructor
  · intro present
    by_contra isLate
    have passed := tracks.late number present isLate
    omega
  · intro present
    exact tracks.inTime_subset present

end

variable {seq : UInt64}

/-- The first number of a window without flags. -/
theorem restart (represents : Represents windowSize inst base ∅)
    (powerOfTwo : IsPowerOfTwo windowSize) (notBefore : base ≤ seq.toNat)
    (started : 0 < base ∨ base = seq.toNat) (timestamp : UInt32) :
    ∃ inst' dropped base', inst.receive windowSize seq timestamp = some (inst', dropped) ∧
      Tracks windowSize inst'
        { start := base
          received := {seq.toNat}
          inTime := {seq.toNat}
          dropped := dropped.toNat } base' := by
  obtain ⟨inst', base', dropped, isReceived, represents', lower, positive,
    base_le, dropped_eq⟩ := represents.receive powerOfTwo (by simp) notBefore started timestamp
  rw [insert_empty_eq] at represents' dropped_eq
  refine ⟨inst', dropped, base', isReceived, represents', lower, positive,
    base_le, ?_, fun _ present => present, ?_, dropped_eq⟩
  · intro number present
    rw [mem_singleton.mp present]
    exact seq.toNat_lt
  · intro number present isLate
    exact absurd present isLate

/-- A number from the base on. -/
theorem receive (tracks : Tracks windowSize inst history base)
    (powerOfTwo : IsPowerOfTwo windowSize) (notBefore : base ≤ seq.toNat) (timestamp : UInt32) :
    ∃ inst' dropped base', inst.receive windowSize seq timestamp = some (inst', dropped) ∧
      Tracks windowSize inst'
        { start := history.start
          received := insert seq.toNat history.received
          inTime := insert seq.toNat history.inTime
          dropped := history.dropped + dropped.toNat } base' := by
  obtain ⟨inst', base', dropped, isReceived, represents', lower, positive,
    base_le, dropped_eq⟩ := tracks.represents.receive powerOfTwo
      (fun number present =>
        tracks.numbers number (tracks.inTime_subset present))
      notBefore (Or.inl tracks.positive) timestamp
  refine ⟨inst', dropped, base', isReceived, represents', ?_, positive, base_le, ?_, ?_, ?_, ?_⟩
  · exact Nat.le_trans tracks.start_le lower
  · intro number present
    rcases mem_insert.mp present with rfl | old
    · exact seq.toNat_lt
    · exact tracks.numbers number old
  · exact insert_subset_insert _ tracks.inTime_subset
  · intro number present isLate
    have notSeq : number ≠ seq.toNat := fun same =>
      isLate (by rw [same]; exact mem_insert_self _ _)
    have old := mem_of_mem_insert_of_ne present notSeq
    have passed := tracks.late number old fun isOld => isLate (mem_insert_of_mem isOld)
    omega
  · have unchanged : missing (insert seq.toNat history.inTime)
        history.start base = history.dropped := by
      rw [tracks.dropped_eq]
      apply missing_congr
      intro number _ below
      have notSeq : number ≠ seq.toNat := by omega
      simp [notSeq]
    change history.dropped + dropped.toNat =
      missing (insert seq.toNat history.inTime) history.start base'
    rw [← missing_add _ tracks.start_le lower, ← dropped_eq, unchanged]

theorem disorder (tracks : Tracks windowSize inst history base) (before : seq.toNat < base) :
    Tracks windowSize inst
      { start := history.start
        received := insert seq.toNat history.received
        inTime := history.inTime
        dropped := history.dropped + 0 } base := by
  refine ⟨tracks.represents, tracks.start_le, tracks.positive,
    tracks.base_le, ?_, ?_, ?_, tracks.dropped_eq⟩
  · intro number present
    rcases mem_insert.mp present with rfl | old
    · exact seq.toNat_lt
    · exact tracks.numbers number old
  · exact tracks.inTime_subset.trans (subset_insert _ _)
  · intro number present isLate
    rcases mem_insert.mp present with rfl | old
    · exact before
    · exact tracks.late number old isLate

end Tracks

/-- Every window agrees with its history, and the counter is the sum of what
has been added to it. -/
structure Observed.Consistent (windowSize : UInt64) (o : Observed) : Prop where
  windowSize_eq : o.detection.windowSize = windowSize
  total_eq : o.detection.counter.dropped.toNat = o.total % 18446744073709551616
  tracks : ∀ id inst, o.detection.instances id = some inst ->
    ∃ base, Tracks windowSize inst (o.history id) base

/-- A call that leads to a consistent state. -/
def Observed.Keeps (windowSize : UInt64) (o : Observed) (operation : Op) : Prop :=
  ∃ o' answer, o.step operation = some (o', answer) ∧ Consistent windowSize o'

namespace Observed.Consistent

variable {windowSize : UInt64}

section

variable (consistent : Consistent windowSize o)
include consistent

/-- The window of every sender has its length, and none of a sender that is to
start has a flag set. -/
theorem findAndAdd (powerOfTwo : IsPowerOfTwo windowSize) (id : UInt32) :
    (o.detection.findAndAdd id).cache.length = windowSize.toNat ∧
      (o.detection.findAndAdd id).cacheStartIndex.toNat < windowSize.toNat ∧
      ((o.detection.findAndAdd id).seq = 0 ->
        ∀ flag ∈ (o.detection.findAndAdd id).cache, flag = false) ∧
      ((o.detection.findAndAdd id).seq ≠ 0 ->
        ∃ base, Tracks windowSize (o.detection.findAndAdd id) (o.history id) base) := by
  unfold DropDetection.findAndAdd
  cases found : o.detection.instances id with
  | none =>
    simp only [Option.getD_none, new, consistent.windowSize_eq]
    refine ⟨List.length_replicate, powerOfTwo.positive, ?_, ?_⟩
    · intro _ flag present
      exact List.eq_of_mem_replicate present
    · intro running
      exact absurd rfl running
  | some inst =>
    obtain ⟨base, tracks⟩ := consistent.tracks id inst found
    have length_eq := tracks.represents.length_eq
    refine ⟨length_eq, ?_, tracks.unset_of_seq_eq_zero, fun _ => ⟨base, tracks⟩⟩
    rw [← length_eq]
    exact tracks.represents.visible.start_lt

variable (id : UInt32) (seq : UInt64) (timestamp : UInt32)

/-- What a call stores keeps the state consistent. -/
theorem store {d : DropDetection} (detected : o.detection.detect id seq timestamp = some d)
    (windowSize_eq : d.windowSize = windowSize)
    (instances_eq : d.instances = Function.update o.detection.instances id (some inst))
    (counter_eq : d.counter.dropped = o.detection.counter.dropped + dropped)
    (tracks : Tracks windowSize inst (o.record id seq timestamp dropped.toNat) base) :
    Keeps windowSize o (.detect id seq timestamp) := by
  have added : d.counter.dropped - o.detection.counter.dropped = dropped := by
    rw [counter_eq, UInt64.add_comm, UInt64.add_sub_cancel]
  refine ⟨{ detection := d
            history := Function.update o.history id (o.record id seq timestamp dropped.toNat)
            total := o.total + dropped.toNat }, (), ?_, windowSize_eq, ?_, ?_⟩
  · simp only [Observed.step, detected, some_bind, added]
  · have total_eq := consistent.total_eq
    simp only [counter_eq, UInt64.toNat_add]
    omega
  · intro other inst' found
    simp only [instances_eq] at found ⊢
    by_cases same : other = id
    · subst same
      rw [Function.update_self] at found ⊢
      obtain rfl := Option.some.inj found
      exact ⟨base, tracks⟩
    · rw [Function.update_of_ne same] at found ⊢
      exact consistent.tracks other inst' found

/-- A call that is not before the base after `Detect` has set up the window. -/
theorem storeReceived {inst inst' : Instance}
    (detected : o.detection.detect id seq timestamp =
      (inst.receive windowSize seq timestamp).map fun (inst, dropped) =>
        o.detection.store id inst dropped)
    (received : inst.receive windowSize seq timestamp = some (inst', dropped))
    (tracks : Tracks windowSize inst' (o.record id seq timestamp dropped.toNat) base) :
    Keeps windowSize o (.detect id seq timestamp) := by
  rw [received, Option.map_some] at detected
  exact consistent.store id seq timestamp detected consistent.windowSize_eq
    rfl rfl tracks

end

variable {seq : UInt64}

variable (consistent : Consistent windowSize o)
include consistent

variable (powerOfTwo : IsPowerOfTwo windowSize)
include powerOfTwo

variable {id : UInt32}

theorem detect_first (restarts : o.detection.Restarts id seq timestamp)
    (first : (o.detection.findAndAdd id).seq = 0 ∨ seq = 1)
    (unset : ∀ flag ∈ (o.detection.findAndAdd id).cache, flag = false) :
    Keeps windowSize o (.detect id seq timestamp) := by
  obtain ⟨length_eq, start_lt, _⟩ := consistent.findAndAdd powerOfTwo id
  have windowSize_eq := consistent.windowSize_eq
  set inst : Instance := { o.detection.findAndAdd id with seq := seq } with isInst
  have represents : Represents windowSize inst seq.toNat ∅ :=
    represents_empty length_eq start_lt unset
  obtain ⟨inst', dropped, base, received, tracks⟩ := Tracks.restart represents
    powerOfTwo (Nat.le_refl _) (Or.inr rfl) timestamp
  apply consistent.storeReceived id seq timestamp ?_ received
  · simpa only [Observed.record, if_pos restarts, restartBase,
      if_pos first] using tracks
  · simp only [detect, setFirst, if_pos first, ← isInst, windowSize_eq]
    rw [if_neg (show ¬ seq < inst.seq from UInt64.lt_irrefl seq), received]
    rfl

/-- A smaller number with a later time. -/
theorem detect_reset (restarts : o.detection.Restarts id seq timestamp)
    (notFirst : ¬ ((o.detection.findAndAdd id).seq = 0 ∨ seq = 1))
    (before : seq < (o.detection.findAndAdd id).seq)
    (later : (o.detection.findAndAdd id).maxTimestamp < timestamp) (notZero : seq ≠ 0) :
    Keeps windowSize o (.detect id seq timestamp) := by
  obtain ⟨length_eq, _⟩ := consistent.findAndAdd powerOfTwo id
  have windowSize_eq := consistent.windowSize_eq
  set inst : Instance := (o.detection.findAndAdd id).reset windowSize seq with isInst
  have represents : Represents windowSize inst inst.seq.toNat ∅ := by
    apply represents_empty
    · simp [isInst, reset, length_eq]
    · exact powerOfTwo.positive
    · simp [isInst, reset]
  have positive : 0 < seq.toNat :=
    Nat.pos_of_ne_zero (fun isZero => notZero (UInt64.toNat_inj.mp isZero))
  have base_eq : inst.seq.toNat = o.detection.restartBase id seq ∧
      inst.seq.toNat ≤ seq.toNat ∧ 0 < inst.seq.toNat := by
    simp only [isInst, reset, restartBase, if_neg notFirst, windowSize_eq]
    split
    · next large =>
        have large := UInt64.lt_iff_toNat_lt.mp large
        rw [UInt64.toNat_sub_of_le _ _ (UInt64.le_iff_toNat_le.mpr (Nat.le_of_lt large))]
        omega
    · exact ⟨rfl, positive, Nat.one_pos⟩
  obtain ⟨sameBase, notBefore, started⟩ := base_eq
  obtain ⟨inst', dropped, base, received, tracks⟩ := Tracks.restart represents
    powerOfTwo notBefore (Or.inl started) timestamp
  apply consistent.storeReceived id seq timestamp ?_ received
  · rw [sameBase] at tracks
    simpa only [Observed.record, if_pos restarts] using tracks
  · simp only [detect, setFirst, if_neg notFirst,
      if_pos before, if_pos later, windowSize_eq, ← isInst, received]
    rfl

theorem detect_running (continues : ¬ o.detection.Restarts id seq timestamp) :
    Keeps windowSize o (.detect id seq timestamp) := by
  obtain ⟨_, _, _, isTracked⟩ := consistent.findAndAdd powerOfTwo id
  have windowSize_eq := consistent.windowSize_eq
  have noRestart := continues
  unfold Restarts at noRestart
  simp only [not_or, not_and_or, not_not] at noRestart
  obtain ⟨running, notFirst, notLater⟩ := noRestart
  obtain ⟨base, tracks⟩ := isTracked running
  have seq_eq := tracks.seq_eq running
  have setFirst_eq : (o.detection.findAndAdd id).setFirst seq = o.detection.findAndAdd id := by
    unfold setFirst
    split
    · next first =>
        rcases first with isZero | isOne
        · exact absurd isZero running
        · have same : (o.detection.findAndAdd id).seq = seq := by
            rcases notFirst with notOne | atOne
            · exact absurd isOne notOne
            · rw [atOne, isOne]
          rw [← same]
    · rfl
  by_cases before : seq < (o.detection.findAndAdd id).seq
  · have before' := UInt64.lt_iff_toNat_lt.mp before
    have notLater := notLater.resolve_left (not_not_intro before)
    have detected : o.detection.detect id seq timestamp =
        some (o.detection.countDisorder id (o.detection.findAndAdd id) seq) :=
      by simp only [detect, setFirst_eq, if_pos before, if_neg notLater]
    have isLate : ¬ (o.detection.findAndAdd id).seq ≤ seq := UInt64.not_le.mpr before
    have tracks' : Tracks windowSize (o.detection.findAndAdd id)
        (o.record id seq timestamp (0 : UInt64).toNat) base := by
      simpa only [Observed.record, if_neg continues, if_neg isLate, UInt64.toNat_zero] using
        tracks.disorder (show seq.toNat < base by omega)
    exact consistent.store id seq timestamp detected windowSize_eq rfl
      (UInt64.add_zero _).symm tracks'
  · have inTime : (o.detection.findAndAdd id).seq ≤ seq := UInt64.not_lt.mp before
    have notBefore := UInt64.le_iff_toNat_le.mp inTime
    obtain ⟨inst', dropped, base', received, tracks'⟩ :=
      tracks.receive powerOfTwo (show base ≤ seq.toNat by omega) timestamp
    apply consistent.storeReceived id seq timestamp ?_ received
    · simpa only [Observed.record, if_neg continues, if_pos inTime] using tracks'
    · simp only [detect, setFirst_eq, if_neg before, windowSize_eq, received]
      rfl

/-- Every call whose restart is clean keeps the state consistent. -/
theorem step (operation : Op) (clean : o.CleanRestart operation) :
    Keeps windowSize o operation := by
  cases operation with
  | getCounter => exact ⟨_, (), rfl, consistent.windowSize_eq, rfl, consistent.tracks⟩
  | detect id seq timestamp =>
    obtain ⟨cleanFirst, cleanReset⟩ := clean
    obtain ⟨_, _, unset, _⟩ := consistent.findAndAdd powerOfTwo id
    by_cases restarts : o.detection.Restarts id seq timestamp
    · by_cases first : (o.detection.findAndAdd id).seq = 0 ∨ seq = 1
      · apply consistent.detect_first powerOfTwo restarts first
        by_cases isZero : (o.detection.findAndAdd id).seq = 0
        · exact unset isZero
        · rcases restarts with isZero' | ⟨isOne, notOne⟩ | ⟨before, _⟩
          · exact absurd isZero' isZero
          · exact cleanFirst isOne isZero notOne
          · have isOne := first.resolve_left isZero
            refine cleanFirst isOne isZero fun atOne => ?_
            rw [isOne, atOne] at before
            exact UInt64.lt_irrefl 1 before
      · have running := (not_or.mp first).1
        rcases restarts with isZero | ⟨isOne, _⟩ | ⟨before, later⟩
        · exact absurd isZero running
        · exact absurd isOne (not_or.mp first).2
        · apply consistent.detect_reset powerOfTwo
            (Or.inr (Or.inr ⟨before, later⟩)) first before later
          intro isZero
          exact absurd later (UInt32.not_lt.mpr (cleanReset isZero running))
    · exact consistent.detect_running powerOfTwo restarts

end Observed.Consistent

namespace Observed

/-- In every run whose restarts are clean, flag `k` of a window says whether
number `base + k` has been received since the last restart, and the calls since
then have added the numbers that the window has passed and that had not come in
time. The counter is the sum of what was added since it was read. -/
theorem run_describes_window (windowSize : UInt64) (powerOfTwo : IsPowerOfTwo windowSize)
    (operations : List Op) (clean : Guarded CleanRestart step (init windowSize) operations) :
    ∃ final answers, runSteps step (init windowSize) operations = some (final, answers) ∧
      final.detection.counter.dropped.toNat = final.total % 18446744073709551616 ∧
      ∀ id inst, final.detection.instances id = some inst ->
        ∃ base, inst.seq.toNat = base % 18446744073709551616 ∧ (final.history id).start ≤ base ∧
          base ≤ 18446744073709551616 ∧
          (∀ k < windowSize.toNat, inst.flag windowSize k =
            some (decide (base + k ∈ (final.history id).received))) ∧
          (final.history id).dropped = missing (final.history id).inTime
            (final.history id).start base := by
  have initially : Consistent windowSize (init windowSize) := by
    refine ⟨rfl, rfl, ?_⟩
    intro id inst found
    cases found
  obtain ⟨final, answers, ran, consistent⟩ := runSteps_of_invariant
    (fun _ operation consistent clean =>
      Consistent.step consistent powerOfTwo operation clean)
    initially operations clean
  refine ⟨final, answers, ran, consistent.total_eq, ?_⟩
  intro id inst found
  obtain ⟨base, tracks⟩ := consistent.tracks id inst found
  refine ⟨base, tracks.represents.seq_eq, tracks.start_le, tracks.base_le, ?_, tracks.dropped_eq⟩
  intro k below
  have length_eq := tracks.represents.length_eq
  have read := tracks.represents.visible.reads k (by omega)
  rw [length_eq] at read
  rw [flag, read]
  simp only [tracks.mem_received_iff (Nat.le_add_right base k)]

theorem run_describes_window_five :
    ∃ final answers,
      runSteps step (init 64) [.detect 2 1 1, .detect 2 3 3, .detect 2 4 4,
        .detect 2 69 69, .detect 2 2 2] = some (final, answers) ∧
      final.detection.counter.dropped.toNat = final.total % 18446744073709551616 ∧
      ∀ id inst, final.detection.instances id = some inst ->
        ∃ base, inst.seq.toNat = base % 18446744073709551616 ∧ (final.history id).start ≤ base ∧
          base ≤ 18446744073709551616 ∧
          (∀ k < 64, inst.flag 64 k = some (decide (base + k ∈ (final.history id).received))) ∧
          (final.history id).dropped = missing (final.history id).inTime
            (final.history id).start base :=
  run_describes_window 64 ⟨6, rfl⟩ _ (by decide +kernel)

/-- The packets 1, 3, 4, 69, 2: only 5 was never received, but 2 packets are
counted as dropped. -/
theorem late_packet_stays_dropped :
    ∃ final answers,
      runSteps step (init 64) [.detect 2 1 1, .detect 2 3 3, .detect 2 4 4,
        .detect 2 69 69, .detect 2 2 2] = some (final, answers) ∧
      (final.detection.instances 2).map Instance.seq = some 6 ∧
      (final.history 2).start = 1 ∧
      missing (final.history 2).received 1 6 = 1 ∧
      final.detection.counter.dropped = 2 := by
  have ran : (runSteps step (init 64) [.detect 2 1 1, .detect 2 3 3,
      .detect 2 4 4, .detect 2 69 69, .detect 2 2 2]).map
        (fun (final, _) =>
          ((final.detection.instances 2).map seq, (final.history 2).start,
            missing (final.history 2).received 1 6,
            final.detection.counter.dropped)) =
      some (some 6, 1, 1, 2) := by
    decide +kernel
  obtain ⟨⟨final, answers⟩, isFinal, same⟩ := Option.map_eq_some_iff.mp ran
  simp only [Prod.mk.injEq] at same
  exact ⟨final, answers, isFinal, same⟩

end Observed

end Metaflow.Cache
