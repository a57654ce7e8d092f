import Metaflow.Library.DashMapOps
import Metaflow.Library.Run

/-!
# The files of the pcap worker

`write_pkt` and `clean_timeout_file` of `pcap/worker.rs`. The counters of a
writer are reset behind every packet, so what is compared with the largest size
is always zero. A file is closed while the reference to its writer is alive,
which never returns.
-/

namespace Metaflow.Pcap

open Library

/-- The limits of a worker; times are nanoseconds. -/
structure WorkerConfig where
  maxConcurrentFiles : Nat
  maxFileSize : Nat
  maxFilePeriod : Nat

/-- What a worker reads of a packet. -/
structure Packet where
  timestamp : Nat
  tapType : BitVec 16
  aclGid : BitVec 16
  dispatcherId : BitVec 32
  rawPkt : List UInt8

/-- A writer with the size of its file, and how much of that was there or is of
the first second. -/
structure Writer where
  writtenBytes : Nat := 0
  firstPktTime : Nat
  fileSize : Nat
  earlySize : Nat
  deriving DecidableEq

/-- The size of the file that is opened, unless that fails, and the bytes that
are written if writing fails. -/
structure Files where
  opened : Option Nat := some 0
  failed : Option Nat := none

/-- What the loop of a worker meets: a packet, or a timeout with the time of the
clock. -/
inductive Event where
  | packet (files : Files) (packet : Packet)
  | timeout (now : Nat)

/-- The key of the writer of a packet. -/
def getWriterKey (packet : Packet) : BitVec 64 :=
  packet.dispatcherId.setWidth 64 <<< 32 ||| packet.aclGid.setWidth 64 <<< 16 |||
    packet.tapType.setWidth 64

/-- The difference of the times panics if the packet is the earlier one. -/
def shouldCloseFile (pktTimestamp : Nat) (writer : Writer) (config : WorkerConfig) : Option Bool :=
  if pktTimestamp < writer.firstPktTime then none
  else
    let age := pktTimestamp - writer.firstPktTime
    some (1000000000 < age && config.maxFileSize ≤ writer.writtenBytes % 4294967296 ||
      config.maxFilePeriod < age)

namespace Writer

/-- A new file begins with a header of 13 bytes. -/
def new (pktTimestamp size : Nat) : Writer :=
  let size := if size = 0 then 13 else size
  { firstPktTime := pktTimestamp, fileSize := size, earlySize := size }

/-- Bytes that reach the file for a packet. -/
def grow (writer : Writer) (packet : Packet) (bytes : Nat) : Writer :=
  { writer with
    fileSize := writer.fileSize + bytes
    earlySize := writer.earlySize +
      if packet.timestamp ≤ writer.firstPktTime + 1000000000 then bytes else 0 }

/-- A record header of 12 bytes, which counts as 16, and the packet. -/
def write (writer : Writer) (packet : Packet) : Writer :=
  { writer.grow packet (12 + packet.rawPkt.length) with
    writtenBytes := writer.writtenBytes + (16 + packet.rawPkt.length) }

/-- The writer behind `get_and_reset_stats`. -/
def resetStats (writer : Writer) : Writer :=
  { writer with writtenBytes := 0 }

/-- The writer behind a packet; the counters are taken if writing succeeds. -/
def record (writer : Writer) (files : Files) (packet : Packet) : Writer :=
  match files.failed with
  | none => (writer.write packet).resetStats
  | some bytes => writer.grow packet bytes

end Writer

section Model

variable {C : Type} (ops : DashMapOps (BitVec 64) Writer C) (config : WorkerConfig)

/-- The file of a packet is closed if it is time for that. -/
def closeFile (packet : Packet) (writers : C) : Option C :=
  match ops.get writers (getWriterKey packet) with
  | none => some writers
  | some writer => do
    if <- shouldCloseFile packet.timestamp writer config then
      (ops.removeHolding writers (getWriterKey packet) (getWriterKey packet)).map Prod.snd
    else some writers

/-- A file is opened for a packet that has none; `none` if there are too many
files or that fails. -/
def openFile (files : Files) (packet : Packet) (writers : C) : Option C :=
  if (ops.get writers (getWriterKey packet)).isSome then some writers
  else if config.maxConcurrentFiles ≤ ops.len writers % 4294967296 then none
  else files.opened.map fun size =>
    ops.insert writers (getWriterKey packet) (.new packet.timestamp size)

/-- A packet is written to its file. -/
def writePkt (files : Files) (packet : Packet) (writers : C) : Option C := do
  let writers <- closeFile ops config packet writers
  match openFile ops config files packet writers with
  | none => return writers
  | some writers =>
    let writer <- ops.get writers (getWriterKey packet)
    return ops.set writers (getWriterKey packet) (writer.record files packet)

/-- The files whose period is over are closed. -/
def cleanTimeoutFile (now : Nat) (writers : C) : Option C :=
  (ops.iter writers).foldlM (fun current (key, writer) =>
    if now < writer.firstPktTime then none
    else if config.maxFilePeriod < now - writer.firstPktTime then
      (ops.removeHolding current key key).map Prod.snd
    else some current) writers

/-- A round of the loop of a worker. -/
def step (writers : C) : Event -> Option (C × Unit)
  | .packet files packet => (writePkt ops config files packet writers).map (·, ())
  | .timeout now => (cleanTimeoutFile ops config now writers).map (·, ())

/-- A packet arrives for a file that is older than a second and holds at least
the largest size. -/
def Due (writers : C) : Event -> Prop
  | .packet _ packet => ∃ writer, ops.get writers (getWriterKey packet) = some writer ∧
      writer.firstPktTime + 1000000000 < packet.timestamp ∧ config.maxFileSize ≤ writer.fileSize
  | .timeout _ => False

instance (writers : C) (event : Event) : Decidable (Due ops config writers event) :=
  match event with
  | .packet _ packet => inferInstanceAs (Decidable (∃ writer,
      writer ∈ ops.get writers (getWriterKey packet) ∧
        writer.firstPktTime + 1000000000 < packet.timestamp ∧
        config.maxFileSize ≤ writer.fileSize))
  | .timeout _ => inferInstanceAs (Decidable False)

/-- A packet is written and its file is one that begins with it. -/
def Switches (writers : C) : Event -> Prop
  | .packet files packet => ∃ after writer, writePkt ops config files packet writers = some after ∧
      ops.get after (getWriterKey packet) = some writer ∧ writer.firstPktTime = packet.timestamp
  | .timeout _ => True

end Model

variable {C : Type} {ops : DashMapOps (BitVec 64) Writer C} {config : WorkerConfig}
  {writers after : C} {files : Files} {packet : Packet} {writer : Writer}

section Writing

variable (lawful : ops.Lawful)
include lawful

/-- A packet is written to the file that there is, or nothing returns. -/
theorem writePkt_of_found (found : ops.get writers (getWriterKey packet) = some writer) :
    writePkt ops config files packet writers =
      (shouldCloseFile packet.timestamp writer config).bind fun closes =>
        if closes then none
        else some (ops.set writers (getWriterKey packet) (writer.record files packet)) := by
  have blocks := lawful.removeHolding_self writers _ (Option.isSome_of_eq_some found)
  simp only [writePkt, closeFile, found, blocks, Option.bind_eq_bind, Option.map_none]
  cases shouldCloseFile packet.timestamp writer config with
  | none => rfl
  | some closes =>
    cases closes with
    | true => rfl
    | false => simp [openFile, found]

/-- Without a file, one may be opened for the packet. -/
theorem writePkt_of_missing (missing : ops.get writers (getWriterKey packet) = none)
    (isAfter : writePkt ops config files packet writers = some after) :
    after = writers ∨ ∃ size, after =
      ops.set (ops.insert writers (getWriterKey packet) (.new packet.timestamp size))
        (getWriterKey packet) ((Writer.new packet.timestamp size).record files packet) := by
  simp only [writePkt, closeFile, missing, Option.bind_eq_bind, Option.bind_some] at isAfter
  split at isAfter
  · exact .inl (Option.some.inj isAfter).symm
  · rename_i opened isOpened
    simp only [openFile, missing, Option.isSome_none, Bool.false_eq_true, if_false] at isOpened
    split_ifs at isOpened
    obtain ⟨size, -, rfl⟩ := Option.map_eq_some_iff.mp isOpened
    simp only [lawful.get_insert_self, Option.bind_some] at isAfter
    exact .inr ⟨size, (Option.some.inj isAfter).symm⟩

/-- What a packet does: nothing, or it is recorded by the writer that there is
or by a new one. -/
theorem writePkt_eq_some (isAfter : writePkt ops config files packet writers = some after) :
    after = writers ∨ ∃ writer,
      (ops.get writers (getWriterKey packet) = some writer ∨
        ∃ size, writer = .new packet.timestamp size) ∧
      ops.get after (getWriterKey packet) = some (writer.record files packet) ∧
      ∀ other, other ≠ getWriterKey packet -> ops.get after other = ops.get writers other := by
  cases found : ops.get writers (getWriterKey packet) with
  | none =>
    rcases writePkt_of_missing lawful found isAfter with unchanged | ⟨size, rfl⟩
    · exact .inl unchanged
    · refine .inr ⟨_, .inr ⟨size, rfl⟩, ?_, fun other different => ?_⟩
      · exact lawful.get_set_self _ _ _ (by simp [lawful.get_insert_self])
      · rw [lawful.get_set_of_ne _ _ _ _ different, lawful.get_insert_of_ne _ _ _ _ different]
  | some writer =>
    rw [writePkt_of_found lawful found] at isAfter
    obtain ⟨closes, -, isSet⟩ := Option.bind_eq_some_iff.mp isAfter
    split_ifs at isSet
    rw [← Option.some.inj isSet]
    refine .inr ⟨writer, .inl rfl, ?_, fun other different => ?_⟩
    · exact lawful.get_set_self _ _ _ (Option.isSome_of_eq_some found)
    · exact lawful.get_set_of_ne _ _ _ _ different

/-- A timeout changes nothing if it returns. -/
theorem cleanTimeoutFile_eq_some (isAfter : cleanTimeoutFile ops config now writers = some after) :
    after = writers := by
  rw [cleanTimeoutFile] at isAfter
  have isFound := lawful.get_of_mem_iter writers
  generalize ops.iter writers = entries at isAfter isFound
  induction entries with
  | nil => exact (Option.some.inj isAfter).symm
  | cons entry entries ih =>
    rw [List.forall_mem_cons] at isFound
    have blocks := lawful.removeHolding_self writers _ (Option.isSome_of_eq_some isFound.1)
    rw [List.foldlM_cons] at isAfter
    obtain ⟨next, isNext, remaining⟩ := Option.bind_eq_some_iff.mp isAfter
    simp only [blocks, Option.map_none] at isNext
    split_ifs at isNext
    rw [← Option.some.inj isNext] at remaining
    exact ih remaining isFound.2

/-- What every packet keeps of the writers is kept by every round. -/
theorem holds_of_step {property : Writer -> Prop} (holds : ops.Holds writers property)
    (opens : ∀ time size, property (.new time size))
    (keeps : ∀ files packet, event = .packet files packet -> ∀ writer, property writer ->
      (ops.get writers (getWriterKey packet) = some writer ∨
        ∃ size, writer = .new packet.timestamp size) -> property (writer.record files packet))
    (isAfter : step ops config writers event = some (after, answer)) :
    ops.Holds after property := by
  cases event with
  | packet files packet =>
    obtain ⟨written, isWritten, same⟩ := Option.map_eq_some_iff.mp isAfter
    obtain rfl : written = after := (Prod.mk.inj same).1
    rcases writePkt_eq_some lawful isWritten with rfl | ⟨writer, origin, isRecord, others⟩
    · exact holds
    · have isKnown : property writer := by
        rcases origin with found | ⟨size, rfl⟩
        · exact holds _ _ found
        · exact opens _ _
      exact holds.write (keeps files packet rfl writer isKnown origin) isRecord others
  | timeout now =>
    obtain ⟨cleaned, isCleaned, same⟩ := Option.map_eq_some_iff.mp isAfter
    obtain rfl : cleaned = after := (Prod.mk.inj same).1
    rwa [cleanTimeoutFile_eq_some lawful isCleaned]

end Writing

/-- No writer has counted anything. -/
def Reset (ops : DashMapOps (BitVec 64) Writer C) (writers : C) : Prop :=
  ops.Holds writers fun writer => writer.writtenBytes = 0

/-- The counters are zero behind every round. -/
theorem Reset.step (lawful : ops.Lawful) (reset : Reset ops writers)
    (isAfter : step ops config writers event = some (after, answer)) : Reset ops after := by
  refine holds_of_step lawful reset (fun _ _ => rfl) (fun files packet _ writer unused _ => ?_)
    isAfter
  rw [Writer.record]
  split
  · rfl
  · exact unused

/-- Without counted bytes the age decides, unless no size is allowed. -/
theorem shouldCloseFile_of_unused (unused : writer.writtenBytes = 0)
    (old : writer.firstPktTime + 1000000000 < timestamp) :
    shouldCloseFile timestamp writer config = some (decide (config.maxFileSize = 0 ∨
      writer.firstPktTime + config.maxFilePeriod < timestamp)) := by
  rw [shouldCloseFile, if_neg (by omega), unused, Option.some.injEq, Bool.eq_iff_iff]
  simp only [Bool.or_eq_true, Bool.and_eq_true, decide_eq_true_eq]
  omega

/-- A packet behind the first second is written however large the file is;
nothing returns if no size is allowed or the period is over. -/
theorem writePkt_of_old (lawful : ops.Lawful) (reset : Reset ops writers)
    (found : ops.get writers (getWriterKey packet) = some writer)
    (old : writer.firstPktTime + 1000000000 < packet.timestamp) :
    writePkt ops config files packet writers =
      if config.maxFileSize = 0 ∨ writer.firstPktTime + config.maxFilePeriod < packet.timestamp
      then none
      else some (ops.set writers (getWriterKey packet) (writer.record files packet)) := by
  rw [writePkt_of_found lawful found, shouldCloseFile_of_unused (reset _ _ found) old,
    Option.bind_some]
  simp only [decide_eq_true_eq]

@[simp] theorem Writer.record_firstPktTime (writer : Writer) (files : Files) (packet : Packet) :
    (writer.record files packet).firstPktTime = writer.firstPktTime := by
  rw [record]
  split <;> rfl

/-- A packet that is due for a new file never gets one. -/
theorem not_switches_of_due (lawful : ops.Lawful) (reset : Reset ops writers)
    (due : Due ops config writers event) : ¬ Switches ops config writers event := by
  cases event with
  | timeout now => exact due.elim
  | packet files packet =>
    obtain ⟨writer, found, old, -⟩ := due
    rintro ⟨after, written, isAfter, isWritten, isNew⟩
    rw [writePkt_of_old lawful reset found old] at isAfter
    split_ifs at isAfter
    rw [← Option.some.inj isAfter,
      lawful.get_set_self _ _ _ (Option.isSome_of_eq_some found)] at isWritten
    rw [← Option.some.inj isWritten, Writer.record_firstPktTime] at isNew
    omega

/-- The bytes that reach a file for a packet. -/
def Event.bytes : Event -> Nat
  | .packet files packet => files.failed.getD (12 + packet.rawPkt.length)
  | .timeout _ => 0

/-- A file holds no more than the largest size, what it got in its first second
and one packet. -/
def Writer.Within (config : WorkerConfig) (packetSize : Nat) (writer : Writer) : Prop :=
  writer.fileSize ≤ config.maxFileSize + writer.earlySize + packetSize

theorem Writer.record_sizes (writer : Writer) (files : Files) (packet : Packet) :
    (writer.record files packet).fileSize =
        writer.fileSize + (Event.packet files packet).bytes ∧
      (writer.record files packet).earlySize = writer.earlySize +
        if packet.timestamp ≤ writer.firstPktTime + 1000000000
        then (Event.packet files packet).bytes else 0 := by
  rw [record, Event.bytes]
  cases files.failed <;> exact ⟨rfl, rfl⟩

/-- The bound is kept by every round that writes to no file that is due. -/
theorem within_step (lawful : ops.Lawful)
    (within : ops.Holds writers (Writer.Within config packetSize))
    (notDue : ¬ Due ops config writers event) (small : event.bytes ≤ packetSize)
    (isAfter : step ops config writers event = some (after, answer)) :
    ops.Holds after (Writer.Within config packetSize) := by
  refine holds_of_step lawful within ?_ ?_ isAfter
  · intro time size
    simp only [Writer.Within, Writer.new]
    omega
  · rintro files packet rfl writer isWithin origin
    obtain ⟨fileSize, earlySize⟩ := writer.record_sizes files packet
    rw [Writer.Within] at isWithin ⊢
    rw [fileSize, earlySize]
    split_ifs with early
    · omega
    · rcases origin with found | ⟨size, rfl⟩
      · have notFull : ¬ config.maxFileSize ≤ writer.fileSize :=
          fun full => notDue ⟨writer, found, by omega, full⟩
        omega
      · exact absurd (Nat.le_add_right _ _) early

/-- A packet for a file that is older than a second and full gets a new file in
a run exactly if the run has no such packet. Without them no file exceeds the
largest size by more than its first second and a packet. -/
theorem switches_iff_not_due (lawful : ops.Lawful) (config : WorkerConfig)
    (events : List Event) :
    (Guarded
        (fun writers event => Due ops config writers event -> Switches ops config writers event)
        (step ops config) ops.new events ↔
      Guarded (fun writers event => ¬ Due ops config writers event)
        (step ops config) ops.new events) ∧
    (Guarded (fun writers event => ¬ Due ops config writers event)
        (step ops config) ops.new events ->
      ∀ writers answers, runSteps (step ops config) ops.new events = some (writers, answers) ->
        ∀ packetSize, (∀ event ∈ events, event.bytes ≤ packetSize) ->
          ops.Holds writers (Writer.Within config packetSize)) := by
  constructor
  · refine guarded_congr (Reset ops) (fun _ _ _ _ reset => reset.step lawful)
      (fun writers event reset => ?_) (lawful.holds_new _)
    exact ⟨fun switches due => not_switches_of_due lawful reset due (switches due),
      fun notDue due => absurd due notDue⟩
  · intro guarded writers answers ran packetSize small
    have within := lawful.holds_new (Writer.Within config packetSize)
    generalize ops.new = state at guarded ran within
    induction events generalizing state answers with
    | nil =>
      obtain ⟨rfl, -⟩ : state = writers ∧ [] = answers := by simpa using ran
      exact within
    | cons event events ih =>
      obtain ⟨middle, answer, more, stepped, ranRest, rfl⟩ := runSteps_cons_eq_some ran
      obtain ⟨notDue, remaining⟩ := (guarded_cons_iff stepped events).mp guarded
      rw [List.forall_mem_cons] at small
      exact ih more small.2 middle remaining ranRest
        (within_step lawful within notDue small.1 stepped)

/-- A packet of 100 bytes every two seconds. -/
def everyTwoSeconds (number : Nat) : Event :=
  .packet {} ⟨2000000000 * number, 0, 0, 0, List.replicate 100 0⟩

/-- With files of at most 100 bytes the fourth packet is still written to the
file of the first one. -/
theorem full_file_stays_open :
    (runSteps (step (HashMap.dashMapOps (BitVec 64) Writer) ⟨8, 100, 300000000000⟩) ∅
        ((List.range 4).map everyTwoSeconds)).map
      (fun run => run.1.entries.map (·.2.fileSize)) = some [461] := by
  decide +kernel

/-- Two packets and a timeout of the first minute: the second packet is in the
file of the first one. -/
theorem switches_iff_not_due_two :
    let ops := HashMap.dashMapOps (BitVec 64) Writer
    let config : WorkerConfig := ⟨8, 200, 300000000000⟩
    let events := [everyTwoSeconds 0, everyTwoSeconds 1, .timeout 60000000000]
    Guarded (fun writers event => Due ops config writers event -> Switches ops config writers event)
        (step ops config) ops.new events ∧
      ∃ writers answers, runSteps (step ops config) ops.new events = some (writers, answers) ∧
        writers.entries.map (·.2.fileSize) = [237] ∧
        ops.Holds writers (Writer.Within config 112) := by
  obtain ⟨switches, within⟩ := switches_iff_not_due
    (@HashMap.lawful_dashMapOps (BitVec 64) Writer _)
    ⟨8, 200, 300000000000⟩ [everyTwoSeconds 0, everyTwoSeconds 1, .timeout 60000000000]
  refine ⟨switches.mpr (by decide +kernel), _, _, (Option.some_get (by decide +kernel)).symm,
    by decide +kernel, ?_⟩
  exact within (by decide +kernel) _ _ (Option.some_get (by decide +kernel)).symm 112
    (by decide +kernel)

end Metaflow.Pcap
