import Mathlib.Algebra.GroupWithZero.Nat
import Metaflow.FlowGenerator.FlowMapMoves

/-!
# Nothing that a flow map accepts is lost

A ledger gives records, accounts and packets values such that opening, taking,
reporting and closing conserve the sum. Over every run records and live flows
are worth the accepted packets.
-/

namespace Metaflow.FlowGenerator

open AgentCommon Library
open FlowMap

variable {σ : Type}

/-- Values that every move of the flow map conserves. -/
structure Ledger (M : Type) [AddCommMonoid M] where
  record : Flow -> M
  account : Account -> M
  packet : MetaPacket -> M
  closes : ∀ held flow, Closes held flow -> record flow = account held
  reports : ∀ held records after, Reports held records after ->
    (records.map record).sum + account after = account held
  takes : ∀ held taken, account (held.take taken) = account held + packet taken
  opens : ∀ flowId startTime opener,
    account ((Account.first flowId startTime opener.packetLen).note opener) = packet opener

namespace Ledger

variable {M : Type} [AddCommMonoid M]

/-- The worth of what has been emitted and of what is live. -/
def total (ledger : Ledger M) (map : FlowMap σ) : M :=
  (map.emitted.map ledger.record).sum + (map.live.map fun entry => ledger.account entry.account).sum

section

variable (ledger : Ledger M)

theorem total_visits (visits : Visits timestamp key map next) :
    ledger.total next = ledger.total map := by
  cases visits with
  | ends node record isVisited taken isDue expired timeSet emitted closes =>
    have worth := ledger.closes _ _ closes
    simp only [total, emitted, taken, List.map_append, List.sum_append,
      List.map_cons, List.map_nil, List.sum_cons, List.sum_nil, add_zero,
      Multiset.map_cons, Multiset.sum_cons, worth, Entry.account, add_assoc]
  | goesOn node after others records isVisited taken putBack isDue scheduled
      present timeSet emitted reports =>
    have worth := ledger.reports _ _ _ reports
    simp only [total, emitted, taken, putBack, List.map_append,
      List.sum_append, Multiset.map_cons, Multiset.sum_cons, Entry.account]
    rw [← worth]
    simp only [add_assoc]

theorem total_flushes (flushes : Flushes tables context timestamp map next) :
    ledger.total next = ledger.total map := by
  refine flushes.keeps (fun _ _ _ _ visits _ same => (ledger.total_visits visits).trans same) ?_ rfl
  intro before after _ live emitted same
  rw [← same, total, total, live, emitted]

theorem total_accepts {packet : MetaPacket} (accepts : Accepts context packet map next) :
    ledger.total next = ledger.total map + ledger.packet packet := by
  cases accepts with
  | opens key node isKey isNew added timestampKey timeSet emitted account =>
    simp only [total, emitted, added, Multiset.map_cons, Multiset.sum_cons,
      Entry.account, account, ledger.opens]
    rw [add_comm (ledger.packet packet), add_assoc]
  | joins key node after others records middle isKey found taken putBack
      timestampKey timeSet emitted reports account =>
    have worth := ledger.reports _ _ _ reports
    simp only [total, emitted, taken, putBack, List.map_append,
      List.sum_append, Multiset.map_cons, Multiset.sum_cons, Entry.account,
      account, ledger.takes]
    rw [← worth]
    simp only [add_assoc, add_comm, add_left_comm]
  | closes key node records record middle isKey found taken timeSet emitted reports account =>
    have worth := ledger.reports _ _ _ reports
    have last := ledger.closes _ _ account
    simp only [total, emitted, taken, List.map_append, List.sum_append,
      List.map_cons, List.map_nil, List.sum_cons, List.sum_nil, add_zero,
      Multiset.map_cons, Multiset.sum_cons, Entry.account, last,
      ledger.takes]
    rw [← worth]
    simp only [add_assoc, add_comm, add_left_comm]

theorem total_step (stepped : step tables map event = some (next, accepted)) :
    ledger.total next = ledger.total map + (accepted.map ledger.packet).sum := by
  cases step_steps stepped with
  | ticks _ _ _ isFlush | refuses _ _ isFlush =>
    have flushes := (injectFlushTicker_flushes isFlush).1
    simpa using ledger.total_flushes flushes
  | accepts context packet flushed isFlush window accepts =>
    have flushes := (injectFlushTicker_flushes isFlush).1
    rw [ledger.total_accepts accepts, ledger.total_flushes flushes]
    simp

/-- A run is worth the packets it has accepted. -/
theorem total_run {id : BitVec 32} {serviceTable : σ}
    (ran : runSteps (step tables) (.new id serviceTable) events = some (final, accepted)) :
    ledger.total final = (accepted.flatten.map ledger.packet).sum := by
  have initially : ledger.total (.new id serviceTable) =
      (([] : List (List MetaPacket)).flatten.map ledger.packet).sum := by
    simp [total, new, emitted, live]
  refine keeps_of_runSteps (fun _ _ => True)
    (fun map history =>
      ledger.total map = (history.flatten.map ledger.packet).sum)
    ?_ [] initially (.of_forall fun _ _ => trivial) ran
  intro map history event next more balanced _ stepped
  rw [ledger.total_step stepped, balanced]
  simp

end

/-- The packets not yet reported. -/
def packetCount : Ledger Nat where
  record flow := flow.account.packetCount
  account held := held.packetCount
  packet _ := 1
  closes held flow closed := by rw [closed.isAccount]
  reports held records after reported := by
    cases reported with
    | nothing => simp
    | period record isAccount => simp [isAccount, Account.report]
  takes held taken := rfl
  opens flowId startTime opener := rfl

/-- The bytes not yet reported. -/
def byteCount : Ledger Nat where
  record flow := flow.account.byteCount
  account held := held.byteCount
  packet taken := taken.packetLen
  closes held flow closed := by rw [closed.isAccount]
  reports held records after reported := by
    cases reported with
    | nothing => simp
    | period record isAccount => simp [isAccount, Account.report]
  takes held taken := rfl
  opens flowId startTime opener := rfl

/-- The packets of a flow; a record counts if it is the last of its flow. -/
def packets : Ledger (Multiset MetaPacket) where
  record flow :=
    if flow.closeType = .forcedReport then 0 else flow.packets
  account held := held.packets
  packet taken := {taken}
  closes held flow closed := by
    rw [if_neg closed.notForced, ← closed.isAccount]
    rfl
  reports held records after reported := by
    cases reported with
    | nothing => simp
    | period record isAccount forced => simp [forced, Account.report]
  takes held taken := by
    rw [← Multiset.coe_singleton, Multiset.coe_add]
    rfl
  opens flowId startTime opener := rfl

end Ledger

namespace Account

/-- The total is the number of packets of the flow. -/
def Sound (account : Account) : Prop :=
  account.totalPacketCount = account.packets.length

theorem Sound.take {account : Account} (sound : account.Sound) (packet : MetaPacket) :
    (account.take packet).Sound := by
  simpa [Sound, Account.take, note, count] using sound

theorem Sound.reports (sound : account.Sound) (reported : Reports account records after) :
    after.Sound ∧ ∀ record ∈ records, record.account.Sound := by
  cases reported with
  | nothing => exact ⟨sound, by simp⟩
  | period record isAccount => exact ⟨sound, by simpa [isAccount] using sound⟩

end Account

namespace FlowMap

/-- The totals of all live flows and of all records are right. -/
structure Sound (map : FlowMap σ) : Prop where
  live : ∀ entry ∈ map.live, entry.account.Sound
  emitted : ∀ record ∈ map.emitted, record.account.Sound

theorem Sound.visits (sound : Sound map) (visits : Visits timestamp key map next) : Sound next := by
  cases visits with
  | ends node record isVisited taken isDue expired timeSet emitted closes =>
    have live := sound.live
    rw [taken, Multiset.forall_mem_cons] at live
    refine ⟨live.2, ?_⟩
    rw [emitted, List.forall_mem_append, List.forall_mem_singleton, closes.isAccount]
    exact ⟨sound.emitted, live.1⟩
  | goesOn node after others records isVisited taken putBack isDue scheduled
      present timeSet emitted reports =>
    have live := sound.live
    rw [taken, Multiset.forall_mem_cons] at live
    obtain ⟨afterSound, recordsSound⟩ := Account.Sound.reports live.1 reports
    constructor
    · rw [putBack, Multiset.forall_mem_cons]
      exact ⟨afterSound, live.2⟩
    · rw [emitted, List.forall_mem_append]
      exact ⟨sound.emitted, recordsSound⟩

theorem Sound.flushes (sound : Sound map) (flushes : Flushes tables context timestamp map next) :
    Sound next := by
  refine flushes.keeps (fun _ _ _ _ visits _ sound => sound.visits visits) ?_ sound
  intro before after _ live emitted sound
  exact ⟨by rw [live]; exact sound.live, by rw [emitted]; exact sound.emitted⟩

theorem Sound.accepts {packet : MetaPacket}
    (sound : Sound map) (accepts : Accepts context packet map next) : Sound next := by
  cases accepts with
  | opens key node isKey isNew added timestampKey timeSet emitted account =>
    refine ⟨?_, by rw [emitted]; exact sound.emitted⟩
    rw [added, Multiset.forall_mem_cons, Entry.account, account]
    exact ⟨rfl, sound.live⟩
  | joins key node after others records middle isKey found taken putBack
      timestampKey timeSet emitted reports account =>
    have live := sound.live
    rw [taken, Multiset.forall_mem_cons] at live
    obtain ⟨middleSound, recordsSound⟩ := Account.Sound.reports live.1 reports
    constructor
    · rw [putBack, Multiset.forall_mem_cons, Entry.account, account]
      exact ⟨middleSound.take packet, live.2⟩
    · rw [emitted, List.forall_mem_append]
      exact ⟨sound.emitted, recordsSound⟩
  | closes key node records record middle isKey found taken timeSet emitted reports account =>
    have live := sound.live
    rw [taken, Multiset.forall_mem_cons] at live
    obtain ⟨middleSound, recordsSound⟩ := Account.Sound.reports live.1 reports
    refine ⟨live.2, ?_⟩
    rw [emitted, List.forall_mem_append, List.forall_mem_append, List.forall_mem_singleton,
      account.isAccount]
    exact ⟨sound.emitted, recordsSound, middleSound.take packet⟩

theorem Sound.step {tables : Tables σ} {map next : FlowMap σ} (sound : Sound map)
    (stepped : step tables map event = some (next, accepted)) : Sound next := by
  cases step_steps stepped with
  | ticks context timestamp inWindow isFlush =>
    exact sound.flushes (injectFlushTicker_flushes isFlush).1
  | refuses context packet isFlush => exact sound.flushes (injectFlushTicker_flushes isFlush).1
  | accepts context packet flushed isFlush window accepts =>
    exact (sound.flushes (injectFlushTicker_flushes isFlush).1).accepts accepts

theorem sound_run {id : BitVec 32} {serviceTable : σ}
    (ran : runSteps (step tables) (.new id serviceTable) events = some (final, accepted)) :
    Sound final := by
  have initially : Sound (new id serviceTable) := ⟨by simp [new, live], by simp [new, emitted]⟩
  exact keeps_of_runSteps (fun _ _ => True) (fun map _ => Sound map)
    (fun _ _ _ _ _ sound _ stepped => sound.step stepped) [] initially
    (.of_forall fun _ _ => trivial) ran

theorem sum_filter_notForced (records : List Flow) :
    ((records.filter (·.closeType ≠ .forcedReport)).map
        fun record => (record.packets : Multiset MetaPacket)).sum =
      (records.map Ledger.packets.record).sum := by
  induction records with
  | nil => rfl
  | cons record records ih =>
    rw [List.map_cons, List.sum_cons, ← ih]
    by_cases forced : record.closeType = .forcedReport <;> simp [forced, Ledger.packets]

theorem sum_map_singleton (packets : List MetaPacket) :
    (packets.map Ledger.packets.packet).sum = packets := by
  induction packets with
  | nil => rfl
  | cons packet packets ih =>
    rw [List.map_cons, List.sum_cons, ih]
    rfl

/-- Over any run the packets and bytes of the records and the unreported ones of
the live flows are those of the accepted packets; the total of a record is what
its flow has taken in so far; and every accepted packet is in exactly one flow,
live or ended. -/
theorem run_conserves_packets (tables : Tables σ) (id : BitVec 32) (serviceTable : σ)
    (events : List Event) (final : FlowMap σ) (accepted : List (List MetaPacket))
    (ran : runSteps (FlowMap.step tables) (.new id serviceTable) events = some (final, accepted)) :
    (final.emitted.map (·.both (·.packetCount))).sum +
        (final.live.map (·.2.flow.both (·.packetCount))).sum =
      accepted.flatten.length ∧
    (final.emitted.map (·.both (·.byteCount))).sum +
        (final.live.map (·.2.flow.both (·.byteCount))).sum =
      (accepted.flatten.map (·.packetLen)).sum ∧
    (∀ record ∈ final.emitted, record.both (·.totalPacketCount) = record.packets.length) ∧
    ((final.emitted.filter (·.closeType ≠ .forcedReport)).map
        fun record => (record.packets : Multiset MetaPacket)).sum +
        (final.live.map fun entry =>
          (entry.2.flow.packets : Multiset MetaPacket)).sum =
      accepted.flatten := by
  have packets := Ledger.packetCount.total_run ran
  have bytes := Ledger.byteCount.total_run ran
  have contents := Ledger.packets.total_run ran
  refine ⟨packets.trans ?_, bytes, (sound_run ran).emitted, ?_⟩
  · generalize accepted.flatten = packets
    simp [Ledger.packetCount]
  · rw [sum_filter_notForced]
    exact contents.trans (sum_map_singleton accepted.flatten)

theorem run_conserves_packets_ping :
    ∃ final accepted,
      runSteps (step plainTables) (.new 0 ())
        [.packet {} (ping 100), .packet {} (ping 100),
          .flushTick {} (200 * timeUnit)] = some (final, accepted) ∧
      (final.emitted.map (·.both (·.packetCount))).sum +
          (final.live.map (·.2.flow.both (·.packetCount))).sum =
        accepted.flatten.length := by
  have succeeds : (runSteps (step plainTables) (.new 0 ())
      [.packet {} (ping 100), .packet {} (ping 100),
        .flushTick {} (200 * timeUnit)]).isSome := by decide +kernel
  obtain ⟨⟨final, accepted⟩, ran⟩ := Option.isSome_iff_exists.mp succeeds
  exact ⟨final, accepted, ran, (run_conserves_packets plainTables 0 () _ final accepted ran).1⟩

end FlowMap

end Metaflow.FlowGenerator
