import Metaflow.Grpc.PlatformData

/-!
# The cache of the platform table is transparent

The abstract table has no cache. The table with the cache answers alike: every
cached item is what the current tables say of its key, and a reload drops all
items.
-/

namespace Metaflow.Grpc

open Library
open Hmap.Lru

/-- The table of addresses, then the subnets. -/
def Tables.lookup (t : Tables) (epcID : Int16) (ipv4 : UInt32) : Option Info :=
  (t.epcIDIPV4Infos (ipv4Key epcID ipv4)).or (t.queryIPV4Cidr epcID ipv4)

theorem Tables.queryTables_fst (t : Tables) (epcID : Int16) (ipv4 : UInt32) :
    (t.queryTables epcID ipv4).1 = t.lookup epcID ipv4 := by
  unfold Tables.queryTables Tables.lookup
  cases t.epcIDIPV4Infos (ipv4Key epcID ipv4) <;> rfl

/-- The tables, the version of their data and the number of hit counters. -/
structure UncachedTable extends Tables where
  versionPlatformData : UInt64
  hitCounters : Nat

namespace UncachedTable

/-- A table before its first reload. -/
def new : UncachedTable where
  epcIDIPV4Infos _ := none
  epcIDIPV4CidrInfos _ := none
  versionPlatformData := 0
  hitCounters := 0

variable {Bytes PlatformData : Type} [Inhabited PlatformData]

/-- One call: a query changes nothing, a reload with new data replaces the
tables. -/
def step (unmarshal : Bytes -> Except String PlatformData)
    (buildTables : PlatformData -> Nat -> Tables × Nat)
    (t : UncachedTable) : Op Bytes -> UncachedTable × Answer
  | .reload requested _ =>
    match newPlatformData unmarshal t.versionPlatformData requested with
    | .error message => (t, .reloaded (.error message))
    | .ok none => (t, .reloaded (.ok ()))
    | .ok (some (newVersion, platformData)) =>
      let (tables, hitCounters) := buildTables platformData t.hitCounters
      ({ toTables := tables
         versionPlatformData := newVersion
         hitCounters := hitCounters }, .reloaded (.ok ()))
  | .queryIPV4Infos epcID ipv4 => (t, .info (t.lookup epcID ipv4))
  | .queryIPV4InfosPair epcID0 ipv40 epcID1 ipv41 =>
    (t, .infosPair (t.lookup epcID0 ipv40) (t.lookup epcID1 ipv41))

end UncachedTable

theorem toBitVec_ipv4Key (epcID : Int16) (ipv4 : UInt32) : (ipv4Key epcID ipv4).toBitVec =
      epcID.toBitVec.signExtend 64 <<< 32 ||| ipv4.toBitVec.setWidth 64 := rfl

theorem ipv4Key_injective (same : ipv4Key epcID ipv4 = ipv4Key epcID' ipv4') :
    epcID = epcID' ∧ ipv4 = ipv4' := by
  have bits : ∀ i, (ipv4Key epcID ipv4).toBitVec.getLsbD i =
      (ipv4Key epcID' ipv4').toBitVec.getLsbD i := by
    intro i
    rw [same]
  simp only [toBitVec_ipv4Key, BitVec.getLsbD_or, BitVec.getLsbD_shiftLeft,
    BitVec.getLsbD_setWidth, BitVec.getLsbD_signExtend] at bits
  constructor
  · apply Int16.toBitVec_inj.mp
    apply BitVec.eq_of_getLsbD_eq
    intro i low
    have bit := bits (i + 32)
    have small : i + 32 < 64 := by omega
    have notLow : ¬ i + 32 < 32 := by omega
    have inRange : i < 64 := by omega
    simpa [small, notLow, low, inRange] using bit
  · apply UInt32.toBitVec_inj.mp
    apply BitVec.eq_of_getLsbD_eq
    intro i low
    have bit := bits i
    have small : i < 64 := by omega
    simpa [low, small] using bit

/-- The cached item is what the tables say of the address with its key. -/
def Tables.Holds (t : Tables) (entry : UInt64 × LruItem) : Prop :=
  ∀ epcID ipv4, entry.1 = ipv4Key epcID ipv4 -> entry.2.asInfo = t.lookup epcID ipv4

theorem Tables.holds_key {t : Tables}
    (found : item.asInfo = t.lookup epcID ipv4) : t.Holds (ipv4Key epcID ipv4, item) := by
  intro epcID' ipv4' same
  obtain ⟨rfl, rfl⟩ := ipv4Key_injective same
  exact found

namespace PlatformInfoTable

/-- The table has the tables of `spec`, and a cache of items that these
tables confirm. -/
structure Refines (jenkins : UInt64 -> BitVec 32) (t : PlatformInfoTable)
    (spec : UncachedTable) : Prop where
  tables : t.toTables = spec.toTables
  version : t.versionPlatformData = spec.versionPlatformData
  counters : t.hitCounters = spec.hitCounters
  cached : ∃ map : LruMap (Prod.fst : UInt64 × LruItem -> UInt64),
    U64LRU.Refines jenkins lruSlotSize t.epcIDIPV4Lru map ∧
      map.capacity = lruCap ∧ ∀ entry ∈ map.entries, spec.Holds entry

theorem cached_new (blocks : Blocks) (t : Tables) :
    ∃ map : LruMap (Prod.fst : UInt64 × LruItem -> UInt64),
      U64LRU.Refines jenkins lruSlotSize (RingLru.new lruCap blocks) map ∧
        map.capacity = lruCap ∧ ∀ entry ∈ map.entries, t.Holds entry := by
  refine ⟨LruMap.empty Prod.fst lruCap (by decide),
    U64LRU.new_refines lruCap (by decide) blocks, rfl, ?_⟩
  intro entry present
  cases present

namespace Refines

section

variable (refines : Refines jenkins t spec)
include refines

theorem lookup_eq (epcID : Int16) (ipv4 : UInt32) :
    t.lookup epcID ipv4 = spec.lookup epcID ipv4 := by
  rw [refines.tables]

theorem ipv4InfoStat (item : LruItem) : Refines jenkins (t.ipv4InfoStat item) spec := by
  cases item <;> exact ⟨refines.tables, refines.version, refines.counters, refines.cached⟩

theorem lruGet (epcID : Int16) (ipv4 : UInt32) :
    ∃ t' lruValue, t.lruGet jenkins (ipv4Key epcID ipv4) = some (t', lruValue) ∧
      Refines jenkins t' spec ∧
      ∀ item, lruValue = some item -> item.asInfo = spec.lookup epcID ipv4 := by
  obtain ⟨tables, version, counters, map, lruRefines, capacity, holds⟩ := refines
  obtain ⟨lru, got, lruRefines'⟩ := U64LRU.get_refines lruRefines (ipv4Key epcID ipv4) false
  refine ⟨{ t with epcIDIPV4Lru := lru }, (map.find? (ipv4Key epcID ipv4)).map Prod.snd, ?_, ?_, ?_⟩
  · simp only [PlatformInfoTable.lruGet, got, Option.map_some]
  · refine ⟨tables, version, counters, _, lruRefines', ?_⟩
    cases found : map.find? (ipv4Key epcID ipv4) with
    | none => exact ⟨capacity, holds⟩
    | some entry =>
      have present := (map.find?_eq_some_iff _ _).mp found
      exact ⟨capacity, LruMap.forall_put holds (holds entry present.1)⟩
  · intro item answered
    obtain ⟨entry, found, rfl⟩ := Option.map_eq_some_iff.mp answered
    obtain ⟨present, isKey⟩ := (map.find?_eq_some_iff _ _).mp found
    exact holds entry present epcID ipv4 isKey

/-- Adding what the tables say keeps the cache right. -/
theorem add {epcID : Int16} (isAnswer : item.asInfo = spec.lookup epcID ipv4) :
    ∃ lru, U64LRU.add jenkins lruSlotSize t.epcIDIPV4Lru (ipv4Key epcID ipv4) item = some lru ∧
      Refines jenkins { t with epcIDIPV4Lru := lru } spec := by
  obtain ⟨tables, version, counters, map, lruRefines, capacity, holds⟩ := refines
  have few : ((map.capacity : Int) / 256 + 2) * 256 < 2147483648 := by
    rw [capacity]
    decide
  obtain ⟨lru, added, lruRefines'⟩ := U64LRU.add_refines lruRefines (ipv4Key epcID ipv4) item
    (U64LRU.insertFits_of_capacity lruRefines few (.add _ item))
  refine ⟨lru, added, tables, version, counters, _, lruRefines', capacity, ?_⟩
  exact LruMap.forall_put holds (Tables.holds_key isAnswer)

section

variable (epcID : Int16) (ipv4 : UInt32)

theorem ipv4InfoAddLru :
    ∃ t', t.ipv4InfoAddLru jenkins (spec.lookup epcID ipv4) (ipv4Key epcID ipv4) = some t' ∧
      Refines jenkins t' spec := by
  unfold PlatformInfoTable.ipv4InfoAddLru
  cases found : spec.lookup epcID ipv4 with
  | some info =>
    obtain ⟨lru, added, refines'⟩ :=
      refines.add (show (LruItem.info info).asInfo = _ from found.symm)
    simp only [added, some_bind]
    exact ⟨_, rfl, refines'.ipv4InfoStat (.info info)⟩
  | none =>
    obtain ⟨lru, added, refines'⟩ := refines.add
      (show (LruItem.missCount t.missCounters).asInfo = _ from found.symm)
    simp only [added, some_bind]
    exact ⟨_, rfl, refines'.tables, refines'.version, refines'.counters, refines'.cached⟩

theorem queryIPV4Infos :
    ∃ t', t.queryIPV4Infos jenkins epcID ipv4 = some (t', spec.lookup epcID ipv4) ∧
      Refines jenkins t' spec := by
  obtain ⟨t', lruValue, got, refines', isAnswer⟩ := refines.lruGet epcID ipv4
  simp only [PlatformInfoTable.queryIPV4Infos, got, some_bind]
  cases lruValue with
  | none =>
    obtain ⟨t'', added, refines''⟩ := refines'.ipv4InfoAddLru epcID ipv4
    simp only [Tables.queryTables_fst, refines'.lookup_eq, added, some_bind]
    exact ⟨t'', rfl, refines''⟩
  | some item =>
    simp only [isAnswer item rfl]
    exact ⟨_, rfl, refines'.ipv4InfoStat item⟩

theorem queryIPV4InfosHalf :
    ∃ t' ok, t.queryIPV4InfosHalf jenkins epcID ipv4 = some (t', spec.lookup epcID ipv4, ok) ∧
      Refines jenkins t' spec := by
  obtain ⟨t', lruValue, got, refines', isAnswer⟩ := refines.lruGet epcID ipv4
  simp only [PlatformInfoTable.queryIPV4InfosHalf, got, some_bind]
  cases lruValue with
  | none =>
    simp only [Tables.queryTables_fst, refines'.lookup_eq]
    exact ⟨t', _, rfl, refines'⟩
  | some item =>
    simp only [isAnswer item rfl]
    exact ⟨_, true, rfl, refines'.ipv4InfoStat item⟩

theorem addUnlessOk (ok : Bool) :
    ∃ t', t.addUnlessOk jenkins ok (spec.lookup epcID ipv4) (ipv4Key epcID ipv4) = some t' ∧
      Refines jenkins t' spec := by
  cases ok with
  | true => exact ⟨t, rfl, refines⟩
  | false => exact refines.ipv4InfoAddLru epcID ipv4

end

theorem queryIPV4InfosPair (epcID0 : Int16) (ipv40 : UInt32) (epcID1 : Int16) (ipv41 : UInt32) :
    ∃ t', t.queryIPV4InfosPair jenkins epcID0 ipv40 epcID1 ipv41 =
        some (t', spec.lookup epcID0 ipv40, spec.lookup epcID1 ipv41) ∧
      Refines jenkins t' spec := by
  obtain ⟨t0, ok0, queried0, refines0⟩ := refines.queryIPV4InfosHalf epcID0 ipv40
  obtain ⟨t1, ok1, queried1, refines1⟩ := refines0.queryIPV4InfosHalf epcID1 ipv41
  obtain ⟨t2, added0, refines2⟩ := refines1.addUnlessOk epcID0 ipv40 ok0
  obtain ⟨t3, added1, refines3⟩ := refines2.addUnlessOk epcID1 ipv41 ok1
  refine ⟨t3, ?_, refines3⟩
  simp only [PlatformInfoTable.queryIPV4InfosPair, queried0, queried1, added0, added1, some_bind]

end

end Refines

section Runs

variable {Bytes PlatformData : Type} [Inhabited PlatformData]
variable (unmarshal : Bytes -> Except String PlatformData)
  (buildTables : PlatformData -> Nat -> Tables × Nat)

theorem new_refines (blocks : Blocks) : Refines jenkins (new blocks) UncachedTable.new :=
  ⟨rfl, rfl, rfl, cached_new blocks _⟩

/-- Every call returns what the table without a cache returns. -/
theorem step_refines (refines : Refines jenkins t spec) (operation : Op Bytes) :
    ∃ t', t.step jenkins unmarshal buildTables operation =
        some (t', (spec.step unmarshal buildTables operation).2) ∧
      Refines jenkins t' (spec.step unmarshal buildTables operation).1 := by
  cases operation with
  | reload requested blocks =>
    simp only [step, reload, UncachedTable.step, refines.version, refines.counters]
    rcases newPlatformData unmarshal spec.versionPlatformData requested with
      message | _ | ⟨newVersion, platformData⟩
    · exact ⟨t, rfl, refines⟩
    · exact ⟨t, rfl, refines⟩
    · exact ⟨_, rfl, rfl, rfl, rfl, cached_new blocks _⟩
  | queryIPV4Infos epcID ipv4 =>
    obtain ⟨t', queried, refines'⟩ := refines.queryIPV4Infos epcID ipv4
    refine ⟨t', ?_, refines'⟩
    simp only [step, queried, UncachedTable.step, Option.map_some]
  | queryIPV4InfosPair epcID0 ipv40 epcID1 ipv41 =>
    obtain ⟨t', queried, refines'⟩ := refines.queryIPV4InfosPair epcID0 ipv40 epcID1 ipv41
    refine ⟨t', ?_, refines'⟩
    simp only [step, queried, UncachedTable.step, Option.map_some]

/-- In every run of reloads and queries every query returns what the current
tables say, and so does the next one. -/
theorem run_answers_uncached (jenkins : UInt64 -> BitVec 32)
    (unmarshal : Bytes -> Except String PlatformData)
    (buildTables : PlatformData -> Nat -> Tables × Nat) (blocks : Blocks)
    (operations : List (Op Bytes)) :
    ∃ final,
      runSteps (step jenkins unmarshal buildTables) (new blocks) operations =
        some (final, (runTotal (UncachedTable.step unmarshal buildTables)
          UncachedTable.new operations).2) ∧
      final.toTables = (runTotal (UncachedTable.step unmarshal buildTables)
        UncachedTable.new operations).1.toTables ∧
      (∀ epcID ipv4, ∃ next, final.queryIPV4Infos jenkins epcID ipv4 =
        some (next, final.lookup epcID ipv4)) ∧
      ∀ epcID0 ipv40 epcID1 ipv41, ∃ next,
        final.queryIPV4InfosPair jenkins epcID0 ipv40 epcID1 ipv41 =
          some (next, final.lookup epcID0 ipv40, final.lookup epcID1 ipv41) := by
  obtain ⟨final, ran, refines⟩ := simulates _ (Refines jenkins)
    (fun _ _ operation refines (_ : True) =>
      step_refines unmarshal buildTables refines operation)
    (new_refines blocks) operations (Guarded.of_forall fun _ _ => trivial)
  refine ⟨final, ran, refines.tables, ?_, ?_⟩
  · intro epcID ipv4
    obtain ⟨next, queried, _⟩ := refines.queryIPV4Infos epcID ipv4
    rw [← refines.lookup_eq] at queried
    exact ⟨next, queried⟩
  · intro epcID0 ipv40 epcID1 ipv41
    obtain ⟨next, queried, _⟩ := refines.queryIPV4InfosPair epcID0 ipv40 epcID1 ipv41
    rw [← refines.lookup_eq, ← refines.lookup_eq] at queried
    exact ⟨next, queried⟩

end Runs

end PlatformInfoTable

end Metaflow.Grpc
