import Metaflow.Hmap.Lru.KeyedRing

/-!
# Rings with more positions than `int32` has

A ring for `2 ^ 31 + 1` entries accepts `2 ^ 31` of them. Then its end is
negative, and the next insertion finds no block.
-/

namespace Metaflow.Hmap.Lru

open Library
open RingLru

variable {κ P E K : Type} [DecidableEq κ] [DecidableEq K]

/-- The first `count` positions of a ring for `2 ^ 31 + 1` entries hold keys
with numbers below `count`. -/
def Filled (k : Keying κ P E K) (number : K -> Nat) (m : RingLru κ P) (count : Nat) : Prop :=
  ∃ map node chain, Models k m map node chain ∧
    m.bufferEndIndex = count ∧ m.capacity = 2147483649 ∧ m.size = count ∧
    ∀ entry ∈ map.entries, number (k.keyOf entry) < count

namespace Filled

variable {number : K -> Nat}
variable {count : Nat}

omit [DecidableEq κ] [DecidableEq K] in
theorem new (k : Keying κ P E K) (number : K -> Nat) (pool : Nat -> Int -> Node κ P) :
    Filled k number (new 2147483649 pool) 0 := by
  have models := Models.new k 2147483649 (by decide) pool
  exact ⟨_, _, _, models, rfl, rfl, rfl, by simp [LruMap.empty]⟩

omit [DecidableEq κ] in
theorem find_next (filled : Filled k number m count) (next : number key = count) :
    m.scan k.hash (fun payload => k.key payload = key) m.scanFuel
      (m.head k.hash (k.slotFor key)) = some none := by
  obtain ⟨map, node, chain, models, _, _, _, below⟩ := filled
  obtain ⟨found, finds, sameEntry, isLive⟩ := models.find_spec key
  cases found with
  | none => exact finds
  | some position =>
    obtain ⟨alive, isKey⟩ := isLive position rfl
    have present := (models.mem_entries _).mpr ⟨position, alive, rfl⟩
    have small := below _ present
    rw [show k.keyOf (k.entryOf (node position).payload) = key from isKey, next] at small
    exact absurd small (Nat.lt_irrefl count)

/-- Below the last position, the next key is inserted. -/
theorem newNode (filled : Filled k number m count) (few : count + 1 < 2147483648)
    (remove : RingLru κ P -> Int -> Option (RingLru κ P)) (payload : P)
    (next : number (k.key payload) = count)
    (slot : k.layout.slotOf k.hash payload = k.slotFor (k.key payload)) :
    ∃ m', m.newNode k.layout remove payload = some m' ∧ Filled k number m' (count + 1) := by
  obtain ⟨map, node, chain, models, finish, capacity, size, below⟩ := filled
  have absent : map.find? (k.key payload) = none := by
    rw [map.find?_eq_none_iff]
    intro entry present sameKey
    have small := below entry present
    rw [sameKey, next] at small
    exact absurd small (Nat.lt_irrefl count)
  have rows := models.represents.spans.rows_eq
  have exact := models.represents.spans.incExact ⟨by omega, by omega⟩
  have room : m.size < m.capacity := by omega
  obtain ⟨m', node', chain', inserted, grown, models'⟩ := models.insertNode room exact absent slot
  refine ⟨m', ?_, _, node', chain', models', ?_, ?_, ?_, ?_⟩
  · rw [RingLru.newNode, if_neg (by omega)]
    exact inserted
  · rw [grown.finish, exact, finish]
    omega
  · exact grown.capacity.trans capacity
  · rw [grown.size, size]
    omega
  · have mapRoom : map.entries.length < map.capacity := by
      have := models.size_eq
      have := models.capacity
      omega
    rw [LruMap.entries_put_of_room absent mapRoom]
    intro entry present
    rcases List.mem_cons.mp present with rfl | old
    · have next' : number (k.keyOf (k.entryOf payload)) = count := next
      omega
    · have := below entry old
      omega

omit [DecidableEq K] in
/-- At the last position the node is stored, but the end of the ring becomes
negative. A chain that no small key has stays empty. -/
theorem newNode_last (filled : Filled k number m 2147483647)
    (remove : RingLru κ P -> Int -> Option (RingLru κ P)) (payload : P)
    (unused : ∀ key, number key < 2147483648 -> k.slotFor key ≠ apart)
    (next : number (k.key payload) = 2147483647)
    (slot : k.layout.slotOf k.hash payload = k.slotFor (k.key payload)) :
    ∃ m', m.newNode k.layout remove payload = some m' ∧
      m'.bufferEndIndex < 0 ∧ m'.head k.hash apart = none ∧ m'.size < m'.capacity := by
  obtain ⟨map, node, chain, models, finish, capacity, size, below⟩ := filled
  have rows : m.ring.rows = 8388610 := by
    have := models.represents.spans.rows_eq
    omega
  have room : m.size < m.capacity := by omega
  obtain ⟨m', node', inserted, grown, heads, _⟩ :=
    insertNode_spec models.represents room payload
  have noNode : chain k.hash apart = [] := by
    refine List.eq_nil_iff_forall_not_mem.mpr ?_
    intro position present
    have chained := models.represents.chained k.hash
    have alive := chained.live_of_mem present
    have small := below _ ((models.mem_entries _).mpr ⟨position, alive, rfl⟩)
    have inSlot := chained.slot_of_mem present
    rw [models.keyed position alive] at inSlot
    exact unused _ (Nat.lt_succ_of_lt small) inSlot
  refine ⟨m', ?_, ?_, ?_, ?_⟩
  · rw [RingLru.newNode, if_neg (by omega)]
    exact inserted
  · rw [grown.finish, incIndex, finish, rows]
    decide
  · have otherSlot : ¬ (k.hash ∈ k.layout.kinds ∧ apart = k.layout.slotOf k.hash payload) := by
      rintro ⟨_, sameSlot⟩
      rw [slot] at sameSlot
      exact unused _ (by omega) sameSlot.symm
    rw [heads, pushedHead, if_neg otherSlot, (models.represents.chained k.hash).head_eq, noNode]
    rfl
  · rw [grown.size, grown.capacity]
    omega

end Filled

theorem newNode_eq_none (L : Layout κ P) {m : RingLru κ P} (negative : m.bufferEndIndex < 0)
    (room : m.size < m.capacity) (remove : RingLru κ P -> Int -> Option (RingLru κ P))
    (payload : P) : m.newNode L remove payload = none := by
  rw [newNode, if_neg (by omega)]
  exact insertNode_eq_none_of_neg negative L payload

section Run

variable {ο ρ : Type} {k : Keying κ P E K} (number : K -> Nat) (pool : Nat -> Int -> Node κ P)
  (remove : RingLru κ P -> Int -> Option (RingLru κ P)) (payload : Nat -> P)
  (step : RingLru κ P -> ο -> Option (RingLru κ P × ρ)) (add : Nat -> ο) (done : ρ)
  (numbered : ∀ count, count < 2147483648 -> number (k.key (payload count)) = count)
  (slots : ∀ count, k.layout.slotOf k.hash (payload count) = k.slotFor (k.key (payload count)))
  (adds : ∀ m count, m.scan k.hash (fun stored => k.key stored = k.key (payload count)) m.scanFuel
      (m.head k.hash (k.slotFor (k.key (payload count)))) = some none ->
    step m (add count) = (m.newNode k.layout remove (payload count)).map (·, done))

include numbered slots adds

/-- Before the positions run out, `count` additions fill the first `count`
positions. -/
theorem run_adds_filled (count : Nat) (few : count < 2147483648) :
    ∃ m answers, runSteps step (new 2147483649 pool) ((List.range count).map add) =
        some (m, answers) ∧ Filled k number m count := by
  induction count with
  | zero => exact ⟨_, [], rfl, Filled.new k number pool⟩
  | succ count ih =>
    obtain ⟨m, answers, ran, filled⟩ := ih (by omega)
    have isNext := numbered count (by omega)
    obtain ⟨m', inserted, filled'⟩ := filled.newNode few remove (payload count) isNext (slots count)
    have added := adds m count (filled.find_next isNext)
    refine ⟨m', answers ++ [done], ?_, filled'⟩
    rw [List.range_succ, List.map_append, runSteps_append_of_run ran]
    simp [runSteps, added, inserted]

theorem run_adds_eq_none {apart : Int}
    (unused : ∀ key, number key < 2147483648 -> k.slotFor key ≠ apart)
    (last : k.slotFor (k.key (payload 2147483648)) = apart) :
    runSteps step (new 2147483649 pool) ((List.range 2147483649).map add) = none := by
  obtain ⟨m, answers, ran, filled⟩ := run_adds_filled number pool remove payload step add done
    numbered slots adds 2147483647 (by decide)
  have isNext := numbered 2147483647 (by decide)
  obtain ⟨m', inserted, negative, noNode, room⟩ := filled.newNode_last remove
    (payload 2147483647) unused isNext (slots 2147483647)
  have added := adds m 2147483647 (filled.find_next isNext)
  have panics : step m' (add 2147483648) = none := by
    rw [adds, newNode_eq_none _ negative room, Option.map_none]
    rw [last, noNode, scanFuel]
    rfl
  rw [show (2147483649 : Nat) = 2147483647 + 1 + 1 from rfl, List.range_succ, List.range_succ,
    List.append_assoc, List.map_append, runSteps_append_of_run ran]
  simp [runSteps, added, inserted, panics]

end Run

/-- A hash function that sets the key `2 ^ 31` apart. -/
def lastApart (key : UInt64) : BitVec 32 :=
  if key = 2147483648 then 1 else 0

theorem hashSlot_lastApart (key : UInt64) : hashSlot (lastApart key) (minPowerOfTwo 2).1 =
      if key = 2147483648 then 1 else 0 := by
  have slots : (minPowerOfTwo 2).1 = 2 := by decide
  unfold lastApart
  rw [slots]
  split <;> decide

theorem hashSlot_lastApart_ne_one (small : key.toNat < 2147483648) :
    hashSlot (lastApart key) (minPowerOfTwo 2).1 ≠ 1 := by
  rw [hashSlot_lastApart, if_neg]
  · decide
  · rintro rfl
    exact absurd small (by decide)

theorem toNat_ofNat_of_lt (few : count < 2147483648) : (UInt64.ofNat count).toNat = count := by
  rw [UInt64.toNat_ofNat']
  omega

end Metaflow.Hmap.Lru
