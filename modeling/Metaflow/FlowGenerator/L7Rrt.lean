import Metaflow.Library.LruCacheOps
import Metaflow.Library.SortedEntries

/-!
# The cache of request times

`perf/l7_rrt.rs`: requests that wait for their answers, with an identifier in an
ordered queue for each flow, without one at most one for each flow. A full queue
drops the least identifier. The flows are the keys of two caches of the `lru`
crate, whose calls are parameters.
-/

namespace Metaflow.FlowGenerator

open Library

def subQueueSize : Nat := 1024

/-- The time of a request is entered. -/
def enterRequest (requests : List (Nat × Nat)) (id timestamp : Nat) : List (Nat × Nat) :=
  match binarySearch requests id with
  | .ok place => requests.set place (id, timestamp)
  | .error place =>
    let requests := requests.take place ++ (id, timestamp) :: requests.drop place
    if subQueueSize < requests.length then requests.tail else requests

/-- The time of a request and the other requests. -/
def takeRequest (requests : List (Nat × Nat)) (id : Nat) : Option Nat × List (Nat × Nat) :=
  match binarySearch requests id with
  | .ok place => (requests[place]?.map (·.2), requests.eraseIdx place)
  | .error _ => (none, requests)

section Around

variable {id : Nat} {lower upper : List (Nat × Nat)} (around : Around id lower upper)

include around

variable (found : Option Nat)

/-- A request that is known is overwritten; a new one may push out the first. -/
theorem enterRequest_eq (timestamp : Nat) :
    enterRequest (lower ++ (found.toList.map (id, ·) ++ upper)) id timestamp =
      if found = none ∧ subQueueSize ≤ lower.length + upper.length then
        (lower ++ (id, timestamp) :: upper).tail
      else lower ++ (id, timestamp) :: upper := by
  unfold enterRequest
  rw [around.binarySearch_eq]
  cases found with
  | some time => simp
  | none =>
    simp only [Option.isSome_none, Bool.false_eq_true, ↓reduceIte, Option.toList_none,
      List.map_nil, List.nil_append, List.take_left', List.drop_left', List.length_append,
      List.length_cons, ← Nat.add_assoc, Nat.lt_succ_iff, true_and]

theorem takeRequest_eq :
    takeRequest (lower ++ (found.toList.map (id, ·) ++ upper)) id = (found, lower ++ upper) := by
  unfold takeRequest
  rw [around.binarySearch_eq]
  cases found with
  | some time => simp [List.eraseIdx_append_of_length_le]
  | none => simp

end Around

/-- The identifiers and times of the requests of a flow. -/
structure SubQueue where
  requests : List (Nat × Nat)
  ascending : Ascending requests

namespace SubQueue

def single (id timestamp : Nat) : SubQueue :=
  ⟨[(id, timestamp)], List.pairwise_singleton _ _⟩

def enter (queue : SubQueue) (id timestamp : Nat) : SubQueue where
  requests := enterRequest queue.requests id timestamp
  ascending := by
    obtain ⟨lower, found, upper, around, split⟩ := queue.ascending.exists_around id
    rw [split, enterRequest_eq around]
    split
    · exact (around.ascending_insert timestamp).sublist (List.tail_sublist _)
    · exact around.ascending_insert timestamp

def take (queue : SubQueue) (id : Nat) : Option Nat × SubQueue where
  fst := (takeRequest queue.requests id).1
  snd :=
    { requests := (takeRequest queue.requests id).2
      ascending := by
        obtain ⟨lower, found, upper, around, split⟩ := queue.ascending.exists_around id
        rw [split, takeRequest_eq around]
        exact around.ascending_append }

/-- A new request in a full queue goes at once if all others have larger
identifiers. -/
def Refuses (queue : SubQueue) (id : Nat) : Prop :=
  subQueueSize ≤ queue.requests.length ∧ ∀ request ∈ queue.requests, id < request.1

theorem take_enter (queue : SubQueue) (id timestamp : Nat) :
    ((queue.enter id timestamp).take id).1 = some timestamp ↔ ¬ queue.Refuses id := by
  have taken {lower upper} (around : Around id lower upper) :
      (takeRequest (lower ++ (id, timestamp) :: upper) id).1 = some timestamp :=
    congrArg Prod.fst (takeRequest_eq around (some timestamp))
  obtain ⟨lower, found, upper, around, split⟩ := queue.ascending.exists_around id
  simp only [take, enter, Refuses, split, enterRequest_eq around]
  split_ifs with full
  · obtain ⟨rfl, isFull⟩ := full
    cases lower with
    | nil =>
      have gone := congrArg Prod.fst (takeRequest_eq around none)
      simp_all [around.above]
    | cons first lower =>
      have kept : Around id lower upper :=
        ⟨around.ascendingLower.tail, around.ascendingUpper,
          fun entry isLower => around.below entry (List.mem_cons_of_mem _ isLower), around.above⟩
      have isBelow := around.below first (by simp)
      refine iff_of_true (taken kept) fun refuses => ?_
      exact absurd (refuses.2 first (by simp)) isBelow.not_gt
  · refine iff_of_true (taken around) fun refuses => ?_
    cases found with
    | none => exact full ⟨rfl, by simpa using refuses.1⟩
    | some time => exact absurd (refuses.2 (id, time) (by simp)) (lt_irrefl id)

end SubQueue

/-- The two caches; `C` and `D` are their types. -/
structure L7RrtCache (C D : Type) where
  doubleKeyCache : C
  singleKeyCache : D

namespace L7RrtCache

variable {C D : Type} (double : LruCacheOps (BitVec 64) SubQueue C)
  (single : LruCacheOps (BitVec 64) Nat D)

def new (cap : { cap : Nat // 0 < cap }) : L7RrtCache C D :=
  ⟨double.new cap, single.new cap⟩

variable (cache : L7RrtCache C D) (key0 : BitVec 64) (key1 : Option Nat)

/-- `double_key_cache_add_req_time` -/
def doubleKeyCacheAddReqTime (id timestamp : Nat) : L7RrtCache C D :=
  { cache with
    doubleKeyCache :=
      match double.find? cache.doubleKeyCache key0 with
      | some queue => double.set cache.doubleKeyCache key0 (queue.enter id timestamp)
      | none => double.put cache.doubleKeyCache key0 (.single id timestamp) }

def addReqTime (timestamp : Nat) : L7RrtCache C D :=
  match key1 with
  | some id => cache.doubleKeyCacheAddReqTime double key0 id timestamp
  | none => { cache with singleKeyCache := single.put cache.singleKeyCache key0 timestamp }

/-- `double_key_cache_get_and_remove_l7_req_time` -/
def doubleKeyCacheGetAndRemoveL7ReqTime (id : Nat) : Option Nat × L7RrtCache C D :=
  match double.find? cache.doubleKeyCache key0 with
  | none => (none, cache)
  | some queue =>
    let (time, rest) := queue.take id
    let caches := double.set cache.doubleKeyCache key0 rest
    (time, { cache with doubleKeyCache :=
      if time.isSome ∧ rest.requests = [] then double.pop caches key0 else caches })

def getAndRemoveL7ReqTime : Option Nat × L7RrtCache C D :=
  match key1 with
  | some id => cache.doubleKeyCacheGetAndRemoveL7ReqTime double key0 id
  | none =>
    (single.find? cache.singleKeyCache key0,
      { cache with singleKeyCache := single.pop cache.singleKeyCache key0 })

def getAndRemoveL7ReqTimeout : Nat × L7RrtCache C D :=
  let popped := { cache with doubleKeyCache := double.pop cache.doubleKeyCache key0 }
  match double.find? cache.doubleKeyCache key0 with
  | some queue => (queue.requests.length, popped)
  | none =>
    let bothPopped := { popped with singleKeyCache := single.pop cache.singleKeyCache key0 }
    if (single.find? cache.singleKeyCache key0).isSome then (1, bothPopped) else (0, bothPopped)

/-- How many requests of a flow wait for their answers. -/
def pending : Nat :=
  ((double.find? cache.doubleKeyCache key0).elim 0 fun queue => queue.requests.length) +
    (single.find? cache.singleKeyCache key0).toList.length

section Laws

variable {double single} (lawful : double.Lawful) (lawfulSingle : single.Lawful)
include lawful lawfulSingle

/-- A request is found again unless a full queue refuses it. -/
theorem getAndRemove_addReqTime (timestamp : Nat) :
    ((cache.addReqTime double single key0 key1 timestamp).getAndRemoveL7ReqTime
        double single key0 key1).1 = some timestamp ↔
      ∀ id ∈ key1, ∀ queue ∈ double.find? cache.doubleKeyCache key0, ¬ queue.Refuses id := by
  cases key1 with
  | none => simp [addReqTime, getAndRemoveL7ReqTime, lawfulSingle.find?_put_self]
  | some id =>
    cases isQueue : double.find? cache.doubleKeyCache key0 with
    | none =>
      have taken : ((SubQueue.single id timestamp).take id).1 = some timestamp := by
        simp [SubQueue.take, takeRequest, SubQueue.single, binarySearch]
      simp [addReqTime, getAndRemoveL7ReqTime, doubleKeyCacheAddReqTime,
        doubleKeyCacheGetAndRemoveL7ReqTime, isQueue, lawful.find?_put_self, taken]
    | some queue =>
      have found := lawful.find?_set_self cache.doubleKeyCache key0 (queue.enter id timestamp)
        (Option.isSome_of_eq_some isQueue)
      simp [addReqTime, getAndRemoveL7ReqTime, doubleKeyCacheAddReqTime,
        doubleKeyCacheGetAndRemoveL7ReqTime, isQueue, found, SubQueue.take_enter]

/-- The requests of a flow are counted and removed unless there are requests of
both kinds. -/
theorem getAndRemoveL7ReqTimeout_iff :
    ((cache.getAndRemoveL7ReqTimeout double single key0).1 = cache.pending double single key0 ∧
      (cache.getAndRemoveL7ReqTimeout double single key0).2.pending double single key0 = 0) ↔
      double.find? cache.doubleKeyCache key0 = none ∨
        single.find? cache.singleKeyCache key0 = none := by
  cases isQueue : double.find? cache.doubleKeyCache key0 <;>
    cases isSingle : single.find? cache.singleKeyCache key0 <;>
      simp [getAndRemoveL7ReqTimeout, pending, isQueue, isSingle, lawful.find?_pop_self,
        lawfulSingle.find?_pop_self]

end Laws

/-- A request is found again unless a full queue refuses it, and those of a flow
are counted and removed unless there are both kinds. -/
theorem requests_kept_iff {double : LruCacheOps (BitVec 64) SubQueue C}
    {single : LruCacheOps (BitVec 64) Nat D} (lawful : double.Lawful)
    (lawfulSingle : single.Lawful) (cache : L7RrtCache C D) (key0 : BitVec 64)
    (key1 : Option Nat) (timestamp : Nat) :
    ((cache.addReqTime double single key0 key1 timestamp).getAndRemoveL7ReqTime
          double single key0 key1).1 = some timestamp ∧
        (cache.getAndRemoveL7ReqTimeout double single key0).1 = cache.pending double single key0 ∧
        (cache.getAndRemoveL7ReqTimeout double single key0).2.pending double single key0 = 0 ↔
      (∀ id ∈ key1, ∀ queue ∈ double.find? cache.doubleKeyCache key0, ¬ queue.Refuses id) ∧
        (double.find? cache.doubleKeyCache key0 = none ∨
          single.find? cache.singleKeyCache key0 = none) := by
  rw [getAndRemove_addReqTime cache key0 key1 lawful lawfulSingle,
    getAndRemoveL7ReqTimeout_iff cache key0 lawful lawfulSingle]

/-- A new pair of LRU maps of one entry each. -/
def newMaps : L7RrtCache (LruMap (Prod.fst : BitVec 64 × SubQueue -> BitVec 64))
    (LruMap (Prod.fst : BitVec 64 × Nat -> BitVec 64)) :=
  new (LruMap.cacheOps _ _) (LruMap.cacheOps _ _) ⟨1, Nat.one_pos⟩

/-- Two requests of a flow with the identifiers 5 and 3, and then one with 4. -/
theorem requests_kept_iff_two :
    let add := fun cache id => addReqTime (LruMap.cacheOps _ _) (LruMap.cacheOps _ _) cache 7
      (some id) 10
    let cache := add (add newMaps 5) 3
    ((add cache 4).getAndRemoveL7ReqTime (LruMap.cacheOps _ _) (LruMap.cacheOps _ _) 7
        (some 4)).1 = some 10 ∧
      (cache.getAndRemoveL7ReqTimeout (LruMap.cacheOps _ _) (LruMap.cacheOps _ _) 7).1 = 2 := by
  intro add cache
  have isQueue : ((LruMap.cacheOps _ _).find? cache.doubleKeyCache 7).map (·.requests) =
      some [(3, 10), (5, 10)] := by decide
  have kept := (requests_kept_iff LruMap.lawful_cacheOps LruMap.lawful_cacheOps cache 7
    (some 4) 10).mpr ⟨?_, .inr (by decide)⟩
  · exact ⟨kept.1, by decide⟩
  · rintro _ - queue found ⟨full, -⟩
    rw [found, Option.map_some, Option.some.injEq] at isQueue
    rw [isQueue] at full
    exact absurd full (by decide)

/-- A queue with the identifiers from 1 to 1024. -/
def fullQueue : SubQueue where
  requests := (List.range subQueueSize).map fun index => (index + 1, 0)
  ascending := by
    rw [Ascending, List.pairwise_map]
    exact List.pairwise_lt_range.imp Nat.succ_lt_succ

/-- Request 0 is lost in a full queue, and a request without an identifier is
not counted beside one with. -/
theorem requests_lost :
    let double := LruMap.cacheOps (BitVec 64) SubQueue
    let single := LruMap.cacheOps (BitVec 64) Nat
    let full : L7RrtCache _ _ :=
      { newMaps with doubleKeyCache := double.put newMaps.doubleKeyCache 7 fullQueue }
    ((full.addReqTime double single 7 (some 0) 10).getAndRemoveL7ReqTime
        double single 7 (some 0)).1 ≠ some 10 ∧
      let mixed := (newMaps.addReqTime double single 7 (some 1) 10).addReqTime
        double single 7 none 11
      (mixed.getAndRemoveL7ReqTimeout double single 7).1 = 1 ∧ mixed.pending double single 7 = 2 ∧
        (mixed.getAndRemoveL7ReqTimeout double single 7).2.pending double single 7 = 1 := by
  refine ⟨?_, by decide⟩
  rw [Ne, getAndRemove_addReqTime _ _ _ LruMap.lawful_cacheOps LruMap.lawful_cacheOps]
  intro kept
  refine kept 0 rfl fullQueue (LruMap.lawful_cacheOps.find?_put_self _ _ _) ⟨?_, ?_⟩
  · simp [fullQueue]
  · simp [fullQueue]

end L7RrtCache

end Metaflow.FlowGenerator
