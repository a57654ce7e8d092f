import Metaflow.Grpc.CidrInfos

/-!
# The WAN CIDRs of EPC 0

What the lists of EPC 0 hold after all CIDRs of the platform data were entered,
and what the search for the EPC of an address in the WAN CIDRs answers.
-/

namespace Metaflow.Grpc.Cidrs

open Library List

/-- The CIDRs that are entered, each with its family. Each gets the next hit
counter. -/
def enteredFrom (parseCIDR : String -> Option Net.IPNet) :
    Nat -> List TridentCidr -> List (Bool × CidrInfo)
  | _, [] => []
  | hitCount, tridentCidr :: rest =>
    match parseCIDR tridentCidr.prefixText with
    | none => enteredFrom parseCIDR hitCount rest
    | some cidr =>
      (isIPV4 tridentCidr.prefixText,
        newCidrInfo cidr hitCount tridentCidr) :: enteredFrom parseCIDR (hitCount + 1) rest

/-- The WAN CIDRs of a family. -/
def wanCidrs (ipv4 : Bool) (entered : List (Bool × CidrInfo)) : List CidrInfo :=
  (entered.filter fun entry => entry.1 == ipv4 && entry.2.isWan).map Prod.snd

theorem foldl_updateCidrInfos (rt : Runtime) (parseCIDR : String -> Option Net.IPNet)
    (cidrs : List TridentCidr) (t : CidrTables) :
    cidrs.foldl (updateCidrInfos rt parseCIDR) t = (enteredFrom parseCIDR t.hitCounters cidrs).foldl
        (fun t entry => t.enter rt entry.1 entry.2) t := by
  induction cidrs generalizing t with
  | nil => rfl
  | cons head rest ih =>
    rw [foldl_cons, ih, updateCidrInfos, enteredFrom]
    cases parseCIDR head.prefixText with
    | none => rfl
    | some cidr => rfl

/-- No CIDR is entered with EPC 0. -/
theorem epcID_ne_zero (mem : entry ∈ enteredFrom parseCIDR hitCount cidrs) : entry.2.epcID ≠ 0 := by
  induction cidrs generalizing hitCount with
  | nil => cases mem
  | cons head rest ih =>
    rw [enteredFrom] at mem
    split at mem
    · exact ih mem
    · rcases mem_cons.mp mem with rfl | mem
      · simp only [newCidrInfo]
        by_cases zero : head.epcId = 0
        · rw [if_pos zero]
          decide
        · rwa [if_neg zero]
      · exact ih mem

namespace CidrMap

/-- Every list has an array, and only lists of the given keys share one. -/
structure Ok (apart : Int32 -> Prop) (m : CidrMap) : Prop where
  valid : ∀ key slice, m.slices key = some slice -> slice.Valid m.heap
  apart : ∀ key other slice slice', apart key -> apart other ->
    m.slices key = some slice -> m.slices other = some slice' ->
    slice.array = slice'.array -> key = other
  listed : ∀ key slice, m.slices key = some slice -> key ∈ m.keys

variable {apart : Int32 -> Prop} {m : CidrMap} {rt : Runtime}
  {key other target source : Int32} {slice : HeapSlice} {info : CidrInfo}

theorem ok_empty : Ok apart {} where
  valid _ _ isSlice := by cases isSlice
  apart _ _ _ _ _ _ isSlice := by cases isSlice
  listed _ _ isSlice := by cases isSlice

theorem slices_set (heap : Heap CidrInfo) : (m.set key heap slice).slices other =
      if other = key then some slice else m.slices other :=
  Function.update_apply ..

/-- A list is set to a slice on an array that no list of another key has. -/
theorem Ok.set {heap : Heap CidrInfo} (ok : m.Ok apart)
    (others : ∀ key slice, m.slices key = some slice -> slice.Valid heap) (valid : slice.Valid heap)
    (own : apart key -> ∀ other slice', apart other -> other ≠ key ->
      m.slices other = some slice' -> slice'.array ≠ slice.array) :
    (m.set key heap slice).Ok apart where
  valid other slice' isSlice := by
    rw [slices_set] at isSlice
    split_ifs at isSlice
    · cases isSlice
      exact valid
    · exact others other slice' isSlice
  apart first second slice' slice'' firstApart secondApart isFirst isSecond
      sameArray := by
    rw [slices_set] at isFirst isSecond
    split_ifs at isFirst isSecond with firstSame secondSame secondSame
    · rw [firstSame, secondSame]
    · cases isFirst
      exact absurd sameArray.symm
        (own (firstSame ▸ firstApart) second slice'' secondApart secondSame isSecond)
    · cases isSecond
      exact absurd sameArray
        (own (secondSame ▸ secondApart) first slice' firstApart firstSame isFirst)
    · exact ok.apart first second slice' slice'' firstApart secondApart isFirst isSecond sameArray
  listed other slice' isSlice := by
    rw [slices_set] at isSlice
    unfold CidrMap.set
    split_ifs at isSlice with same
    · subst same
      by_cases known : (m.slices other).isSome
      · obtain ⟨slice'', isOld⟩ := Option.isSome_iff_exists.mp known
        simpa [known] using ok.listed other slice'' isOld
      · simp [known]
    · have old := ok.listed other slice' isSlice
      by_cases known : (m.slices key).isSome <;> simp [known, old]

theorem Ok.ensure (ok : m.Ok apart) (key : Int32) (cap : Nat) : (m.ensure key cap).Ok apart := by
  unfold CidrMap.ensure
  split
  · exact ok
  · refine ok.set (fun other slice' isSlice =>
      (ok.valid other slice' isSlice).make [] cap) (HeapSlice.valid_make _ _) ?_
    intro _ other slice' _ _ isSlice
    exact Nat.ne_of_lt (ok.valid other slice' isSlice).made

theorem slices_ensure_self (m : CidrMap) (key : Int32) (cap : Nat) :
    ∃ slice, (m.ensure key cap).slices key = some slice := by
  unfold ensure
  split
  · exact ⟨_, by assumption⟩
  · exact ⟨_, by rw [slices_set, if_pos rfl]⟩

theorem slices_ensure_of_ne (cap : Nat) (different : other ≠ key) :
    (m.ensure key cap).slices other = m.slices other := by
  unfold ensure
  split
  · rfl
  · rw [slices_set, if_neg different]

theorem read_ensure (ok : m.Ok apart) (key other : Int32) (cap : Nat) :
    (m.ensure key cap).read other = m.read other := by
  unfold ensure
  split
  · rfl
  · rename_i missing
    unfold read
    rw [slices_set]
    split_ifs with same
    · rw [same, missing]
      exact HeapSlice.read_make _ _
    · cases isSlice : m.slices other with
      | none => rfl
      | some slice => exact HeapSlice.read_make_of_valid (ok.valid other slice isSlice) [] cap

theorem valid_or_nil (ok : m.Ok apart) (source : Int32) :
    ((m.slices source).getD .nil).Valid m.heap ∨ ((m.slices source).getD .nil).cap = 0 := by
  cases isSlice : m.slices source with
  | none => exact .inr rfl
  | some slice => exact .inl (ok.valid source slice isSlice)

/-- Appending keeps a map valid if the new list may share the array it is made
from. -/
theorem Ok.appendTo (ok : m.Ok apart)
    (sharing : apart target -> target = source ∧ ∃ slice, m.slices source = some slice) :
    (m.appendTo rt target source info).Ok apart := by
  refine ok.set (fun other slice' isSlice =>
      (ok.valid other slice' isSlice).append rt.grow _ info)
    (HeapSlice.valid_append (valid_or_nil ok source) rt.grow info) ?_
  intro targetApart other slice' otherApart different isSlice
  obtain ⟨rfl, slice, isSource⟩ := sharing targetApart
  rw [isSource, Option.getD_some]
  rcases slice.array_append rt.grow m.heap info with ⟨old, _⟩ | new
  · rw [old]
    intro same
    exact different (ok.apart other target slice' slice otherApart targetApart
      isSlice isSource same)
  · rw [new]
    exact Nat.ne_of_lt (ok.valid other slice' isSlice).made

theorem read_appendTo_self (ok : m.Ok apart) :
    (m.appendTo rt target source info).read target = m.read source ++ [info] := by
  have appended := HeapSlice.read_append (valid_or_nil ok source) rt.grow info
  have old : ((m.slices source).getD .nil).read m.heap = m.read source := by
    unfold read
    cases m.slices source with
    | none => rfl
    | some slice => rfl
  rw [old] at appended
  rw [← appended]
  unfold read appendTo
  simp only [slices_set, if_true]
  rfl

theorem slices_appendTo_self (isSource : m.slices source = some slice) :
    (m.appendTo rt target source info).slices target =
      some (slice.append rt.grow m.heap info).2 := by
  simp only [appendTo, slices_set, isSource, Option.getD_some, if_true]

theorem slices_appendTo_of_ne (different : other ≠ target) :
    (m.appendTo rt target source info).slices other = m.slices other := by
  unfold appendTo
  rw [slices_set, if_neg different]

theorem len_eq (ok : m.Ok apart) (isSlice : m.slices key = some slice) :
    slice.len = (m.read key).length := by
  simp only [read, isSlice]
  exact (ok.valid key slice isSlice).length_read.symm

@[simp] theorem slices_sortKey (rt : Runtime) (m : CidrMap) (key : Int32) :
    (m.sortKey rt key).slices = m.slices := by
  unfold sortKey
  split <;> rfl

@[simp] theorem keys_sortKey (rt : Runtime) (m : CidrMap) (key : Int32) :
    (m.sortKey rt key).keys = m.keys := by
  unfold sortKey
  split <;> rfl

theorem mem_arrays_sortKey :
    found ∈ (m.sortKey rt key).heap.arrays array ↔ found ∈ m.heap.arrays array := by
  unfold sortKey
  split
  · exact HeapSlice.mem_arrays_sortBy rt.sort_perm
  · rfl

theorem Ok.sortKey (ok : m.Ok apart) (key : Int32) : (m.sortKey rt key).Ok apart where
  valid other slice' isSlice := by
    rw [slices_sortKey] at isSlice
    have valid := ok.valid other slice' isSlice
    unfold CidrMap.sortKey
    split
    · exact valid.sortBy rt.sort_perm _
    · exact valid
  apart := by
    rw [slices_sortKey]
    exact ok.apart
  listed := by
    rw [slices_sortKey, keys_sortKey]
    exact ok.listed

/-- Sorting one list after another changes no list to another array. -/
theorem sortAll_spec (rt : Runtime) (ok : m.Ok apart) (step : Nat) :
    (m.sortAll rt step).Ok apart ∧ (m.sortAll rt step).slices = m.slices ∧
      ∀ array found, found ∈ (m.sortAll rt step).heap.arrays array ↔
        found ∈ m.heap.arrays array := by
  unfold sortAll
  induction rt.order step m.keys generalizing m with
  | nil => exact ⟨ok, rfl, fun _ _ => .rfl⟩
  | cons key rest ih =>
    obtain ⟨stillOk, sameSlices, sameElements⟩ := ih (ok.sortKey key)
    refine ⟨stillOk, sameSlices.trans (slices_sortKey ..), fun array found => ?_⟩
    exact (sameElements array found).trans mem_arrays_sortKey

theorem read_sortKey_self (ok : m.Ok apart) :
    (m.sortKey rt key).read key = rt.sort (m.read key) := by
  cases isSlice : m.slices key with
  | none =>
    have nothing : rt.sort [] = [] := (rt.sort_perm []).eq_nil
    simp only [read, slices_sortKey, isSlice, nothing]
  | some slice =>
    simp only [read, isSlice, sortKey]
    exact HeapSlice.read_sortBy_self rt.sort_perm (ok.valid key slice isSlice)

/-- The lists of other keys stay if no two lists share an array. -/
theorem read_sortKey_of_ne (ok : m.Ok fun _ => True) (different : other ≠ key) :
    (m.sortKey rt key).read other = m.read other := by
  cases isOther : m.slices other with
  | none => simp only [read, slices_sortKey, isOther]
  | some slice' =>
    simp only [read, slices_sortKey, isOther]
    unfold sortKey
    split
    · rename_i slice isSlice
      refine HeapSlice.read_sortBy_of_ne fun same => ?_
      exact different (ok.apart other key slice' slice trivial trivial isOther isSlice same)
    · rfl

/-- The lists keep their elements, and every list is sorted. -/
theorem read_sortAll (rt : Runtime) (ok : m.Ok fun _ => True) (step : Nat) (key : Int32) :
    ((m.sortAll rt step).read key).Perm (m.read key) ∧
      (key ∈ m.keys -> ((m.sortAll rt step).read key).Pairwise (falling CidrInfo.maskSize)) := by
  have run : ∀ (keys : List Int32) (m : CidrMap), m.Ok (fun _ => True) ->
      ((keys.foldl (sortKey rt) m).read key).Perm (m.read key) ∧
        (key ∈ keys ∨ (m.read key).Pairwise (falling CidrInfo.maskSize) ->
          ((keys.foldl (sortKey rt) m).read key).Pairwise (falling CidrInfo.maskSize)) := by
    intro keys
    induction keys with
    | nil =>
      intro m _
      exact ⟨.rfl, fun sorted => sorted.resolve_left (by simp)⟩
    | cons head rest ih =>
      intro m ok
      obtain ⟨perm, sorted⟩ := ih (m.sortKey rt head) (ok.sortKey head)
      rw [foldl_cons]
      by_cases same : key = head
      · subst same
        rw [read_sortKey_self ok] at perm sorted
        exact ⟨perm.trans (rt.sort_perm _), fun _ => sorted (.inr (rt.sort_falling _))⟩
      · rw [read_sortKey_of_ne ok same] at perm sorted
        refine ⟨perm, fun known => sorted ?_⟩
        rcases known with mem | already
        · exact .inl ((mem_cons.mp mem).resolve_left same)
        · exact .inr already
  obtain ⟨perm, sorted⟩ := run (rt.order step m.keys) m ok
  exact ⟨perm, fun mem => sorted (.inl ((rt.order_perm step m.keys).mem_iff.mpr mem))⟩

end CidrMap

open CidrMap

theorem wanCidrs_concat (ipv4 : Bool) (entered : List (Bool × CidrInfo)) (entry : Bool × CidrInfo) :
    wanCidrs ipv4 (entered ++ [entry]) = wanCidrs ipv4 entered ++
      if entry.1 == ipv4 && entry.2.isWan then [entry.2] else [] := by
  unfold wanCidrs
  rw [filter_append, map_append]
  by_cases counted : (entry.1 == ipv4 && entry.2.isWan) = true <;>
    simp [counted]

/-- No two lists of IPv6 CIDRs share an array, and the list of EPC 0 has the
WAN CIDRs. -/
structure Holds6 (m : CidrMap) (entered : List (Bool × CidrInfo)) : Prop where
  ok : m.Ok fun _ => True
  zero : (m.read 0).Perm (wanCidrs false entered)
  sorted : (m.read 0).Pairwise (falling CidrInfo.maskSize)

variable {m : CidrMap} {rt : Runtime} {info : CidrInfo}

variable {key : Int32} {slice : HeapSlice}

theorem read_appendTo_of_ne
    (ok : m.Ok fun _ => True) (isSlice : m.slices key = some slice) (different : other ≠ key) :
    (m.appendTo rt key key info).read other = m.read other := by
  simp only [CidrMap.read, slices_appendTo_of_ne different]
  cases isOther : m.slices other with
  | none => rfl
  | some slice' =>
    have apart : slice'.array ≠ slice.array := fun same =>
      different (ok.apart other key slice' slice trivial trivial isOther isSlice same)
    simp only [CidrMap.appendTo, CidrMap.set, isSlice, Option.getD_some]
    exact HeapSlice.read_append_of_ne (ok.valid other slice' isOther) apart _ _

theorem addIPV6_spec (rt : Runtime) (ok : m.Ok fun _ => True) (notZero : info.epcID ≠ 0) :
    (addIPV6 rt m info).Ok (fun _ => True) ∧
      (addIPV6 rt m info).read 0 = m.read 0 ++ if info.isWan then [info] else [] := by
  have listed := slices_ensure_self m info.epcID 1
  have ensured := ok.ensure info.epcID 1
  have added : ((m.ensure info.epcID 1).appendTo rt info.epcID info.epcID
      info).Ok (fun _ => True) := ensured.appendTo fun _ => ⟨rfl, listed⟩
  obtain ⟨slice, isSlice⟩ := listed
  have zero : ((m.ensure info.epcID 1).appendTo rt info.epcID info.epcID
      info).read 0 = m.read 0 := by
    rw [read_appendTo_of_ne ensured isSlice (Ne.symm notZero), read_ensure ok]
  unfold addIPV6
  by_cases isWan : info.isWan
  · simp only [isWan, if_true]
    exact ⟨(added.ensure 0 128).appendTo fun _ => ⟨rfl, slices_ensure_self _ 0 128⟩,
      by rw [read_appendTo_self (added.ensure 0 128), read_ensure added, zero]⟩
  · simp only [isWan, Bool.false_eq_true, if_false, append_nil]
    exact ⟨added, zero⟩

variable {entered : List (Bool × CidrInfo)}

theorem Holds6.step
    (rt : Runtime) (step : Nat) (holds : Holds6 m entered) (notZero : entry.2.epcID ≠ 0) :
    Holds6 (CidrMap.sortAll rt step (if entry.1 then m else addIPV6 rt m entry.2))
      (entered ++ [entry]) := by
  obtain ⟨added, zero⟩ : (if entry.1 then m else addIPV6 rt m entry.2).Ok (fun _ => True) ∧
      ((if entry.1 then m else addIPV6 rt m entry.2).read 0).Perm
        (wanCidrs false (entered ++ [entry])) := by
    rw [wanCidrs_concat]
    cases isIPv4 : entry.1 with
    | true => simpa [isIPv4] using ⟨holds.ok, holds.zero⟩
    | false =>
      obtain ⟨ok, isRead⟩ := addIPV6_spec rt holds.ok notZero
      rw [if_neg (by simp), isRead]
      exact ⟨ok, holds.zero.append_right _⟩
  obtain ⟨perm, sorted⟩ := read_sortAll rt added step 0
  obtain ⟨stillOk, sameSlices, _⟩ := sortAll_spec rt added step
  refine ⟨stillOk, perm.trans zero, ?_⟩
  cases isSlice : (if entry.1 then m else addIPV6 rt m entry.2).slices 0 with
  | some slice => exact sorted (added.listed 0 slice isSlice)
  | none =>
    simp only [CidrMap.read, sameSlices, isSlice]
    exact .nil

/-- The elements of an array belong to one EPC. -/
def OfEpc (heap : Heap CidrInfo) (epc : Int32) (array : Nat) : Prop :=
  ∀ info ∈ heap.arrays array, info.epcID = epc

/-- Two slices on one array with elements have the same EPC. -/
theorem OfEpc.unique {heap : Heap CidrInfo}
    (ofEpc : OfEpc heap epc slice.array) (ofEpc' : OfEpc heap epc' slice.array)
    (valid : slice.Valid heap) (nonempty : 0 < slice.len) : epc = epc' := by
  obtain ⟨info, mem⟩ := exists_mem_of_length_pos (Nat.lt_of_lt_of_le nonempty valid.inside)
  rw [← ofEpc info mem, ofEpc' info mem]

/-- The lists of the EPCs do not share arrays, and each has only elements of
its EPC. -/
structure Owned (m : CidrMap) : Prop where
  ok : m.Ok fun key => key ≠ 0
  own : ∀ key slice, key ≠ 0 -> m.slices key = some slice -> OfEpc m.heap key slice.array

theorem length_read_of_slices {next : CidrMap} {apart apart' : Int32 -> Prop}
    (ok : m.Ok apart) (ok' : next.Ok apart') (same : next.slices key = m.slices key) :
    (next.read key).length = (m.read key).length := by
  simp only [CidrMap.read, same]
  cases isSlice : m.slices key with
  | none => rfl
  | some slice =>
    change (slice.read next.heap).length = (slice.read m.heap).length
    rw [(ok'.valid key slice (same.trans isSlice)).length_read,
      (ok.valid key slice isSlice).length_read]

theorem Owned.ensure (owned : Owned m) (key : Int32) (cap : Nat) : Owned (m.ensure key cap) := by
  refine ⟨owned.ok.ensure key cap, ?_⟩
  unfold CidrMap.ensure
  split
  · exact owned.own
  · intro other slice notZero isSlice info mem
    rw [slices_set] at isSlice
    split_ifs at isSlice
    · cases isSlice
      change info ∈ Function.update m.heap.arrays m.heap.count [] m.heap.count at mem
      rw [Function.update_self] at mem
      cases mem
    · have made := (owned.ok.valid other slice isSlice).made
      change info ∈ Function.update m.heap.arrays m.heap.count [] slice.array at mem
      rw [Function.update_of_ne (Nat.ne_of_lt made)] at mem
      exact owned.own other slice notZero isSlice info mem

/-- Appending to the list of an EPC changes only the array of the new list,
still one of the EPC. -/
theorem ofEpc_appendTo {m : CidrMap} {rt : Runtime} {target : Int32} {slice : HeapSlice}
    {info : CidrInfo} (owned : Owned m) (notZero : info.epcID ≠ 0)
    (isSlice : m.slices info.epcID = some slice) (array : Nat) :
    OfEpc (m.appendTo rt target info.epcID info).heap info.epcID array ∧
        array = (slice.append rt.grow m.heap info).2.array ∨
      (m.appendTo rt target info.epcID info).heap.arrays array = m.heap.arrays array ∧
        array ≠ (slice.append rt.grow m.heap info).2.array := by
  have isHeap : (m.appendTo rt target info.epcID info).heap =
      (slice.append rt.grow m.heap info).1 := by
    simp only [CidrMap.appendTo, CidrMap.set, isSlice, Option.getD_some]
  rw [isHeap]
  by_cases same : array = (slice.append rt.grow m.heap info).2.array
  · refine .inl ⟨fun found mem => ?_, same⟩
    rw [same] at mem
    rcases HeapSlice.mem_array_append mem with rfl | mem
    · rfl
    · exact owned.own info.epcID slice notZero isSlice found mem
  · exact .inr ⟨HeapSlice.arrays_append_of_ne same, same⟩

/-- Another list that has the array of the new list had it before. -/
theorem array_of_shared {apart : Int32 -> Prop} (ok : m.Ok apart)
    (isOther : m.slices other = some slice')
    (shared : slice'.array = (slice.append rt.grow m.heap info).2.array) :
    slice'.array = slice.array := by
  rcases slice.array_append rt.grow m.heap info with ⟨old, _⟩ | new
  · rw [shared, old]
  · have made := (ok.valid other slice' isOther).made
    rw [shared, new] at made
    exact absurd made (Nat.lt_irrefl _)

theorem Owned.appendTo (owned : Owned m) (notZero : info.epcID ≠ 0)
    (isSlice : m.slices info.epcID = some slice) (isTarget : target = info.epcID ∨ target = 0) :
    Owned (m.appendTo rt target info.epcID info) := by
  refine ⟨owned.ok.appendTo fun targetNotZero =>
    ⟨isTarget.resolve_right targetNotZero, slice, isSlice⟩, ?_⟩
  intro key slice' keyNotZero isKey
  have changed := @ofEpc_appendTo m rt target slice info owned notZero isSlice slice'.array
  by_cases same : key = target
  · obtain rfl : key = info.epcID := same.trans (isTarget.resolve_right (same ▸ keyNotZero))
    subst same
    have isNew : slice' = (slice.append rt.grow m.heap info).2 :=
      Option.some.inj (isKey.symm.trans (slices_appendTo_self isSlice))
    rcases changed with ⟨ofEpc, _⟩ | ⟨_, different⟩
    · exact ofEpc
    · exact absurd (congrArg HeapSlice.array isNew) different
  · rw [slices_appendTo_of_ne same] at isKey
    rcases changed with ⟨ofEpc, shared⟩ | ⟨unchanged, _⟩
    · have sameKey := owned.ok.apart key info.epcID slice' slice keyNotZero
        notZero isKey isSlice (array_of_shared owned.ok isKey shared)
      rwa [sameKey]
    · unfold OfEpc
      rw [unchanged]
      exact owned.own key slice' keyNotZero isKey

theorem Owned.sortAll (owned : Owned m) (rt : Runtime) (step : Nat) :
    Owned (m.sortAll rt step) := by
  obtain ⟨ok, sameSlices, sameElements⟩ := sortAll_spec rt owned.ok step
  refine ⟨ok, fun key slice notZero isSlice info mem => ?_⟩
  rw [sameSlices] at isSlice
  exact owned.own key slice notZero isSlice info ((sameElements _ info).mp mem)

/-- The number of IPv4 CIDRs of an EPC. -/
def countEpc (entered : List (Bool × CidrInfo)) (epc : Int32) : Nat :=
  entered.countP fun entry => entry.1 && decide (entry.2.epcID = epc)

theorem countP_wanCidrs_le (entered : List (Bool × CidrInfo)) (epc : Int32) :
    (wanCidrs true entered).countP (fun info => decide (info.epcID = epc)) ≤
      countEpc entered epc := by
  unfold wanCidrs countEpc
  rw [countP_map, countP_filter]
  apply countP_mono_left
  intro entry _ both
  simp only [Function.comp_apply, beq_true, Bool.and_eq_true] at both ⊢
  exact ⟨both.2.1, both.1⟩

/-- The list of EPC 0 after WAN CIDRs were entered: all of one EPC, and more
than its WAN CIDRs. -/
def Foreign (m : CidrMap) (wan : List CidrInfo) : Prop :=
  (m.slices 0 = none ∧ wan = []) ∨
    ∃ slice epc, m.slices 0 = some slice ∧ OfEpc m.heap epc slice.array ∧
      wan.countP (fun info => decide (info.epcID = epc)) < slice.len ∧ wan ≠ []

structure Holds4 (m : CidrMap) (entered : List (Bool × CidrInfo)) : Prop where
  owned : Owned m
  lengths : ∀ key, key ≠ 0 -> (m.read key).length = countEpc entered key
  zero : Foreign m (wanCidrs true entered)

section

variable (foreign : Foreign m wan) (owned : Owned m)
include foreign owned

theorem Foreign.sortAll (rt : Runtime) (step : Nat) : Foreign (m.sortAll rt step) wan := by
  obtain ⟨_, sameSlices, sameElements⟩ := sortAll_spec rt owned.ok step
  unfold Foreign
  rw [sameSlices]
  rcases foreign with none | ⟨slice, epc, isSlice, ofEpc, more⟩
  · exact .inl none
  · exact .inr ⟨slice, epc, isSlice, fun info mem =>
      ofEpc info ((sameElements _ info).mp mem), more⟩

theorem Foreign.ensure (notZero : key ≠ 0) (cap : Nat) : Foreign (m.ensure key cap) wan := by
  unfold CidrMap.ensure
  split
  · exact foreign
  · unfold Foreign
    rw [slices_set, if_neg (Ne.symm notZero)]
    rcases foreign with none | ⟨slice, epc, isSlice, ofEpc, more⟩
    · exact .inl none
    · refine .inr ⟨slice, epc, isSlice, fun info mem => ?_, more⟩
      have made := (owned.ok.valid 0 slice isSlice).made
      change info ∈ Function.update m.heap.arrays m.heap.count [] slice.array at mem
      rw [Function.update_of_ne (Nat.ne_of_lt made)] at mem
      exact ofEpc info mem

/-- A CIDR that is added may take the place of an element of the list of EPC 0
only if both belong to its EPC. -/
theorem Foreign.appendTo (notZero : info.epcID ≠ 0) (isSlice : m.slices info.epcID = some slice) :
    Foreign (m.appendTo rt info.epcID info.epcID info) wan := by
  unfold Foreign
  rw [slices_appendTo_of_ne (Ne.symm notZero)]
  rcases foreign with none | ⟨zero, epc, isZero, ofEpc, more⟩
  · exact .inl none
  · refine .inr ⟨zero, epc, isZero, ?_, more⟩
    rcases @ofEpc_appendTo m rt info.epcID slice info owned notZero isSlice
      zero.array with ⟨ofInfo, shared⟩ | ⟨unchanged, _⟩
    · have sameArray := array_of_shared owned.ok isZero shared
      have ofInfoBefore : OfEpc m.heap info.epcID zero.array := by
        rw [sameArray]
        exact owned.own info.epcID slice notZero isSlice
      rwa [ofEpc.unique ofInfoBefore (owned.ok.valid 0 zero isZero)
        (Nat.lt_of_le_of_lt (Nat.zero_le _) more.1)]
    · unfold OfEpc
      rw [unchanged]
      exact ofEpc

end

theorem countEpc_concat (entered : List (Bool × CidrInfo)) (entry : Bool × CidrInfo) (epc : Int32) :
    countEpc (entered ++ [entry]) epc = countEpc entered epc +
      if entry.1 && decide (entry.2.epcID = epc) then 1 else 0 := by
  unfold countEpc
  rw [countP_append, countP_singleton]

variable (rt : Runtime)

/-- The lists of the EPCs after a CIDR was added to its own. -/
theorem lengths_add (holds : Holds4 m entered)
    (added : Owned ((m.ensure info.epcID 1).appendTo rt info.epcID info.epcID info))
    (key : Int32) (keyNotZero : key ≠ 0) :
    (((m.ensure info.epcID 1).appendTo rt info.epcID info.epcID info).read
      key).length = countEpc (entered ++ [(true, info)]) key := by
  have ensured := holds.owned.ensure info.epcID 1
  rw [countEpc_concat, ← holds.lengths key keyNotZero,
    ← read_ensure holds.owned.ok info.epcID key 1]
  by_cases same : key = info.epcID
  · subst same
    rw [read_appendTo_self ensured.ok]
    simp
  · rw [length_read_of_slices ensured.ok added.ok (slices_appendTo_of_ne same)]
    simp [Ne.symm same]

theorem Holds4.add (holds : Holds4 m entered) (notZero : info.epcID ≠ 0) :
    Holds4 (addIPV4 rt m info) (entered ++ [(true, info)]) := by
  have ensured := holds.owned.ensure info.epcID 1
  obtain ⟨slice, isSlice⟩ := slices_ensure_self m info.epcID 1
  have added : Owned ((m.ensure info.epcID 1).appendTo rt info.epcID
      info.epcID info) := ensured.appendTo notZero isSlice (.inl rfl)
  have lengths := lengths_add rt holds added
  have wan := wanCidrs_concat true entered (true, info)
  unfold addIPV4
  by_cases isWan : info.isWan
  · simp only [isWan, if_true]
    have zeroEnsured := added.ensure 0 128
    have isSource := (slices_ensure_of_ne 128 notZero).trans
      (@slices_appendTo_self _ rt info.epcID _ _ info isSlice)
    have final : Owned (CidrMap.appendTo rt (CidrMap.ensure _ 0 128) 0
      info.epcID info) := zeroEnsured.appendTo notZero isSource (.inr rfl)
    have isZero := @slices_appendTo_self _ rt 0 _ _ info isSource
    refine ⟨final, fun key keyNotZero => ?_,
      .inr ⟨_, info.epcID, isZero, ?_, ?_, by simp [wan, isWan]⟩⟩
    · rw [length_read_of_slices zeroEnsured.ok final.ok
        (slices_appendTo_of_ne keyNotZero), read_ensure added.ok]
      exact lengths key keyNotZero
    · rcases @ofEpc_appendTo _ rt 0 _ info zeroEnsured notZero isSource _ with
        ⟨ofEpc, _⟩ | ⟨_, different⟩
      · exact ofEpc
      · exact absurd rfl different
    · rw [len_eq final.ok isZero, read_appendTo_self zeroEnsured.ok,
        read_ensure added.ok, length_append, lengths _ notZero]
      exact Nat.lt_succ_of_le (countP_wanCidrs_le _ _)
  · simp only [isWan, Bool.false_eq_true, if_false]
    refine ⟨added, lengths, ?_⟩
    have same : wanCidrs true (entered ++ [(true, info)]) = wanCidrs true entered := by
      simpa [isWan] using wan
    rw [same]
    exact (holds.zero.ensure holds.owned notZero 1).appendTo ensured notZero isSlice

theorem Holds4.step {m : CidrMap}
    (step : Nat) (holds : Holds4 m entered) (notZero : entry.2.epcID ≠ 0) :
    Holds4 (CidrMap.sortAll rt step (if entry.1 then addIPV4 rt m entry.2 else m))
      (entered ++ [entry]) := by
  have added : Holds4 (if entry.1 then addIPV4 rt m entry.2 else m) (entered ++ [entry]) := by
    obtain ⟨ipv4, info⟩ := entry
    cases ipv4 with
    | true => exact holds.add rt notZero
    | false =>
      refine ⟨holds.owned, fun key keyNotZero => ?_, ?_⟩
      · rw [countEpc_concat]
        exact holds.lengths key keyNotZero
      · rw [wanCidrs_concat]
        simpa using holds.zero
  obtain ⟨ok, sameSlices, _⟩ := sortAll_spec rt added.owned.ok step
  refine ⟨added.owned.sortAll rt step, fun key keyNotZero => ?_,
    added.zero.sortAll added.owned rt step⟩
  rw [length_read_of_slices added.owned.ok ok (congrFun sameSlices key)]
  exact added.lengths key keyNotZero

theorem holds_foldl_enter (rest entered : List (Bool × CidrInfo))
    (notZero : ∀ entry ∈ rest, entry.2.epcID ≠ 0) (t : CidrTables)
    (holds4 : Holds4 t.epcIDIPV4CidrInfos entered) (holds6 : Holds6 t.epcIDIPV6CidrInfos entered) :
    Holds4 (rest.foldl (fun t entry => t.enter rt entry.1 entry.2)
        t).epcIDIPV4CidrInfos (entered ++ rest) ∧
      Holds6 (rest.foldl (fun t entry => t.enter rt entry.1 entry.2)
        t).epcIDIPV6CidrInfos (entered ++ rest) := by
  induction rest generalizing t entered with
  | nil =>
    rw [append_nil]
    exact ⟨holds4, holds6⟩
  | cons entry rest ih =>
    obtain ⟨headNotZero, restNotZero⟩ := forall_mem_cons.mp notZero
    rw [append_cons]
    exact ih _ restNotZero _ (holds4.step rt t.hitCounters headNotZero)
      (holds6.step rt t.hitCounters headNotZero)

/-- The tables of the CIDRs of platform data. -/
def buildCidrs (rt : Runtime) (parseCIDR : String -> Option Net.IPNet)
    (cidrs : List TridentCidr) : CidrTables :=
  cidrs.foldl (updateCidrInfos rt parseCIDR) {}

theorem holds_buildCidrs (parseCIDR : String -> Option Net.IPNet) (cidrs : List TridentCidr) :
    Holds4 (buildCidrs rt parseCIDR cidrs).epcIDIPV4CidrInfos (enteredFrom parseCIDR 0 cidrs) ∧
      Holds6 (buildCidrs rt parseCIDR cidrs).epcIDIPV6CidrInfos
        (enteredFrom parseCIDR 0 cidrs) := by
  rw [buildCidrs, foldl_updateCidrInfos]
  refine holds_foldl_enter rt _ [] (fun entry mem => epcID_ne_zero mem) {} ?_ ?_
  · exact ⟨⟨ok_empty, fun _ _ _ isSlice => by cases isSlice⟩, fun _ _ => rfl, .inl ⟨rfl, rfl⟩⟩
  · exact ⟨ok_empty, .rfl, .nil⟩

end Metaflow.Grpc.Cidrs
