import Metaflow.Library.Run

/-!
# The sequence numbers one TCP peer has sent

A `SessionPeer` keeps at most sixteen segments in one array, largest first, and
classifies every payload against them. An `assert!`, an `unreachable!`, an index
outside the array and an overflow are all `none`.
-/

namespace Metaflow.FlowGenerator

open Function Option
open Library

/-- The numbers `seq, ..., seq + len - 1`. -/
structure SeqSegment where
  seq : UInt32 := 0
  len : UInt32 := 0
  deriving Repr, DecidableEq

inductive PacketSeqType where
  | error
  | retrans
  | notCare
  | merge
  | discontinuous
  | continuous
  | bothContinuous
  deriving Repr, DecidableEq

/-- The two bits `LT_CONTINUOUS` and `GTE_CONTINUOUS`. -/
structure ContinuousFlags where
  lt : Bool
  gte : Bool
  deriving Repr, DecidableEq

def seqListMaxLen : Nat := 16

/-- Index into the fixed array; the slots from `seqListMaxLen` on do not
exist. -/
abbrev SeqList := Nat -> SeqSegment

/-- The fields of `SessionPeer` that the segment list uses. -/
structure SessionPeer where
  seqList : SeqList := fun _ => {}
  seqListLen : Nat := 0

def seqNumberLowThreshold : UInt32 := 0x40000000

def seqNumberHighThreshold : UInt32 := 0xc0000000

/-- Addition of `u32` values, which panics on overflow. -/
def checkedAdd (left right : UInt32) : Option UInt32 :=
  if left.toNat + right.toNat < UInt32.size then some (left + right)
  else none

/-- The expression `s.seq + s.len`. -/
def SeqSegment.next (segment : SeqSegment) : Option UInt32 :=
  checkedAdd segment.seq segment.len

namespace SeqList

/-- `list[first..].rotate_right(1)` on the whole tail of the array. -/
def rotateRight (list : SeqList) (first : Nat) : SeqList := fun slot =>
  if slot < first then list slot
  else if slot = first then list (seqListMaxLen - 1)
  else list (slot - 1)

/-- `list[first..last].rotate_left(1)`. -/
def rotateLeft (list : SeqList) (first last : Nat) : SeqList := fun slot =>
  if slot < first ∨ last ≤ slot then list slot
  else if slot + 1 = last then list first
  else list (slot + 1)

end SeqList

namespace SessionPeer

variable (peer : SessionPeer) (list : SeqList) (segment : SeqSegment)

/-- The live part of the array. -/
def live : List SeqSegment :=
  (List.range peer.seqListLen).map peer.seqList

/-- Move the segments behind a merged one to the front. -/
def closeGap (index count : Nat) : Option SeqList :=
  if index < count - 2 then
    if count ≤ seqListMaxLen then some (list.rotateLeft (index + 1) count)
    else none
  else some list

/-- Merge `array[index + 1]` into `array[index]`. -/
def mergeSeqList (index : Nat) : Option SessionPeer :=
  if index + 1 < peer.seqListLen ∧ index + 1 < seqListMaxLen then
    let gte := peer.seqList index
    let lt := peer.seqList (index + 1)
    let merged : SeqSegment :=
      { seq := lt.seq, len := gte.seq - lt.seq + gte.len }
    let list := Function.update (Function.update peer.seqList index merged) (index + 1) {}
    (closeGap list index peer.seqListLen).map fun list =>
      { seqList := list, seqListLen := peer.seqListLen - 1 }
  else none

def insertSeqSegment (index : Nat) (segment : SeqSegment) : Option SessionPeer :=
  if index < seqListMaxLen then
    let list :=
      if index < peer.seqListLen then peer.seqList.rotateRight index
      else peer.seqList
    some {
      seqList := Function.update list index segment
      seqListLen := peer.seqListLen + 1 }
  else none

/-- The numbers wrapped: the segment is in the lowest quarter and the largest
ends in the highest. -/
def seqCycled : Option Bool :=
  if segment.seq < seqNumberLowThreshold then
    (peer.seqList 0).next.map fun next =>
      decide (seqNumberHighThreshold < next)
  else some false

/-- The segment is from before the numbers wrapped around. -/
def seqOutdated : Option Bool :=
  if seqNumberHighThreshold < segment.seq then
    (peer.seqList 0).next.map fun next =>
      decide (next < seqNumberLowThreshold)
  else some false

/-- The comparison of a segment with the largest one; `false` when the segment
has been dealt with. -/
def checkSeqSegment : Option (SessionPeer × Bool) :=
  if segment.seq + segment.len < segment.seq then some (peer, false)
  else if peer.seqListLen = 0 then
    (peer.insertSeqSegment 0 segment).map fun peer => (peer, false)
  else do
    if ← peer.seqCycled segment then
      (insertSeqSegment {} 0 segment).map fun peer => (peer, false)
    else
      (peer.seqOutdated segment).map fun outdated => (peer, !outdated)

/-- The first live slot with a smaller sequence number, and `seqListLen` if
there is none. -/
def searchFrom (list : SeqList) (segment : SeqSegment) (slot : Nat) : Nat -> Nat
  | 0 => slot
  | count + 1 =>
    if (list slot).seq < segment.seq then slot
    else searchFrom list segment (slot + 1) count

/-- The slots of the next smaller and next larger segment, and the index of the
segment. -/
def search : Option (Option Nat × Option Nat × Nat) :=
  if peer.seqListLen = 0 then some (none, none, 0)
  else if peer.seqListLen ≤ seqListMaxLen then
    let index := searchFrom peer.seqList segment 0 peer.seqListLen
    if index = 0 then some (some index, none, index)
    else if index = peer.seqListLen then some (none, some (index - 1), index)
    else some (some index, some (index - 1), index)
  else none

def extendLt : Option Nat -> Option (SeqList × Bool)
  | none => some (list, false)
  | some slot => do
      let next ← (list slot).next
      if next = segment.seq then
        (checkedAdd (list slot).len segment.len).map fun len =>
          (Function.update list slot { list slot with len := len }, true)
      else some (list, false)

def extendGte : Option Nat -> Option (SeqList × Bool)
  | none => some (list, false)
  | some slot => do
      let next ← segment.next
      if next = (list slot).seq then
        (checkedAdd (list slot).len segment.len).map fun len =>
          (Function.update list slot { seq := segment.seq, len := len }, true)
      else some (list, false)

def checkAndUpdateContinuousSegment (lt gte : Option Nat)
    (segment : SeqSegment) : Option (SeqList × ContinuousFlags) := do
  let (list, ltContinuous) ← extendLt list segment lt
  let (list, gteContinuous) ← extendGte list segment gte
  some (list, { lt := ltContinuous, gte := gteContinuous })

def checkRetrans (base segment : SeqSegment) : Option Bool :=
  if base.seq ≤ segment.seq then do
    let baseNext ← base.next
    let next ← segment.next
    some (decide (next ≤ baseNext))
  else some false

def isRetransSegment (lt gte : Option SeqSegment) (segment : SeqSegment) : Option Bool :=
  match lt, gte with
  | some lt, _ => checkRetrans lt segment
  | none, some gte => checkRetrans gte segment
  | none, none => none

/-- The first half of `is_error_segment`: `segment` runs into `gte` or beyond
it. -/
def reachesInto (gte segment : SeqSegment) : Option Bool := do
  let next ← segment.next
  if segment.seq < gte.seq ∧ gte.seq < next then some true
  else gte.next.map fun gteNext => decide (gteNext < next)

def isErrorSegment (lt gte : Option SeqSegment) (segment : SeqSegment) : Option Bool := do
  let intoGte ← gte.elim (some false) fun gte => reachesInto gte segment
  if intoGte then some true
  else lt.elim (some false) fun lt =>
    lt.next.map fun ltNext => decide (segment.seq < ltNext)

/-- The rest of `assert_seq_number`, for a segment that is neither old nor
overlapping. -/
def addSegment (index : Nat) (segment : SeqSegment) (list : SeqList) :
    ContinuousFlags -> Option (SessionPeer × PacketSeqType)
  | { lt := false, gte := false } => do
      let peer ← { peer with seqList := list }.insertSeqSegment index segment
      if seqListMaxLen ≤ peer.seqListLen then
        (peer.mergeSeqList (seqListMaxLen - 2)).map fun peer =>
          (peer, .merge)
      else some (peer, .discontinuous)
  | { lt := true, gte := true } =>
    ({ peer with seqList := list }.mergeSeqList (index - 1)).map
      fun peer => (peer, .bothContinuous)
  | _ => some ({ peer with seqList := list }, .continuous)

def classify : Option (SessionPeer × PacketSeqType) := do
  let (lt, gte, index) ← peer.search segment
  if ← isRetransSegment (lt.map peer.seqList) (gte.map peer.seqList) segment then
    some (peer, .retrans)
  else if ← isErrorSegment (lt.map peer.seqList) (gte.map peer.seqList) segment then
    some (peer, .error)
  else do
    let (list, flags) ← checkAndUpdateContinuousSegment peer.seqList lt gte segment
    peer.addSegment index segment list flags

def assertSeqNumber (seq : UInt32) (payloadLen : UInt16) : Option (SessionPeer × PacketSeqType) :=
  if payloadLen = 0 ∨ seq = 0 then some (peer, .notCare)
  else do
    let segment : SeqSegment := { seq := seq, len := payloadLen.toUInt32 }
    let (peer, passed) ← peer.checkSeqSegment segment
    if passed then peer.classify segment else some (peer, .notCare)

end SessionPeer

/-- A segment that is not empty and ends below `2 ^ 32`. -/
def SeqSegment.Valid (segment : SeqSegment) : Prop :=
  0 < segment.len.toNat ∧ segment.seq.toNat + segment.len.toNat < UInt32.size

theorem checkedAdd_eq_some {left right : UInt32} (fits : left.toNat + right.toNat < UInt32.size) :
    checkedAdd left right = some (left + right) :=
  if_pos fits

theorem toNat_add_of_fits {left right : UInt32} (fits : left.toNat + right.toNat < UInt32.size) :
    (left + right).toNat = left.toNat + right.toNat := by
  rw [UInt32.toNat_add]
  exact Nat.mod_eq_of_lt fits

variable {list : SeqList} {peer : SessionPeer} {count index : Nat} {segment : SeqSegment}

namespace SeqSegment
namespace Valid

theorem next_eq (valid : segment.Valid) : segment.next = some (segment.seq + segment.len) :=
  checkedAdd_eq_some valid.2

theorem toNat_next (valid : segment.Valid) :
    (segment.seq + segment.len).toNat = segment.seq.toNat + segment.len.toNat :=
  toNat_add_of_fits valid.2

end Valid
end SeqSegment

/-- The first `count` slots descend and hold valid segments. -/
structure Tracks (list : SeqList) (count : Nat) : Prop where
  descending : ∀ slot, slot + 1 < count -> (list (slot + 1)).seq ≤ (list slot).seq
  valid : ∀ slot, slot < count -> (list slot).Valid

namespace Tracks

section

variable (tracks : Tracks list count)
include tracks

theorem seq_le (ordered : earlier ≤ later) (inside : later < count) :
    (list later).seq ≤ (list earlier).seq := by
  induction ordered with
  | refl => exact UInt32.le_refl _
  | @step later _ ih => exact UInt32.le_trans (tracks.descending later inside) (ih (by omega))

/-- A slot may take any valid segment that lies between its neighbours. -/
theorem update (valid : segment.Valid) (below : 0 < index -> segment.seq ≤ (list (index - 1)).seq)
    (above : index + 1 < count -> (list (index + 1)).seq ≤ segment.seq) :
    Tracks (update list index segment) count where
  descending slot inside := by
    by_cases atIndex : slot = index
    · subst atIndex
      rw [update_self, update_of_ne (Nat.succ_ne_self slot)]
      exact above inside
    · rw [update_of_ne atIndex]
      by_cases nextIndex : slot + 1 = index
      · subst nextIndex
        rw [update_self]
        exact below (Nat.succ_pos slot)
      · rw [update_of_ne nextIndex]
        exact tracks.descending slot inside
  valid slot inside := by
    by_cases atIndex : slot = index
    · subst atIndex
      rwa [update_self]
    · rw [update_of_ne atIndex]
      exact tracks.valid slot inside

theorem of_eq {other : SeqList} (same : ∀ slot, slot < count -> other slot = list slot) :
    Tracks other count where
  descending slot inside := by
    rw [same (slot + 1) inside, same slot (by omega)]
    exact tracks.descending slot inside
  valid slot inside := by
    rw [same slot inside]
    exact tracks.valid slot inside

/-- A segment between two neighbours, with the rest moved up. -/
theorem insert (inside : index ≤ count) (valid : segment.Valid)
    (below : 0 < index -> segment.seq ≤ (list (index - 1)).seq)
    (above : index < count -> (list index).seq ≤ segment.seq) : Tracks (fun slot =>
        if slot < index then list slot
        else if slot = index then segment
        else list (slot - 1))
      (count + 1) where
  descending slot live := by
    by_cases atIndex : slot = index
    · subst atIndex
      simpa [show ¬ slot + 1 < slot by omega] using above (by omega)
    · by_cases nextIndex : slot + 1 = index
      · subst nextIndex
        simpa using below (Nat.succ_pos slot)
      · simp only [atIndex, nextIndex, if_false, ← apply_ite list]
        exact tracks.seq_le (by split_ifs <;> omega) (by split_ifs <;> omega)
  valid slot live := by
    by_cases atIndex : slot = index
    · simpa [atIndex] using valid
    · simp only [atIndex, if_false, ← apply_ite list]
      exact tracks.valid _ (by split_ifs <;> omega)

/-- A slot taken out, with the rest moved down. -/
theorem remove (index : Nat) :
    Tracks (fun slot => if slot < index then list slot else list (slot + 1)) (count - 1) where
  descending slot live := by
    simp only [← apply_ite list]
    exact tracks.seq_le (by split_ifs <;> omega) (by split_ifs <;> omega)
  valid slot live := by
    simp only [← apply_ite list]
    exact tracks.valid _ (by split_ifs <;> omega)

end

end Tracks

namespace SessionPeer

/-- A list of segments with room for one more. -/
def Sound (peer : SessionPeer) : Prop :=
  peer.seqListLen < seqListMaxLen ∧ Tracks peer.seqList peer.seqListLen

theorem insertSeqSegment_tracks
    (sound : peer.Sound) (inside : index ≤ peer.seqListLen) (valid : segment.Valid)
    (below : 0 < index -> segment.seq ≤ (peer.seqList (index - 1)).seq)
    (above : index < peer.seqListLen -> (peer.seqList index).seq ≤ segment.seq) :
    ∃ list, peer.insertSeqSegment index segment =
        some { seqList := list, seqListLen := peer.seqListLen + 1 } ∧
      Tracks list (peer.seqListLen + 1) := by
  obtain ⟨room, tracks⟩ := sound
  refine ⟨_, if_pos (by omega), ?_⟩
  refine (tracks.insert inside valid below above).of_eq ?_
  intro slot live
  rcases Nat.lt_trichotomy slot index with before | atIndex | after
  · rw [update_of_ne (by omega), if_pos before]
    split <;> simp [SeqList.rotateRight, before]
  · simp [atIndex]
  · have moved : index < peer.seqListLen := by omega
    have notBefore : ¬ slot < index := by omega
    have notAt : ¬ slot = index := by omega
    simp only [update_of_ne notAt, moved, notBefore, notAt, SeqList.rotateRight, if_true, if_false]

/-- The segment from the start of the smaller to the end of the larger. -/
theorem merged_valid {gte lt : SeqSegment} (ordered : lt.seq ≤ gte.seq) (valid : gte.Valid) :
    SeqSegment.Valid { seq := lt.seq, len := gte.seq - lt.seq + gte.len } := by
  obtain ⟨positive, fits⟩ := valid
  have difference : (gte.seq - lt.seq).toNat =
      gte.seq.toNat - lt.seq.toNat := UInt32.toNat_sub_of_le _ _ ordered
  have orderedNat := UInt32.le_iff_toNat_le.mp ordered
  have total : (gte.seq - lt.seq + gte.len).toNat =
      gte.seq.toNat - lt.seq.toNat + gte.len.toNat := by
    rw [toNat_add_of_fits (by omega), difference]
  constructor
  · simp only [total]
    omega
  · simp only [total]
    omega

theorem closeGap_apply (list : SeqList) {count : Nat} (inside : index + 1 < count)
    (bounded : count ≤ seqListMaxLen) :
    ∃ list', closeGap list index count = some list' ∧ ∀ slot, slot < count - 1 -> list' slot =
          if slot < index + 1 then list slot else list (slot + 1) := by
  by_cases last : index < count - 2
  · refine ⟨list.rotateLeft (index + 1) count, by rw [closeGap, if_pos last, if_pos bounded], ?_⟩
    intro slot live
    by_cases before : slot < index + 1
    · simp [SeqList.rotateLeft, before]
    · rw [SeqList.rotateLeft, if_neg (by omega), if_neg (by omega), if_neg before]
  · refine ⟨list, by rw [closeGap, if_neg last], ?_⟩
    intro slot live
    rw [if_pos (by omega)]

theorem mergeSeqList_sound (peer : SessionPeer) (index : Nat)
    (tracks : Tracks peer.seqList peer.seqListLen) (bounded : peer.seqListLen ≤ seqListMaxLen)
    (inside : index + 1 < peer.seqListLen) :
    ∃ peer', peer.mergeSeqList index = some peer' ∧ peer'.Sound := by
  have ordered := tracks.descending index inside
  have mergedTracks := tracks.update (merged_valid ordered (tracks.valid index (by omega)))
    (fun _ => UInt32.le_trans ordered (tracks.seq_le (Nat.sub_le _ _) (by omega)))
    (fun _ => UInt32.le_refl _)
  obtain ⟨list, closed, slots⟩ := closeGap_apply
    (update (update peer.seqList index _) (index + 1) {})
    inside bounded
  refine ⟨{ seqList := list, seqListLen := peer.seqListLen - 1 }, ?_,
    show peer.seqListLen - 1 < seqListMaxLen by omega,
    (mergedTracks.remove (index + 1)).of_eq ?_⟩
  · rw [mergeSeqList, if_pos ⟨inside, by omega⟩]
    exact map_eq_some_iff.mpr ⟨list, closed, rfl⟩
  · intro slot live
    refine (slots slot live).trans ?_
    split_ifs with before
    · rw [update_of_ne (by omega)]
    · rw [update_of_ne (by omega)]

/-- The answer of `search`: the segment belongs at `index`, between the slots
`gte` and `lt`. -/
structure Placed (peer : SessionPeer) (segment : SeqSegment) (lt gte : Option Nat)
    (index : Nat) : Prop where
  inside : index ≤ peer.seqListLen
  lt_eq : lt = if index < peer.seqListLen then some index else none
  gte_eq : gte = if 0 < index then some (index - 1) else none
  below : 0 < index -> segment.seq ≤ (peer.seqList (index - 1)).seq
  above : index < peer.seqListLen -> (peer.seqList index).seq < segment.seq

theorem searchFrom_spec (list : SeqList) (segment : SeqSegment) (slot count : Nat) :
    slot ≤ searchFrom list segment slot count ∧ searchFrom list segment slot count ≤ slot + count ∧
      (slot < searchFrom list segment slot count ->
        segment.seq ≤ (list (searchFrom list segment slot count - 1)).seq) ∧
      (searchFrom list segment slot count < slot + count ->
        (list (searchFrom list segment slot count)).seq < segment.seq) := by
  induction count generalizing slot with
  | zero => simp [searchFrom]
  | succ count ih =>
    rw [searchFrom]
    by_cases smaller : (list slot).seq < segment.seq
    · simp [smaller]
    · simp only [if_neg smaller]
      obtain ⟨lower, upper, before, behind⟩ := ih (slot + 1)
      refine ⟨by omega, by omega, ?_, fun inside => behind (by omega)⟩
      intro _
      rcases Nat.eq_or_lt_of_le lower with same | later
      · rw [← same, Nat.add_sub_cancel]
        exact UInt32.not_lt.mp smaller
      · exact before later

theorem search_placed (segment : SeqSegment)
    (positive : 0 < peer.seqListLen) (bounded : peer.seqListLen ≤ seqListMaxLen) :
    ∃ lt gte index, peer.search segment = some (lt, gte, index) ∧
      Placed peer segment lt gte index := by
  obtain ⟨-, upper, before, behind⟩ := searchFrom_spec peer.seqList segment 0 peer.seqListLen
  rw [Nat.zero_add] at upper behind
  simp only [search, if_neg (Nat.ne_of_gt positive), if_pos bounded]
  generalize searchFrom peer.seqList segment 0 peer.seqListLen = index at *
  by_cases first : index = 0
  · rw [if_pos first]
    exact ⟨_, _, _, rfl, upper, by simp [first, positive], by simp [first], before, behind⟩
  · rw [if_neg first]
    split_ifs with last
    · exact ⟨_, _, _, rfl, upper, by simp [last], by rw [if_pos (by omega)], before, behind⟩
    · exact ⟨_, _, _, rfl, upper, by rw [if_pos (by omega)],
        by rw [if_pos (by omega)], before, behind⟩

namespace Placed

variable {lt gte : Option Nat}

variable (placed : Placed peer segment lt gte index) (tracks : Tracks peer.seqList peer.seqListLen)
include placed tracks

theorem valid_of_lt : ∀ slot ∈ lt, (peer.seqList slot).Valid := by
  simp only [placed.lt_eq, mem_def, ite_none_right_eq_some, Option.some.injEq]
  rintro slot ⟨inside, rfl⟩
  exact tracks.valid index inside

theorem valid_of_gte : ∀ slot ∈ gte, (peer.seqList slot).Valid := by
  have inside := placed.inside
  simp only [placed.gte_eq, mem_def, ite_none_right_eq_some, Option.some.injEq]
  rintro slot ⟨positive, rfl⟩
  exact tracks.valid (index - 1) (by omega)

end Placed

theorem checkRetrans_isSome (baseValid : base.Valid) (valid : segment.Valid) :
    (checkRetrans base segment).isSome := by
  unfold checkRetrans
  split
  · simp [baseValid.next_eq, valid.next_eq]
  · rfl

theorem reachesInto_isSome (gteValid : gte.Valid) (valid : segment.Valid) :
    (reachesInto gte segment).isSome := by
  simp only [reachesInto, valid.next_eq, gteValid.next_eq, some_bind, map_some]
  split <;> rfl

theorem isRetransSegment_isSome (valid : segment.Valid) (ltValid : ∀ other ∈ lt, other.Valid)
    (gteValid : ∀ other ∈ gte, other.Valid) (nonempty : lt.isSome ∨ gte.isSome) :
    (isRetransSegment lt gte segment).isSome := by
  cases lt with
  | some lt => exact checkRetrans_isSome (ltValid lt rfl) valid
  | none =>
    cases gte with
    | some gte => exact checkRetrans_isSome (gteValid gte rfl) valid
    | none => simp at nonempty

theorem isErrorSegment_isSome (valid : segment.Valid) (ltValid : ∀ other ∈ lt, other.Valid)
    (gteValid : ∀ other ∈ gte, other.Valid) : (isErrorSegment lt gte segment).isSome := by
  obtain ⟨into, isInto⟩ : ∃ into,
      gte.elim (some false) (fun gte => reachesInto gte segment) = some into := by
    cases gte with
    | some gte => exact isSome_iff_exists.mp (reachesInto_isSome (gteValid gte rfl) valid)
    | none => exact ⟨false, rfl⟩
  simp only [isErrorSegment, isInto, some_bind]
  cases into with
  | true => rfl
  | false =>
    cases lt with
    | some lt => simp [(ltValid lt rfl).next_eq]
    | none => rfl

/-- The smaller neighbour grows by the segment that starts where it ends. -/
theorem extendLt_tracks (tracks : Tracks list count) (valid : segment.Valid) (index : Nat) :
    ∃ list' continuous, extendLt list segment (if index < count then some index else none) =
        some (list', continuous) ∧ Tracks list' count ∧
      (∀ slot, (list' slot).seq = (list slot).seq) ∧ (continuous = false -> list' = list) ∧
      (continuous = true -> index < count) := by
  by_cases inside : index < count
  · have ltValid := tracks.valid index inside
    simp only [if_pos inside, extendLt, ltValid.next_eq, some_bind]
    by_cases adjacent : (list index).seq + (list index).len = segment.seq
    · have ends := ltValid.toNat_next
      rw [adjacent] at ends
      obtain ⟨positive, fits⟩ := valid
      have sum : (list index).len.toNat + segment.len.toNat < UInt32.size := by omega
      refine ⟨update list index
          { list index with len := (list index).len + segment.len }, true,
        by simp [if_pos adjacent, checkedAdd_eq_some sum], ?_, ?_,
        by simp, fun _ => inside⟩
      · refine tracks.update ?_ ?_ ?_
        · refine ⟨?_, ?_⟩ <;> simp only [toNat_add_of_fits sum] <;> omega
        · exact fun _ => tracks.seq_le (Nat.sub_le _ _) inside
        · exact fun more => tracks.descending index more
      · intro slot
        by_cases atIndex : slot = index
        · subst atIndex
          rw [update_self]
        · rw [update_of_ne atIndex]
    · exact ⟨list, false, by rw [if_neg adjacent], tracks, fun _ => rfl, fun _ => rfl, by simp⟩
  · exact ⟨list, false, by rw [if_neg inside]; rfl, tracks, fun _ => rfl, fun _ => rfl, by simp⟩

/-- The larger neighbour grows down by the segment that ends where it
starts. -/
theorem extendGte_tracks (tracks : Tracks list count) (valid : segment.Valid)
    (inside : index ≤ count) (below : 0 < index -> segment.seq ≤ (list (index - 1)).seq)
    (above : index < count -> (list index).seq < segment.seq) : ∃ list' continuous,
      extendGte list segment (if 0 < index then some (index - 1) else none) =
        some (list', continuous) ∧ Tracks list' count ∧ (continuous = false -> list' = list) ∧
      (continuous = true -> 0 < index) := by
  by_cases positive : 0 < index
  · have gteValid := tracks.valid (index - 1) (by omega)
    simp only [if_pos positive, extendGte, valid.next_eq, some_bind]
    by_cases adjacent : segment.seq + segment.len = (list (index - 1)).seq
    · have ends := valid.toNat_next
      rw [adjacent] at ends
      obtain ⟨nonempty, fits⟩ := gteValid
      have sum : (list (index - 1)).len.toNat + segment.len.toNat < UInt32.size := by omega
      refine ⟨update list (index - 1)
          { seq := segment.seq
            len := (list (index - 1)).len + segment.len }, true,
        by simp [if_pos adjacent, checkedAdd_eq_some sum], ?_,
        by simp, fun _ => positive⟩
      refine tracks.update ?_ ?_ ?_
      · refine ⟨?_, ?_⟩ <;> simp only [toNat_add_of_fits sum] <;> omega
      · intro _
        exact UInt32.le_trans (below positive) (tracks.seq_le (Nat.sub_le _ _) (by omega))
      · rw [Nat.sub_add_cancel positive]
        exact fun more => UInt32.le_of_lt (above more)
    · exact ⟨list, false, by rw [if_neg adjacent], tracks, fun _ => rfl, by simp⟩
  · exact ⟨list, false, by rw [if_neg positive]; rfl, tracks, fun _ => rfl, by simp⟩

theorem checkAndUpdateContinuousSegment_tracks (tracks : Tracks peer.seqList peer.seqListLen)
    (valid : segment.Valid) (placed : Placed peer segment lt gte index) :
    ∃ list flags, checkAndUpdateContinuousSegment peer.seqList lt gte segment = some (list, flags) ∧
      Tracks list peer.seqListLen ∧ (flags.lt = false -> flags.gte = false -> list = peer.seqList) ∧
      (flags.lt = true -> index < peer.seqListLen) ∧ (flags.gte = true -> 0 < index) := by
  obtain ⟨inside, rfl, rfl, below, above⟩ := placed
  obtain ⟨middle, ltContinuous, grownLt, middleTracks, sameSeq, ltSame,
    ltInside⟩ := extendLt_tracks tracks valid index
  obtain ⟨list, gteContinuous, grownGte, listTracks, gteSame, gteInside⟩ :=
    extendGte_tracks middleTracks valid inside
      (fun positive => by rw [sameSeq]; exact below positive)
      (fun more => by rw [sameSeq]; exact above more)
  refine ⟨list, { lt := ltContinuous, gte := gteContinuous }, ?_, listTracks,
    ?_, ltInside, gteInside⟩
  · simp only [checkAndUpdateContinuousSegment, grownLt, grownGte, some_bind]
  · intro notLt notGte
    exact (gteSame notGte).trans (ltSame notLt)

theorem addSegment_sound (sound : peer.Sound)
    (valid : segment.Valid) (placed : Placed peer segment lt gte index)
    (tracks : Tracks list peer.seqListLen)
    (same : flags.lt = false -> flags.gte = false -> list = peer.seqList)
    (ltInside : flags.lt = true -> index < peer.seqListLen)
    (gteInside : flags.gte = true -> 0 < index) :
    ∃ peer' type, peer.addSegment index segment list flags = some (peer', type) ∧ peer'.Sound := by
  obtain ⟨ltContinuous, gteContinuous⟩ := flags
  match ltContinuous, gteContinuous with
  | false, false =>
    obtain rfl := same rfl rfl
    obtain ⟨inserted, isInserted, insertedTracks⟩ :=
      insertSeqSegment_tracks sound placed.inside valid placed.below
        fun inside => UInt32.le_of_lt (placed.above inside)
    simp only [addSegment, isInserted, some_bind]
    split_ifs with full
    · have exact16 : peer.seqListLen + 1 = seqListMaxLen := Nat.le_antisymm sound.1 full
      obtain ⟨merged, isMerged, mergedSound⟩ := mergeSeqList_sound
        { seqList := inserted, seqListLen := peer.seqListLen + 1 }
        (seqListMaxLen - 2) insertedTracks (Nat.le_of_eq exact16)
        (Nat.lt_of_lt_of_le (by decide) full)
      exact ⟨merged, .merge, by rw [isMerged]; rfl, mergedSound⟩
    · exact ⟨_, _, rfl, by dsimp only; omega, insertedTracks⟩
  | true, true =>
    have positive := gteInside rfl
    have inside := ltInside rfl
    obtain ⟨merged, isMerged, mergedSound⟩ := mergeSeqList_sound
      { peer with seqList := list } (index - 1)
      tracks (Nat.le_of_lt sound.1) (by dsimp only; omega)
    exact ⟨merged, .bothContinuous, by simp [addSegment, isMerged], mergedSound⟩
  | true, false => exact ⟨_, _, rfl, sound.1, tracks⟩
  | false, true => exact ⟨_, _, rfl, sound.1, tracks⟩

theorem classify_sound (sound : peer.Sound)
    (nonempty : 0 < peer.seqListLen) (valid : segment.Valid) :
    ∃ peer' type, peer.classify segment = some (peer', type) ∧ peer'.Sound := by
  have tracks := sound.2
  obtain ⟨lt, gte, index, found, placed⟩ := search_placed segment nonempty (Nat.le_of_lt sound.1)
  have ltValid : ∀ other ∈ lt.map peer.seqList, other.Valid := by
    simpa using placed.valid_of_lt tracks
  have gteValid : ∀ other ∈ gte.map peer.seqList, other.Valid := by
    simpa using placed.valid_of_gte tracks
  have neighbour : (lt.map peer.seqList).isSome ∨ (gte.map peer.seqList).isSome := by
    rw [placed.lt_eq, placed.gte_eq]
    by_cases first : index = 0
    · simp [first, nonempty]
    · simp [Nat.pos_of_ne_zero first]
  obtain ⟨retrans, isRetrans⟩ := isSome_iff_exists.mp
    (isRetransSegment_isSome valid ltValid gteValid neighbour)
  obtain ⟨error, isError⟩ := isSome_iff_exists.mp
    (isErrorSegment_isSome valid ltValid gteValid)
  obtain ⟨list, flags, updated, listTracks, same, ltInside, gteInside⟩ :=
    checkAndUpdateContinuousSegment_tracks tracks valid placed
  simp only [classify, found, isRetrans, isError, updated, some_bind]
  cases retrans with
  | true => exact ⟨peer, .retrans, rfl, sound⟩
  | false =>
    cases error with
    | true => exact ⟨peer, .error, rfl, sound⟩
    | false => exact addSegment_sound sound valid placed listTracks same ltInside gteInside

theorem insertFirst_sound (peer : SessionPeer)
    (empty : peer.seqListLen = 0) (valid : segment.Valid) :
    ∃ peer', peer.insertSeqSegment 0 segment = some peer' ∧ peer'.Sound := by
  have sound : peer.Sound := ⟨by rw [empty]; decide, by constructor <;> intros <;> omega⟩
  obtain ⟨list, inserted, tracks⟩ := insertSeqSegment_tracks sound
    (Nat.zero_le _) valid (fun positive => absurd positive (by decide))
    (fun positive => absurd positive (by omega))
  refine ⟨_, inserted, ?_, tracks⟩
  dsimp only
  rw [empty]
  decide

theorem valid_of_not_wrapping (nonempty : 0 < segment.len.toNat)
    (ascends : ¬ segment.seq + segment.len < segment.seq) : segment.Valid := by
  refine ⟨nonempty, ?_⟩
  rw [UInt32.lt_iff_toNat_lt, UInt32.toNat_add] at ascends
  have seqBound := segment.seq.toNat_lt_size
  have lenBound := segment.len.toNat_lt_size
  have size : UInt32.size = 2 ^ 32 := rfl
  omega

/-- Both comparisons with the largest segment know where it ends. -/
theorem wrap_isSome (sound : peer.Sound) (nonempty : peer.seqListLen ≠ 0) (segment : SeqSegment) :
    (peer.seqCycled segment).isSome ∧ (peer.seqOutdated segment).isSome := by
  have largest := sound.2.valid 0 (Nat.pos_of_ne_zero nonempty)
  unfold seqCycled seqOutdated
  constructor <;> split <;> simp [largest.next_eq]

theorem checkSeqSegment_sound (segment : SeqSegment) (sound : peer.Sound)
    (nonempty : 0 < segment.len.toNat) :
    ∃ peer' passed, peer.checkSeqSegment segment = some (peer', passed) ∧ peer'.Sound ∧
      (passed = true -> segment.Valid ∧ 0 < peer'.seqListLen) := by
  rw [checkSeqSegment]
  by_cases wraps : segment.seq + segment.len < segment.seq
  · exact ⟨peer, false, if_pos wraps, sound, by simp⟩
  have valid := valid_of_not_wrapping nonempty wraps
  rw [if_neg wraps]
  by_cases empty : peer.seqListLen = 0
  · obtain ⟨peer', inserted, peerSound⟩ := insertFirst_sound peer empty valid
    exact ⟨peer', false, by simp [empty, inserted], peerSound, by simp⟩
  rw [if_neg empty]
  obtain ⟨isCycled, isOutdated⟩ := wrap_isSome sound empty segment
  obtain ⟨cycled, isCycled⟩ := isSome_iff_exists.mp isCycled
  obtain ⟨outdated, isOutdated⟩ := isSome_iff_exists.mp isOutdated
  simp only [isCycled, isOutdated, some_bind]
  cases cycled with
  | true =>
    obtain ⟨peer', inserted, peerSound⟩ := insertFirst_sound {} rfl valid
    exact ⟨peer', false, by simp [inserted], peerSound, by simp⟩
  | false => exact ⟨peer, !outdated, rfl, sound, fun _ => ⟨valid, Nat.pos_of_ne_zero empty⟩⟩

theorem assertSeqNumber_sound (sound : peer.Sound) (seq : UInt32) (payloadLen : UInt16) :
    ∃ peer' type, peer.assertSeqNumber seq payloadLen = some (peer', type) ∧ peer'.Sound := by
  rw [assertSeqNumber]
  by_cases ignored : payloadLen = 0 ∨ seq = 0
  · exact ⟨peer, .notCare, if_pos ignored, sound⟩
  rw [if_neg ignored]
  have nonempty : 0 < payloadLen.toUInt32.toNat := by
    rw [UInt16.toNat_toUInt32]
    exact Nat.pos_of_ne_zero fun zero =>
      ignored (.inl (UInt16.toNat_inj.mp zero))
  obtain ⟨checked, passed, isChecked, checkedSound, whenPassed⟩ :=
    checkSeqSegment_sound { seq := seq, len := payloadLen.toUInt32 } sound nonempty
  simp only [isChecked, some_bind]
  cases passed with
  | false => exact ⟨checked, .notCare, rfl, checkedSound⟩
  | true =>
    obtain ⟨valid, some⟩ := whenPassed rfl
    exact classify_sound checkedSound some valid

/-- One packet of a direction. -/
def step (peer : SessionPeer) (packet : UInt32 × UInt16) : Option (SessionPeer × PacketSeqType) :=
  peer.assertSeqNumber packet.1 packet.2

theorem sound_default : Sound {} :=
  ⟨by decide, by constructor <;> intros <;> contradiction⟩

theorem Sound.pairwise_live (sound : peer.Sound) :
    peer.live.Pairwise fun earlier later => later.seq ≤ earlier.seq := by
  rw [live, List.pairwise_map]
  refine List.Pairwise.imp_of_mem ?_ List.pairwise_lt_range
  intro earlier later _ isLater before
  rw [List.mem_range] at isLater
  exact sound.2.seq_le (Nat.le_of_lt before) isLater

/-- Whatever a direction sends, no call panics or overflows, and the live part
of the list is short, descending and free of empty and wrapping segments. -/
theorem run_descends (packets : List (UInt32 × UInt16)) :
    ∃ (peer : SessionPeer) (types : List PacketSeqType),
      Library.runSteps step {} packets = some (peer, types) ∧
      peer.live.length ≤ seqListMaxLen ∧
      (peer.live.Pairwise fun earlier later => later.seq ≤ earlier.seq) ∧
      ∀ segment ∈ peer.live,
        segment.len ≠ 0 ∧ segment.seq.toNat + segment.len.toNat < UInt32.size := by
  obtain ⟨peer, types, ran, sound⟩ := runSteps_of_invariant
    (fun state packet (holds : Sound state) (_ : True) =>
      assertSeqNumber_sound holds packet.1 packet.2)
    sound_default packets (Guarded.of_forall fun _ _ => trivial)
  refine ⟨peer, types, ran, ?_, sound.pairwise_live, ?_⟩
  · rw [live, List.length_map, List.length_range]
    exact Nat.le_of_lt sound.1
  · intro segment isLive
    obtain ⟨slot, inside, rfl⟩ := List.mem_map.mp isLive
    obtain ⟨positive, fits⟩ := sound.2.valid slot (List.mem_range.mp inside)
    refine ⟨?_, fits⟩
    intro zero
    simp [zero] at positive

example :
    (Library.runSteps step {} [(10, 10), (100, 100), (100, 50)]).map
        (fun ran => ran.1.live.map SeqSegment.seq) =
      some [100, 100, 10] := by
  decide +kernel

end SessionPeer

end Metaflow.FlowGenerator
