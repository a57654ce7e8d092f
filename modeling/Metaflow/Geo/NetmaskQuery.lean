import Mathlib.Data.List.Pairwise
import Metaflow.Geo.NetmaskTree
import Metaflow.Library.Run

/-!
# Answers of the netmask tree

The masks of a finished table cut every range into networks of its own. Two
kinds of ranges fall out: the loop over one that ends with the last address does
not end, and one that starts with address 0 is not put into the cache.
-/

namespace Metaflow.Geo

open Library Option List
open BitVec
open MaxMask

def GeoInfo.Contains (entry : GeoInfo) (ip : BitVec 32) : Prop :=
  entry.ipStart ≤ ip ∧ ip ≤ entry.ipEnd

/-- A set of ranges without common addresses. -/
structure GeoRanges where
  entries : List GeoInfo
  ordered : ∀ entry ∈ entries, entry.ipStart ≤ entry.ipEnd
  disjoint : entries.Pairwise fun left right =>
    ∀ ip, left.Contains ip -> ¬ right.Contains ip

theorem GeoRanges.eq_of_contains (ranges : GeoRanges)
    (leftMem : left ∈ ranges.entries) (rightMem : right ∈ ranges.entries)
    (inLeft : left.Contains ip) (inRight : right.Contains ip) : left = right := by
  by_contra different
  have symmetric : Std.Symm fun left right : GeoInfo =>
      ∀ ip, left.Contains ip -> ¬ right.Contains ip :=
    ⟨fun _ _ apart ip inSecond inFirst => apart ip inFirst inSecond⟩
  exact ranges.disjoint.forall leftMem rightMem different ip inLeft inRight

/-- The answers that the ranges ask for. -/
def GeoRanges.AnsweredBy (ranges : GeoRanges) (query : BitVec 32 -> UInt8 × UInt8) : Prop :=
  ∀ ip, (∀ entry ∈ ranges.entries, entry.Contains ip -> query ip = (entry.region, entry.isp)) ∧
    ((∀ entry ∈ ranges.entries, ¬ entry.Contains ip) -> query ip = (0, 0))

theorem GeoInfo.region_packed (entry : GeoInfo) : (entry.packed >>> 8).toUInt8 = entry.region := by
  apply UInt8.toBitVec_inj.mp
  ext bit inside
  have low : bit < 16 := by omega
  have high : 8 + bit < 16 := by omega
  simp [packed, low, high, getLsbD_eq_getElem inside]

theorem GeoInfo.isp_packed (entry : GeoInfo) : (entry.packed &&& 0xff).toUInt8 = entry.isp := by
  apply UInt8.toBitVec_inj.mp
  ext bit inside
  have ones : ∀ bit (inside : bit < 8), (BitVec.ofNat 8 255)[bit] = true := by decide
  simpa [packed] using fun _ => ones bit inside

namespace MaxMask

variable {masks : MaxMask}

/-- The addresses of a network have one first address. -/
theorem base_eq_of_network (low : minMaskLen ≤ masks (first / 65536))
    (aligned : masks.base first = first) (above : first ≤ ip)
    (below : ip < first + masks.size first) : masks.base ip = first := by
  have divides := (blockBase_eq_self_iff (size_pos first)).mp aligned
  have isFirst := blockBase_eq divides above below
  have sameKey : first / 65536 = ip / 65536 := by
    rw [← isFirst]
    exact blockBase_div (by decide) (size_dvd low)
  rwa [base, size, ← sameKey]

theorem base_base (low : minMaskLen ≤ masks (ip / 65536)) :
    masks.base (masks.base ip) = masks.base ip := by
  rw [base, size_base low]
  exact (blockBase_eq_self_iff (size_pos _)).mpr dvd_blockBase

theorem base_add_size (low : minMaskLen ≤ masks (ip / 65536)) (aligned : masks.base ip = ip)
    (nextLow : minMaskLen ≤ masks ((ip + masks.size ip) / 65536)) :
    masks.base (ip + masks.size ip) = ip + masks.size ip := by
  apply (blockBase_eq_self_iff (size_pos _)).mpr
  have divides := (blockBase_eq_self_iff (size_pos ip)).mp aligned
  have inside : masks.base ip + masks.size ip ≤ blockBase 65536 ip + 65536 :=
    blockBase_add_mono (by decide) (size_dvd low)
  rw [aligned, blockBase] at inside
  have sameOrNext : (ip + masks.size ip) / 65536 = ip / 65536 ∨
      65536 ∣ ip + masks.size ip := by omega
  rcases sameOrNext with same | next
  · have sameSize : masks.size (ip + masks.size ip) = masks.size ip := by rw [size, same, ← size]
    rw [sameSize]
    exact Nat.dvd_add divides (Nat.dvd_refl _)
  · exact Nat.dvd_trans (size_dvd nextLow) next

/-- The first address of a range starts a network. -/
theorem Fits.base_low (fits : masks.Fits low bound) (ordered : low < bound) :
    masks.base low = low :=
  Nat.le_antisymm blockBase_le (fits low (Nat.le_refl _) ordered).2.1

theorem toNat_key (masks : MaxMask) (ip : BitVec 32) :
    (ip &&& maskLenToNetmask (masks.getMask ip)).toNat = masks.base ip.toNat := by
  rw [toNat_and_maskLenToNetmask, getMask_eq]
  rfl

/-- Without a mask the key is address 0. -/
theorem base_eq_zero {ip : BitVec 32} (none : masks (ip.toNat / 65536) = 0) :
    masks.base ip.toNat = 0 := by
  have whole : masks.size ip.toNat = 2 ^ 32 := by
    rw [size, none]
    rfl
  rw [base, whole, blockBase, Nat.div_eq_of_lt ip.isLt, Nat.zero_mul]

end MaxMask

/-- Addresses under which an entry is put into the cache. -/
def GeoInfo.Cached (entry : GeoInfo) (masks : MaxMask) (key : BitVec 32) : Prop :=
  entry.ipStart ≠ 0 ∧ entry.Contains key ∧ masks.base key.toNat = key.toNat

section Fill

variable {masks : MaxMask}
  {entry : GeoInfo}
  {cache : Cache}

/-- The networks before the next address are in the cache. -/
structure Filling (masks : MaxMask) (entry : GeoInfo) (cache : Cache)
    (state : Cache × BitVec 32) : Prop where
  above : entry.ipStart.toNat ≤ state.2.toNat
  below : state.2.toNat ≤ entry.ipEnd.toNat + 1
  aligned : state.2.toNat ≤ entry.ipEnd.toNat -> masks.base state.2.toNat = state.2.toNat
  inside : ∀ key : BitVec 32, entry.ipStart.toNat ≤ key.toNat ->
    key.toNat < state.2.toNat -> masks.base key.toNat = key.toNat ->
    state.1 key = some entry.packed
  outside : ∀ key : BitVec 32,
    ¬ (entry.ipStart.toNat ≤ key.toNat ∧ key.toNat < state.2.toNat ∧
      masks.base key.toNat = key.toNat) ->
    state.1 key = cache key

theorem toNat_add_size (notLast : entry.ipEnd.toNat + 1 < 2 ^ 32) (bounded : masks.Bounded)
    (low : minMaskLen ≤ masks (ip.toNat / 65536)) (aligned : masks.base ip.toNat = ip.toNat)
    (ends : ip.toNat + masks.size ip.toNat ≤ entry.ipEnd.toNat + 1) :
    (ip + (1 : BitVec 32) <<< (maxMaskLen - masks.getMask ip)).toNat =
      ip.toNat + masks.size ip.toNat := by
  rw [getMask_eq]
  refine toNat_add_network ⟨low, ?_, ?_, ends⟩ notLast
  · have := bounded (ip.toNat / 65536)
    omega
  · exact (blockBase_eq_self_iff (size_pos _)).mp aligned

theorem Filling.round {next} (notLast : entry.ipEnd.toNat + 1 < 2 ^ 32) (bounded : masks.Bounded)
    (fits : masks.Fits entry.ipStart.toNat (entry.ipEnd.toNat + 1))
    (filling : Filling masks entry cache state) (round : fillRound masks entry state = some next) :
    Filling masks entry cache next ∧ state.2.toNat < next.2.toNat := by
  obtain ⟨before, ip⟩ := state
  obtain ⟨above, -, startsNetwork, inside, outside⟩ := filling
  simp only [fillRound] at round
  split_ifs at round with more
  obtain rfl := Option.some.inj round
  have inRange := le_def.mp more.1
  have aligned : masks.base ip.toNat = ip.toNat := startsNetwork inRange
  obtain ⟨low, -, ends⟩ := fits ip.toNat above (Nat.lt_succ_of_le inRange)
  rw [aligned] at ends
  have isKey : ip &&& maskLenToNetmask (masks.getMask ip) = ip := by
    apply eq_of_toNat_eq
    rw [toNat_key]
    exact aligned
  have isNext := toNat_add_size notLast bounded low aligned ends
  have positive : 0 < masks.size ip.toNat := size_pos _
  simp only at above inside outside
  have between : ∀ key : BitVec 32, key ≠ ip -> ip.toNat ≤ key.toNat ->
      key.toNat < ip.toNat + masks.size ip.toNat ->
      masks.base key.toNat ≠ key.toNat := by
    intro key other low' high
    rw [base_eq_of_network low aligned low' high]
    exact fun same => other (eq_of_toNat_eq same.symm)
  refine ⟨⟨?_, ?_, ?_, ?_, ?_⟩, ?_⟩ <;> simp only [isKey, isNext]
  · omega
  · exact ends
  · intro nextInRange
    exact base_add_size low aligned (fits _ (by omega) (by omega)).1
  · intro key low' high starts
    by_cases same : key = ip
    · rw [same, Function.update_self]
    · rw [Function.update_of_ne same]
      apply inside key low' _ starts
      by_contra later
      exact between key same (by omega) high starts
  · intro key notInside
    by_cases same : key = ip
    · subst same
      exact absurd ⟨above, by omega, aligned⟩ notInside
    · rw [Function.update_of_ne same]
      apply outside
      rintro ⟨low', high, starts⟩
      exact notInside ⟨low', by omega, starts⟩
  · omega

theorem filling_start (ordered : entry.ipStart ≤ entry.ipEnd)
    (fits : masks.Fits entry.ipStart.toNat (entry.ipEnd.toNat + 1)) :
    Filling masks entry cache (cache, entry.ipStart) := by
  have ordered' := le_def.mp ordered
  refine ⟨Nat.le_refl _, Nat.le_succ_of_le ordered', ?_, ?_, ?_⟩
  · intro _
    exact fits.base_low (Nat.lt_succ_of_le ordered')
  · intro key low high
    exact absurd low (Nat.not_le_of_lt high)
  · intro key _
    rfl

theorem fill_of_start_zero (zero : entry.ipStart = 0) (fuel : Nat) :
    fill (fuel + 1) masks cache entry = some cache := by
  have out : fillRound masks entry (cache, entry.ipStart) = none := by
    rw [zero, fillRound, if_neg]
    exact fun more => absurd more.2 (by decide)
  simp only [fill, loop, out, map_some]

/-- Behind the loop all networks of the entry are in the cache. -/
theorem Filling.last_eq (positive : entry.ipStart ≠ 0)
    (filling : Filling masks entry cache state) (out : fillRound masks entry state = none) :
    state.2.toNat = entry.ipEnd.toNat + 1 := by
  have above := filling.above
  have below := filling.below
  have startPositive : 0 < entry.ipStart.toNat :=
    Nat.pos_of_ne_zero fun zero => positive (eq_of_toNat_eq zero)
  have toNatZero : (0 : BitVec 32).toNat = 0 := rfl
  simp only [fillRound, le_def, lt_def, toNatZero] at out
  split_ifs at out with more
  omega

variable (ordered : entry.ipStart ≤ entry.ipEnd) (notLast : entry.ipEnd.toNat + 1 < 2 ^ 32)
  (bounded : masks.Bounded) (fits : masks.Fits entry.ipStart.toNat (entry.ipEnd.toNat + 1))
include ordered notLast bounded fits

/-- The loop over an entry puts its networks into the cache, unless it starts
with address 0. -/
theorem fill_spec (filled : fill fuel masks cache entry = some cache') (key : BitVec 32) :
    (entry.Cached masks key -> cache' key = some entry.packed) ∧
      (¬ entry.Cached masks key -> cache' key = cache key) := by
  by_cases zero : entry.ipStart = 0
  · cases fuel with
    | zero => simp [fill, loop] at filled
    | succ fuel =>
      obtain rfl : cache = cache' := by
        simpa [fill_of_start_zero zero] using filled
      exact ⟨fun cached => absurd zero cached.1, fun _ => rfl⟩
  · obtain ⟨⟨final, last⟩, looped, rfl⟩ := map_eq_some_iff.mp filled
    obtain ⟨filling, out⟩ := loop_keeps
      (fun _ _ holds round => (Filling.round notLast bounded fits holds round).1)
      (filling_start ordered fits) looped
    have isLast : last.toNat = entry.ipEnd.toNat + 1 := filling.last_eq zero out
    constructor
    · rintro ⟨-, ⟨low, high⟩, starts⟩
      exact filling.inside key (le_def.mp low)
        (by simpa only [isLast] using Nat.lt_succ_of_le (le_def.mp high))
        starts
    · intro notCached
      apply filling.outside
      rintro ⟨low, high, starts⟩
      simp only [isLast] at high
      exact notCached ⟨zero, ⟨le_def.mpr low, le_def.mpr (Nat.le_of_lt_succ high)⟩, starts⟩

theorem fill_isSome (enough : 2 ^ 32 ≤ fuel) : (fill fuel masks cache entry).isSome := by
  rw [fill, isSome_map]
  refine loop_isSome_of_rank (fun state => entry.ipEnd.toNat + 1 - state.2.toNat)
    (fun state next holds round => ?_) (filling_start ordered fits)
    (by omega)
  obtain ⟨stillHolds, advances⟩ := Filling.round notLast bounded fits holds round
  have below := stillHolds.below
  exact ⟨stillHolds, by omega⟩

end Fill

section Build

theorem lt_last_iff (ip : BitVec 32) : ip.toNat + 1 < 2 ^ 32 ↔ ip ≠ allOnes 32 := by
  rw [Ne, ← toNat_inj, toNat_allOnes]
  omega

/-- The loaded entries end before the last address. -/
def EndsBefore (entries : List GeoInfo) : Prop :=
  ∀ entry ∈ entries, entry.ipEnd.toNat + 1 < 2 ^ 32

/-- The table cuts each entry into networks of its own. -/
def FitsAll (masks : MaxMask) (entries : List GeoInfo) : Prop :=
  ∀ entry ∈ entries, masks.Fits entry.ipStart.toNat (entry.ipEnd.toNat + 1)

variable {entries : List GeoInfo}
  {fuel : Nat}

/-- The loop over all entries notes masks that fit each of them. -/
theorem foldlM_updateMask_spec (ordered : ∀ entry ∈ entries, entry.ipStart ≤ entry.ipEnd)
    (notLast : EndsBefore entries) (bounded : masks.Bounded)
    (noted : entries.foldlM (fun masks entry =>
      updateMask fuel masks entry.ipStart entry.ipEnd) masks = some masks') :
    masks'.Bounded ∧ (∀ key, masks key ≤ masks' key) ∧ FitsAll masks' entries := by
  induction entries generalizing masks with
  | nil =>
    obtain rfl : masks = masks' := by simpa using noted
    exact ⟨bounded, fun _ => Nat.le_refl _, fun _ => by simp⟩
  | cons entry rest ih =>
    rw [foldlM_cons] at noted
    obtain ⟨middle, updated, remaining⟩ := bind_eq_some_iff.mp noted
    obtain ⟨middleBounded, finer, fits⟩ := updateMask_spec
      (notLast entry (by simp)) (ordered entry (by simp)) bounded updated
    obtain ⟨finalBounded, finerStill, fitsRest⟩ := ih
      (fun other mem => ordered other (by simp [mem]))
      (fun other mem => notLast other (by simp [mem])) middleBounded
      remaining
    refine ⟨finalBounded, fun key => Nat.le_trans (finer key) (finerStill key), ?_⟩
    intro other mem
    rcases mem_cons.mp mem with rfl | inRest
    · exact fits.finer finerStill
    · exact fitsRest other inRest

/-- The cache knows the networks of the entries and nothing else. -/
def Describes (masks : MaxMask) (entries : List GeoInfo) (cache : Cache) : Prop :=
  ∀ key value, cache key = some value ↔
    ∃ entry ∈ entries, entry.Cached masks key ∧ entry.packed = value

theorem describes_nil (masks : MaxMask) : Describes masks [] fun _ => none := by
  intro key value
  simp

/-- Filling in one more entry. -/
theorem Describes.append (describes : Describes masks done cache)
    (apart : ∀ other ∈ done, ∀ ip, other.Contains ip -> ¬ entry.Contains ip)
    (filled : ∀ key, (entry.Cached masks key -> cache' key = some entry.packed) ∧
        (¬ entry.Cached masks key -> cache' key = cache key)) :
    Describes masks (done ++ [entry]) cache' := by
  intro key value
  by_cases cached : entry.Cached masks key
  · rw [(filled key).1 cached, some_inj]
    constructor
    · intro same
      exact ⟨entry, by simp, cached, same⟩
    · rintro ⟨other, mem, otherCached, same⟩
      rcases mem_append.mp mem with inDone | isEntry
      · exact absurd cached.2.1 (apart other inDone key otherCached.2.1)
      · rwa [mem_singleton.mp isEntry] at same
  · rw [(filled key).2 cached, describes key value]
    constructor
    · rintro ⟨other, mem, rest⟩
      exact ⟨other, by simp [mem], rest⟩
    · rintro ⟨other, mem, otherCached, same⟩
      rcases mem_append.mp mem with inDone | isEntry
      · exact ⟨other, inDone, otherCached, same⟩
      · rw [mem_singleton.mp isEntry] at otherCached
        exact absurd otherCached cached

/-- The loop over all entries fills in the networks of each of them. -/
theorem foldlM_fill_spec (bounded : masks.Bounded)
    (ordered : ∀ entry ∈ entries, entry.ipStart ≤ entry.ipEnd) (notLast : EndsBefore entries)
    (fits : FitsAll masks entries)
    (apart : (done ++ entries).Pairwise fun left right =>
      ∀ ip, left.Contains ip -> ¬ right.Contains ip)
    (describes : Describes masks done cache)
    (filled : entries.foldlM (fill fuel masks) cache = some cache') :
    Describes masks (done ++ entries) cache' := by
  induction entries generalizing cache done with
  | nil =>
    obtain rfl : cache = cache' := by simpa using filled
    rwa [append_nil]
  | cons entry rest ih =>
    rw [foldlM_cons] at filled
    obtain ⟨middle, first, remaining⟩ := bind_eq_some_iff.mp filled
    have step := describes.append
      (fun other mem => (pairwise_append.mp apart).2.2 other mem entry (by simp))
      (fill_spec (ordered entry (by simp)) (notLast entry (by simp)) bounded
        (fits entry (by simp)) first)
    rw [append_cons] at apart ⊢
    exact ih (fun other mem => ordered other (by simp [mem]))
      (fun other mem => notLast other (by simp [mem]))
      (fun other mem => fits other (by simp [mem])) apart step remaining

variable (ranges : GeoRanges)

theorem newNetmaskGeoTree_spec (notLast : EndsBefore ranges.entries)
    (built : newNetmaskGeoTree fuel ranges.entries = some tree) :
    tree.maxMask.Bounded ∧ FitsAll tree.maxMask ranges.entries ∧
      Describes tree.maxMask ranges.entries tree.cache := by
  obtain ⟨masks, noted, rest⟩ := bind_eq_some_iff.mp built
  obtain ⟨cache, filled, same⟩ := bind_eq_some_iff.mp rest
  obtain rfl := Option.some.inj same
  obtain ⟨bounded, -, fits⟩ := foldlM_updateMask_spec ranges.ordered notLast
    (fun _ => .inl rfl) noted
  have describes := foldlM_fill_spec bounded ranges.ordered notLast fits
    (by rw [nil_append]; exact ranges.disjoint) (describes_nil masks)
    filled
  exact ⟨bounded, fits, describes⟩

theorem newNetmaskGeoTree_isSome (notLast : EndsBefore ranges.entries) :
    (newNetmaskGeoTree (2 ^ 32) ranges.entries).isSome := by
  have notes : (ranges.entries.foldlM (fun masks entry =>
      updateMask (2 ^ 32) masks entry.ipStart entry.ipEnd)
      fun _ => 0).isSome :=
    foldlM_isSome (fun masks entry mem => updateMask_isSome
      (notLast entry mem) (Nat.le_refl _) masks entry.ipStart) _
  obtain ⟨masks, noted⟩ := isSome_iff_exists.mp notes
  obtain ⟨bounded, -, fits⟩ := foldlM_updateMask_spec ranges.ordered notLast
    (fun _ => .inl rfl) noted
  have fills : (ranges.entries.foldlM (fill (2 ^ 32) masks) fun _ => none).isSome :=
    foldlM_isSome (fun cache entry mem => fill_isSome
      (ranges.ordered entry mem) (notLast entry mem) bounded (fits entry mem)
      (Nat.le_refl _)) _
  obtain ⟨cache, filled⟩ := isSome_iff_exists.mp fills
  rw [newNetmaskGeoTree, noted, some_bind, filled]
  rfl

/-- A range that ends with the last address keeps the tree from being
finished. -/
theorem endsBefore_of_built (built : newNetmaskGeoTree fuel entries = some tree) :
    EndsBefore entries := by
  obtain ⟨masks, noted, -⟩ := bind_eq_some_iff.mp built
  intro entry mem
  obtain ⟨before, after, updated⟩ := exists_step_of_foldlM noted entry mem
  refine (lt_last_iff _).mpr fun isLast => ?_
  rw [isLast, updateMask_eq_none] at updated
  cases updated

end Build

section Query

variable {ranges : GeoRanges}
  {tree : NetmaskTree}

/-- An address of a range that does not start with address 0. -/
theorem query_of_contains (fits : FitsAll tree.maxMask ranges.entries)
    (describes : Describes tree.maxMask ranges.entries tree.cache)
    (mem : entry ∈ ranges.entries) (positive : entry.ipStart ≠ 0) (contains : entry.Contains ip) :
    tree.query ip = (entry.region, entry.isp) := by
  have low := le_def.mp contains.1
  have high := le_def.mp contains.2
  obtain ⟨minimal, afterLow, -⟩ := fits entry mem ip.toNat low (Nat.lt_succ_of_le high)
  have isKey := tree.maxMask.toNat_key ip
  have below : tree.maxMask.base ip.toNat ≤ ip.toNat := blockBase_le
  have cached : entry.Cached tree.maxMask (ip &&& maskLenToNetmask (tree.maxMask.getMask ip)) := by
    refine ⟨positive, ⟨?_, ?_⟩, ?_⟩
    · rwa [le_def, isKey]
    · rw [le_def, isKey]
      omega
    · rw [isKey, base_base minimal]
  have found := (describes _ entry.packed).mpr ⟨entry, mem, cached, rfl⟩
  rw [NetmaskTree.query, found]
  exact Prod.ext entry.region_packed entry.isp_packed

theorem query_of_not_contains (bounded : tree.maxMask.Bounded)
    (fits : FitsAll tree.maxMask ranges.entries)
    (describes : Describes tree.maxMask ranges.entries tree.cache)
    (outside : ∀ entry ∈ ranges.entries, entry.ipStart ≠ 0 -> ¬ entry.Contains ip) :
    tree.query ip = (0, 0) := by
  have absent : tree.cache (ip &&& maskLenToNetmask (tree.maxMask.getMask ip)) = none := by
    by_contra present
    obtain ⟨value, found⟩ := ne_none_iff_exists'.mp present
    obtain ⟨entry, mem, ⟨positive, contains, -⟩, -⟩ := (describes _ value).mp found
    have isKey := tree.maxMask.toNat_key ip
    have low := le_def.mp contains.1
    have high := le_def.mp contains.2
    rw [isKey] at low high
    rcases bounded (ip.toNat / 65536) with none | ⟨minimal, -⟩
    · rw [base_eq_zero none] at low
      exact positive (eq_of_toNat_eq (Nat.le_zero.mp low))
    · obtain ⟨-, -, ends⟩ := fits entry mem _ low (Nat.lt_succ_of_le high)
      rw [base_base minimal, size_base minimal] at ends
      have below : tree.maxMask.base ip.toNat ≤ ip.toNat := blockBase_le
      have above : ip.toNat < tree.maxMask.base ip.toNat + tree.maxMask.size ip.toNat :=
        lt_blockBase_add (size_pos _)
      apply outside entry mem positive
      exact ⟨le_def.mpr (Nat.le_trans low below), le_def.mpr (by omega)⟩
  rw [NetmaskTree.query, absent]

/-- The tree of disjoint ranges is finished and answers every address with its
range exactly if no range ends with the last address and one that starts with
address 0 has neither region nor ISP. -/
theorem newNetmaskGeoTree_answers_iff (ranges : GeoRanges) :
    (∃ fuel tree, newNetmaskGeoTree fuel ranges.entries = some tree ∧
      ranges.AnsweredBy tree.query) ↔
    ∀ entry ∈ ranges.entries, entry.ipEnd ≠ BitVec.allOnes 32 ∧
      (entry.ipStart = 0 -> entry.region = 0 ∧ entry.isp = 0) := by
  constructor
  · rintro ⟨fuel, tree, built, answered⟩ entry mem
    have notLast := endsBefore_of_built built
    obtain ⟨bounded, fits, describes⟩ := newNetmaskGeoTree_spec ranges notLast built
    refine ⟨(lt_last_iff _).mp (notLast entry mem), fun zero => ?_⟩
    have contains : entry.Contains 0 := by
      rw [GeoInfo.Contains, zero]
      exact ⟨BitVec.le_refl _, Nat.zero_le _⟩
    have unknown : tree.query 0 = (0, 0) := by
      apply query_of_not_contains bounded fits describes
      intro other _ positive otherContains
      exact positive (le_zero_iff.mp otherContains.1)
    have answer := (answered 0).1 entry mem contains
    rw [unknown] at answer
    exact ⟨(Prod.mk.inj answer).1.symm, (Prod.mk.inj answer).2.symm⟩
  · intro admitted
    have notLast : EndsBefore ranges.entries :=
      fun entry mem => (lt_last_iff _).mpr (admitted entry mem).1
    obtain ⟨tree, built⟩ := Option.isSome_iff_exists.mp (newNetmaskGeoTree_isSome ranges notLast)
    obtain ⟨bounded, fits, describes⟩ := newNetmaskGeoTree_spec ranges notLast built
    refine ⟨2 ^ 32, tree, built, fun ip => ⟨?_, ?_⟩⟩
    · intro entry mem contains
      by_cases zero : entry.ipStart = 0
      · obtain ⟨noRegion, noIsp⟩ := (admitted entry mem).2 zero
        rw [noRegion, noIsp]
        apply query_of_not_contains bounded fits describes
        intro other otherMem positive otherContains
        apply positive
        rw [← ranges.eq_of_contains mem otherMem contains otherContains]
        exact zero
      · exact query_of_contains fits describes mem zero contains
    · intro outside
      exact query_of_not_contains bounded fits describes fun entry mem _ => outside entry mem

end Query

/-- The tree of a range up to the last address is never finished; the addresses
of a range from address 0 on are unknown. -/
theorem edge_ranges_fail :
    (∀ fuel, newNetmaskGeoTree fuel [⟨0xFFFFFF00, 0xFFFFFFFF, 7, 2⟩] = none) ∧
    (newNetmaskGeoTree 2 [⟨0, 0xFF, 7, 2⟩]).map (fun tree => tree.query 1) = some (0, 0) := by
  constructor
  · intro fuel
    have stuck := updateMask_eq_none fuel (fun _ => 0) 0xFFFFFF00
    rw [newNetmaskGeoTree, List.foldlM_cons]
    exact congrArg (fun noted => (noted >>= _) >>= _) stuck
  · decide +kernel

/-- Two ranges that lie next to each other. -/
def adjacentRanges : GeoRanges where
  entries := [⟨0x0A000000, 0x0A0000FF, 7, 2⟩, ⟨0x0A000100, 0x0A00027F, 8, 3⟩]
  ordered := by decide
  disjoint := by
    refine List.pairwise_pair.mpr fun ip inLeft inRight => ?_
    have high := le_def.mp inLeft.2
    have low := le_def.mp inRight.1
    exact absurd (Nat.le_trans low high) (by decide)

theorem newNetmaskGeoTree_answers_iff_adjacent :
    ∃ fuel tree, newNetmaskGeoTree fuel adjacentRanges.entries = some tree ∧
      adjacentRanges.AnsweredBy tree.query :=
  (newNetmaskGeoTree_answers_iff adjacentRanges).mpr (by decide)

end Metaflow.Geo
