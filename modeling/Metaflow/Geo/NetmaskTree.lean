import Metaflow.Library.Loop
import Metaflow.Net.IPNet

/-!
# The netmask tree of the geographic database

`netmask_tree.go`: ranges are cut into networks, the longest mask of every /16
network is noted, and the cache gets an entry for each network of that length.
Additions wrap around; the loops take fuel.
-/

namespace Metaflow.Geo

open Library Net BitVec

def minMaskLen : Nat := 16

def maxMaskLen : Nat := 32

structure GeoInfo where
  ipStart : BitVec 32
  ipEnd : BitVec 32
  region : UInt8
  isp : UInt8
  deriving DecidableEq

/-- `maskLenToNetmask[maskLen]` as `init` fills it. -/
def maskLenToNetmask (maskLen : Nat) : BitVec 32 :=
  ~~~((0xFFFFFFFF : BitVec 32) >>> maskLen)

/-- The rounds of `getFirstMask` from `maxLen` on. -/
def getFirstMaskFrom (start stop : BitVec 32) : Nat -> Nat
  | 0 => 0
  | maxLen + 1 =>
    if maxLen + 1 ≤ minMaskLen then maxLen + 1
    else if start &&& (1 : BitVec 32) <<< (maxMaskLen - (maxLen + 1)) ≠ 0 then
      maxLen + 1
    else if stop ≤ start + ~~~maskLenToNetmask (maxLen + 1) ∨
        stop < start + ~~~maskLenToNetmask maxLen then
      maxLen + 1
    else getFirstMaskFrom start stop maxLen

/-- The mask length of the first network of a range. -/
def getFirstMask (start stop : BitVec 32) : Nat :=
  getFirstMaskFrom start stop maxMaskLen

/-- Mask lengths by the upper 16 bits of the address. -/
abbrev MaxMask := Nat -> Nat

namespace MaxMask

/-- Note a mask length unless a longer one is known. -/
def note (masks : MaxMask) (key maskLen : Nat) : MaxMask :=
  if maskLen > masks key then Function.update masks key maskLen else masks

/-- One round of `updateMask`. -/
def updateMaskRound (stop : BitVec 32) : MaxMask × BitVec 32 -> Option (MaxMask × BitVec 32)
  | (masks, start) =>
    if start ≤ stop then
      let maskLen := getFirstMask start stop
      let key := (start >>> (maxMaskLen - minMaskLen)).toNat
      some (masks.note key maskLen, start + (1 : BitVec 32) <<< (maxMaskLen - maskLen))
    else none

def updateMask (fuel : Nat) (masks : MaxMask) (start stop : BitVec 32) : Option MaxMask :=
  (loop (updateMaskRound stop) fuel (masks, start)).map Prod.fst

def getMask (masks : MaxMask) (ip : BitVec 32) : Nat :=
  masks (ip >>> (maxMaskLen - minMaskLen)).toNat

end MaxMask

abbrev Cache := BitVec 32 -> Option UInt16

/-- `uint16(e.Region)<<8 | uint16(e.ISP)` -/
def GeoInfo.packed (entry : GeoInfo) : UInt16 :=
  entry.region.toUInt16 <<< 8 ||| entry.isp.toUInt16

/-- One round of the loop over the addresses of an entry. -/
def fillRound (masks : MaxMask) (entry : GeoInfo) : Cache × BitVec 32 -> Option (Cache × BitVec 32)
  | (cache, ip) =>
    if ip ≤ entry.ipEnd ∧ 0 < ip then
      let mask := masks.getMask ip
      some (Function.update cache (ip &&& maskLenToNetmask mask)
        (some entry.packed), ip + (1 : BitVec 32) <<< (maxMaskLen - mask))
    else none

def fill (fuel : Nat) (masks : MaxMask) (cache : Cache) (entry : GeoInfo) : Option Cache :=
  (loop (fillRound masks entry) fuel (cache, entry.ipStart)).map Prod.fst

structure NetmaskTree where
  maxMask : MaxMask
  cache : Cache

/-- The tree of the entries; `none` if a loop is out of fuel. -/
def newNetmaskGeoTree (fuel : Nat) (entries : List GeoInfo) : Option NetmaskTree := do
  let maxMask <- entries.foldlM (fun masks entry =>
    MaxMask.updateMask fuel masks entry.ipStart entry.ipEnd) fun _ => 0
  let cache <- entries.foldlM (fill fuel maxMask) fun _ => none
  return { maxMask, cache }

/-- Region and ISP of an address. -/
def NetmaskTree.query (tree : NetmaskTree) (ip : BitVec 32) : UInt8 × UInt8 :=
  match tree.cache (ip &&& maskLenToNetmask (tree.maxMask.getMask ip)) with
  | some value => ((value >>> 8).toUInt8, (value &&& 0xff).toUInt8)
  | none => (0, 0)

section

variable (masks : MaxMask) (ip : BitVec 32) (maskLen : Nat)

theorem maskLenToNetmask_eq :
    maskLenToNetmask maskLen = leadingOnes 32 maskLen := by
  rcases Nat.lt_or_ge maskLen 33 with small | large
  · have each : ∀ len < 33, maskLenToNetmask len = leadingOnes 32 len := by decide +kernel
    exact each maskLen small
  · rw [maskLenToNetmask, ushiftRight_eq_zero (by omega), leadingOnes,
      Nat.sub_eq_zero_of_le (by omega)]
    rfl

/-- The masked address is the first one of its network. -/
theorem toNat_and_maskLenToNetmask :
    (ip &&& maskLenToNetmask maskLen).toNat = blockBase (2 ^ (maxMaskLen - maskLen)) ip.toNat := by
  rw [maskLenToNetmask_eq]
  exact toNat_and_leadingOnes ip maskLen

theorem getMask_eq :
    masks.getMask ip = masks (ip.toNat / 65536) := by
  rw [MaxMask.getMask, toNat_ushiftRight, Nat.shiftRight_eq_div_pow]
  rfl

end

/-- The mask length of a network that starts at `start` and ends before
`bound`. -/
structure IsNetwork (start bound maskLen : Nat) : Prop where
  low : minMaskLen ≤ maskLen
  high : maskLen ≤ maxMaskLen
  aligned : 2 ^ (maxMaskLen - maskLen) ∣ start
  inside : start + 2 ^ (maxMaskLen - maskLen) ≤ bound

variable {start stop : BitVec 32}

/-- A round of `getFirstMask` that goes on may halve the mask. -/
theorem IsNetwork.shorter (network : IsNetwork start.toNat (stop.toNat + 1) (maxLen + 1))
    (long : minMaskLen < maxLen + 1)
    (clear : start &&& (1 : BitVec 32) <<< (maxMaskLen - (maxLen + 1)) = 0)
    (room : ¬ stop < start + ~~~maskLenToNetmask maxLen) :
    IsNetwork start.toNat (stop.toNat + 1) maxLen := by
  have high := network.high
  rw [maskLenToNetmask_eq] at room
  obtain ⟨aligned, inside⟩ := shorter_fits network.aligned high clear room
  exact ⟨by omega, by omega, aligned, inside⟩

theorem isNetwork_getFirstMaskFrom (network : IsNetwork start.toNat (stop.toNat + 1) maxLen) :
    IsNetwork start.toNat (stop.toNat + 1) (getFirstMaskFrom start stop maxLen) := by
  induction maxLen with
  | zero => exact network
  | succ maxLen ih =>
    unfold getFirstMaskFrom
    split_ifs with short set behind
    · exact network
    · exact network
    · exact network
    · exact ih (network.shorter (by omega) (not_not.mp set) (not_or.mp behind).2)

theorem isNetwork_getFirstMask (ordered : start ≤ stop) :
    IsNetwork start.toNat (stop.toNat + 1) (getFirstMask start stop) := by
  apply isNetwork_getFirstMaskFrom
  have := le_def.mp ordered
  exact ⟨by decide, Nat.le_refl _, by simp, by simp; omega⟩

theorem toNat_add_network (network : IsNetwork start.toNat (stop.toNat + 1) maskLen)
    (notLast : stop.toNat + 1 < 2 ^ 32) :
    (start + (1 : BitVec 32) <<< (maxMaskLen - maskLen)).toNat =
      start.toNat + 2 ^ (maxMaskLen - maskLen) := by
  have inside := network.inside
  exact toNat_add_block (by omega)

namespace MaxMask

/-- The size of the networks that the table cuts around an address. -/
def size (masks : MaxMask) (ip : Nat) : Nat :=
  2 ^ (maxMaskLen - masks (ip / 65536))

/-- The first address of the network of an address. -/
def base (masks : MaxMask) (ip : Nat) : Nat :=
  blockBase (masks.size ip) ip

/-- The mask lengths of a table: none, or between the two limits. -/
def Bounded (masks : MaxMask) : Prop :=
  ∀ key, masks key = 0 ∨ minMaskLen ≤ masks key ∧ masks key ≤ maxMaskLen

/-- The networks that the table cuts around the addresses of a range have no
addresses outside it. -/
def Fits (masks : MaxMask) (low bound : Nat) : Prop :=
  ∀ ip, low ≤ ip -> ip < bound ->
    minMaskLen ≤ masks (ip / 65536) ∧ low ≤ masks.base ip ∧ masks.base ip + masks.size ip ≤ bound

variable {masks masks' : MaxMask}

theorem size_pos (ip : Nat) : 0 < masks.size ip :=
  Nat.two_pow_pos _

variable {ip bound : Nat} {stop start : BitVec 32}

section

variable (low : minMaskLen ≤ masks (ip / 65536))
include low

/-- The networks of a /16 network stay inside it. -/
theorem size_dvd : masks.size ip ∣ 65536 := by
  have divides : masks.size ip ∣ 2 ^ minMaskLen := by
    apply Nat.pow_dvd_pow
    simp only [minMaskLen, maxMaskLen] at *
    omega
  exact divides

/-- A network lies inside one /16 network. -/
theorem base_div : masks.base ip / 65536 = ip / 65536 :=
  blockBase_div (by decide) (size_dvd low)

theorem size_base : masks.size (masks.base ip) = masks.size ip := by
  rw [size, base_div low, size]

end

/-- Longer masks cut a range into smaller networks. -/
theorem Fits.finer (fits : masks.Fits low bound)
    (finer : ∀ key, masks key ≤ masks' key) : masks'.Fits low bound := by
  intro ip above below
  obtain ⟨minimal, afterLow, beforeBound⟩ := fits ip above below
  have longer := finer (ip / 65536)
  have divides : masks'.size ip ∣ masks.size ip := Nat.pow_dvd_pow 2 (Nat.sub_le_sub_left longer _)
  refine ⟨Nat.le_trans minimal longer, ?_, ?_⟩
  · exact Nat.le_trans afterLow (blockBase_mono divides)
  · exact Nat.le_trans (blockBase_add_mono (size_pos ip) divides) beforeBound

theorem Fits.append (ordered : low ≤ middle)
    (following : middle ≤ bound) (front : masks.Fits low middle) (back : masks.Fits middle bound) :
    masks.Fits low bound := by
  intro ip above below
  rcases Nat.lt_or_ge ip middle with before | after
  · obtain ⟨minimal, afterLow, beforeMiddle⟩ := front ip above before
    exact ⟨minimal, afterLow, by omega⟩
  · obtain ⟨minimal, afterMiddle, beforeBound⟩ := back ip after below
    exact ⟨minimal, by omega, beforeBound⟩

theorem fits_network {start maskLen : Nat} (network : IsNetwork start bound maskLen)
    (noted : maskLen ≤ masks (start / 65536)) :
    masks.Fits start (start + 2 ^ (maxMaskLen - maskLen)) := by
  intro ip above below
  have isStart := blockBase_eq network.aligned above below
  have small : 2 ^ (maxMaskLen - maskLen) ∣ 2 ^ minMaskLen := by
    apply Nat.pow_dvd_pow
    have := network.low
    simp only [minMaskLen, maxMaskLen] at *
    omega
  have sameKey : start / 65536 = ip / 65536 := by
    rw [← isStart]
    exact blockBase_div (by decide) small
  rw [sameKey] at noted
  have divides : masks.size ip ∣ 2 ^ (maxMaskLen - maskLen) :=
    Nat.pow_dvd_pow 2 (Nat.sub_le_sub_left noted _)
  refine ⟨Nat.le_trans network.low noted, ?_, ?_⟩
  · exact Nat.le_trans (Nat.le_of_eq isStart.symm) (blockBase_mono divides)
  · rw [← isStart]
    exact blockBase_add_mono (Nat.two_pow_pos _) divides

theorem note_apply (masks : MaxMask) (key maskLen other : Nat) : masks.note key maskLen other =
      if other = key then max (masks key) maskLen else masks other := by
  unfold note
  split_ifs with longer isKey isKey
  · rw [isKey, Function.update_self, Nat.max_eq_right (by omega)]
  · rw [Function.update_of_ne isKey]
  · rw [isKey, Nat.max_eq_left (by omega)]
  · rfl

section

variable (notLast : stop.toNat + 1 < 2 ^ 32)
include notLast

theorem updateMaskRound_spec (round : updateMaskRound stop (masks, start) = some (masks', next)) :
    start.toNat < next.toNat ∧ next.toNat ≤ stop.toNat + 1 ∧ masks'.Fits start.toNat next.toNat ∧
      (∀ key, masks key ≤ masks' key) ∧ (masks.Bounded -> masks'.Bounded) := by
  simp only [updateMaskRound] at round
  split_ifs at round with ordered
  obtain ⟨rfl, rfl⟩ := Prod.mk.inj (Option.some.inj round)
  have network := isNetwork_getFirstMask ordered
  have isKey : (start >>> (maxMaskLen - minMaskLen)).toNat = start.toNat / 65536 := by
    rw [toNat_ushiftRight, Nat.shiftRight_eq_div_pow]
    rfl
  rw [toNat_add_network network notLast, isKey]
  have inside := network.inside
  have positive := Nat.two_pow_pos (maxMaskLen - getFirstMask start stop)
  refine ⟨by omega, inside, fits_network network ?_, ?_, ?_⟩
  · rw [note_apply, if_pos rfl]
    exact Nat.le_max_right _ _
  · intro key
    rw [note_apply]
    split_ifs with same
    · rw [same]
      exact Nat.le_max_left _ _
    · exact Nat.le_refl _
  · intro bounded key
    rw [note_apply]
    split_ifs with same
    · right
      have := bounded (start.toNat / 65536)
      have := network.low
      have := network.high
      omega
    · exact bounded key

/-- The part of the range before the next network is cut already. -/
structure Cutting (masks : MaxMask) (start stop : BitVec 32)
    (state : MaxMask × BitVec 32) : Prop where
  bounded : state.1.Bounded
  finer : ∀ key, masks key ≤ state.1 key
  above : start.toNat ≤ state.2.toNat
  below : state.2.toNat ≤ stop.toNat + 1
  fits : state.1.Fits start.toNat state.2.toNat

theorem Cutting.round (cutting : Cutting masks start stop state)
    (round : updateMaskRound stop state = some next) : Cutting masks start stop next := by
  obtain ⟨advances, inside, network, longer, keeps⟩ := updateMaskRound_spec notLast round
  refine ⟨keeps cutting.bounded, ?_, ?_, inside, ?_⟩
  · exact fun key => Nat.le_trans (cutting.finer key) (longer key)
  · exact Nat.le_trans cutting.above (Nat.le_of_lt advances)
  · exact (cutting.fits.finer longer).append cutting.above (Nat.le_of_lt advances) network

/-- `updateMask` notes masks that cut the range into networks of its own. -/
theorem updateMask_spec (ordered : start ≤ stop) (bounded : masks.Bounded)
    (ended : updateMask fuel masks start stop = some masks') :
    masks'.Bounded ∧ (∀ key, masks key ≤ masks' key) ∧
      masks'.Fits start.toNat (stop.toNat + 1) := by
  obtain ⟨⟨final, last⟩, looped, rfl⟩ := Option.map_eq_some_iff.mp ended
  have initially : Cutting masks start stop (masks, start) := by
    refine ⟨bounded, fun _ => Nat.le_refl _, Nat.le_refl _, ?_, ?_⟩
    · exact Nat.le_succ_of_le (le_def.mp ordered)
    · intro ip low high
      exact absurd low (Nat.not_le_of_lt high)
  obtain ⟨cutting, out⟩ := loop_keeps (fun _ _ => Cutting.round notLast) initially looped
  have isLast : last.toNat = stop.toNat + 1 := by
    have below : last.toNat ≤ stop.toNat + 1 := cutting.below
    simp only [updateMaskRound] at out
    split_ifs at out with more
    rw [le_def] at more
    omega
  have fits := cutting.fits
  rw [isLast] at fits
  exact ⟨cutting.bounded, cutting.finer, fits⟩

/-- A range that does not end with the last address is done. -/
theorem updateMask_isSome (enough : 2 ^ 32 ≤ fuel) (masks : MaxMask) (start : BitVec 32) :
    (updateMask fuel masks start stop).isSome := by
  rw [updateMask, Option.isSome_map]
  refine loop_isSome_of_rank (fun state => stop.toNat + 1 - state.2.toNat)
    (fun state next (_ : True) round => ?_) trivial (by omega)
  obtain ⟨advances, inside, -⟩ := updateMaskRound_spec notLast round
  exact ⟨trivial, by omega⟩

end

/-- Behind the last address `start` is 0 again. -/
theorem updateMask_eq_none (fuel : Nat) (masks : MaxMask) (start : BitVec 32) :
    updateMask fuel masks start (allOnes 32) = none := by
  rw [updateMask, loop_eq_none (fun state (_ : True) => ?_) trivial]
  · rfl
  · refine ⟨_, if_pos ?_, trivial⟩
    rw [le_def, toNat_allOnes]
    omega

/-- `updateMask` ends unless the range ends with the last address. -/
theorem updateMask_ends_iff (masks : MaxMask) (start stop : BitVec 32) :
    (∃ fuel, (updateMask fuel masks start stop).isSome) ↔ stop ≠ allOnes 32 := by
  constructor
  · rintro ⟨fuel, ended⟩ rfl
    rw [updateMask_eq_none] at ended
    cases ended
  · intro notLast
    have differs : stop.toNat ≠ (allOnes 32).toNat := mt eq_of_toNat_eq notLast
    rw [toNat_allOnes] at differs
    exact ⟨2 ^ 32, updateMask_isSome (by omega) (Nat.le_refl _) masks start⟩

theorem updateMask_last_address :
    ¬ ∃ fuel, (updateMask fuel (fun _ => 0) 0xfffffffe 0xffffffff).isSome := by
  rintro ⟨fuel, ended⟩
  rw [show (0xffffffff : BitVec 32) = allOnes 32 from rfl, updateMask_eq_none] at ended
  cases ended

end MaxMask

end Metaflow.Geo
