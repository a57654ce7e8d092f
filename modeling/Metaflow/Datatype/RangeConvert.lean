import Metaflow.Net.IPNet

/-!
# Ranges of addresses cut into networks

`utils.go`: a range of IPv4 addresses is cut into networks, each the largest one
that begins at the first address left. Additions wrap around, so the loop takes
fuel.
-/

namespace Metaflow.Datatype

open Library Net

/-- `MAX_MASK_LEN` -/
def maxMaskLen : Nat := 32

/-- `utils.MaskLenToNetmask` -/
def maskLenToNetmask (mask : Nat) : BitVec 32 :=
  BitVec.allOnes 32 <<< (32 - mask)

/-- `MAX_NETMASK` -/
def maxNetmask : BitVec 32 := maskLenToNetmask maxMaskLen

/-- The rounds of `getFirstMask` from `maxLen` on, down to `MIN_MASK_LEN`,
which is 0. -/
def getFirstMaskFrom (start stop : BitVec 32) : Nat -> Nat
  | 0 => 0
  | maxLen + 1 =>
    if start &&& (1 : BitVec 32) <<< (maxMaskLen - (maxLen + 1)) ≠ 0 then
      maxLen + 1
    else if stop ≤ start + ~~~maskLenToNetmask (maxLen + 1) ∨
        stop < start + ~~~maskLenToNetmask maxLen then
      maxLen + 1
    else getFirstMaskFrom start stop maxLen

/-- The mask length of the first network of a range. -/
def getFirstMask (start stop : BitVec 32) : Nat :=
  getFirstMaskFrom start stop maxMaskLen

/-- The last address of a network. -/
def getLastIp (ip : BitVec 32) (mask : Nat) : BitVec 32 :=
  ip + ~~~maskLenToNetmask mask

/-- The loop of `ipv4RangeConvert`; `none` if it is out of fuel. -/
def ipv4RangeConvert (stop : BitVec 32) : Nat -> BitVec 32 -> Option (List IPNet)
  | 0, _ => none
  | fuel + 1, start =>
    if start ≤ stop then
      let maskLen := getFirstMask start stop
      let ip : IPNet := ⟨.v4 start, cidrMask4 maskLen⟩
      if getLastIp start maskLen = maxNetmask then some [ip]
      else
        (ipv4RangeConvert stop fuel
          (start + (1 : BitVec 32) <<< (maxMaskLen - maskLen))).map (ip :: ·)
    else some []

/-- The mask length of a network that starts at `start` and ends before
`bound`. -/
structure IsNetwork (start bound maskLen : Nat) : Prop where
  high : maskLen ≤ maxMaskLen
  aligned : 2 ^ (maxMaskLen - maskLen) ∣ start
  inside : start + 2 ^ (maxMaskLen - maskLen) ≤ bound

theorem toNat_not_maskLenToNetmask (small : maskLen ≤ maxMaskLen) :
    (~~~maskLenToNetmask maskLen).toNat = 2 ^ (maxMaskLen - maskLen) - 1 :=
  toNat_not_leadingOnes small

theorem isNetwork_getFirstMaskFrom (network : IsNetwork start.toNat (stop.toNat + 1) maxLen) :
    IsNetwork start.toNat (stop.toNat + 1) (getFirstMaskFrom start stop maxLen) := by
  induction maxLen with
  | zero => exact network
  | succ maxLen ih =>
    unfold getFirstMaskFrom
    split_ifs with set behind
    · exact network
    · exact network
    · obtain ⟨aligned, inside⟩ := shorter_fits network.aligned network.high (not_not.mp set)
        (not_or.mp behind).2
      exact ih ⟨Nat.le_of_succ_le network.high, aligned, inside⟩

/-- `getFirstMask` finds a network inside the range. -/
theorem isNetwork_getFirstMask (ordered : start ≤ stop) :
    IsNetwork start.toNat (stop.toNat + 1) (getFirstMask start stop) := by
  apply isNetwork_getFirstMaskFrom
  have := BitVec.le_def.mp ordered
  exact ⟨Nat.le_refl _, by simp, by simp; omega⟩

/-- The network that leaves the loop ends at the last address. -/
theorem getLastIp_eq_maxNetmask_iff
    (network : IsNetwork start.toNat bound maskLen) (small : bound ≤ 2 ^ 32) :
    getLastIp start maskLen = maxNetmask ↔ start.toNat + 2 ^ (maxMaskLen - maskLen) = 2 ^ 32 := by
  have positive := Nat.two_pow_pos (maxMaskLen - maskLen)
  have inside := network.inside
  have last : maxNetmask.toNat = 2 ^ 32 - 1 := by decide
  rw [BitVec.toNat_inj.symm, getLastIp, BitVec.toNat_add,
    toNat_not_maskLenToNetmask network.high, Nat.mod_eq_of_lt (by omega), last]
  omega

/-- The networks from `low` to before `bound`: every address is in exactly one
of them. -/
structure CutsNetworks (networks : List IPNet) (low bound : Nat) : Prop where
  wellFormed : ∀ network ∈ networks, ∃ (first : BitVec 32) (ones : Nat),
    ones ≤ 32 ∧ network = ⟨.v4 first, cidrMask4 ones⟩ ∧
      first &&& leadingOnes 32 ones = first
  disjoint : networks.Pairwise fun network other =>
    ∀ ip, ¬ (network.contains ip ∧ other.contains ip)
  union : ∀ ip, (∃ network ∈ networks, network.contains ip) ↔
    ∃ bits : BitVec 32, ip.to4 = some bits ∧ low ≤ bits.toNat ∧ bits.toNat < bound

theorem CutsNetworks.nil (low : Nat) : CutsNetworks [] low low where
  wellFormed := by simp
  disjoint := .nil
  union ip := by
    constructor
    · rintro ⟨_, mem, _⟩
      cases mem
    · rintro ⟨bits, _, above, below⟩
      omega

theorem IsNetwork.cons (network : IsNetwork start.toNat bound maskLen)
    (rest : CutsNetworks networks (start.toNat + 2 ^ (maxMaskLen - maskLen)) bound) :
    CutsNetworks (⟨.v4 start, cidrMask4 maskLen⟩ :: networks) start.toNat bound := by
  have inside := network.inside
  have first := @IPNet.contains_v4_iff start maskLen
  have onFirst : start &&& leadingOnes 32 maskLen = start := by
    rw [BitVec.toNat_inj.symm, toNat_and_leadingOnes]
    exact (blockBase_eq_self_iff (Nat.two_pow_pos _)).mpr network.aligned
  refine ⟨?_, List.pairwise_cons.mpr ⟨?_, rest.disjoint⟩, ?_⟩
  · intro other mem
    rcases List.mem_cons.mp mem with rfl | mem
    · exact ⟨start, maskLen, network.high, rfl, onFirst⟩
    · exact rest.wellFormed other mem
  · rintro other mem ip ⟨inFirst, inOther⟩
    obtain ⟨bits, isBits, _, before⟩ := (first network.aligned).mp inFirst
    obtain ⟨bits', isBits', behind, _⟩ := (rest.union ip).mp ⟨other, mem, inOther⟩
    obtain rfl : bits = bits' := Option.some.inj (isBits.symm.trans isBits')
    exact absurd behind (Nat.not_le_of_lt before)
  · intro ip
    simp only [List.mem_cons, exists_eq_or_imp, rest.union, first network.aligned]
    simp only [maxMaskLen] at *
    constructor
    · rintro (⟨bits, isBits, above, below⟩ | ⟨bits, isBits, above, below⟩)
      · exact ⟨bits, isBits, above, by omega⟩
      · exact ⟨bits, isBits, Nat.le_trans (Nat.le_add_right _ _) above, below⟩
    · rintro ⟨bits, isBits, above, below⟩
      rcases Nat.lt_or_ge bits.toNat (start.toNat + 2 ^ (32 - maskLen)) with before | behind
      · exact .inl ⟨bits, isBits, above, before⟩
      · exact .inr ⟨bits, isBits, behind, below⟩

/-- More fuel does not change the result. -/
theorem ipv4RangeConvert_mono
    (longer : fuel ≤ more) (ended : ipv4RangeConvert stop fuel start = some networks) :
    ipv4RangeConvert stop more start = some networks := by
  induction fuel generalizing start more networks with
  | zero => cases ended
  | succ fuel ih =>
    obtain ⟨more, rfl⟩ := Nat.exists_eq_add_of_lt longer
    unfold ipv4RangeConvert at ended ⊢
    by_cases ordered : start ≤ stop
    · by_cases last : getLastIp start (getFirstMask start stop) = maxNetmask
      · simpa only [ordered, if_true, last] using ended
      · simp only [ordered, if_true, last, if_false, Option.map_eq_some_iff] at ended ⊢
        obtain ⟨rest, isRest, rfl⟩ := ended
        exact ⟨rest, ih (Nat.le_add_right _ _) isRest, rfl⟩
    · simpa only [ordered, if_false] using ended

/-- The loop from `start` on ends with the networks of the addresses that are
left. -/
theorem cuts_ipv4RangeConvert
    (enough : stop.toNat + 1 - start.toNat < fuel) (notBehind : start.toNat ≤ stop.toNat + 1) :
    ∃ networks, ipv4RangeConvert stop fuel start = some networks ∧
      CutsNetworks networks start.toNat (stop.toNat + 1) := by
  induction fuel generalizing start with
  | zero => exact absurd enough (Nat.not_lt_zero _)
  | succ fuel ih =>
    unfold ipv4RangeConvert
    by_cases ordered : start ≤ stop
    · have network := isNetwork_getFirstMask ordered
      have inside := network.inside
      have positive := Nat.two_pow_pos (maxMaskLen - getFirstMask start stop)
      have isLast := getLastIp_eq_maxNetmask_iff network stop.isLt
      by_cases last : getLastIp start (getFirstMask start stop) = maxNetmask
      · have ends := isLast.mp last
        have below := stop.isLt
        have bound : start.toNat + 2 ^ (maxMaskLen - getFirstMask start stop)
            = stop.toNat + 1 := by omega
        refine ⟨[⟨.v4 start, cidrMask4 (getFirstMask start stop)⟩],
          by simp only [ordered, if_true, last], network.cons ?_⟩
        rw [bound]
        exact CutsNetworks.nil _
      · have notLast := mt isLast.mpr last
        have next := @toNat_add_block 32 (maxMaskLen - getFirstMask start stop) start
          (by have := stop.isLt; omega)
        obtain ⟨networks, isRest, cuts⟩ := @ih
          (start + (1 : BitVec 32) <<< (maxMaskLen - getFirstMask start stop))
          (by rw [next]; omega) (by rw [next]; exact inside)
        rw [next] at cuts
        refine ⟨⟨.v4 start, cidrMask4 (getFirstMask start stop)⟩ :: networks, ?_, network.cons cuts⟩
        simp only [ordered, if_true, last, if_false, isRest, Option.map_some]
    · have behind : ¬ start.toNat ≤ stop.toNat := ordered
      have bound : start.toNat = stop.toNat + 1 := by omega
      refine ⟨[], by simp only [ordered, if_false], ?_⟩
      rw [bound]
      exact CutsNetworks.nil _

/-- The conversion ends, and its networks are disjoint and have together the
addresses of the range. -/
theorem ipv4RangeConvert_cuts (start stop : BitVec 32) :
    ∃ networks, (∀ fuel, 2 ^ 32 < fuel -> ipv4RangeConvert stop fuel start = some networks) ∧
      (∀ network ∈ networks, ∃ (first : BitVec 32) (ones : Nat),
        ones ≤ 32 ∧ network = ⟨.v4 first, cidrMask4 ones⟩ ∧
          first &&& leadingOnes 32 ones = first) ∧
      (networks.Pairwise fun network other =>
        ∀ ip, ¬ (network.contains ip ∧ other.contains ip)) ∧
      ∀ ip, (∃ network ∈ networks, network.contains ip) ↔
        ∃ bits, ip.to4 = some bits ∧ start ≤ bits ∧ bits ≤ stop := by
  by_cases ordered : start ≤ stop
  · have enough : stop.toNat + 1 - start.toNat < 2 ^ 32 + 1 := by
      have := stop.isLt
      omega
    obtain ⟨networks, ended, cuts⟩ := cuts_ipv4RangeConvert enough
      (Nat.le_succ_of_le (BitVec.le_def.mp ordered))
    refine ⟨networks, fun fuel longer => ipv4RangeConvert_mono longer ended,
      cuts.wellFormed, cuts.disjoint, fun ip => ?_⟩
    simp only [cuts.union, BitVec.le_def, Nat.lt_succ_iff]
  · refine ⟨[], fun fuel longer => ?_, by simp, .nil, fun ip => ?_⟩
    · obtain ⟨more, rfl⟩ := Nat.exists_eq_add_of_lt longer
      simp only [ipv4RangeConvert, ordered, if_false]
    · constructor
      · rintro ⟨_, mem, _⟩
        cases mem
      · rintro ⟨bits, _, above, below⟩
        exact absurd (BitVec.le_trans above below) ordered

end Metaflow.Datatype
