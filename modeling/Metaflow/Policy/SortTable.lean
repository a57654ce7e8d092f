import Metaflow.Library.BucketTable
import Metaflow.Policy.Ddbs

/-!
# Choosing the vector bits

`ddbs.go`: every bit of a field is put into a list of a sort table, the bits
that divide the nodes best into the first lists. The vector has the first bits
of the table, in ascending order.
-/

namespace Metaflow.Policy

open Library Datatype List

/-- `MATCHED_FIELD_BITS_LEN` -/
def matchedFieldBitsLen : Nat := 144

/-- `MATCHED_FIELD6_BITS_LEN` -/
def matchedField6BitsLen : Nat := 336

/-- `MASK_VECTOR_MAX_SIZE` -/
def maskVectorMaxSize : Nat := 16

/-- `MASK_VECTOR_MIN_SIZE` -/
def maskVectorMinSize : Nat := 4

/-- `math.MaxUint16`, the number of lists of a sort table. -/
def sortTableLen : Nat := 65535

/-- `math.MaxInt16` -/
def maxInt16 : Nat := 32767

def abs (a b : Nat) : Nat :=
  if a > b then a - b else b - a

def calcIndex (a b base : Nat) : Int :=
  if a = 0 ∧ b = 0 then base
  else abs a b + ((base : Int) - (a + b : Nat))

def getSortTableIndex (matched0 matched1 base : Nat) : Int :=
  let index := calcIndex matched0 matched1 base
  if index > maxInt16 then
    let n := (base >>> 15) + 1
    index / (n : Nat) + maxInt16
  else index

/-- `[math.MaxUint16][]int` -/
abbrev SortTable := BucketTable Nat

/-- The end of the loop body of `generateSortTable`; `none` is the panic on a
missing list. -/
def addBit (counts : Nat -> Nat × Nat) (base : Nat) (table : SortTable)
    (i : Nat) : Option SortTable :=
  let index := getSortTableIndex (counts i).1 (counts i).2 base
  if 0 ≤ index ∧ index < sortTableLen then some (table.add index.toNat i)
  else none

/-- The loop of `generateSortTable` over the bits, given `matched0` and
`matched1` of every bit. -/
def sortTableOf (bitsLen : Nat) (counts : Nat -> Nat × Nat) (base : Nat) : Option SortTable :=
  (List.range bitsLen).foldlM (addBit counts base) .empty

/-- `matched0` and `matched1` after a node. -/
def countNode (i : Nat) (matched : Nat × Nat) (item : MatchNode words) : Nat × Nat :=
  if item.matchedMask.isBitZero i then matched
  else if item.matched.isBitZero i then (matched.1 + 1, matched.2)
  else (matched.1, matched.2 + 1)

/-- `matched0` and `matched1` of a bit. -/
def countBits (link : Acl -> List (MatchNode words)) (acls : List Acl) (i : Nat) : Nat × Nat :=
  acls.foldl (fun matched acl => (link acl).foldl (countNode i) matched) (0, 0)

/-- `Count` of a link, which has 32 bits. -/
def linkCount (link : List (MatchNode words)) : BitVec 32 :=
  BitVec.ofNat 32 link.length

/-- The first loop of `generateSortTable`. -/
def countBase (link : Acl -> List (MatchNode words)) (acls : List Acl) : Nat :=
  acls.foldl (fun base acl => base + (linkCount (link acl)).toNat) 0

def generateSortTable (acls : List Acl) : Option SortTable :=
  sortTableOf matchedFieldBitsLen (countBits Acl.fieldLink acls) (countBase Acl.fieldLink acls)

def generateSortTable6 (acls : List Acl) : Option SortTable :=
  sortTableOf matchedField6BitsLen (countBits Acl.field6Link acls) (countBase Acl.field6Link acls)

/-- `generateMaskVector` after the sorting; `none` is a panic on an index out of
range. -/
def setVector {words : Nat} (vectorSize : Nat)
    (vectorBits : List Nat) : Option (MaskVector words) := do
  let maskMinBit ← vectorBits[0]?
  let maskMaxBit ← if vectorSize = 0 then none else vectorBits[vectorSize - 1]?
  if vectorBits.all (· < 64 * words) then
    some ⟨maskMinBit, maskMaxBit, vectorBits, .setBits vectorBits⟩
  else none

/-- The two functions of this name differ in the number of words only. -/
def generateMaskVector {words : Nat} (vectorSize : Nat)
    (table : SortTable) : Option (MaskVector words) :=
  let vectorBits := table.walk vectorSize [] (List.range sortTableLen)
  setVector vectorSize (vectorBits.insertionSort (· ≤ ·))

theorem calcIndex_bounds (fits : a + b ≤ base) :
    0 ≤ calcIndex a b base ∧ calcIndex a b base ≤ base := by
  unfold calcIndex abs
  split_ifs <;> omega

/-- The quotient of the mapping of many to one. -/
theorem div_shifted_le (notAbove : index ≤ base) : index / ((base >>> 15) + 1) ≤ maxInt16 := by
  rw [Nat.shiftRight_eq_div_pow]
  refine Nat.lt_succ_iff.mp (Nat.div_lt_of_lt_mul ?_)
  have division := Nat.div_add_mod base (2 ^ 15)
  have small := Nat.mod_lt base (Nat.two_pow_pos 15)
  rw [maxInt16]
  omega

theorem getSortTableIndex_bounds (fits : matched0 + matched1 ≤ base) :
    0 ≤ getSortTableIndex matched0 matched1 base ∧
      getSortTableIndex matched0 matched1 base < sortTableLen := by
  obtain ⟨notNegative, notAbove⟩ := calcIndex_bounds fits
  obtain ⟨index, isIndex⟩ := Int.eq_ofNat_of_zero_le notNegative
  rw [isIndex] at notAbove
  have quotient := div_shifted_le (Int.ofNat_le.mp notAbove)
  simp only [getSortTableIndex, isIndex, sortTableLen, maxInt16] at quotient ⊢
  split_ifs with large
  · have cast : (index : Int) / ((base >>> 15 + 1 : Nat) : Int) =
        ((index / (base >>> 15 + 1) : Nat) : Int) := rfl
    rw [cast]
    generalize index / (base >>> 15 + 1) = share at quotient ⊢
    omega
  · omega

theorem addBit_eq (fits : (counts i).1 + (counts i).2 ≤ base) (table : SortTable) :
    ∃ next, addBit counts base table i = some next ∧
      (next.items sortTableLen).Perm (table.items sortTableLen ++ [i]) := by
  obtain ⟨notNegative, inside⟩ := getSortTableIndex_bounds fits
  refine ⟨_, if_pos ⟨notNegative, inside⟩, table.items_add_perm ?_ i⟩
  omega

/-- Every bit is in one list. -/
theorem sortTableOf_eq (fits : ∀ bit, (counts bit).1 + (counts bit).2 ≤ base) (bitsLen : Nat) :
    ∃ table, sortTableOf bitsLen counts base = some table ∧
      (table.items sortTableLen).Perm (List.range bitsLen) := by
  induction bitsLen with
  | zero => exact ⟨_, rfl, .of_eq (BucketTable.items_empty _)⟩
  | succ bitsLen ih =>
    obtain ⟨table, isTable, holds⟩ := ih
    obtain ⟨next, added, holdsNext⟩ := addBit_eq (fits bitsLen) table
    refine ⟨next, ?_, ?_⟩
    · rw [sortTableOf] at isTable ⊢
      rw [range_succ, foldlM_append, isTable]
      simp [added]
    · rw [range_succ]
      exact holdsNext.trans (holds.append_right _)

/-- The counts of a bit are not above the base if no link has so many nodes that
its count wraps. -/
theorem countBits_le (link : Acl -> List (MatchNode words))
    (fits : ∀ acl ∈ acls, (link acl).length < 4294967296) (i : Nat) :
    (countBits link acls i).1 + (countBits link acls i).2 ≤ countBase link acls := by
  have node : ∀ (nodes : List (MatchNode words)) (matched : Nat × Nat),
      (nodes.foldl (countNode i) matched).1 + (nodes.foldl (countNode i) matched).2 ≤
        matched.1 + matched.2 + nodes.length := by
    intro nodes
    induction nodes with
    | nil => simp
    | cons item nodes ih =>
      intro matched
      refine Nat.le_trans (ih _) ?_
      unfold countNode
      split_ifs <;> simp only [length_cons] <;> omega
  have all : ∀ (matched : Nat × Nat) (base : Nat), matched.1 + matched.2 ≤ base ->
      (acls.foldl (fun matched acl => (link acl).foldl (countNode i) matched) matched).1 +
        (acls.foldl (fun matched acl => (link acl).foldl (countNode i) matched) matched).2 ≤
      acls.foldl (fun base acl => base + (linkCount (link acl)).toNat) base := by
    induction acls with
    | nil => exact fun _ _ notAbove => notAbove
    | cons acl acls ih =>
      intro matched base notAbove
      have count : (linkCount (link acl)).toNat = (link acl).length :=
        Nat.mod_eq_of_lt (fits acl (by simp))
      refine ih (fun other mem => fits other (by simp [mem]))
        _ _ (Nat.le_trans (node (link acl) matched) ?_)
      show _ ≤ base + (linkCount (link acl)).toNat
      omega
  exact all (0, 0) 0 (Nat.le_refl _)

/-- A vector of a number of bits, in ascending order. -/
structure PicksBits {words : Nat} (bitsLen vectorSize : Nat)
    (vector : MaskVector words) : Prop where
  length : vector.vectorBits.length = vectorSize
  ascending : vector.vectorBits.Pairwise (· < ·)
  valid : ∀ bit ∈ vector.vectorBits, bit < bitsLen
  first : vector.vectorBits.head? = some vector.maskMinBit
  last : vector.vectorBits.getLast? = some vector.maskMaxBit
  mask : vector.maskVector = .setBits vector.vectorBits

theorem ascending_insertionSort {bits : List Nat} (distinct : bits.Nodup) :
    (bits.insertionSort (· ≤ ·)).Pairwise (· < ·) := by
  have sorted := pairwise_insertionSort (· ≤ ·) bits
  have nodup := (perm_insertionSort (· ≤ ·) bits).nodup_iff.mpr distinct
  exact sorted.imp₂ (fun _ _ notAbove different =>
    Nat.lt_of_le_of_ne notAbove different) nodup

theorem picksBits_setVector (length : bits.length = vectorSize) (ascending : bits.Pairwise (· < ·))
    (valid : ∀ bit ∈ bits, bit < bitsLen) (insideWords : bitsLen ≤ 64 * words)
    (positive : 0 < vectorSize) :
    ∃ vector : MaskVector words, setVector vectorSize bits = some vector ∧
      PicksBits bitsLen vectorSize vector := by
  have inside : bits.all (· < 64 * words) = true :=
    all_eq_true.mpr fun bit mem =>
      decide_eq_true (Nat.lt_of_lt_of_le (valid bit mem) insideWords)
  obtain ⟨first, isFirst⟩ : ∃ first, bits[0]? = some first :=
    ⟨_, getElem?_eq_getElem (by omega)⟩
  obtain ⟨last, isLast⟩ : ∃ last, bits[vectorSize - 1]? = some last :=
    ⟨_, getElem?_eq_getElem (by omega)⟩
  refine ⟨⟨first, last, bits, .setBits bits⟩, ?_, length, ascending, valid, ?_, ?_, rfl⟩
  · simp [setVector, isFirst, isLast, inside, Nat.ne_of_gt positive]
  · rw [head?_eq_getElem?, isFirst]
  · rw [getLast?_eq_getElem?, length, isLast]

theorem generateMaskVector_eq {words bitsLen vectorSize : Nat} {table : SortTable}
    (holds : (table.items sortTableLen).Perm (List.range bitsLen))
    (insideWords : bitsLen ≤ 64 * words) (positive : 0 < vectorSize)
    (enough : vectorSize ≤ bitsLen) : ∃ vector : MaskVector words,
      generateMaskVector vectorSize table = some vector ∧ PicksBits bitsLen vectorSize vector := by
  have distinct := (holds.nodup_iff.mpr nodup_range).sublist
    (take_sublist vectorSize (table.items sortTableLen))
  have valid : ∀ bit ∈ (table.items sortTableLen).take vectorSize, bit < bitsLen := fun bit mem =>
    mem_range.mp (holds.mem_iff.mp (mem_of_mem_take mem))
  have length : ((table.items sortTableLen).take vectorSize).length = vectorSize := by
    rw [length_take, holds.length_eq, length_range, Nat.min_eq_left enough]
  have sorted := perm_insertionSort (· ≤ ·) ((table.items sortTableLen).take vectorSize)
  rw [generateMaskVector, table.walk_range]
  exact picksBits_setVector (sorted.length_eq.trans length) (ascending_insertionSort distinct)
    (fun bit mem => valid bit (sorted.mem_iff.mp mem)) insideWords positive

/-- `_POLICY_LIMIT` -/
def policyLimit : Nat := 5000000

/-- `_MEMORY_LIMIT` -/
def memoryLimitBase : Nat := 1 <<< 20

/-- The limit on the number of nodes for the configured level. -/
def nodeLimit (memoryLimit : BitVec 64) : Nat :=
  if memoryLimit ≠ 0 ∧ memoryLimit.toNat ≤ memoryLimitBase then
    policyLimit * memoryLimit.toNat / memoryLimitBase
  else policyLimit

/-- `matchedSum` of `getVectorSize`. -/
def matchedSum (acls : List Acl) : Nat :=
  acls.foldl (fun sum acl => sum + ((linkCount acl.fieldLink).toNat +
    (linkCount acl.field6Link).toNat)) 0

/-- The last loop of `getVectorSize`. -/
def shrinkVector (share : Nat) : Nat -> Nat
  | 0 => 0
  | vectorSize + 1 =>
    if maskVectorMinSize ≤ vectorSize + 1 ∧ ¬ 1 <<< (vectorSize + 1) ≤ share then
      shrinkVector share vectorSize
    else vectorSize + 1

/-- The level and the size after `getVectorSize`. -/
def getVectorSize (level currentLevel : Nat) (memoryLimit : BitVec 64) (acls : List Acl)
    (memoryExceeded : Bool) : Nat × Nat :=
  let matchedSum := matchedSum acls
  let currentLevel :=
    if matchedSum ≤ nodeLimit memoryLimit ∧ !memoryExceeded ∧ currentLevel ≠ level then
      level
    else currentLevel
  (currentLevel, shrinkVector (matchedSum >>> currentLevel) maskVectorMaxSize)

theorem shrinkVector_bounds (share : Nat) (notSmall : 3 ≤ vectorSize) :
    3 ≤ shrinkVector share vectorSize ∧ shrinkVector share vectorSize ≤ vectorSize := by
  induction vectorSize with
  | zero => omega
  | succ vectorSize ih =>
    rw [shrinkVector]
    split_ifs with shrinks
    · have atLeast : 3 ≤ vectorSize := by
        have := shrinks.1
        rw [maskVectorMinSize] at this
        omega
      obtain ⟨lower, upper⟩ := ih atLeast
      omega
    · omega

theorem getVectorSize_bounds (level currentLevel : Nat) (memoryLimit : BitVec 64)
    (acls : List Acl) (memoryExceeded : Bool) :
    3 ≤ (getVectorSize level currentLevel memoryLimit acls memoryExceeded).2 ∧
      (getVectorSize level currentLevel memoryLimit acls memoryExceeded).2 ≤ maskVectorMaxSize :=
  shrinkVector_bounds _ (by decide)

/-- For all counts with sums up to the base the index is inside the sort table,
and a vector gets as many distinct bits of the field, in ascending order, as are
requested. -/
theorem generateMaskVector_picks (counts : Nat -> Nat × Nat) (base : Nat)
    (fits : ∀ bit, (counts bit).1 + (counts bit).2 ≤ base) :
    (∀ bit, 0 ≤ getSortTableIndex (counts bit).1 (counts bit).2 base ∧
      getSortTableIndex (counts bit).1 (counts bit).2 base < sortTableLen) ∧
    (∃ table, sortTableOf matchedFieldBitsLen counts base = some table ∧
      ∀ vectorSize, 0 < vectorSize -> vectorSize ≤ matchedFieldBitsLen ->
        ∃ vector : MaskVector matchedFieldLen,
          generateMaskVector vectorSize table = some vector ∧
            PicksBits matchedFieldBitsLen vectorSize vector) ∧
    (∃ table, sortTableOf matchedField6BitsLen counts base = some table ∧
      ∀ vectorSize, 0 < vectorSize -> vectorSize ≤ matchedField6BitsLen ->
        ∃ vector : MaskVector matchedField6Len,
          generateMaskVector vectorSize table = some vector ∧
            PicksBits matchedField6BitsLen vectorSize vector) ∧
    ∀ level currentLevel memoryLimit acls memoryExceeded,
      0 < (getVectorSize level currentLevel memoryLimit acls memoryExceeded).2 ∧
        (getVectorSize level currentLevel memoryLimit acls memoryExceeded).2 ≤
          matchedFieldBitsLen := by
  obtain ⟨table, isTable, holds⟩ := sortTableOf_eq fits matchedFieldBitsLen
  obtain ⟨table6, isTable6, holds6⟩ := sortTableOf_eq fits matchedField6BitsLen
  refine ⟨fun bit => getSortTableIndex_bounds (fits bit),
    ⟨table, isTable, fun _ => generateMaskVector_eq holds (by decide)⟩,
    ⟨table6, isTable6, fun _ => generateMaskVector_eq holds6 (by decide)⟩, ?_⟩
  intro level currentLevel memoryLimit acls memoryExceeded
  obtain ⟨lower, upper⟩ := getVectorSize_bounds level currentLevel memoryLimit acls memoryExceeded
  exact ⟨by omega, Nat.le_trans upper (by decide)⟩

/-- Two nodes that test three bits, one for a zero and one for a one. -/
theorem generateMaskVector_picks_tested :
    let counts : Nat -> Nat × Nat := fun bit => if bit < 3 then (1, 1) else (0, 0)
    ∃ table, sortTableOf matchedFieldBitsLen counts 2 = some table ∧
      ∃ vector : MaskVector matchedFieldLen,
        generateMaskVector 3 table = some vector ∧ PicksBits matchedFieldBitsLen 3 vector := by
  intro counts
  have fits (bit : Nat) : (counts bit).1 + (counts bit).2 ≤ 2 := by
    dsimp only [counts]
    split_ifs <;> decide
  obtain ⟨_, ⟨table, isTable, picks⟩, _⟩ := generateMaskVector_picks counts 2 fits
  exact ⟨table, isTable, picks 3 (by decide) (by decide)⟩

end Metaflow.Policy
