import Metaflow.Policy.Acl

/-!
# The lookup table of the first path

`ddbs.go`: every compiled node is put into the slots that its masked vector bits
leave open. A lookup tests the nodes of one slot and merges the same policies,
in the same order, as a scan over all nodes.
-/

namespace Metaflow.Policy

open Library Datatype List

/-- `TableItem` and `Table6Item`, without the link to the next item. -/
structure TableItem (words : Nat) where
  matched : MatchedField words
  mask : MatchedField words
  policy : PolicyData
  deriving DecidableEq

/-- `link` and `link6`, with the items from the head on. -/
structure TableLink (words : Nat) where
  head : List (TableItem words)
  count : UInt32

/-- One slot per index of 16 bits. -/
abbrev SlotTable (words : Nat) := BitVec 16 -> Option (TableLink words)

/-- `vector` and `vector6` -/
structure MaskVector (words : Nat) where
  maskMinBit : Nat
  maskMaxBit : Nat
  vectorBits : List Nat
  maskVector : MatchedField words
  deriving DecidableEq

/-- The vector of sorted bits, as the end of `generateMaskVector` sets it. -/
def MaskVector.ofBits {words : Nat} (vector : VectorBits words) : MaskVector words where
  maskMinBit := vector.minBit
  maskMaxBit := vector.maxBit
  vectorBits := vector.bits
  maskVector := vector.maskVector

section Table

variable {words : Nat}

/-- The local variables of `generateVectorTable`. -/
structure TableBuild (words : Nat) where
  table : SlotTable words
  max : Nat

/-- The body of the innermost loop of `generateVectorTable`. -/
def TableBuild.insert (build : TableBuild words) (item : TableItem words) (index : BitVec 16) :
    TableBuild words :=
  let l :=
    match build.table index with
    | none => { head := [item], count := 1 }
    | some l => { head := item :: l.head, count := l.count + 1 }
  { table := Function.update build.table index (some l)
    max := if l.count.toNat > build.max then l.count.toNat else build.max }

/-- The item of a node of an ACL. -/
def MatchNode.item (n : MatchNode words) (policy : PolicyData) : TableItem words where
  matched := n.matched
  mask := n.matchedMask
  policy := policy

def TableBuild.insertNode (build : TableBuild words) (vector : MaskVector words)
    (policy : PolicyData) (node : MatchNode words) : TableBuild words :=
  let indexs := node.getAllTableIndex vector.maskVector vector.maskMinBit
    vector.maskMaxBit vector.vectorBits
  indexs.foldl (fun build index => build.insert (node.item policy) index) build

/-- The loops of `generateVectorTable` and `generateVectorTable6`, which follow
different links. -/
def TableBuild.run (vector : MaskVector words) (link : Acl -> List (MatchNode words))
    (acls : List Acl) : TableBuild words :=
  acls.foldl
    (fun build acl =>
      (link acl).foldl (fun build node => build.insertNode vector acl.policy node) build)
    { table := fun _ => none, max := 0 }

/-- The items of all nodes, in the order of their insertion. -/
def tableItems (link : Acl -> List (MatchNode words)) (acls : List Acl) : List (TableItem words) :=
  acls.flatMap fun acl => (link acl).map fun node => node.item acl.policy

/-- The test of the lookup loop. -/
def TableItem.matchesKey (item : TableItem words) (key : MatchedField words) : Bool :=
  (key.and item.mask).equal item.matched

variable (tunnelIpIdMap : BitVec 16 -> BitVec 16)
variable (direction : DirectionType)

/-- Merge the policy of an item; `none` is the shared `INVALID_POLICY_DATA`,
which is not written to, an outer `none` a panic. -/
def mergeItem (portPolicy : Option PolicyData) (item : TableItem words) :
    Option (Option PolicyData) :=
  let target := portPolicy.getD .new
  (target.merge tunnelIpIdMap (some direction) item.policy.npbActions item.policy.aclId).map some

/-- The body of `getPolicyFromTable` and `getPolicyFromTable6`. -/
def lookupTable (vector : MaskVector words) (table : SlotTable words) (key : MatchedField words)
    (portPolicy : Option PolicyData) : Option (Option PolicyData) :=
  let index := key.getTableIndex vector.maskVector vector.maskMinBit vector.maskMaxBit
  match table index with
  | none => some portPolicy
  | some l =>
    l.head.foldlM
      (fun portPolicy item =>
        if item.matchesKey key then
          mergeItem tunnelIpIdMap direction portPolicy item
        else some portPolicy)
      portPolicy

end Table

/-- The fields that the two tables are made of. -/
structure Ddbs where
  vector : MaskVector matchedFieldLen
  table : SlotTable matchedFieldLen
  vector6 : MaskVector matchedField6Len
  table6 : SlotTable matchedField6Len
  maxBucket : Nat

namespace Ddbs

/-- The larger of the longest slots so far. -/
def raiseMaxBucket (d : Ddbs) (max : Nat) : Nat :=
  if max > d.maxBucket then max else d.maxBucket

def generateVectorTable (d : Ddbs) (acls : List Acl) : Ddbs :=
  let build := TableBuild.run d.vector Acl.fieldLink acls
  { d with table := build.table, maxBucket := d.raiseMaxBucket build.max }

def generateVectorTable6 (d : Ddbs) (acls : List Acl) : Ddbs :=
  let build := TableBuild.run d.vector6 Acl.field6Link acls
  { d with table6 := build.table, maxBucket := d.raiseMaxBucket build.max }

def getPolicyFromTable (d : Ddbs) (tunnelIpIdMap : BitVec 16 -> BitVec 16)
    (key : MatchedField matchedFieldLen) (direction : DirectionType)
    (portPolicy : Option PolicyData) : Option (Option PolicyData) :=
  lookupTable tunnelIpIdMap direction d.vector d.table key portPolicy

def getPolicyFromTable6 (d : Ddbs) (tunnelIpIdMap : BitVec 16 -> BitVec 16)
    (key : MatchedField matchedField6Len) (direction : DirectionType)
    (portPolicy : Option PolicyData) : Option (Option PolicyData) :=
  lookupTable tunnelIpIdMap direction d.vector6 d.table6 key portPolicy

end Ddbs

section Slots

variable {words : Nat}

/-- The items of a slot. -/
def SlotTable.items (table : SlotTable words) (index : BitVec 16) : List (TableItem words) :=
  match table index with
  | none => []
  | some l => l.head

theorem items_insert (build : TableBuild words) (item : TableItem words) (index slot : BitVec 16) :
    SlotTable.items (build.insert item index).table slot =
      if slot = index then item :: SlotTable.items build.table slot
      else SlotTable.items build.table slot := by
  by_cases same : slot = index
  · subst same
    simp only [SlotTable.items, TableBuild.insert, Function.update_self, if_true]
    cases build.table slot <;> rfl
  · simp only [SlotTable.items, TableBuild.insert, Function.update_of_ne same, if_neg same]

/-- The slots of an item, for any vector. -/
def TableItem.slotsIn (item : TableItem words) (vector : MaskVector words) : List (BitVec 16) :=
  item.matched.getAllTableIndex vector.maskVector item.mask vector.maskMinBit
    vector.maskMaxBit vector.vectorBits

variable (vector : MaskVector words) (link : Acl -> List (MatchNode words))
  (tunnelIpIdMap : BitVec 16 -> BitVec 16)

theorem run_eq_foldl (acls : List Acl) :
    TableBuild.run vector link acls = (tableItems link acls).foldl
        (fun build item => (item.slotsIn vector).foldl
          (fun build index => build.insert item index) build)
        { table := fun _ => none, max := 0 } := by
  rw [tableItems, foldl_flatMap]
  simp only [foldl_map]
  rfl

theorem items_foldl_insert_count (item : TableItem words) (indexs : List (BitVec 16))
    (build : TableBuild words) (slot : BitVec 16) :
    SlotTable.items (indexs.foldl (fun build index => build.insert item index) build).table slot =
      List.replicate (indexs.count slot) item ++ SlotTable.items build.table slot := by
  induction indexs generalizing build with
  | nil => rfl
  | cons index indexs ih =>
    rw [foldl_cons, ih, items_insert, count_cons]
    by_cases same : slot = index <;> simp [same, replicate_succ', Ne.symm]

/-- A slot holds an item as often as the item has that slot. -/
theorem items_run_count (acls : List Acl) (slot : BitVec 16) :
    SlotTable.items (TableBuild.run vector link acls).table slot =
      ((tableItems link acls).flatMap fun item =>
        List.replicate ((item.slotsIn vector).count slot) item).reverse := by
  have general : ∀ (items : List (TableItem words)) (build : TableBuild words),
      SlotTable.items (items.foldl (fun build item => (item.slotsIn vector).foldl
            (fun build index => build.insert item index) build)
          build).table slot =
        (items.flatMap fun item =>
          List.replicate ((item.slotsIn vector).count slot) item).reverse ++
          SlotTable.items build.table slot := by
    intro items
    induction items with
    | nil => simp
    | cons item items ih =>
      intro build
      rw [foldl_cons, ih, items_foldl_insert_count]
      simp
  rw [run_eq_foldl, general]
  exact append_nil _

/-- The slots of an item. -/
def TableItem.slots (item : TableItem words) (vector : VectorBits words) : List (BitVec 16) :=
  item.matched.getAllTableIndex vector.maskVector item.mask vector.minBit vector.maxBit vector.bits

theorem flatMap_replicate_count {items : List (TableItem words)}
    {slots : TableItem words -> List (BitVec 16)}
    (distinct : ∀ item ∈ items, (slots item).Nodup) (slot : BitVec 16) :
    (items.flatMap fun item =>
        List.replicate ((slots item).count slot) item) =
      items.filter fun item => slot ∈ slots item := by
  induction items with
  | nil => rfl
  | cons item items ih =>
    rw [flatMap_cons, ih fun other mem =>
      distinct other (mem_cons_of_mem _ mem)]
    by_cases here : slot ∈ slots item
    · rw [count_eq_one_of_mem (distinct item mem_cons_self) here]
      simp [here]
    · rw [count_eq_zero_of_not_mem here]
      simp [here]

/-- A slot holds the items that belong there, the last one first. -/
theorem items_run (vector : VectorBits words) (link : Acl -> List (MatchNode words))
    (acls : List Acl) (slot : BitVec 16) :
    SlotTable.items (TableBuild.run (.ofBits vector) link acls).table slot =
      ((tableItems link acls).filter fun item =>
        slot ∈ item.slots vector).reverse := by
  have distinct : ∀ item ∈ tableItems link acls, (item.slots vector).Nodup :=
    fun item _ =>
      MatchedField.nodup_getAllTableIndex item.matched item.mask vector
  rw [items_run_count, ← flatMap_replicate_count distinct]
  rfl

/-- The slot of a key holds every item that the key matches. -/
theorem mem_slots_of_matchesKey {item : TableItem words}
    (matches_ : item.matchesKey key = true) (vector : VectorBits words) :
    key.getTableIndex vector.maskVector vector.minBit vector.maxBit ∈ item.slots vector := by
  have fields := of_decide_eq_true matches_
  have matched : key.and item.mask = item.matched := by
    cases masked : key.and item.mask with
    | mk maskedFields =>
      cases found : item.matched with
      | mk matchedFields =>
        rw [masked, found] at fields
        exact congrArg MatchedField.mk fields
  exact MatchedField.getTableIndex_mem_getAllTableIndex item.matched item.mask vector matched

/-- The items that a lookup merges, in the order of the merges. -/
def mergedItems (vector : MaskVector words) (table : SlotTable words) (key : MatchedField words) :
    List (TableItem words) :=
  (SlotTable.items table (key.getTableIndex vector.maskVector
    vector.maskMinBit vector.maskMaxBit)).filter fun item =>
      item.matchesKey key

theorem lookupTable_eq (direction : DirectionType)
    (vector : MaskVector words) (table : SlotTable words) (key : MatchedField words)
    (portPolicy : Option PolicyData) :
    lookupTable tunnelIpIdMap direction vector table key portPolicy =
      (mergedItems vector table key).foldlM (mergeItem tunnelIpIdMap direction) portPolicy := by
  rw [mergedItems, foldlM_filter, lookupTable, SlotTable.items]
  cases table (key.getTableIndex vector.maskVector vector.maskMinBit vector.maskMaxBit) <;> rfl

/-- The merged items are those of a scan over all nodes, from the last inserted
to the first. -/
theorem mergedItems_run (vector : VectorBits words) (link : Acl -> List (MatchNode words))
    (acls : List Acl) (key : MatchedField words) :
    mergedItems (.ofBits vector) (TableBuild.run (.ofBits vector) link acls).table key =
      ((tableItems link acls).filter fun item =>
        item.matchesKey key).reverse := by
  rw [mergedItems, items_run, filter_reverse, filter_filter]
  congr 1
  refine filter_congr fun item _ => ?_
  cases tested : item.matchesKey key with
  | false => rfl
  | true =>
    have held := mem_slots_of_matchesKey tested vector
    exact decide_eq_true held

end Slots

/-- What a scan over all nodes merges for a key, from the last node to the
first. -/
def scannedItems {words : Nat} (link : Acl -> List (MatchNode words)) (acls : List Acl)
    (key : MatchedField words) : List (TableItem words) :=
  (tableItems link acls).reverse.filter fun item =>
    (key.and item.mask).equal item.matched

/-- One table, whatever its number of words and its nodes. -/
theorem lookupTable_run (tunnelIpIdMap : BitVec 16 -> BitVec 16)
    (vector : VectorBits words) (link : Acl -> List (MatchNode words)) (acls : List Acl)
    (key : MatchedField words) (direction : DirectionType) (portPolicy : Option PolicyData) :
    mergedItems (.ofBits vector)
      (TableBuild.run (.ofBits vector) link acls).table key = scannedItems link acls key ∧
      lookupTable tunnelIpIdMap direction (.ofBits vector)
        (TableBuild.run (.ofBits vector) link acls).table key portPolicy =
        (scannedItems link acls key).foldlM (mergeItem tunnelIpIdMap direction) portPolicy := by
  have merged := mergedItems_run vector link acls key
  rw [← filter_reverse] at merged
  refine ⟨merged, ?_⟩
  rw [lookupTable_eq, merged]
  rfl

/-- For all vectors of at most 16 bits, ACLs and keys, the lookups of both
tables merge what a scan merges. -/
theorem getPolicyFromTable_eq_scan (tunnelIpIdMap : BitVec 16 -> BitVec 16) (d : Ddbs)
    (vector : VectorBits matchedFieldLen) (vector6 : VectorBits matchedField6Len)
    (acls : List Acl) :
    let start := { d with vector := .ofBits vector, vector6 := .ofBits vector6 }
    let built := (start.generateVectorTable acls).generateVectorTable6 acls
    (∀ key direction portPolicy,
      mergedItems built.vector built.table key = scannedItems Acl.fieldLink acls key ∧
      built.getPolicyFromTable tunnelIpIdMap key direction portPolicy =
        (scannedItems Acl.fieldLink acls key).foldlM
          (mergeItem tunnelIpIdMap direction) portPolicy) ∧
    ∀ key direction portPolicy,
      mergedItems built.vector6 built.table6 key = scannedItems Acl.field6Link acls key ∧
      built.getPolicyFromTable6 tunnelIpIdMap key direction portPolicy =
        (scannedItems Acl.field6Link acls key).foldlM
          (mergeItem tunnelIpIdMap direction) portPolicy := by
  intro start built
  exact ⟨lookupTable_run tunnelIpIdMap vector Acl.fieldLink acls,
    lookupTable_run tunnelIpIdMap vector6 Acl.field6Link acls⟩

end Metaflow.Policy
