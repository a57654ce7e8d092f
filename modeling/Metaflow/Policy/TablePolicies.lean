import Metaflow.Policy.DdbsTable

/-!
# The policies behind the tables

The items of the tables point to the policies of their ACLs. Every node has a
slot, so the tables read the same as before if and only if the ACLs that have
nodes in them have the policies they had.
-/

namespace Metaflow.Policy

open Library Datatype List

variable {words : Nat}

theorem TableItem.exists_slot (item : TableItem words) (vector : MaskVector words) :
    ∃ slot, slot ∈ item.slotsIn vector :=
  ⟨_, mem_expand_of_mem _ (mem_singleton_self _)⟩

/-- Lists that differ in policies only: if a slot reads the same, so do the
items of this slot. -/
theorem eq_of_flatMap_replicate_eq {α β : Type*} {first second : α -> β} {count : α -> Nat}
    {list : List α}
    (same : (list.flatMap fun element =>
        List.replicate (count element) (first element)) =
      list.flatMap fun element =>
        List.replicate (count element) (second element)) :
    ∀ element ∈ list, count element ≠ 0 -> first element = second element := by
  induction list with
  | nil => simp
  | cons head rest ih =>
    rw [flatMap_cons, flatMap_cons] at same
    obtain ⟨sameHead, sameRest⟩ := append_inj same (by simp)
    intro element mem counted
    rcases mem_cons.mp mem with rfl | mem
    · exact ((replicate_inj.mp sameHead).2).resolve_left counted
    · exact ih sameRest element mem counted

/-- The nodes of the tables, each with its ACL. -/
def ownedNodes (nodes : BuiltAcl -> List (MatchNode words))
    (built : List BuiltAcl) : List (MatchNode words × Nat) :=
  built.flatMap fun entry => (nodes entry).map fun node => (node, entry.acl)

/-- The item of a node with the policy of its ACL. -/
def ownedItem (policy : Nat -> PolicyData) (owned : MatchNode words × Nat) : TableItem words :=
  owned.1.item (policy owned.2)

theorem forall_ownedNodes {holds : Nat -> Prop} : (∀ node ∈ ownedNodes nodes built, holds node.2) ↔
      ∀ entry ∈ built, nodes entry ≠ [] -> holds entry.acl := by
  constructor
  · intro all entry mem notEmpty
    obtain ⟨node, isNode⟩ := exists_mem_of_ne_nil _ notEmpty
    exact all (node, entry.acl) (mem_flatMap.mpr ⟨entry, mem, mem_map.mpr ⟨node, isNode, rfl⟩⟩)
  · intro all node mem
    obtain ⟨entry, isEntry, inEntry⟩ := mem_flatMap.mp mem
    obtain ⟨inner, isInner, rfl⟩ := mem_map.mp inEntry
    exact all entry isEntry (ne_nil_of_mem isInner)

section OneTable

variable {owned : List (MatchNode words × Nat)}

theorem table_eq_iff (items : tableItems link acls = owned.map (ownedItem policy))
    (items' : tableItems link acls' = owned.map (ownedItem policy')) :
    (TableBuild.run vector link acls').table = (TableBuild.run vector link acls).table ↔
      ∀ node ∈ owned, policy' node.2 = policy node.2 := by
  constructor
  · intro same node mem
    obtain ⟨slot, isSlot⟩ := (ownedItem policy node).exists_slot vector
    have sameSlot := congrArg (fun table => SlotTable.items table slot) same
    simp only [items_run_count, items, items', flatMap_map, reverse_inj] at sameSlot
    have sameItem := eq_of_flatMap_replicate_eq sameSlot node mem
      (Nat.ne_of_gt (count_pos_iff.mpr isSlot))
    exact congrArg TableItem.policy sameItem
  · intro same
    have sameItems : tableItems link acls' = tableItems link acls := by
      rw [items, items']
      refine map_congr_left fun node mem => ?_
      rw [ownedItem, ownedItem, same node mem]
    rw [run_eq_foldl, run_eq_foldl, sameItems]

end OneTable

namespace DdbsTables

variable (d : DdbsTables)

theorem tableItems_builtAcls : tableItems Acl.fieldLink d.builtAcls =
        (ownedNodes BuiltAcl.nodes d.built).map (ownedItem fun acl => (d.acls acl).policy) ∧
      tableItems Acl.field6Link d.builtAcls =
        (ownedNodes BuiltAcl.nodes6 d.built).map (ownedItem fun acl => (d.acls acl).policy) := by
  constructor <;>
  · simp only [tableItems, builtAcls, ownedNodes, flatMap_map, map_flatMap, map_map]
    rfl

/-- The same tables over other ACLs. -/
theorem toDdbs_eq_iff (acls : AclHeap) (currentLevel : Nat) :
    DdbsTables.toDdbs { d with acls := acls, currentLevel := currentLevel } = d.toDdbs ↔
      ∀ entry ∈ d.built, entry.nodes ≠ [] ∨ entry.nodes6 ≠ [] ->
        (acls entry.acl).policy = (d.acls entry.acl).policy := by
  let d' : DdbsTables := { d with acls := acls, currentLevel := currentLevel }
  have parts : d'.toDdbs = d.toDdbs ↔
      d'.toDdbs.table = d.toDdbs.table ∧ d'.toDdbs.table6 = d.toDdbs.table6 := by
    constructor
    · intro same
      exact ⟨congrArg Ddbs.table same, congrArg Ddbs.table6 same⟩
    · rintro ⟨table, table6⟩
      simp only [toDdbs] at table table6 ⊢
      rw [table, table6]
  refine parts.trans ((and_congr (table_eq_iff d.tableItems_builtAcls.1 d'.tableItems_builtAcls.1)
    (table_eq_iff d.tableItems_builtAcls.2 d'.tableItems_builtAcls.2)).trans ?_)
  rw [@forall_ownedNodes _ _ _ fun acl => (acls acl).policy = (d.acls acl).policy,
    @forall_ownedNodes _ _ _ fun acl => (acls acl).policy = (d.acls acl).policy]
  constructor
  · rintro ⟨four, six⟩ entry mem (notEmpty | notEmpty)
    · exact four entry mem notEmpty
    · exact six entry mem notEmpty
  · exact fun both => ⟨fun entry mem notEmpty => both entry mem (.inl notEmpty),
      fun entry mem notEmpty => both entry mem (.inr notEmpty)⟩

end DdbsTables

end Metaflow.Policy
