import Metaflow.Segmenttree.ImmutableSegmentTree

/-!
# Releasing the nodes of a tree

`clear` pops nodes from a list and pushes their children. A node that has a
right child gets its left child pushed again instead, so a left child is
released twice and a right child is not released.
-/

namespace Metaflow.Segmenttree

open List

def SubTree.children : SubTree -> Option (SubTree × SubTree)
  | .nil => none
  | .node _ _ left right => some (left, right)

/-- The loop of `clear` over nodes and ways back, `false` from a left child;
`none` if the fuel is out or a pointer is nil. -/
def clearFrom : Nat -> List (List Bool × SubTree) -> List (List Bool) -> Option (List (List Bool))
  | _, [], released => some released
  | 0, _ :: _, _ => none
  | fuel + 1, (path, tree) :: queue, released => do
    let (left, right) <- (if path ∈ released then some (.nil, .nil) else tree.children)
    let queue := if left ≠ .nil then (false :: path, left) :: queue else queue
    let queue := if right ≠ .nil then (false :: path, left) :: queue else queue
    clearFrom fuel queue (path :: released)

/-- The nodes that `clear` releases. -/
def clear (fuel : Nat) (root : SubTree) : Option (List (List Bool)) :=
  if root = .nil then some [] else clearFrom fuel [([], root)] []

/-- The nodes of a tree that hangs at a path. -/
def SubTree.nodes (path : List Bool) : SubTree -> List (List Bool)
  | .nil => []
  | .node _ _ left right => path :: (left.nodes (false :: path) ++ right.nodes (true :: path))

/-- No right child is released, nor anything below one. -/
theorem left_of_clearFrom (queued : ∀ entry ∈ queue, true ∉ entry.1)
    (before : ∀ path ∈ released, true ∉ path)
    (ended : clearFrom fuel queue released = some final) : ∀ path ∈ final, true ∉ path := by
  induction fuel generalizing queue released with
  | zero =>
    cases queue with
    | nil => exact Option.some.inj ended ▸ before
    | cons => cases ended
  | succ fuel ih =>
    cases queue with
    | nil => exact Option.some.inj ended ▸ before
    | cons entry queue =>
      obtain ⟨path, tree⟩ := entry
      obtain ⟨isLeft, queued⟩ := forall_mem_cons.mp queued
      rw [clearFrom] at ended
      obtain ⟨⟨left, right⟩, -, ended⟩ := Option.bind_eq_some_iff.mp ended
      have pushed : ∀ entry ∈ (false :: path, left) :: queue, true ∉ entry.1 :=
        forall_mem_cons.mpr ⟨by simpa using isLeft, queued⟩
      refine ih ?_ (forall_mem_cons.mpr ⟨isLeft, before⟩) ended
      split_ifs
      · exact forall_mem_cons.mpr ⟨by simpa using isLeft, pushed⟩
      · exact pushed
      · exact pushed
      · exact queued

/-- Without right children every node is released once. -/
theorem clearFrom_of_left (onlyLeft : ∀ node ∈ tree.nodes path, true ∉ node)
    (present : tree ≠ .nil) (before : ∀ node ∈ released, node.length < path.length) :
    ∃ fuel final, clearFrom fuel [(path, tree)] released = some final ∧
      final.Perm (tree.nodes path ++ released) := by
  induction tree generalizing path released with
  | nil => exact absurd rfl present
  | node interval bits left right leftIh _ =>
    have fresh : path ∉ released := fun mem => absurd (before path mem) (Nat.lt_irrefl _)
    obtain rfl : right = .nil := by
      cases right with
      | nil => rfl
      | node => exact absurd (onlyLeft (true :: path) (by simp [SubTree.nodes])) (by simp)
    by_cases isLeaf : left = .nil
    · refine ⟨1, path :: released, ?_, ?_⟩
      · simp [clearFrom, fresh, SubTree.children, isLeaf]
      · simp [SubTree.nodes, isLeaf]
    · obtain ⟨fuel, final, ended, perm⟩ := @leftIh (path :: released) (false :: path)
        (fun node mem => onlyLeft node (by simp [SubTree.nodes, mem])) isLeaf
        (forall_mem_cons.mpr ⟨by simp, fun node mem => Nat.lt_succ_of_lt (before node mem)⟩)
      refine ⟨fuel + 1, final, ?_, perm.trans ?_⟩
      · simpa [clearFrom, fresh, SubTree.children, isLeaf] using ended
      · simp [SubTree.nodes]

/-- `clear` releases every node of a tree exactly once exactly if no node has a
right child. -/
theorem clear_releases_once_iff (root : SubTree) :
    (∃ fuel released, clear fuel root = some released ∧ released.Perm (root.nodes [])) ↔
      ∀ node ∈ root.nodes [], true ∉ node := by
  by_cases absent : root = .nil
  · simp [absent, clear, SubTree.nodes]
  · simp only [clear, if_neg absent]
    constructor
    · rintro ⟨fuel, released, ended, perm⟩ node mem
      exact left_of_clearFrom (by simp) (by simp) ended node (perm.mem_iff.mpr mem)
    · intro onlyLeft
      obtain ⟨fuel, released, ended, perm⟩ :=
        clearFrom_of_left onlyLeft absent (forall_mem_nil _)
      exact ⟨fuel, released, ended, by simpa using perm⟩

theorem clear_releases_left_twice :
    (init [⟨⟨1, true⟩, ⟨2, true⟩⟩]).bind (clear 100) = some [[false], [false], []] ∧
      (init [⟨⟨1, true⟩, ⟨2, true⟩⟩]).map (SubTree.nodes []) =
        some [[], [false], [true], [false, true], [true, true]] := by
  decide +kernel

end Metaflow.Segmenttree
