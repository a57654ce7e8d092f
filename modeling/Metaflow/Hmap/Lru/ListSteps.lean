import Metaflow.Hmap.Lru.RingLru
import Metaflow.Library.LinkedList
import Metaflow.Library.Run

/-!
# What the list operations do to the nodes

Each operation on intrusive lists is described by its effect on the function
from positions to nodes; no later proof unfolds a list operation.
-/

namespace Metaflow.Hmap.Lru

open Function

variable {κ P : Type}

namespace Ring

/-- A write to a readable node succeeds and changes that node only. -/
theorem modifyNode_of_getNode {ring : Ring κ P}
    (readable : ring.getNode index = some node) (change : Node κ P -> Node κ P) :
    ∃ ring', ring.modifyNode index change = some ring' ∧ ring'.rows = ring.rows ∧
      ∀ other, ring'.getNode other =
        if other = index then some (change node) else ring.getNode other := by
  obtain ⟨block, found, rfl⟩ := Option.map_eq_some_iff.mp readable
  have inRange : 0 ≤ index / 256 ∧ index / 256 < ring.rows := by
    by_contra outside
    rw [Ring.block, if_neg outside] at found
    simp at found
  have stored : ring.blocks (index / 256) = some block := by
    rwa [Ring.block, if_pos inRange] at found
  refine ⟨{ ring with
      blocks := update ring.blocks (index / 256) (some (update block (index % 256)
          (change (block (index % 256))))) },
    by simp [modifyNode, found], rfl, ?_⟩
  intro other
  by_cases sameRow : other / 256 = index / 256
  · by_cases sameColumn : other % 256 = index % 256
    · have same : other = index := by omega
      subst same
      simp [getNode, Ring.block, inRange]
    · have different : other ≠ index := fun same =>
        sameColumn (same ▸ rfl)
      simp [getNode, Ring.block, sameRow, inRange, different, sameColumn, stored]
  · have different : other ≠ index := fun same =>
      sameRow (same ▸ rfl)
    simp [getNode, Ring.block, sameRow, different]

end Ring

namespace RingLru

/-- The positions in `live` hold the nodes given by `node`. -/
def Reads (m : RingLru κ P) (live : Int -> Prop) (node : Int -> Node κ P) : Prop :=
  ∀ position, live position -> m.getNode position = some (node position)

variable {m m' : RingLru κ P} {node : Int -> Node κ P} {target : Int} {kind : κ}
  {kinds : List κ}

variable {live : Int -> Prop}

theorem Reads.of_ring (reads : m.Reads live node) (sameRing : m'.ring = m.ring) :
    m'.Reads live node := by
  intro position alive
  rw [getNode, sameRing]
  exact reads position alive

theorem Reads.congr (reads : m.Reads live node)
    (same : ∀ position, live position -> node' position = node position) : m.Reads live node' := by
  intro position alive
  rw [same position alive]
  exact reads position alive

/-- A list operation succeeds, with these heads, this tail and these nodes. -/
abbrev Leaves (m : RingLru κ P) (live : Int -> Prop) (result : Option (RingLru κ P))
    (head : κ -> Int -> Option Int) (tail : Option Int) (node : Int -> Node κ P) : Prop :=
  ∃ ring, result = some { m with ring := ring, head := head, timeListTail := tail } ∧
    ring.rows = m.ring.rows ∧ ({ m with ring := ring } : RingLru κ P).Reads live node

theorem modifyNode_spec (reads : m.Reads live node) (alive : live index)
    (change : Node κ P -> Node κ P) :
    m.Leaves live (m.modifyNode index change) m.head m.timeListTail
      (update node index (change (node index))) := by
  obtain ⟨ring, modified, sameRows, contents⟩ :=
    Ring.modifyNode_of_getNode (reads index alive) change
  refine ⟨ring, by rw [modifyNode, modified]; rfl, sameRows, ?_⟩
  intro position aliveAt
  change ring.getNode position = _
  rw [contents position]
  by_cases same : position = index
  · subst same
    simp
  · rw [if_neg same, update_of_ne same]
    exact reads position aliveAt

variable [DecidableEq κ]

/-- The nodes after the neighbours of `target` in the given lists have been
redirected. -/
def relinked (node : Int -> Node κ P) (kinds : List κ) (target : Int)
    (newNext newPrev : κ -> Option Int) : Int -> Node κ P :=
  fun position =>
    { payload := (node position).payload
      next := fun kind =>
        if kind ∈ kinds ∧ (node target).prev kind = some position
        then newNext kind else (node position).next kind
      prev := fun kind =>
        if kind ∈ kinds ∧ (node target).next kind = some position
        then newPrev kind else (node position).prev kind }

/-- The heads after the neighbours of `target` have been redirected. -/
def relinkedHead (L : Layout κ P) (m : RingLru κ P) (target : Node κ P) (kinds : List κ)
    (newNext : κ -> Option Int) : κ -> Int -> Option Int :=
  fun kind slot =>
    if kind ∈ kinds ∧ target.prev kind = none ∧ slot = L.slotOf kind target.payload
    then newNext kind else m.head kind slot

/-- The tail after the neighbours of `target` have been redirected. -/
def relinkedTail (L : Layout κ P) (m : RingLru κ P) (target : Node κ P) (kinds : List κ)
    (newPrev : κ -> Option Int) : Option Int :=
  if L.time ∈ kinds ∧ target.next L.time = none
  then newPrev L.time else m.timeListTail

/-- The links of a node lead to other live nodes. -/
def LinksLive (live : Int -> Prop) (node : Int -> Node κ P) (target : Int) : Prop :=
  ∀ kind link, (node target).prev kind = some link ∨
    (node target).next kind = some link -> live link ∧ link ≠ target

theorem relinked_self
    (links : LinksLive live node target) (kinds : List κ) (newNext newPrev : κ -> Option Int) :
    relinked node kinds target newNext newPrev target = node target := by
  have noPrev : ∀ kind, (node target).prev kind ≠ some target :=
    fun kind link => (links kind target (Or.inl link)).2 rfl
  have noNext : ∀ kind, (node target).next kind ≠ some target :=
    fun kind link => (links kind target (Or.inr link)).2 rfl
  simp [relinked, noPrev, noNext]

/-- Redirecting in one list, written as the two writes it takes. -/
theorem relinked_singleton (node : Int -> Node κ P) (kind : κ) (target : Int)
    (newNext newPrev : κ -> Option Int) (position : Int) :
    relinked node [kind] target newNext newPrev position =
      { payload := (node position).payload
        next :=
          if (node target).prev kind = some position
          then update (node position).next kind (newNext kind)
          else (node position).next
        prev :=
          if (node target).next kind = some position
          then update (node position).prev kind (newPrev kind)
          else (node position).prev } := by
  refine Node.ext rfl ?_ ?_ <;> funext other <;> simp only [relinked] <;>
    grind [update_apply]

section

variable (L : Layout κ P) (reads : m.Reads live node)
  (links : LinksLive live node target) (kind : κ)
include reads links

theorem redirectPrevious_spec (newNext : κ -> Option Int) :
    m.Leaves live (m.redirectPrevious L kind (node target) (newNext kind))
      (relinkedHead L m (node target) [kind] newNext) m.timeListTail fun position =>
        if (node target).prev kind = some position
        then (node position).setNext kind (newNext kind)
        else node position := by
  unfold redirectPrevious
  cases previous : (node target).prev kind with
  | none =>
    refine ⟨m.ring, ?_, rfl, ?_⟩
    · have sameHead : (m.setHead kind (L.slotOf kind (node target).payload) (newNext kind)).head =
          relinkedHead L m (node target) [kind] newNext := by
        funext other slot
        by_cases sameKind : other = kind <;>
          by_cases sameSlot : slot = L.slotOf kind (node target).payload <;>
          simp [setHead, relinkedHead, previous, sameKind, sameSlot]
      rw [← sameHead]
      rfl
    · simpa using reads
  | some before =>
    obtain ⟨alive, _⟩ := links kind before (Or.inl previous)
    obtain ⟨ring, modified, sameRows, readsAfter⟩ :=
      modifyNode_spec reads alive fun p => p.setNext kind (newNext kind)
    refine ⟨ring, ?_, sameRows, readsAfter.congr ?_⟩
    · have sameHead : relinkedHead L m (node target) [kind] newNext = m.head := by
        funext other slot
        by_cases sameKind : other = kind <;> simp [relinkedHead, sameKind, previous]
      rw [sameHead]
      exact modified
    · intro position _
      by_cases same : position = before <;> simp [same, Ne.symm]

theorem redirectNext_spec (newPrev : κ -> Option Int) :
    m.Leaves live (m.redirectNext L kind (node target) (newPrev kind))
      m.head (relinkedTail L m (node target) [kind] newPrev) fun position =>
        if (node target).next kind = some position
        then (node position).setPrev kind (newPrev kind)
        else node position := by
  unfold redirectNext
  cases following : (node target).next kind with
  | none =>
    refine ⟨m.ring, ?_, rfl, by simpa using reads⟩
    by_cases isTime : kind = L.time <;> simp [relinkedTail, isTime, Ne.symm, ← following]
  | some next =>
    obtain ⟨alive, _⟩ := links kind next (Or.inr following)
    obtain ⟨ring, modified, sameRows, readsAfter⟩ :=
      modifyNode_spec reads alive fun p => p.setPrev kind (newPrev kind)
    refine ⟨ring, ?_, sameRows, readsAfter.congr ?_⟩
    · have sameTail : relinkedTail L m (node target) [kind] newPrev = m.timeListTail := by
        by_cases isTime : kind = L.time <;> grind [relinkedTail]
      rw [sameTail]
      exact modified
    · intro position _
      by_cases same : position = next <;> simp [same, Ne.symm]

theorem removeNodeFromList_spec (alive : live target) (newNext newPrev : κ -> Option Int) :
    m.Leaves live (m.removeNodeFromList L kind target (newNext kind) (newPrev kind))
      (relinkedHead L m (node target) [kind] newNext)
      (relinkedTail L m (node target) [kind] newPrev)
      (relinked node [kind] target newNext newPrev) := by
  obtain ⟨ring, redirected, rows, readsHalf⟩ := redirectPrevious_spec L reads links kind newNext
  have notOwn : (node target).prev kind ≠ some target := fun link =>
    (links kind target (Or.inl link)).2 rfl
  set half : Int -> Node κ P := fun position =>
    if (node target).prev kind = some position
    then (node position).setNext kind (newNext kind)
    else node position with halfDef
  have halfTarget : half target = node target := by simp [halfDef, notOwn]
  have linksHalf : LinksLive live half target := by
    intro other link isLink
    rw [halfTarget] at isLink
    exact links other link isLink
  set middle : RingLru κ P := { m with
    ring := ring
    head := relinkedHead L m (node target) [kind] newNext } with middleDef
  have readsMiddle : middle.Reads live half := readsHalf.of_ring rfl
  obtain ⟨ring', redirected', rows', readsAfter⟩ :=
    redirectNext_spec L readsMiddle linksHalf kind newPrev
  rw [halfTarget] at redirected' readsAfter
  refine ⟨ring', ?_, rows'.trans rows, ?_⟩
  · rw [removeNodeFromList, reads target alive, Library.some_bind, redirected]
    rw [Library.some_bind, readsMiddle target alive, halfTarget]
    exact redirected'
  · refine (readsAfter.of_ring rfl).congr ?_
    intro position _
    rw [relinked_singleton]
    by_cases follows : (node target).next kind = some position <;>
      by_cases precedes : (node target).prev kind = some position <;>
      simp [halfDef, follows, precedes, Node.setNext, Node.setPrev]

end

/-- Redirecting in one list and then in others is redirecting in all. -/
theorem relinked_cons (node : Int -> Node κ P) (target : Int)
    (absent : kind ∉ kinds) (newNext newPrev : κ -> Option Int) :
    relinked (relinked node [kind] target newNext newPrev) kinds target newNext newPrev =
      relinked node (kind :: kinds) target newNext newPrev := by
  funext position
  refine Node.ext rfl ?_ ?_ <;> funext other <;> by_cases same : other = kind <;>
    simp [relinked, same, absent]

section

variable (L : Layout κ P)

@[simp] theorem relinkedHead_nil (m : RingLru κ P) (target : Node κ P) (newNext : κ -> Option Int) :
    relinkedHead L m target [] newNext = m.head := by
  funext kind slot
  simp [relinkedHead]

theorem relinkedHead_cons (target : Node κ P) (absent : kind ∉ kinds) (newNext : κ -> Option Int)
    (after : m'.head = relinkedHead L m target [kind] newNext) :
    relinkedHead L m' target kinds newNext = relinkedHead L m target (kind :: kinds) newNext := by
  funext other slot
  unfold relinkedHead
  rw [after]
  by_cases same : other = kind <;> simp [relinkedHead, same, absent]

@[simp] theorem relinkedTail_nil (m : RingLru κ P) (target : Node κ P) (newPrev : κ -> Option Int) :
    relinkedTail L m target [] newPrev = m.timeListTail := by
  simp [relinkedTail]

theorem relinkedTail_cons (target : Node κ P) (absent : kind ∉ kinds) (newPrev : κ -> Option Int)
    (after : m'.timeListTail = relinkedTail L m target [kind] newPrev) :
    relinkedTail L m' target kinds newPrev = relinkedTail L m target (kind :: kinds) newPrev := by
  unfold relinkedTail
  rw [after]
  by_cases same : L.time = kind <;> simp [relinkedTail, same, absent]

/-- Redirecting the neighbours of a node in the lists of several kinds. -/
theorem foldlM_removeNodeFromList_spec (reads : m.Reads live node) (alive : live target)
    (links : LinksLive live node target) (nodup : kinds.Nodup) (newNext newPrev : κ -> Option Int) :
    m.Leaves live (kinds.foldlM (fun m kind =>
        m.removeNodeFromList L kind target (newNext kind) (newPrev kind)) m)
      (relinkedHead L m (node target) kinds newNext) (relinkedTail L m (node target) kinds newPrev)
      (relinked node kinds target newNext newPrev) := by
  induction kinds generalizing m node with
  | nil =>
    refine ⟨m.ring, ?_, rfl, ?_⟩
    · simp
    · refine reads.congr ?_
      intro position _
      simp [relinked]
  | cons kind kinds ih =>
    have absent := (List.nodup_cons.mp nodup).1
    have tailNodup := (List.nodup_cons.mp nodup).2
    obtain ⟨ring, removed, rows, readsOne⟩ :=
      removeNodeFromList_spec L reads links kind alive newNext newPrev
    have sameTarget := relinked_self links [kind] newNext newPrev
    have linksOne : LinksLive live (relinked node [kind] target newNext newPrev) target := by
      intro other link isLink
      rw [sameTarget] at isLink
      exact links other link isLink
    set middle : RingLru κ P := { m with
      ring := ring
      head := relinkedHead L m (node target) [kind] newNext
      timeListTail := relinkedTail L m (node target) [kind] newPrev }
      with middleDef
    have readsMiddle : middle.Reads live (relinked node [kind] target newNext newPrev) :=
      readsOne.of_ring rfl
    obtain ⟨ring', folded, rows', readsAll⟩ := ih readsMiddle linksOne tailNodup
    rw [sameTarget] at folded
    rw [relinked_cons node target absent] at readsAll
    refine ⟨ring', ?_, rows'.trans rows, readsAll.of_ring rfl⟩
    rw [List.foldlM_cons, removed, Library.some_bind, folded,
      relinkedHead_cons L (node target) absent newNext rfl,
      relinkedTail_cons L (node target) absent newPrev rfl]

end

/-- The nodes after the one at `fresh` has been linked in before those that
`first` names. -/
def pushed (node : Int -> Node κ P) (kinds : List κ) (fresh : Int)
    (first : κ -> Option Int) : Int -> Node κ P :=
  fun position =>
    { payload := (node position).payload
      next := fun kind =>
        if kind ∈ kinds ∧ position = fresh
        then first kind else (node position).next kind
      prev := fun kind =>
        if kind ∈ kinds ∧ position = fresh then none
        else if kind ∈ kinds ∧ first kind = some position then some fresh
        else (node position).prev kind }

/-- The heads after a node has been linked in. -/
def pushedHead (m : RingLru κ P) (kinds : List κ) (fresh : Int)
    (slotFor : κ -> Int) : κ -> Int -> Option Int :=
  fun kind slot =>
    if kind ∈ kinds ∧ slot = slotFor kind then some fresh
    else m.head kind slot

/-- The tail of the time list after a node has been linked in. -/
def pushedTail (L : Layout κ P) (m : RingLru κ P) (kinds : List κ) (fresh : Int) : Option Int :=
  if L.time ∈ kinds ∧ m.timeListTail = none then some fresh
  else m.timeListTail

/-- Linking in at the front of one list, written as the writes it takes. -/
theorem pushed_singleton (node : Int -> Node κ P) (kind : κ) (fresh : Int)
    (first : κ -> Option Int) (position : Int) :
    pushed node [kind] fresh first position =
      { payload := (node position).payload
        next :=
          if position = fresh
          then update (node position).next kind (first kind)
          else (node position).next
        prev :=
          if position = fresh
          then update (node position).prev kind none
          else if first kind = some position
          then update (node position).prev kind (some fresh)
          else (node position).prev } := by
  refine Node.ext rfl ?_ ?_ <;> funext other <;> simp only [pushed] <;>
    grind [update_apply]

theorem pushNodeToList_spec (L : Layout κ P) (reads : m.Reads live node) (alive : live fresh)
    (kind : κ) (slotFor : κ -> Int)
    (firstLive : ∀ first, m.head kind (slotFor kind) = some first -> live first ∧ first ≠ fresh) :
    m.Leaves live (m.pushNodeToList L kind fresh (slotFor kind))
      (pushedHead m [kind] fresh slotFor) (pushedTail L m [kind] fresh)
      (pushed node [kind] fresh fun kind => m.head kind (slotFor kind)) := by
  have sameHead : ∀ m' : RingLru κ P, m'.head = m.head ->
      (m'.setHead kind (slotFor kind) (some fresh)).head = pushedHead m [kind] fresh slotFor := by
    intro m' unchanged
    funext other slot
    by_cases sameKind : other = kind <;> by_cases sameSlot : slot = slotFor kind <;>
      simp [setHead, pushedHead, sameKind, sameSlot, unchanged]
  have finish : ∀ ring : Ring κ P, (let m' : RingLru κ P :=
        ({ m with ring := ring } : RingLru κ P).setHead kind (slotFor kind) (some fresh)
      if kind = L.time ∧ m'.timeListTail = none then
        some { m' with timeListTail := some fresh }
      else some m') =
      some { m with
        ring := ring
        head := pushedHead m [kind] fresh slotFor
        timeListTail := pushedTail L m [kind] fresh } := by
    intro ring
    rw [← sameHead { m with ring := ring } rfl]
    by_cases isTime : kind = L.time <;> by_cases noTail : m.timeListTail = none <;>
      simp [setHead, pushedTail, isTime, noTail, Ne.symm]
  obtain ⟨ring, linked, rows, readsLinked⟩ :=
    modifyNode_spec reads alive fun n =>
      (n.setNext kind (m.head kind (slotFor kind))).setPrev kind none
  cases front : m.head kind (slotFor kind) with
  | none =>
    refine ⟨ring, ?_, rows, readsLinked.congr ?_⟩
    · rw [pushNodeToList, linked]
      simp only [Library.some_bind, front]
      exact finish ring
    · intro position _
      rw [pushed_singleton]
      by_cases isFresh : position = fresh <;> simp [front, isFresh, Node.setNext, Node.setPrev]
  | some first =>
    obtain ⟨firstAlive, notFresh⟩ := firstLive first front
    obtain ⟨ring', linked', rows', readsAfter⟩ :=
      modifyNode_spec readsLinked firstAlive fun n =>
        n.setPrev kind (some fresh)
    refine ⟨ring', ?_, rows'.trans rows, (readsAfter.of_ring rfl).congr ?_⟩
    · rw [pushNodeToList, linked]
      simp only [Library.some_bind, front]
      rw [linked']
      exact finish ring'
    · intro position _
      rw [pushed_singleton]
      by_cases isFresh : position = fresh
      · subst isFresh
        simp [front, Ne.symm notFresh, Node.setNext, Node.setPrev]
      · by_cases isFirst : position = first
        · subst isFirst
          simp [front, isFresh, Node.setPrev]
        · simp [front, isFresh, isFirst, Ne.symm isFirst]

/-- Linking in at the front of one list and then of others. -/
theorem pushed_cons (node : Int -> Node κ P) (fresh : Int) (absent : kind ∉ kinds)
    (sameFirst : ∀ other, other ≠ kind -> first' other = first other) :
    pushed (pushed node [kind] fresh first) kinds fresh first' =
      pushed node (kind :: kinds) fresh first := by
  funext position
  refine Node.ext rfl ?_ ?_ <;> funext other <;> by_cases same : other = kind <;>
    simp [pushed, same, absent, sameFirst other]

/-- Linking a node in, in the lists of several kinds. -/
theorem foldlM_pushNodeToList_spec (L : Layout κ P)
    (reads : m.Reads live node) (alive : live fresh) (nodup : kinds.Nodup) (slotFor : κ -> Int)
    (firstLive : ∀ kind ∈ kinds, ∀ first,
      m.head kind (slotFor kind) = some first -> live first ∧ first ≠ fresh) :
    m.Leaves live (kinds.foldlM (fun m kind => m.pushNodeToList L kind fresh (slotFor kind)) m)
      (pushedHead m kinds fresh slotFor) (pushedTail L m kinds fresh)
      (pushed node kinds fresh fun kind => m.head kind (slotFor kind)) := by
  induction kinds generalizing m node with
  | nil =>
    refine ⟨m.ring, ?_, rfl, reads.congr ?_⟩
    · have sameHead : pushedHead m [] fresh slotFor = m.head := by
        funext kind slot
        simp [pushedHead]
      have sameTail : pushedTail L m [] fresh = m.timeListTail := by simp [pushedTail]
      rw [sameHead, sameTail]
      rfl
    · intro position _
      simp [pushed]
  | cons kind kinds ih =>
    have absent := (List.nodup_cons.mp nodup).1
    have tailNodup := (List.nodup_cons.mp nodup).2
    obtain ⟨ring, linked, rows, readsOne⟩ :=
      pushNodeToList_spec L reads alive kind slotFor (firstLive kind List.mem_cons_self)
    set middle : RingLru κ P := { m with
      ring := ring
      head := pushedHead m [kind] fresh slotFor
      timeListTail := pushedTail L m [kind] fresh } with middleDef
    have sameFirst : ∀ other, other ≠ kind ->
        middle.head other (slotFor other) = m.head other (slotFor other) := by
      intro other different
      simp [middleDef, pushedHead, different]
    have readsMiddle : middle.Reads live
        (pushed node [kind] fresh fun kind => m.head kind (slotFor kind)) := readsOne.of_ring rfl
    obtain ⟨ring', folded, rows', readsAll⟩ :=
      ih readsMiddle tailNodup (by
        intro other inRest first isFirst
        have different : other ≠ kind := fun same => absent (same ▸ inRest)
        rw [sameFirst other different] at isFirst
        exact firstLive other (List.mem_cons_of_mem _ inRest) first isFirst)
    rw [pushed_cons node fresh absent sameFirst] at readsAll
    refine ⟨ring', ?_, rows'.trans rows, readsAll.of_ring rfl⟩
    have sameHead : pushedHead middle kinds fresh slotFor =
        pushedHead m (kind :: kinds) fresh slotFor := by
      funext other slot
      by_cases same : other = kind <;> simp [middleDef, pushedHead, same, absent]
    have sameTail : pushedTail L middle kinds fresh = pushedTail L m (kind :: kinds) fresh := by
      by_cases same : L.time = kind <;> simp [middleDef, pushedTail, same, absent]
    rw [List.foldlM_cons, linked, Library.some_bind, folded, sameHead, sameTail]

end RingLru

end Metaflow.Hmap.Lru
