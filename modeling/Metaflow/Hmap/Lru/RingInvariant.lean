import Metaflow.Hmap.Lru.Chains

/-!
# The invariant of the ring

The nodes in use are the `size` positions from `bufferStartIndex` on.
`Represents` says that exactly these are linked, and each operation is described
by what it does to the chains.
-/

namespace Metaflow.Hmap.Lru

open Library
open Function
open Library.LinkedList

variable {κ P : Type}

namespace RingLru

/-- The positions in use, counted around the ring from its start. -/
def Live (m : RingLru κ P) (position : Int) : Prop :=
  0 ≤ position ∧ position < m.ring.rows * 256 ∧
    (if m.bufferStartIndex ≤ position
      then position - m.bufferStartIndex
      else position - m.bufferStartIndex + m.ring.rows * 256) < m.size

/-- The `int32` arithmetic of `incIndex` does not overflow at `index`. -/
def IncExact (m : RingLru κ P) (index : Int) : Prop :=
  m.incIndex index = if m.ring.rows * 256 ≤ index + 1 then 0 else index + 1

/-- The number of rows and the position behind the end fit into `int32`. -/
def Fits (m : RingLru κ P) : Prop :=
  m.ring.rows < 2147483648 ∧ m.bufferEndIndex + 1 < 2147483648

instance (m : RingLru κ P) : Decidable m.Fits :=
  inferInstanceAs (Decidable (_ ∧ _))

/-- Two states with the same extent of the ring. -/
structure SameExtent (m m' : RingLru κ P) : Prop where
  rows : m'.ring.rows = m.ring.rows
  start : m'.bufferStartIndex = m.bufferStartIndex
  finish : m'.bufferEndIndex = m.bufferEndIndex
  size : m'.size = m.size
  capacity : m'.capacity = m.capacity

namespace SameExtent

theorem trans (first : SameExtent m m') (second : SameExtent m' m'') : SameExtent m m'' where
  rows := second.rows.trans first.rows
  start := second.start.trans first.start
  finish := second.finish.trans first.finish
  size := second.size.trans first.size
  capacity := second.capacity.trans first.capacity

theorem live (same : SameExtent m m') (position : Int) : m'.Live position ↔ m.Live position := by
  unfold Live
  rw [same.rows, same.start, same.size]

theorem incIndex (same : SameExtent m m') (index : Int) : m'.incIndex index = m.incIndex index := by
  unfold RingLru.incIndex
  rw [same.rows]

theorem incExact (same : SameExtent m m') (index : Int) : m'.IncExact index ↔ m.IncExact index := by
  unfold IncExact
  rw [same.incIndex, same.rows]

end SameExtent

/-- The ring has room for `capacity` nodes and a spare block, and ends `size`
positions behind its start. -/
structure Spans (m : RingLru κ P) : Prop where
  rows_eq : m.ring.rows = (m.capacity : Int) / 256 + 2
  start_nonneg : 0 ≤ m.bufferStartIndex
  start_lt : m.bufferStartIndex < m.ring.rows * 256
  size_nonneg : 0 ≤ m.size
  size_le : m.size ≤ m.capacity
  end_eq : m.bufferEndIndex =
    if m.bufferStartIndex + m.size < m.ring.rows * 256
    then m.bufferStartIndex + m.size
    else m.bufferStartIndex + m.size - m.ring.rows * 256
  exact : ∀ position, m.Live position -> m.IncExact position

namespace Spans

variable {m m' : RingLru κ P}

section

variable (spans : m.Spans)
include spans

theorem of_sameExtent (same : SameExtent m m') : m'.Spans where
  rows_eq := by rw [same.rows, same.capacity, spans.rows_eq]
  start_nonneg := by rw [same.start]; exact spans.start_nonneg
  start_lt := by rw [same.start, same.rows]; exact spans.start_lt
  size_nonneg := by rw [same.size]; exact spans.size_nonneg
  size_le := by rw [same.size, same.capacity]; exact spans.size_le
  end_eq := by
    rw [same.finish, same.start, same.size, same.rows]
    exact spans.end_eq
  exact position alive :=
    (same.incExact position).mpr (spans.exact position ((same.live position).mp alive))

/-- The ring is larger than the capacity by more than one block. -/
theorem room : m.capacity + 257 ≤ m.ring.rows * 256 := by
  have := spans.rows_eq
  omega

/-- Where the nodes in use begin and end. -/
theorem extent : 0 ≤ m.bufferStartIndex ∧ m.bufferStartIndex < m.ring.rows * 256 ∧ 0 ≤ m.size ∧
      m.size ≤ m.capacity ∧ m.bufferEndIndex =
        if m.bufferStartIndex + m.size < m.ring.rows * 256 then m.bufferStartIndex + m.size
        else m.bufferStartIndex + m.size - m.ring.rows * 256 :=
  ⟨spans.start_nonneg, spans.start_lt, spans.size_nonneg, spans.size_le, spans.end_eq⟩

theorem end_inside : 0 ≤ m.bufferEndIndex ∧ m.bufferEndIndex < m.ring.rows * 256 := by
  have extent := spans.extent
  have room := spans.room
  omega

theorem incExact (fits : m.Fits) : m.IncExact m.bufferEndIndex := by
  obtain ⟨fewRows, small⟩ := fits
  have nonneg := spans.end_inside.1
  have rows := spans.rows_eq
  have endExact : int32 (m.bufferEndIndex + 1) = m.bufferEndIndex + 1 := by
    unfold int32
    omega
  have rowsExact : int32 m.ring.rows = m.ring.rows := by
    unfold int32
    omega
  have sameTest : m.ring.rows ≤ (m.bufferEndIndex + 1) / 256 ↔
      m.ring.rows * 256 ≤ m.bufferEndIndex + 1 := by omega
  unfold IncExact RingLru.incIndex
  rw [endExact, rowsExact]
  simp only [sameTest]

theorem fits_of_rows (few : m.ring.rows * 256 < 2147483648) : m.Fits := by
  have inside := spans.end_inside.2
  have rows := spans.rows_eq
  exact ⟨by omega, by omega⟩

theorem end_free : ¬ m.Live m.bufferEndIndex := by
  have extent := spans.extent
  have room := spans.room
  rintro ⟨_, _, inUse⟩
  omega

theorem ne_end_of_live (alive : m.Live position) : position ≠ m.bufferEndIndex := by
  rintro rfl
  exact spans.end_free alive

theorem start_live (used : 0 < m.size) : m.Live m.bufferStartIndex := by
  refine ⟨spans.start_nonneg, spans.start_lt, ?_⟩
  simpa using used

theorem size_pos_of_live (alive : m.Live position) : 0 < m.size := by
  have := spans.start_lt
  obtain ⟨nonneg, _, inUse⟩ := alive
  omega

end

end Spans

/-- `node` gives the nodes in use and `chain` the positions on each chain, the
time list from the most recent on. -/
structure Represents (L : Layout κ P) (m : RingLru κ P) (node : Int -> Node κ P)
    (chain : κ -> Int -> List Int) : Prop where
  spans : m.Spans
  reads : m.Reads m.Live node
  chained : ∀ kind, Chained L m.head m.timeListTail m.Live node kind (chain kind)
  length_time : ((chain L.time 0).length : Int) = m.size

@[simp] theorem releaseFirst_rows (m : RingLru κ P) : m.releaseFirst.ring.rows = m.ring.rows := by
  unfold releaseFirst
  dsimp only
  split <;> rfl

theorem releaseFirst_incIndex (m : RingLru κ P) (index : Int) :
    m.releaseFirst.incIndex index = m.incIndex index := by
  unfold incIndex
  rw [releaseFirst_rows]

variable {m : RingLru κ P} {node : Int -> Node κ P}

section

variable (spans : m.Spans) (used : 0 < m.size)
include spans used

theorem Spans.releaseFirst_start : m.releaseFirst.bufferStartIndex =
      if m.ring.rows * 256 ≤ m.bufferStartIndex + 1 then 0 else m.bufferStartIndex + 1 :=
  spans.exact _ (spans.start_live used)

theorem Spans.releaseFirst_live (position : Int) :
    m.releaseFirst.Live position ↔ m.Live position ∧ position ≠ m.bufferStartIndex := by
  have start := spans.releaseFirst_start used
  have size : m.releaseFirst.size = m.size - 1 := rfl
  have extent := spans.extent
  have room := spans.room
  unfold Live
  rw [releaseFirst_rows, start, size]
  omega

theorem Spans.releaseFirst : m.releaseFirst.Spans := by
  have start := spans.releaseFirst_start used
  have size : m.releaseFirst.size = m.size - 1 := rfl
  have finish : m.releaseFirst.bufferEndIndex = m.bufferEndIndex := rfl
  have capacity : m.releaseFirst.capacity = m.capacity := rfl
  have extent := spans.extent
  have room := spans.room
  refine ⟨?_, ?_, ?_, ?_, ?_, ?_, ?_⟩
  · rw [releaseFirst_rows, capacity, spans.rows_eq]
  · rw [start]
    omega
  · rw [releaseFirst_rows, start]
    omega
  · rw [size]
    omega
  · rw [size, capacity]
    omega
  · rw [finish, releaseFirst_rows, start, size]
    omega
  · intro position alive
    have old := ((spans.releaseFirst_live used position).mp alive).1
    have exact := spans.exact position old
    unfold IncExact at exact ⊢
    rw [releaseFirst_incIndex, releaseFirst_rows, exact]

/-- A released block holds no node that stays in use. -/
theorem Spans.releaseFirst_reads
    (reads : m.Reads (fun position => m.Live position ∧ position ≠ m.bufferStartIndex) node) :
    m.releaseFirst.Reads m.releaseFirst.Live node := by
  intro position alive
  have old := (spans.releaseFirst_live used position).mp alive
  rw [← reads position old]
  by_cases lastOfBlock : m.bufferStartIndex % 256 = 255
  · have otherBlock : position / 256 ≠ m.bufferStartIndex / 256 := by
      have extent := spans.extent
      have room := spans.room
      obtain ⟨⟨_, _, inUse⟩, notFirst⟩ := old
      omega
    simp [getNode, Ring.getNode, Ring.block, RingLru.releaseFirst, lastOfBlock, otherBlock]
  · simp [getNode, Ring.getNode, Ring.block, RingLru.releaseFirst, lastOfBlock]

end

/-- Giving the first position back once its node is on no list any more. -/
theorem releaseFirst_spec (old : m.Spans) (used : 0 < m.size) (same : SameExtent m m')
    (left_iff : ∀ position, left position ↔ m.Live position ∧ position ≠ m.bufferStartIndex)
    (reads : m'.Reads left node)
    (chained : ∀ kind, Chained L m'.head m'.timeListTail left node kind (chain kind))
    (length : ((chain L.time 0).length : Int) = m.size - 1) :
    Represents L m'.releaseFirst node chain := by
  have spans := old.of_sameExtent same
  have usedNow : 0 < m'.size := by
    rw [same.size]
    exact used
  have remaining : ∀ position,
      left position ↔ m'.Live position ∧ position ≠ m'.bufferStartIndex := by
    intro position
    rw [left_iff, same.live, same.start]
  exact
    { spans := spans.releaseFirst usedNow
      reads := spans.releaseFirst_reads usedNow fun position alive =>
        reads position ((remaining position).mpr alive)
      chained := fun kind => (chained kind).of_live fun position =>
        (spans.releaseFirst_live usedNow position).trans (remaining position).symm
      length_time := length.trans (congrArg (· - 1) same.size.symm) }

section Remove

variable [DecidableEq κ]

variable {L : Layout κ P} {m : RingLru κ P} {node : Int -> Node κ P} {target : Int}

variable {chain : κ -> Int -> List Int}

section

variable {live : Int -> Prop}
  (chained : ∀ kind, Chained L m.head m.timeListTail live node kind (chain kind))
include chained

omit [DecidableEq κ] in
theorem linksLive_of_chained (alive : live target) : LinksLive live node target := by
  intro kind link isLink
  obtain ⟨linkAlive, notSelf, _⟩ := (chained kind).links alive isLink
  exact ⟨linkAlive, notSelf⟩

theorem unlink_spec (reads : m.Reads live node) (alive : live target) :
    ∃ m', L.kinds.foldlM (fun m kind => m.removeNodeFromList L kind target
          ((node target).next kind) ((node target).prev kind)) m = some m' ∧
      SameExtent m m' ∧
      m'.Reads live (relinked node L.kinds target (node target).next (node target).prev) ∧
      ∀ kind, Chained L m'.head m'.timeListTail (fun position => live position ∧ position ≠ target)
        (relinked node L.kinds target (node target).next (node target).prev)
        kind (fun slot => (chain kind slot).erase target) := by
  obtain ⟨ring, folded, rows, readsAfter⟩ :=
    foldlM_removeNodeFromList_spec L reads alive (linksLive_of_chained chained alive) L.kinds_nodup
      (node target).next (node target).prev
  exact ⟨_, folded, ⟨rows, rfl, rfl, rfl, rfl⟩, readsAfter.of_ring rfl,
    fun kind => (chained kind).remove alive (L.kinds_complete kind)⟩

/-- The first half of moving a node: the copy, and its neighbours. -/
theorem relocate_spec
    (reads : m.Reads (fun position => live position ∨ position = target) node)
    (alive : live source) (free : ¬ live target) :
    ∃ m' node', (do
          let first ← m.getNode source
          let m ← m.modifyNode target fun _ => first
          let m ← L.kinds.foldlM (fun m kind =>
            m.removeNodeFromList L kind source (some target) (some target)) m
          m.modifyNode source fun _ => L.blank) = some m' ∧
      SameExtent m m' ∧
      m'.Reads (fun position => position = target ∨ (live position ∧ position ≠ source)) node' ∧
      (∀ kind, Chained L m'.head m'.timeListTail
        (fun position => position = target ∨ (live position ∧ position ≠ source))
        node' kind (fun slot => (chain kind slot).map (redirect source target))) ∧
      ∀ position, live position ->
        (node' (redirect source target position)).payload = (node position).payload := by
  have apart : source ≠ target := fun same => free (same ▸ alive)
  obtain ⟨ring, copied, rows, readsCopied⟩ :=
    modifyNode_spec reads (Or.inr rfl) fun _ => node source
  have links : LinksLive (fun position => live position ∨ position = target)
      (update node target (node source)) source := by
    intro kind link isLink
    rw [update_of_ne apart] at isLink
    exact (linksLive_of_chained chained alive kind link isLink).imp_left Or.inl
  obtain ⟨ring', folded, rows', readsFolded⟩ :=
    foldlM_removeNodeFromList_spec L readsCopied (Or.inl alive) links
      L.kinds_nodup (fun _ => some target) (fun _ => some target)
  rw [update_of_ne apart] at folded
  set moved := relinked (update node target (node source)) L.kinds
    source (fun _ => some target) (fun _ => some target) with movedDef
  set relinkedState : RingLru κ P := { m with
    ring := ring'
    head := relinkedHead L m (node source) L.kinds fun _ => some target
    timeListTail := relinkedTail L m (node source) L.kinds
      fun _ => some target } with relinkedStateDef
  have readsRelinked : relinkedState.Reads
      (fun position => live position ∨ position = target) moved := readsFolded.of_ring rfl
  obtain ⟨ring'', blanked, rows'', readsBlanked⟩ :=
    modifyNode_spec readsRelinked (Or.inl alive) fun _ => L.blank
  refine ⟨{ relinkedState with ring := ring'' }, moved, ?_,
    ⟨rows''.trans (rows'.trans rows), rfl, rfl, rfl, rfl⟩, ?_, ?_, ?_⟩
  · rw [reads source (Or.inl alive), some_bind, copied, some_bind, folded]
    exact blanked
  · intro position aliveAt
    have notSource : position ≠ source := by
      rcases aliveAt with rfl | ⟨_, different⟩
      · exact Ne.symm apart
      · exact different
    have aliveOld : live position ∨ position = target := by
      rcases aliveAt with isTarget | ⟨old, _⟩
      · exact Or.inr isTarget
      · exact Or.inl old
    rw [readsBlanked position aliveOld, update_of_ne notSource]
  · intro kind
    exact (chained kind).relocate alive free (L.kinds_complete kind)
  · intro position aliveAt
    by_cases isSource : position = source
    · subst isSource
      simp [movedDef, relinked]
    · have notTarget : position ≠ target := fun same =>
        free (same ▸ aliveAt)
      rw [redirect_of_ne isSource]
      simp [movedDef, relinked, notTarget]

end

/-- What a removal does to the extent of the ring. -/
structure Shrunk (m m' : RingLru κ P) : Prop where
  rows : m'.ring.rows = m.ring.rows
  start : m'.bufferStartIndex = m.incIndex m.bufferStartIndex
  finish : m'.bufferEndIndex = m.bufferEndIndex
  size : m'.size = m.size - 1
  capacity : m'.capacity = m.capacity

omit [DecidableEq κ] in
theorem Shrunk.releaseFirst (same : SameExtent m m') :
    Shrunk m m'.releaseFirst where
  rows := (releaseFirst_rows m').trans same.rows
  start := by
    change m'.incIndex m'.bufferStartIndex = _
    rw [same.incIndex, same.start]
  finish := same.finish
  size := congrArg (· - 1) same.size
  capacity := same.capacity

/-- Removing a node whose position is judged rightly: every chain loses it, and
the first node of the ring takes over its position. -/
theorem removeNode_spec (represents : Represents L m node chain) (alive : m.Live target)
    (judged : atStart = true ↔ target = m.bufferStartIndex) :
    ∃ m' node', m.removeNode L target atStart = some m' ∧ Shrunk m m' ∧
      Represents L m' node' (fun kind slot =>
        ((chain kind slot).erase target).map (redirect m.bufferStartIndex target)) ∧
      ∀ position, m.Live position -> position ≠ target ->
        (node' (redirect m.bufferStartIndex target position)).payload =
          (node position).payload := by
  have used := represents.spans.size_pos_of_live alive
  obtain ⟨unlinked, folded, same, readsUnlinked, chained⟩ :=
    unlink_spec represents.chained represents.reads alive
  set rest := relinked node L.kinds target (node target).next (node target).prev with restDef
  have ownTime : target ∈ chain L.time 0 := by
    have own := (represents.chained L.time).mem_own alive
    rwa [L.slotOf_time] at own
  have lengthErased : (((chain L.time 0).erase target).length : Int) = m.size - 1 := by
    have erased := List.length_erase_of_mem ownTime
    have whole := represents.length_time
    omega
  by_cases first : target = m.bufferStartIndex
  · have isStart := judged.mpr first
    obtain ⟨ring, blanked, rows, readsBlanked⟩ :=
      modifyNode_spec readsUnlinked alive fun _ => L.blank
    set blank : RingLru κ P := { unlinked with ring := ring } with blankDef
    have sameBlank : SameExtent unlinked blank := ⟨rows, rfl, rfl, rfl, rfl⟩
    refine ⟨blank.releaseFirst, rest, ?_, Shrunk.releaseFirst (same.trans sameBlank), ?_, ?_⟩
    · rw [removeNode, represents.reads target alive, some_bind, folded]
      simp only [some_bind, isStart, if_true]
      rw [blanked]
      rfl
    · have unmoved : ∀ positions : List Int,
          positions.map (redirect m.bufferStartIndex target) = positions := by
        intro positions
        rw [first, show redirect m.bufferStartIndex m.bufferStartIndex = id
          from funext (redirect_self _), List.map_id]
      simp only [unmoved]
      refine releaseFirst_spec represents.spans used (same.trans sameBlank)
        (fun position => by rw [first]) ?_ chained lengthErased
      rintro position ⟨old, notTarget⟩
      rw [readsBlanked position old, update_of_ne notTarget]
    · intro position _ _
      rw [first, redirect_self]
      rfl
  · have notStart : ¬ atStart = true := fun isStart =>
      first (judged.mp isStart)
    have startAlive : m.Live m.bufferStartIndex ∧ m.bufferStartIndex ≠ target :=
      ⟨represents.spans.start_live used, Ne.symm first⟩
    have readsBoth : unlinked.Reads (fun position =>
        (m.Live position ∧ position ≠ target) ∨ position = target) rest := by
      rintro position (⟨old, _⟩ | rfl)
      · exact readsUnlinked position old
      · exact readsUnlinked position alive
    obtain ⟨moved, node', copied, sameMoved, readsMoved, chainedMoved, payloads⟩ :=
      relocate_spec chained readsBoth startAlive (fun absurdity => absurdity.2 rfl)
    refine ⟨moved.releaseFirst, node', ?_, Shrunk.releaseFirst (same.trans sameMoved), ?_, ?_⟩
    · rw [removeNode, represents.reads target alive, some_bind, folded]
      simp only [some_bind, notStart]
      rw [same.start]
      have released := congrArg (· >>= fun m => some m.releaseFirst) copied
      simpa only [bind_assoc, some_bind, Bool.false_eq_true, if_false] using released
    · refine releaseFirst_spec represents.spans used (same.trans sameMoved) ?_ readsMoved
        chainedMoved ((congrArg Nat.cast (List.length_map _)).trans lengthErased)
      intro position
      by_cases isTarget : position = target
      · simp [isTarget, alive, first]
      · simp [isTarget]
    · intro position old notTarget
      rw [payloads position ⟨old, notTarget⟩]
      rfl

end Remove

/-- What an insertion does to the extent of the ring. -/
structure Grown (m m' : RingLru κ P) : Prop where
  rows : m'.ring.rows = m.ring.rows
  start : m'.bufferStartIndex = m.bufferStartIndex
  finish : m'.bufferEndIndex = m.incIndex m.bufferEndIndex
  size : m'.size = m.size + 1
  capacity : m'.capacity = m.capacity

namespace Grown

theorem live (grown : Grown m m') (spans : m.Spans) (room : m.size < m.capacity) (position : Int) :
    m'.Live position ↔ m.Live position ∨ position = m.bufferEndIndex := by
  have extent := spans.extent
  have rows := spans.room
  unfold Live
  rw [grown.rows, grown.start, grown.size]
  omega

theorem spans (grown : Grown m m') (old : m.Spans) (room : m.size < m.capacity)
    (exact : m.IncExact m.bufferEndIndex) : m'.Spans := by
  have finish := exact
  unfold IncExact at finish
  rw [← grown.finish] at finish
  have sameInc : ∀ index, m'.incIndex index = m.incIndex index := by
    intro index
    unfold incIndex
    rw [grown.rows]
  have extent := old.extent
  have rows := old.room
  refine ⟨?_, ?_, ?_, ?_, ?_, ?_, ?_⟩
  · rw [grown.rows, grown.capacity, old.rows_eq]
  · rw [grown.start]
    exact old.start_nonneg
  · rw [grown.start, grown.rows]
    exact old.start_lt
  · rw [grown.size]
    omega
  · rw [grown.size, grown.capacity]
    omega
  · rw [finish, grown.start, grown.rows, grown.size]
    omega
  · intro position alive
    have exactOld : m.IncExact position := by
      rcases (grown.live old room position).mp alive with aliveOld | isEnd
      · exact old.exact position aliveOld
      · rw [isEnd]
        exact exact
    unfold IncExact at exactOld ⊢
    rw [sameInc, grown.rows, exactOld]

end Grown

/-- The block of the end position is there after `acquireBlock`, and no node
in use has changed. -/
theorem acquireBlock_spec (spans : m.Spans) (reads : m.Reads m.Live node) :
    ∃ m' node', m.acquireBlock = some m' ∧ SameExtent m m' ∧
      m'.head = m.head ∧ m'.timeListTail = m.timeListTail ∧
      m'.Reads (fun position => m.Live position ∨ position = m.bufferEndIndex) node' ∧
      ∀ position, m.Live position -> node' position = node position := by
  have inRange : 0 ≤ m.bufferEndIndex / 256 ∧ m.bufferEndIndex / 256 < m.ring.rows := by
    have inside := spans.end_inside
    omega
  have fresh : ∀ (m' : RingLru κ P) (content : Node κ P),
      m'.getNode m.bufferEndIndex = some content ->
      m'.Reads m.Live node ->
      m'.Reads (fun position => m.Live position ∨ position = m.bufferEndIndex)
        (update node m.bufferEndIndex content) := by
    rintro m' content readable readsOld position (alive | isEnd)
    · rw [update_of_ne (spans.ne_end_of_live alive)]
      exact readsOld position alive
    · subst isEnd
      rw [update_self]
      exact readable
  have kept : ∀ content position, m.Live position ->
      update node m.bufferEndIndex content position = node position :=
    fun content position alive => update_of_ne (spans.ne_end_of_live alive) ..
  unfold acquireBlock
  rw [if_pos inRange]
  cases present : m.ring.blocks (m.bufferEndIndex / 256) with
  | some block =>
    refine ⟨m, _, rfl, ⟨rfl, rfl, rfl, rfl, rfl⟩, rfl, rfl,
      fresh m (block (m.bufferEndIndex % 256)) ?_ reads, kept _⟩
    simp [getNode, Ring.getNode, Ring.block, inRange, present]
  | none =>
    refine ⟨_, _, rfl, ⟨rfl, rfl, rfl, rfl, rfl⟩, rfl, rfl,
      fresh _ (m.pool 0 (m.bufferEndIndex % 256)) ?_ ?_, kept _⟩
    · simp [getNode, Ring.getNode, Ring.block, inRange]
    · intro position alive
      rw [← reads position alive]
      have otherBlock : position / 256 ≠ m.bufferEndIndex / 256 := by
        intro same
        have readable := reads position alive
        simp [getNode, Ring.getNode, Ring.block, same, present] at readable
      simp [getNode, Ring.getNode, Ring.block, otherBlock]

/-- There is no block for an end position that has become negative. -/
theorem insertNode_eq_none_of_neg [DecidableEq κ]
    (negative : m.bufferEndIndex < 0) (L : Layout κ P) (payload : P) :
    m.insertNode L payload = none := by
  have outside : ¬ (0 ≤ m.bufferEndIndex / 256 ∧ m.bufferEndIndex / 256 < m.ring.rows) := by omega
  rw [insertNode, acquireBlock]
  simp only [if_neg outside]
  rfl

/-- Inserting into a ring with room puts the node in front of its chains, and
the ring stays consistent if its end does not overflow. -/
theorem insertNode_spec [DecidableEq κ]
    (represents : Represents L m node chain) (room : m.size < m.capacity) (payload : P) :
    ∃ m' node', m.insertNode L payload = some m' ∧ Grown m m' ∧
      m'.head = pushedHead m L.kinds m.bufferEndIndex (fun kind => L.slotOf kind payload) ∧
      (m.IncExact m.bufferEndIndex -> Represents L m' node' (fun kind slot =>
          if slot = L.slotOf kind payload
          then m.bufferEndIndex :: chain kind slot else chain kind slot)) ∧
      (node' m.bufferEndIndex).payload = payload ∧
      ∀ position, m.Live position -> (node' position).payload = (node position).payload := by
  have spans := represents.spans
  obtain ⟨acquired, content, acquires, same, sameHead, sameTail, reads,
    kept⟩ := acquireBlock_spec spans represents.reads
  set enlarged : RingLru κ P :=
    { acquired with size := acquired.size + 1 } with enlargedDef
  have readsEnlarged : enlarged.Reads (fun position =>
      m.Live position ∨ position = m.bufferEndIndex) content := reads.of_ring rfl
  set stored := update content m.bufferEndIndex
    { content m.bufferEndIndex with payload := payload } with storedDef
  have old : ∀ position, m.Live position -> stored position = node position :=
    fun position alive =>
      (update_of_ne (spans.ne_end_of_live alive) ..).trans (kept position alive)
  have chained : ∀ kind, Chained L enlarged.head enlarged.timeListTail
      m.Live stored kind (chain kind) := by
    intro kind
    refine (represents.chained kind).congr ?_ ?_ (fun _ => Iff.rfl) ?_ ?_ ?_
    · intro slot
      exact congrFun (congrFun sameHead kind) slot
    · intro _
      exact sameTail
    all_goals
      intro position alive
      rw [old position alive]
  obtain ⟨ring, pushes, rows, readsPushed⟩ := foldlM_pushNodeToList_spec L readsEnlarged
      (Or.inr rfl : m.Live m.bufferEndIndex ∨ m.bufferEndIndex = m.bufferEndIndex)
      L.kinds_nodup (fun kind => L.slotOf kind payload) (by
        intro kind _ first isFirst
        rw [(chained kind).head_eq] at isFirst
        have alive := (chained kind).live_of_mem (List.mem_of_mem_head? isFirst)
        exact ⟨Or.inl alive, spans.ne_end_of_live alive⟩)
  set linked : RingLru κ P := { enlarged with
    ring := ring
    head := pushedHead enlarged L.kinds m.bufferEndIndex fun kind => L.slotOf kind payload
    timeListTail := pushedTail L enlarged L.kinds m.bufferEndIndex }
    with linkedDef
  set heads := fun kind => enlarged.head kind (L.slotOf kind payload)
  set front := pushed content L.kinds m.bufferEndIndex heads with frontDef
  have readsLinked : linked.Reads (fun position =>
      m.Live position ∨ position = m.bufferEndIndex) front := readsPushed.of_ring rfl
  obtain ⟨ring', written, rows', readsWritten⟩ := modifyNode_spec readsLinked
      (Or.inr rfl : m.Live m.bufferEndIndex ∨ m.bufferEndIndex = m.bufferEndIndex)
      fun n => { n with payload := payload }
  have commutes : update front m.bufferEndIndex
      { front m.bufferEndIndex with payload := payload } =
      pushed stored L.kinds m.bufferEndIndex heads := by
    funext position
    by_cases isEnd : position = m.bufferEndIndex <;> simp [frontDef, storedDef, pushed, isEnd]
  rw [commutes] at readsWritten
  set final : RingLru κ P := { linked with
    ring := ring'
    bufferEndIndex := m.incIndex m.bufferEndIndex } with finalDef
  have grown : Grown m final := by
    refine ⟨rows'.trans (rows.trans same.rows), same.start, rfl, ?_, same.capacity⟩
    change acquired.size + 1 = m.size + 1
    rw [same.size]
  have live := grown.live spans room
  have freshPayload : (stored m.bufferEndIndex).payload = payload := by simp [storedDef]
  refine ⟨final, pushed stored L.kinds m.bufferEndIndex heads, ?_, grown, ?_, ?_, freshPayload,
    fun position alive =>
      show (stored position).payload = _ from congrArg Node.payload (old position alive)⟩
  · rw [insertNode, acquires, some_bind]
    dsimp only
    rw [← enlargedDef, same.finish, pushes, some_bind, written, some_bind]
    congr 2
    unfold incIndex
    rw [grown.rows]
  · change pushedHead enlarged L.kinds m.bufferEndIndex _ = _
    unfold pushedHead
    rw [show enlarged.head = m.head from sameHead]
  · intro exact
    refine ⟨grown.spans spans room exact, ?_, ?_, ?_⟩
    · intro position alive
      exact readsWritten position ((live position).mp alive)
    · intro kind
      exact ((chained kind).push spans.end_free (L.kinds_complete kind)
        (fun kind => L.slotOf kind payload) (congrArg (L.slotOf kind) freshPayload)).of_live live
    · rw [L.slotOf_time, if_pos rfl, List.length_cons, grown.size]
      have := represents.length_time
      omega

end RingLru

end Metaflow.Hmap.Lru
