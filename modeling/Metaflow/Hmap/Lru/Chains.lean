import Metaflow.Hmap.Lru.ListSteps

/-!
# Chains of live nodes

`Chained` says that every slot's chain is threaded through exactly its live
nodes. Taking a node out erases it, moving it renames it, and linking it in puts
it in front.
-/

namespace Metaflow.Hmap.Lru

open Library.LinkedList
open RingLru

variable {κ P : Type}

/-- The chains of one kind: `chain slot` lists the live nodes of a slot in
the order of their links. -/
structure Chained (L : Layout κ P) (head : κ -> Int -> Option Int) (tail : Option Int)
    (live : Int -> Prop) (node : Int -> Node κ P) (kind : κ) (chain : Int -> List Int) : Prop where
  threaded : ∀ slot,
    Threaded (fun position => (node position).next kind)
      (fun position => (node position).prev kind) (chain slot)
  head_eq : ∀ slot, head kind slot = (chain slot).head?
  tail_eq : kind = L.time -> tail = (chain 0).getLast?
  mem_chain : ∀ slot position,
    position ∈ chain slot ↔ live position ∧ L.slotOf kind (node position).payload = slot

namespace Chained

variable {L : Layout κ P}
variable {head head' : κ -> Int -> Option Int} {tail tail' : Option Int}
variable {live live' : Int -> Prop} {node node' : Int -> Node κ P}
variable {kind : κ} {chain : Int -> List Int}

variable {position : Int}

section

variable (chained : Chained L head tail live node kind chain)
include chained

/-- A live node is on the chain of its slot. -/
theorem mem_own (alive : live position) :
    position ∈ chain (L.slotOf kind (node position).payload) :=
  (chained.mem_chain _ _).mpr ⟨alive, rfl⟩

theorem live_of_mem (present : position ∈ chain slot) : live position :=
  ((chained.mem_chain _ _).mp present).1

theorem slot_of_mem (present : position ∈ chain slot) :
    L.slotOf kind (node position).payload = slot :=
  ((chained.mem_chain _ _).mp present).2

theorem not_mem (other : slot ≠ L.slotOf kind (node position).payload) : position ∉ chain slot :=
  fun present => other (chained.slot_of_mem present).symm

theorem links (alive : live position)
    (isLink : (node position).prev kind = some link ∨ (node position).next kind = some link) :
    live link ∧ link ≠ position ∧ link ∈ chain (L.slotOf kind (node position).payload) := by
  have own := chained.mem_own alive
  have threaded := chained.threaded (L.slotOf kind (node position).payload)
  rcases isLink with previous | following
  · have present := threaded.prev_mem own previous
    refine ⟨chained.live_of_mem present, ?_, present⟩
    rintro rfl
    exact threaded.prev_ne_self own previous
  · have present := threaded.next_mem own following
    refine ⟨chained.live_of_mem present, ?_, present⟩
    rintro rfl
    exact threaded.next_ne_self own following

/-- The neighbours of a node are on its own chain. -/
theorem not_neighbour (alive : live target)
    (other : slot ≠ L.slotOf kind (node target).payload) (present : position ∈ chain slot) :
    (node target).prev kind ≠ some position ∧ (node target).next kind ≠ some position := by
  have apart : ¬ ((node target).prev kind = some position ∨
      (node target).next kind = some position) := by
    intro isLink
    have onOwn := (chained.links alive isLink).2.2
    exact other ((chained.slot_of_mem present).symm.trans (chained.slot_of_mem onOwn))
  exact not_or.mp apart

/-- The chains depend only on the links and slots of live nodes. -/
theorem congr (sameHead : ∀ slot, head' kind slot = head kind slot)
    (sameTail : kind = L.time -> tail' = tail)
    (sameLive : ∀ position, live' position ↔ live position)
    (sameNext : ∀ position, live position -> (node' position).next kind = (node position).next kind)
    (samePrev : ∀ position, live position -> (node' position).prev kind = (node position).prev kind)
    (sameSlot : ∀ position, live position ->
      L.slotOf kind (node' position).payload = L.slotOf kind (node position).payload) :
    Chained L head' tail' live' node' kind chain where
  threaded slot :=
    (chained.threaded slot).congr
      (fun position present =>
        sameNext position (chained.live_of_mem present))
      (fun position present =>
        samePrev position (chained.live_of_mem present))
  head_eq slot := (sameHead slot).trans (chained.head_eq slot)
  tail_eq isTime := (sameTail isTime).trans (chained.tail_eq isTime)
  mem_chain slot position := by
    rw [chained.mem_chain, sameLive]
    exact and_congr_right fun alive => by rw [sameSlot position alive]

theorem of_live (sameLive : ∀ position, live' position ↔ live position) :
    Chained L head tail live' node kind chain :=
  chained.congr (fun _ => rfl) (fun _ => rfl) sameLive (fun _ _ => rfl) (fun _ _ => rfl)
    (fun _ _ => rfl)

end

end Chained

variable [DecidableEq κ]

namespace Chained

variable {L : Layout κ P} {m : RingLru κ P}
variable {live : Int -> Prop} {node : Int -> Node κ P}
variable {kind : κ} {chain : Int -> List Int}

variable {kinds : List κ}

variable (chained : Chained L m.head m.timeListTail live node kind chain)
include chained

/-- Taking the node at `target` out of the lists of the given kinds. -/
theorem remove (alive : live target) (included : kind ∈ kinds) :
    Chained L (relinkedHead L m (node target) kinds (node target).next)
      (relinkedTail L m (node target) kinds (node target).prev)
      (fun position => live position ∧ position ≠ target)
      (relinked node kinds target (node target).next (node target).prev)
      kind (fun slot => (chain slot).erase target) := by
  have own := chained.mem_own alive
  refine ⟨?_, ?_, ?_, ?_⟩
  · intro slot
    by_cases inSlot : slot = L.slotOf kind (node target).payload
    · subst inSlot
      refine (chained.threaded _).remove own ?_ ?_ <;> intro position _ _ <;>
        simp [relinked, included]
    · rw [List.erase_of_not_mem (chained.not_mem inSlot)]
      refine (chained.threaded slot).congr ?_ ?_ <;> intro position present <;>
        simp [relinked, chained.not_neighbour alive inSlot present]
  · intro slot
    by_cases inSlot : slot = L.slotOf kind (node target).payload
    · subst inSlot
      rw [(chained.threaded _).head?_remove own]
      simp [relinkedHead, included, chained.head_eq]
    · rw [List.erase_of_not_mem (chained.not_mem inSlot)]
      simp [relinkedHead, inSlot, chained.head_eq]
  · intro isTime
    subst isTime
    have ownTime : target ∈ chain 0 := by simpa [L.slotOf_time] using own
    rw [(chained.threaded 0).getLast?_remove ownTime]
    simp [relinkedTail, included, chained.tail_eq rfl]
  · intro slot position
    rw [(chained.threaded slot).nodup.mem_erase_iff, chained.mem_chain]
    simp only [relinked]
    tauto

theorem remove_other (target : Int) (excluded : kind ∉ kinds) (newNext newPrev : κ -> Option Int) :
    Chained L (relinkedHead L m (node target) kinds newNext)
      (relinkedTail L m (node target) kinds newPrev) live
      (relinked node kinds target newNext newPrev) kind chain := by
  refine chained.congr ?_ ?_ (fun _ => Iff.rfl) ?_ ?_ ?_
  · intro slot
    simp [relinkedHead, excluded]
  · intro isTime
    subst isTime
    simp [relinkedTail, excluded]
  · intro position _
    simp [relinked, excluded]
  · intro position _
    simp [relinked, excluded]
  · intro position _
    rfl

/-- Copying the node at `source` to the free `target` and redirecting its
neighbours. -/
theorem relocate (alive : live source) (free : ¬ live target) (included : kind ∈ kinds) :
    Chained L (relinkedHead L m (node source) kinds fun _ => some target)
      (relinkedTail L m (node source) kinds fun _ => some target)
      (fun position => position = target ∨ (live position ∧ position ≠ source))
      (relinked (Function.update node target (node source)) kinds source
        (fun _ => some target) (fun _ => some target))
      kind (fun slot => (chain slot).map (redirect source target)) := by
  have own := chained.mem_own alive
  have apart : source ≠ target := fun same => free (same ▸ alive)
  have fresh : ∀ slot, target ∉ chain slot := fun slot present =>
    free (chained.live_of_mem present)
  have noPrev : (node source).prev kind ≠ some target := fun link =>
    free (chained.links alive (Or.inl link)).1
  have noNext : (node source).next kind ≠ some target := fun link =>
    free (chained.links alive (Or.inr link)).1
  have notTarget : ∀ {slot position}, position ∈ chain slot -> position ≠ target := by
    rintro slot position present rfl
    exact fresh slot present
  refine ⟨?_, ?_, ?_, ?_⟩
  · intro slot
    by_cases inSlot : slot = L.slotOf kind (node source).payload
    · subst inSlot
      refine (chained.threaded _).relocate own (fresh _) ?_ ?_ ?_ ?_
      · simp [relinked, apart, noPrev]
      · simp [relinked, apart, noNext]
      all_goals
        intro position present _
        simp [relinked, included, apart, notTarget present]
    · rw [map_redirect_of_not_mem (chained.not_mem inSlot)]
      refine (chained.threaded slot).congr ?_ ?_ <;> intro position present <;>
        simp [relinked, apart, notTarget present, chained.not_neighbour alive inSlot present]
  · intro slot
    by_cases inSlot : slot = L.slotOf kind (node source).payload
    · subst inSlot
      rw [(chained.threaded _).head?_relocate target own]
      simp [relinkedHead, included, chained.head_eq]
    · rw [map_redirect_of_not_mem (chained.not_mem inSlot)]
      simp [relinkedHead, inSlot, chained.head_eq]
  · intro isTime
    subst isTime
    have ownTime : source ∈ chain 0 := by simpa [L.slotOf_time] using own
    rw [(chained.threaded 0).getLast?_relocate target ownTime]
    simp [relinkedTail, included, chained.tail_eq rfl]
  · intro slot position
    have payload : (relinked (Function.update node target (node source)) kinds source
        (fun _ => some target) (fun _ => some target) position).payload =
        if position = target then (node source).payload else (node position).payload := by
      by_cases isTarget : position = target <;> simp [relinked, isTarget]
    rw [payload]
    by_cases inSlot : slot = L.slotOf kind (node source).payload
    · subst inSlot
      rw [mem_map_redirect own, chained.mem_chain]
      split_ifs <;> tauto
    · have notOwn : L.slotOf kind (node position).payload = slot -> position ≠ source := by
        rintro belongs rfl
        exact inSlot belongs.symm
      rw [map_redirect_of_not_mem (chained.not_mem inSlot), chained.mem_chain]
      split_ifs with isTarget
      · exact iff_of_false (fun here => free (isTarget ▸ here.1)) fun here => inSlot here.2.symm
      · tauto

theorem push (absent : ¬ live fresh) (included : kind ∈ kinds)
    (slotFor : κ -> Int) (ownSlot : L.slotOf kind (node fresh).payload = slotFor kind) :
    Chained L (pushedHead m kinds fresh slotFor) (pushedTail L m kinds fresh)
      (fun position => live position ∨ position = fresh)
      (pushed node kinds fresh fun kind => m.head kind (slotFor kind)) kind
      (fun slot => if slot = slotFor kind then fresh :: chain slot
        else chain slot) := by
  have notFresh : ∀ {slot position}, position ∈ chain slot -> position ≠ fresh := by
    rintro slot position present rfl
    exact absent (chained.live_of_mem present)
  refine ⟨?_, ?_, ?_, ?_⟩
  · intro slot
    by_cases inSlot : slot = slotFor kind
    · subst inSlot
      rw [if_pos rfl]
      refine (chained.threaded _).push (fun present => notFresh present rfl) ?_ ?_ ?_ ?_
      · simp [pushed, included, chained.head_eq]
      · simp [pushed, included]
      all_goals
        intro position present
        simp [pushed, included, notFresh present, chained.head_eq]
    · rw [if_neg inSlot]
      refine (chained.threaded slot).congr ?_ ?_ <;> intro position present
      · simp [pushed, notFresh present]
      · have notFirst : m.head kind (slotFor kind) ≠ some position := by
          intro isFirst
          rw [chained.head_eq] at isFirst
          have inOther := List.mem_of_mem_head? isFirst
          exact inSlot ((chained.slot_of_mem present).symm.trans (chained.slot_of_mem inOther))
        simp [pushed, notFresh present, notFirst]
  · intro slot
    by_cases inSlot : slot = slotFor kind <;> simp [inSlot, pushedHead, included, chained.head_eq]
  · intro isTime
    subst isTime
    have zero : slotFor L.time = 0 := by rw [← ownSlot, L.slotOf_time]
    rw [zero, if_pos rfl, List.getLast?_cons, pushedTail, chained.tail_eq rfl]
    cases (chain 0).getLast? <;> simp [included]
  · intro slot position
    by_cases isFresh : position = fresh
    · subst isFresh
      have outside : position ∉ chain slot := fun present =>
        notFresh present rfl
      by_cases inSlot : slot = slotFor kind
      · simp [pushed, ownSlot, inSlot]
      · simp [pushed, ownSlot, inSlot, Ne.symm inSlot, outside]
    · have unchanged : position ∈ (if slot = slotFor kind
          then fresh :: chain slot else chain slot) ↔
          position ∈ chain slot := by
        split <;> simp [isFresh]
      rw [unchanged, chained.mem_chain]
      simp [pushed, isFresh]

theorem push_other
    (fresh : Int) (excluded : kind ∉ kinds) (slotFor : κ -> Int) (first : κ -> Option Int) :
    Chained L (pushedHead m kinds fresh slotFor) (pushedTail L m kinds fresh)
      live (pushed node kinds fresh first) kind chain := by
  refine chained.congr ?_ ?_ (fun _ => Iff.rfl) ?_ ?_ ?_
  · intro slot
    simp [pushedHead, excluded]
  · intro isTime
    subst isTime
    simp [pushedTail, excluded]
  · intro position _
    simp [pushed, excluded]
  · intro position _
    simp [pushed, excluded]
  · intro position _
    rfl

end Chained

end Metaflow.Hmap.Lru
