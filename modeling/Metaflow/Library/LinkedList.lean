import Mathlib.Data.List.Nodup

/-!
# Doubly linked lists threaded through a store

An intrusive list is described by the plain list of its addresses: the two link
functions are its neighbour functions `after` and `before`. The updates are
linking a cell in at the front, taking one out, and moving one to another
address.
-/

namespace Metaflow.Library.LinkedList

open List

variable {ι : Type*} [DecidableEq ι]

/-- The element that follows the first occurrence of `position`. -/
def after : List ι -> ι -> Option ι
  | [], _ => none
  | head :: rest, position => if position = head then rest.head? else after rest position

/-- The element that precedes `position`. -/
def before (positions : List ι) (position : ι) : Option ι :=
  after positions.reverse position

@[simp] theorem after_nil (position : ι) : after [] position = none := rfl

@[simp] theorem after_cons_self (head : ι) (rest : List ι) :
    after (head :: rest) head = rest.head? := by
  simp [after]

variable {position head : ι}

theorem after_cons_of_ne (different : position ≠ head) (rest : List ι) :
    after (head :: rest) position = after rest position := by
  simp [after, different]

variable {positions front rest : List ι} {source : ι}

/-- What follows an element is the head of the rest behind it. -/
theorem after_append (absent : position ∉ front) (rest : List ι) :
    after (front ++ position :: rest) position = rest.head? := by
  induction front with
  | nil => exact after_cons_self position rest
  | cons head front ih =>
    rw [mem_cons, not_or] at absent
    rw [cons_append, after_cons_of_ne absent.1]
    exact ih absent.2

theorem after_of_not_mem (absent : position ∉ positions) : after positions position = none := by
  induction positions with
  | nil => rfl
  | cons head rest ih =>
    rw [mem_cons, not_or] at absent
    rw [after_cons_of_ne absent.1]
    exact ih absent.2

/-- The place of an element and its successor. -/
theorem after_eq_some_iff {next} : after positions position = some next ↔
      ∃ front rest, position ∉ front ∧ positions = front ++ position :: next :: rest := by
  constructor
  · intro follows
    have present : position ∈ positions := by
      by_contra absent
      simp [after_of_not_mem absent] at follows
    obtain ⟨front, rest, rfl, absent⟩ := eq_append_cons_of_mem present
    rw [after_append absent] at follows
    obtain ⟨others, rfl⟩ := head?_eq_some_iff.mp follows
    exact ⟨front, others, absent, rfl⟩
  · rintro ⟨front, rest, absent, rfl⟩
    exact after_append absent _

theorem mem_of_after {next} (follows : after positions position = some next) :
    next ∈ positions := by
  obtain ⟨front, rest, -, rfl⟩ := after_eq_some_iff.mp follows
  simp

theorem after_ne_self (nodup : positions.Nodup) (position : ι) :
    after positions position ≠ some position := by
  intro follows
  obtain ⟨front, rest, -, rfl⟩ := after_eq_some_iff.mp follows
  simp [nodup_append] at nodup

/-- The last element is the one without successor. -/
theorem after_eq_none_iff (nodup : positions.Nodup) (present : position ∈ positions) :
    after positions position = none ↔ positions.getLast? = some position := by
  obtain ⟨front, rest, rfl, absent⟩ := eq_append_cons_of_mem present
  rw [after_append absent]
  cases rest with
  | nil => simp
  | cons second others =>
    have behind := (nodup_cons.mp (nodup_middle.mp nodup)).1
    refine iff_of_false (by simp) fun isLast => behind (mem_append_right _ ?_)
    rw [getLast?_append_cons, getLast?_cons_cons] at isLast
    exact mem_of_getLast? isLast

/-- Removing an element redirects its predecessor to its successor. -/
theorem after_erase (nodup : positions.Nodup) (removed : ι) (different : position ≠ removed) :
    after (positions.erase removed) position = if after positions position = some removed
      then after positions removed else after positions position := by
  induction positions with
  | nil => simp
  | cons head rest ih =>
    have tailNodup := (nodup_cons.mp nodup).2
    have headAbsent := (nodup_cons.mp nodup).1
    by_cases removesHead : head = removed
    · subst removesHead
      rw [erase_cons_head, after_cons_of_ne different]
      have notHead : after rest position ≠ some head := fun follows =>
        headAbsent (mem_of_after follows)
      simp [notHead]
    · rw [erase_cons_tail (by simpa using removesHead)]
      by_cases equal : position = head
      · subst equal
        rw [after_cons_self, after_cons_self, after_cons_of_ne (Ne.symm removesHead)]
        cases rest with
        | nil => simp
        | cons second others =>
          by_cases removesSecond : second = removed
          · subst removesSecond
            simp
          · rw [erase_cons_tail (by simpa using removesSecond)]
            simp [removesSecond]
      · rw [after_cons_of_ne equal, after_cons_of_ne equal, after_cons_of_ne (Ne.symm removesHead)]
        exact ih tailNodup

theorem after_map {κ : Type*} [DecidableEq κ] (rename : ι -> κ)
    (injective : ∀ left ∈ positions, ∀ right ∈ positions,
      rename left = rename right -> left = right) (present : position ∈ positions) :
    after (positions.map rename) (rename position) = (after positions position).map rename := by
  obtain ⟨front, rest, rfl, absent⟩ := eq_append_cons_of_mem present
  have renamedAbsent : rename position ∉ front.map rename := by
    intro isIn
    obtain ⟨other, inFront, same⟩ := mem_map.mp isIn
    exact absent (injective other (by simp [inFront]) position present same ▸ inFront)
  rw [map_append, map_cons, after_append renamedAbsent, after_append absent, head?_map]

/-- In a duplicate-free list, being followed by and being preceded by are
converse to each other. -/
theorem after_eq_some_iff_before_eq_some (nodup : positions.Nodup) (position next : ι) :
    after positions position = some next ↔ before positions next = some position := by
  rw [before, after_eq_some_iff, after_eq_some_iff]
  constructor
  · rintro ⟨front, rest, -, rfl⟩
    refine ⟨rest.reverse, front.reverse, ?_, by simp⟩
    simp only [nodup_append, nodup_cons] at nodup
    simpa using nodup.2.1.2.1
  · rintro ⟨front, rest, -, reversed⟩
    obtain rfl : positions = rest.reverse ++ position :: next :: front.reverse := by
      rw [← reverse_reverse positions, reversed]
      simp
    refine ⟨rest.reverse, front.reverse, ?_, rfl⟩
    exact fun isIn => (nodup_cons.mp (nodup_middle.mp nodup)).1
      (mem_append_left _ isIn)

theorem reverse_erase (nodup : positions.Nodup) (removed : ι) :
    (positions.erase removed).reverse = positions.reverse.erase removed := by
  rw [nodup.erase_eq_filter, (nodup_reverse.mpr nodup).erase_eq_filter, filter_reverse]

/-- The links `next` and `prev` thread the addresses of `positions`. -/
structure Threaded (next prev : ι -> Option ι) (positions : List ι) : Prop where
  /-- No address occurs twice. -/
  nodup : positions.Nodup
  /-- Forward links lead to the following address. -/
  next_eq : ∀ position ∈ positions,
    next position = after positions position
  /-- Backward links lead to the preceding address. -/
  prev_eq : ∀ position ∈ positions, prev position = before positions position

/-- Rename one address, leaving all others alone. -/
def redirect (source target position : ι) : ι :=
  if position = source then target else position

@[simp] theorem redirect_source (source target : ι) : redirect source target source = target := by
  simp [redirect]

theorem redirect_of_ne (different : position ≠ source) (target : ι) :
    redirect source target position = position := by
  simp [redirect, different]

@[simp] theorem redirect_self (source position : ι) :
    redirect source source position = position := by
  unfold redirect
  split
  · next same => exact same.symm
  · rfl

/-- Renaming to an address outside the list keeps addresses apart. -/
theorem redirect_injective (source : ι)
    (fresh : target ∉ positions) (left : ι) (inLeft : left ∈ positions)
    (right : ι) (inRight : right ∈ positions)
    (same : redirect source target left = redirect source target right) : left = right := by
  unfold redirect at same
  split at same <;> split at same
  · next leftSource rightSource => rw [leftSource, rightSource]
  · exact absurd (same ▸ inRight) fresh
  · exact absurd (same.symm ▸ inLeft) fresh
  · exact same

theorem map_redirect_of_not_mem (absent : source ∉ positions) (target : ι) :
    positions.map (redirect source target) = positions := by
  have pointwise : ∀ position ∈ positions, redirect source target position = id position := by
    intro position present
    have different : position ≠ source := fun same =>
      absent (same ▸ present)
    exact redirect_of_ne different target
  rw [map_congr_left pointwise, map_id]

theorem mem_map_redirect (present : source ∈ positions) :
    position ∈ positions.map (redirect source target) ↔
      position = target ∨ (position ∈ positions ∧ position ≠ source) := by
  rw [mem_map]
  constructor
  · rintro ⟨old, inOld, rfl⟩
    by_cases isSource : old = source
    · exact Or.inl (by simp [isSource])
    · rw [redirect_of_ne isSource]
      exact Or.inr ⟨inOld, isSource⟩
  · rintro (rfl | ⟨inOld, notSource⟩)
    · exact ⟨source, present, redirect_source source position⟩
    · exact ⟨position, inOld, redirect_of_ne notSource target⟩

namespace Threaded

variable {next prev next' prev' : ι -> Option ι} {positions : List ι}

theorem nil : Threaded next prev [] where
  nodup := nodup_nil
  next_eq := by simp
  prev_eq := by simp

theorem congr (threaded : Threaded next prev positions)
    (sameNext : ∀ position ∈ positions, next' position = next position)
    (samePrev : ∀ position ∈ positions, prev' position = prev position) :
    Threaded next' prev' positions where
  nodup := threaded.nodup
  next_eq position present :=
    (sameNext position present).trans (threaded.next_eq position present)
  prev_eq position present := (samePrev position present).trans (threaded.prev_eq position present)

variable {position removed source target : ι}

section

variable (threaded : Threaded next prev positions)
include threaded

/-- The links thread the list backwards, too. -/
theorem reverse : Threaded prev next positions.reverse where
  nodup := nodup_reverse.mpr threaded.nodup
  next_eq position present := threaded.prev_eq position (mem_reverse.mp present)
  prev_eq position present := by
    rw [before, reverse_reverse]
    exact threaded.next_eq position (mem_reverse.mp present)

section

variable (present : position ∈ positions)
include present

theorem next_mem (link : next position = some following) : following ∈ positions :=
  mem_of_after ((threaded.next_eq position present).symm.trans link)

theorem prev_mem (link : prev position = some preceding) : preceding ∈ positions :=
  mem_reverse.mp (threaded.reverse.next_mem (mem_reverse.mpr present) link)

theorem next_ne_self : next position ≠ some position := by
  rw [threaded.next_eq position present]
  exact after_ne_self threaded.nodup position

theorem prev_ne_self : prev position ≠ some position :=
  threaded.reverse.next_ne_self (mem_reverse.mpr present)

end

/-- The two links of neighbouring cells agree. -/
theorem next_eq_some_iff (inLeft : left ∈ positions) (inRight : right ∈ positions) :
    next left = some right ↔ prev right = some left := by
  rw [threaded.next_eq left inLeft, threaded.prev_eq right inRight]
  exact after_eq_some_iff_before_eq_some threaded.nodup left right

theorem next_eq_none_iff (present : position ∈ positions) :
    next position = none ↔ positions.getLast? = some position := by
  rw [threaded.next_eq position present]
  exact after_eq_none_iff threaded.nodup present

theorem prev_eq_none_iff (present : position ∈ positions) :
    prev position = none ↔ positions.head? = some position := by
  rw [threaded.reverse.next_eq_none_iff (mem_reverse.mpr present), getLast?_reverse]

theorem push (absent : fresh ∉ positions)
    (freshNext : next' fresh = positions.head?) (freshPrev : prev' fresh = none)
    (otherNext : ∀ position ∈ positions, next' position = next position)
    (otherPrev : ∀ position ∈ positions, prev' position =
        if positions.head? = some position then some fresh else prev position) :
    Threaded next' prev' (fresh :: positions) := by
  have nodup : (fresh :: positions).Nodup := nodup_cons.mpr ⟨absent, threaded.nodup⟩
  refine ⟨nodup, ?_, ?_⟩
  · intro position present
    rcases mem_cons.mp present with isFresh | inOld
    · subst isFresh
      rw [freshNext, after_cons_self]
    · have different : position ≠ fresh := fun same =>
        absent (same ▸ inOld)
      rw [otherNext position inOld, after_cons_of_ne different]
      exact threaded.next_eq position inOld
  · intro position present
    rw [before, reverse_cons]
    rcases mem_cons.mp present with isFresh | inOld
    · subst isFresh
      rw [freshPrev, after_append (by simpa using absent)]
      rfl
    · obtain ⟨front, rest, split, notFront⟩ :=
        eq_append_cons_of_mem (mem_reverse.mpr inOld)
      have isFirst : positions.head? = some position ↔ rest = [] := by
        rw [← threaded.prev_eq_none_iff inOld, threaded.prev_eq position inOld, before, split,
          after_append notFront, head?_eq_none_iff]
      rw [otherPrev position inOld, threaded.prev_eq position inOld, before, split,
        append_assoc, cons_append, after_append notFront, after_append notFront]
      cases rest with
      | nil => simp [isFirst]
      | cons second others => simp [isFirst]

section

variable (present : removed ∈ positions)
include present

section

variable (newNext : ∀ position ∈ positions, position ≠ removed -> next' position =
    if prev removed = some position then next removed else next position)
include newNext

theorem next_remove : ∀ position ∈ positions.erase removed,
      next' position = after (positions.erase removed) position := by
  intro position inErased
  have different : position ≠ removed := by
    rintro rfl
    exact threaded.nodup.not_mem_erase inErased
  have inOld := mem_of_mem_erase inErased
  rw [newNext position inOld different, after_erase threaded.nodup removed different,
    ← threaded.next_eq position inOld, ← threaded.next_eq removed present]
  simp only [threaded.next_eq_some_iff inOld present]

/-- Taking a cell out: its predecessor gets its forward link, its successor the
backward one. -/
theorem remove (newPrev : ∀ position ∈ positions, position ≠ removed -> prev' position =
        if next removed = some position then prev removed else prev position) :
    Threaded next' prev' (positions.erase removed) := by
  refine ⟨threaded.nodup.erase removed, threaded.next_remove present newNext, ?_⟩
  intro position inErased
  rw [before, reverse_erase threaded.nodup]
  refine threaded.reverse.next_remove (mem_reverse.mpr present)
    (fun position inOld => newPrev position (mem_reverse.mp inOld)) position ?_
  rw [← reverse_erase threaded.nodup]
  exact mem_reverse.mpr inErased

end

theorem head?_remove : (positions.erase removed).head? =
      if prev removed = none then next removed else positions.head? := by
  rw [threaded.next_eq removed present]
  have isFirst := threaded.prev_eq_none_iff present
  cases positions with
  | nil => simp at present
  | cons head rest =>
    by_cases removesHead : head = removed
    · subst removesHead
      simp [isFirst]
    · rw [erase_cons_tail (by simpa using removesHead)]
      simp [isFirst, removesHead]

theorem getLast?_remove : (positions.erase removed).getLast? =
      if next removed = none then prev removed else positions.getLast? := by
  rw [← head?_reverse, reverse_erase threaded.nodup,
    threaded.reverse.head?_remove (mem_reverse.mpr present), head?_reverse]

end

theorem next_relocate (present : source ∈ positions) (fresh : target ∉ positions)
    (copiedNext : next' target = next source)
    (newNext : ∀ position ∈ positions, position ≠ source -> next' position =
        if prev source = some position then some target else next position) :
    ∀ position ∈ positions.map (redirect source target),
      next' position = after (positions.map (redirect source target)) position := by
  have injective := redirect_injective source fresh
  have keepLink : ∀ link : Option ι, link ≠ some source ->
      link.map (redirect source target) = link := by
    intro link avoids
    cases link with
    | none => rfl
    | some position =>
      rw [Option.map_some, redirect_of_ne (fun same => avoids (congrArg some same))]
  intro position inRenamed
  obtain ⟨old, inOld, rfl⟩ := mem_map.mp inRenamed
  rw [after_map _ injective inOld, ← threaded.next_eq old inOld]
  by_cases isSource : old = source
  · subst isSource
    rw [redirect_source, copiedNext, keepLink _ (threaded.next_ne_self present)]
  · rw [redirect_of_ne isSource, newNext old inOld isSource]
    have converse := threaded.next_eq_some_iff inOld present
    split_ifs with precedes
    · rw [converse.mpr precedes]
      simp
    · rw [keepLink _ fun follows => precedes (converse.mp follows)]

/-- Moving a cell to a free address: the copy keeps the links, and the
neighbours are redirected. -/
theorem relocate (present : source ∈ positions) (fresh : target ∉ positions)
    (copiedNext : next' target = next source) (copiedPrev : prev' target = prev source)
    (newNext : ∀ position ∈ positions, position ≠ source -> next' position =
        if prev source = some position then some target else next position)
    (newPrev : ∀ position ∈ positions, position ≠ source -> prev' position =
        if next source = some position then some target else prev position) :
    Threaded next' prev' (positions.map (redirect source target)) := by
  refine ⟨List.Nodup.map_on (redirect_injective source fresh) threaded.nodup,
    threaded.next_relocate present fresh copiedNext newNext, ?_⟩
  intro position inRenamed
  rw [before, ← map_reverse]
  refine threaded.reverse.next_relocate (mem_reverse.mpr present) (by simpa using fresh)
    copiedPrev (fun position inOld => newPrev position (mem_reverse.mp inOld)) position ?_
  rw [map_reverse]
  exact mem_reverse.mpr inRenamed

theorem head?_relocate (target : ι) (present : source ∈ positions) :
    (positions.map (redirect source target)).head? =
      if prev source = none then some target else positions.head? := by
  rw [head?_map]
  have isHead := threaded.prev_eq_none_iff present
  split_ifs with atFront
  · rw [isHead.mp atFront]
    simp
  · cases front : positions.head? with
    | none => rfl
    | some head =>
      have different : head ≠ source := by
        rintro rfl
        exact atFront (isHead.mpr front)
      rw [Option.map_some, redirect_of_ne different]

theorem getLast?_relocate (target : ι) (present : source ∈ positions) :
    (positions.map (redirect source target)).getLast? =
      if next source = none then some target else positions.getLast? := by
  rw [← head?_reverse, ← map_reverse,
    threaded.reverse.head?_relocate target (mem_reverse.mpr present), head?_reverse]

end

end Threaded

/-- The link of a cell in the middle of a list. -/
theorem Threaded.next_of_split {next prev}
    (threaded : Threaded next prev (front ++ position :: rest)) : next position = rest.head? := by
  have absent := (nodup_cons.mp (nodup_middle.mp threaded.nodup)).1
  rw [threaded.next_eq position (by simp)]
  exact after_append (fun isIn => absent (mem_append_left _ isIn)) rest

/-- Following forward links from `link` on visits exactly `positions`. -/
def Follows (next : ι -> Option ι) : Option ι -> List ι -> Prop
  | link, [] => link = none
  | link, position :: rest => link = some position ∧ Follows next (next position) rest

omit [DecidableEq ι] in
/-- A walk along the links, from what it answers at the end and at one node. -/
theorem Follows.walk {next} {walk : Nat -> Option ι -> Option β} {answer : List ι -> β}
    (ends : ∀ fuel, walk (fuel + 1) none = some (answer []))
    (steps : ∀ fuel position rest, position ∈ positions ->
      walk fuel (next position) = some (answer rest) ->
      walk (fuel + 1) (some position) = some (answer (position :: rest)))
    (follows : Follows next link positions) (enough : positions.length < fuel) :
    walk fuel link = some (answer positions) := by
  obtain ⟨fuel, rfl⟩ := Nat.exists_eq_succ_of_ne_zero (Nat.ne_zero_of_lt enough)
  induction positions generalizing link fuel with
  | nil =>
    rw [show link = none from follows]
    exact ends fuel
  | cons position rest ih =>
    obtain ⟨rfl, remaining⟩ := follows
    obtain ⟨fuel, rfl⟩ := Nat.exists_eq_succ_of_ne_zero
      (Nat.ne_zero_of_lt (Nat.lt_of_succ_lt_succ enough))
    exact steps _ position rest mem_cons_self
      (ih (fun fuel other rest present => steps fuel other rest (mem_cons_of_mem _ present))
        remaining fuel (Nat.lt_of_succ_lt_succ enough))

/-- Following the links of a threaded list from its head visits the list. -/
theorem Threaded.follows {next prev} (threaded : Threaded next prev positions) :
    Follows next positions.head? positions := by
  have general : ∀ rest front, positions = front ++ rest -> Follows next rest.head? rest := by
    intro rest
    induction rest with
    | nil => exact fun _ _ => rfl
    | cons head rest ih =>
      rintro front rfl
      refine ⟨rfl, ?_⟩
      rw [threaded.next_of_split]
      exact ih (front ++ [head]) (by simp)
  exact general positions [] rfl

end Metaflow.Library.LinkedList
