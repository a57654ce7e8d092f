import Mathlib.Data.List.Perm.Basic
import Mathlib.Order.BoundedOrder.Basic
import Metaflow.Datatype.PolicyData
import Metaflow.Library.BitField

/-!
# Merging actions that share a tunnel

Actions that share a tunnel become one entry, whose payload slice is a fold over
their slices. A slice of 0 means no truncation; the fold forgets it when a later
action has another slice.
-/

namespace Metaflow.Datatype

open Library
open NpbAction

namespace NpbAction

section

variable (a : NpbAction)
include a

theorem payloadSlice_eq : a.payloadSlice = (getField 32 16 a).setWidth 16 := rfl

theorem tapSide_eq : a.tapSide = getField 26 2 a := rfl

theorem tunnelType_eq : a.tunnelType = (getField 30 2 a).setWidth 8 := rfl

theorem tunnelId_eq : a.tunnelId = (getField 0 24 a).setWidth 32 := by
  rw [tunnelId, getField, BitVec.ushiftRight_zero]
  rfl

theorem tunnelGid_eq : a.tunnelGid = (getField 48 16 a).setWidth 16 := by
  refine BitVec.eq_of_getLsbD_eq fun position inside => ?_
  rw [tunnelGid, BitVec.getLsbD_setWidth, BitVec.getLsbD_setWidth,
    getLsbD_getField, BitVec.getLsbD_ushiftRight]
  simp [inside]

theorem setPayloadSlice_eq (payload : BitVec 16) :
    a.setPayloadSlice payload = setField 32 16 a (payload.setWidth 64) := rfl

variable (flag : BitVec 64)

theorem setTapSide_eq :
    a.setTapSide flag = setField 26 2 a (flag &&& lowMask 2) := rfl

theorem addTapSide_eq :
    a.addTapSide flag = addField 26 a (flag &&& lowMask 2) := rfl

end

/-- The two actions have the same tunnel. -/
structure SameTunnel (a b : NpbAction) : Prop where
  tunnelId_eq : a.tunnelId = b.tunnelId
  tunnelType_eq : a.tunnelType = b.tunnelType
  tunnelGid_eq : a.tunnelGid = b.tunnelGid

theorem SameTunnel.refl (a : NpbAction) : SameTunnel a a := ⟨rfl, rfl, rfl⟩

theorem SameTunnel.trans (first : SameTunnel a b) (second : SameTunnel b c) : SameTunnel a c :=
  ⟨first.1.trans second.1, first.2.trans second.2, first.3.trans second.3⟩

theorem SameTunnel.tunnelIpId_eq (same : SameTunnel a b) (tunnelIpIdMap : BitVec 16 -> BitVec 16) :
    a.tunnelIpId tunnelIpIdMap = b.tunnelIpId tunnelIpIdMap := by
  rw [tunnelIpId, tunnelIpId, same.tunnelType_eq, same.tunnelGid_eq]

theorem SameTunnel.of_fields (sameId : getField 0 24 a = getField 0 24 b)
    (sameType : getField 30 2 a = getField 30 2 b) (sameGid : getField 48 16 a = getField 48 16 b) :
    SameTunnel a b where
  tunnelId_eq := by
    rw [NpbAction.tunnelId_eq, sameId, ← NpbAction.tunnelId_eq]
  tunnelType_eq := by
    rw [NpbAction.tunnelType_eq, sameType, ← NpbAction.tunnelType_eq]
  tunnelGid_eq := by
    rw [NpbAction.tunnelGid_eq, sameGid, ← NpbAction.tunnelGid_eq]

section

variable (a : NpbAction) (flag : BitVec 64)

@[simp] theorem payloadSlice_setPayloadSlice (payload : BitVec 16) :
    (a.setPayloadSlice payload).payloadSlice = payload := by
  rw [payloadSlice_eq, setPayloadSlice_eq,
    getField_setField_same (by decide) (fitsField_setWidth (by decide) _),
    BitVec.setWidth_setWidth_of_le _ (by decide), BitVec.setWidth_eq]

@[simp] theorem payloadSlice_setTapSide : (a.setTapSide flag).payloadSlice = a.payloadSlice := by
  rw [payloadSlice_eq, payloadSlice_eq, setTapSide_eq,
    getField_setField_of_separate (fitsField_and_lowMask 2 _) (.inr (by decide))]

@[simp] theorem payloadSlice_addTapSide : (a.addTapSide flag).payloadSlice = a.payloadSlice := by
  rw [payloadSlice_eq, payloadSlice_eq, addTapSide_eq,
    getField_addField_of_separate (fitsField_and_lowMask 2 _) (.inr (by decide))]

end

theorem SameTunnel.of_kept (kept : ∀ otherStart otherLength,
      Separate start length otherStart otherLength ->
        getField otherStart otherLength a = getField otherStart otherLength b)
    (behindId : 24 ≤ start) (besideType : Separate start length 30 2)
    (beforeGid : start + length ≤ 48) : SameTunnel a b :=
  .of_fields (kept 0 24 (.inl (by omega))) (kept 30 2 besideType) (kept 48 16 (.inr beforeGid))

variable (a : NpbAction)

theorem sameTunnel_setPayloadSlice (payload : BitVec 16) :
    SameTunnel (a.setPayloadSlice payload) a := by
  rw [setPayloadSlice_eq]
  exact .of_kept (fun _ _ => getField_setField_of_separate
    (fitsField_setWidth (by decide) payload)) (by decide) (.inl (by decide))
    (by decide)

theorem sameTunnel_setSide (fits : FitsField 2 value) : SameTunnel (setField 26 2 a value) a :=
  .of_kept (fun _ _ => getField_setField_of_separate fits)
    (by decide) (.inr (by decide)) (by decide)

variable (flag : BitVec 64)

theorem sameTunnel_setTapSide : SameTunnel (a.setTapSide flag) a := by
  rw [setTapSide_eq]
  exact sameTunnel_setSide a (fitsField_and_lowMask 2 flag)

theorem sameTunnel_addTapSide : SameTunnel (a.addTapSide flag) a := by
  rw [addTapSide_eq]
  exact .of_kept (fun _ _ => getField_addField_of_separate
    (fitsField_and_lowMask 2 flag)) (by decide) (.inr (by decide)) (by decide)

end NpbAction

theorem NpbActions.addAclGid_spec (a : NpbActions) (aclGids : List (BitVec 16)) :
    (a.addAclGid aclGids).npbAction = a.npbAction ∧
      a.aclGids <+: (a.addAclGid aclGids).aclGids := by
  induction aclGids generalizing a with
  | nil => exact ⟨rfl, List.prefix_rfl⟩
  | cons gid rest ih =>
    rw [addAclGid, List.foldl_cons]
    split_ifs with isIn
    · exact ih a
    · obtain ⟨action_eq, kept⟩ := ih { a with aclGids := a.aclGids ++ [gid] }
      exact ⟨action_eq, (List.prefix_append _ _).trans kept⟩

/-- The entry `after` is `before` with other slices and sides, and perhaps
more groups. -/
structure Follows (before after : NpbActions) : Prop where
  sameTunnel : NpbAction.SameTunnel after.npbAction before.npbAction
  groups : before.aclGids <+: after.aclGids

theorem follows_addAclGid (m : NpbActions) (aclGids : List (BitVec 16)) :
    Follows m (m.addAclGid aclGids) := by
  obtain ⟨action_eq, groups⟩ := m.addAclGid_spec aclGids
  exact ⟨by rw [action_eq]; exact .refl _, groups⟩

/-- Two actions share a tunnel. PCAP actions are kept apart by their group,
the first one. -/
structure Shares (tunnelIpIdMap : BitVec 16 -> BitVec 16) (m n : NpbActions) : Prop where
  tunnelIpId_eq : m.npbAction.tunnelIpId tunnelIpIdMap = n.npbAction.tunnelIpId tunnelIpIdMap
  tunnelId_eq : m.npbAction.tunnelId = n.npbAction.tunnelId
  tunnelType_eq : m.npbAction.tunnelType = n.npbAction.tunnelType
  pcapGroup : n.npbAction.tunnelType = npbTunnelTypePcap ->
    ∃ gid, m.aclGids.head? = some gid ∧ n.aclGids.head? = some gid

section

variable {tunnelIpIdMap : BitVec 16 -> BitVec 16}
variable (direction : Option DirectionType)
variable {m n : NpbActions}

theorem Shares.of_follows (shares : Shares tunnelIpIdMap m n) (follows : Follows m after) :
    Shares tunnelIpIdMap after n where
  tunnelIpId_eq :=
    (follows.sameTunnel.tunnelIpId_eq tunnelIpIdMap).trans shares.tunnelIpId_eq
  tunnelId_eq := follows.sameTunnel.tunnelId_eq.trans shares.tunnelId_eq
  tunnelType_eq := follows.sameTunnel.tunnelType_eq.trans shares.tunnelType_eq
  pcapGroup isPcap := by
    obtain ⟨gid, isFirst, isOther⟩ := shares.pcapGroup isPcap
    obtain ⟨more, groups⟩ := follows.groups
    refine ⟨gid, ?_, isOther⟩
    rw [← groups, List.head?_append, isFirst, Option.some_or]

theorem Shares.sameTunnel_eq (shares : Shares tunnelIpIdMap m n) :
    PolicyData.sameTunnel tunnelIpIdMap m n = some true := by
  unfold PolicyData.sameTunnel
  rw [if_neg (by simp [shares.tunnelIpId_eq, shares.tunnelId_eq, shares.tunnelType_eq])]
  by_cases isPcap : n.npbAction.tunnelType = npbTunnelTypePcap
  · obtain ⟨gid, isFirst, isOther⟩ := shares.pcapGroup isPcap
    rw [if_pos isPcap, isOther, Option.map_some, decide_eq_true (List.mem_of_head? isFirst)]
  · rw [if_neg isPcap]

/-- The slice of an entry after an action with another slice. -/
def stepSlice (slice new : BitVec 16) : BitVec 16 :=
  if new = 0 ∨ new > slice then new else slice

theorem stepSlice_self (slice : BitVec 16) : stepSlice slice slice = slice := by
  unfold stepSlice
  split <;> rfl

/-- The slice that is merged stays when the side is set. -/
theorem mergeEntry_spec (m n : NpbActions) : ∃ action,
      PolicyData.mergeEntry direction m n = { m with npbAction := action }.addAclGid n.aclGids ∧
      SameTunnel action m.npbAction ∧
      action.payloadSlice = stepSlice m.npbAction.payloadSlice n.npbAction.payloadSlice := by
  obtain ⟨sliced, isSliced⟩ : ∃ sliced, sliced =
      if n.npbAction.payloadSlice = 0 ∨ n.npbAction.payloadSlice > m.npbAction.payloadSlice then
        m.npbAction.setPayloadSlice n.npbAction.payloadSlice
      else m.npbAction := ⟨_, rfl⟩
  have sameTunnel : SameTunnel sliced m.npbAction := by
    rw [isSliced]
    split_ifs
    · exact sameTunnel_setPayloadSlice _ _
    · exact .refl _
  have slice_eq : sliced.payloadSlice =
      stepSlice m.npbAction.payloadSlice n.npbAction.payloadSlice := by
    rw [isSliced, stepSlice]
    split_ifs
    · exact payloadSlice_setPayloadSlice _ _
    · rfl
  cases direction with
  | none =>
    refine ⟨sliced.addTapSide n.npbAction.tapSide, by rw [isSliced]; rfl,
      (sameTunnel_addTapSide _ _).trans sameTunnel, ?_⟩
    rw [payloadSlice_addTapSide, slice_eq]
  | some side =>
    refine ⟨sliced.setTapSide (side.setWidth 64), by rw [isSliced]; rfl,
      (sameTunnel_setTapSide _ _).trans sameTunnel, ?_⟩
    rw [payloadSlice_setTapSide, slice_eq]

theorem mergeLoop_of_shares (shares : Shares tunnelIpIdMap m n) :
    ∃ after, PolicyData.mergeLoop tunnelIpIdMap direction n [m] = some ([after], true) ∧
      Follows m after ∧ after.npbAction.payloadSlice =
        stepSlice m.npbAction.payloadSlice n.npbAction.payloadSlice := by
  by_cases same : m.npbAction = n.npbAction
  · refine ⟨m.addAclGid n.aclGids, ?_, follows_addAclGid _ _, ?_⟩
    · rw [PolicyData.mergeLoop, if_pos same]
    · rw [(NpbActions.addAclGid_spec _ _).1, ← same, stepSlice_self]
  · obtain ⟨action, merged, sameTunnel, slice_eq⟩ := mergeEntry_spec direction m n
    obtain ⟨action_eq, groups⟩ := NpbActions.addAclGid_spec { m with npbAction := action } n.aclGids
    refine ⟨_, ?_, ⟨by rw [action_eq]; exact sameTunnel, groups⟩, by rw [action_eq]; exact slice_eq⟩
    rw [PolicyData.mergeLoop, if_neg same, shares.sameTunnel_eq, ← merged]
    rfl

theorem mergeLoop_append (apart : ∀ m ∈ others, m.npbAction ≠ n.npbAction ∧
      PolicyData.sameTunnel tunnelIpIdMap m n = some false)
    (looped : PolicyData.mergeLoop tunnelIpIdMap direction n entries = some (after, repeated)) :
    PolicyData.mergeLoop tunnelIpIdMap direction n (others ++ entries) =
      some (others ++ after, repeated) := by
  induction others with
  | nil => exact looped
  | cons m others ih =>
    obtain ⟨differs, other⟩ := apart m List.mem_cons_self
    have rest := ih fun m isIn =>
      apart m (List.mem_cons_of_mem _ isIn)
    rw [List.cons_append, PolicyData.mergeLoop, if_neg differs, other, rest]
    rfl

/-- The entry of another tunnel is passed for this action. -/
def Apart (tunnelIpIdMap : BitVec 16 -> BitVec 16) (m n : NpbActions) : Prop :=
  m.npbAction ≠ n.npbAction ∧ PolicyData.sameTunnel tunnelIpIdMap m n = some false

instance (m n : NpbActions) : Decidable (Apart tunnelIpIdMap m n) :=
  inferInstanceAs (Decidable (_ ∧ _))

variable {d : PolicyData}

theorem mergeAction_of_shares (entries : d.npbActions = others ++ [entry])
    (apart : ∀ m ∈ others, Apart tunnelIpIdMap m n) (shares : Shares tunnelIpIdMap entry n) :
    ∃ after, PolicyData.mergeAction tunnelIpIdMap direction d n =
        some { d with npbActions := others ++ [after] } ∧
      Follows entry after ∧
      after.npbAction.payloadSlice =
        stepSlice entry.npbAction.payloadSlice n.npbAction.payloadSlice := by
  obtain ⟨after, looped, follows, slice_eq⟩ := mergeLoop_of_shares direction shares
  refine ⟨after, ?_, follows, slice_eq⟩
  rw [PolicyData.mergeAction, entries, mergeLoop_append direction apart looped]

theorem mergeAction_of_apart (apart : ∀ m ∈ d.npbActions, Apart tunnelIpIdMap m n) :
    ∃ next after, PolicyData.mergeAction tunnelIpIdMap direction d n = some next ∧
      next.npbActions = d.npbActions ++ [after] ∧ Follows n after ∧
      after.npbAction.payloadSlice = n.npbAction.payloadSlice := by
  have looped := mergeLoop_append direction apart
    (show PolicyData.mergeLoop tunnelIpIdMap direction n [] = some ([], false) from rfl)
  rw [List.append_nil] at looped
  rw [PolicyData.mergeAction, looped]
  cases direction with
  | none => exact ⟨_, n, rfl, rfl, ⟨.refl _, List.prefix_rfl⟩, rfl⟩
  | some side =>
    exact ⟨_, _, rfl, rfl, ⟨sameTunnel_setTapSide _ _, List.prefix_rfl⟩,
      payloadSlice_setTapSide _ _⟩

/-- The payload slices of some actions. -/
def slices (actions : List NpbActions) : List (BitVec 16) :=
  actions.map fun n => n.npbAction.payloadSlice

theorem foldlM_mergeAction (entries : d.npbActions = others ++ [entry])
    (apart : ∀ n ∈ actions, ∀ m ∈ others, Apart tunnelIpIdMap m n)
    (shares : ∀ n ∈ actions, Shares tunnelIpIdMap entry n) : ∃ merged after,
      actions.foldlM (PolicyData.mergeAction tunnelIpIdMap direction) d = some merged ∧
      merged.npbActions = others ++ [after] ∧ after.npbAction.payloadSlice =
        (slices actions).foldl stepSlice entry.npbAction.payloadSlice := by
  induction actions generalizing d entry with
  | nil => exact ⟨d, entry, rfl, entries, rfl⟩
  | cons n actions ih =>
    obtain ⟨after, merged, follows, slice_eq⟩ :=
      mergeAction_of_shares direction entries (apart n List.mem_cons_self)
        (shares n List.mem_cons_self)
    obtain ⟨final, last, folded, last_eq, lastSlice_eq⟩ :=
      @ih { d with npbActions := others ++ [after] } after
        rfl (fun n isIn => apart n (List.mem_cons_of_mem _ isIn))
        fun n isIn =>
          (shares n (List.mem_cons_of_mem _ isIn)).of_follows follows
    refine ⟨final, last, ?_, last_eq, ?_⟩
    · rw [List.foldlM_cons, merged]
      exact folded
    · rw [lastSlice_eq, slice_eq]
      rfl

theorem zero_lt_of_ne_zero {slice : BitVec 16} (notZero : slice ≠ 0) : 0 < slice :=
  Nat.pos_of_ne_zero fun zero => notZero (BitVec.eq_of_toNat_eq zero)

theorem stepSlice_eq_zero_iff (slice new : BitVec 16) : stepSlice slice new = 0 ↔ new = 0 := by
  unfold stepSlice
  split_ifs with changes
  · rfl
  · simp only [not_or] at changes
    refine iff_of_false ?_ changes.1
    rintro rfl
    exact changes.2 (zero_lt_of_ne_zero changes.1)

theorem stepSlice_zero (slice : BitVec 16) : stepSlice 0 slice = slice := by
  unfold stepSlice
  split_ifs with changes
  · rfl
  · simp only [not_or] at changes
    exact absurd (zero_lt_of_ne_zero changes.1) changes.2

/-- The entry of the actions of a tunnel has the slice of a fold over their
slices. -/
theorem mergeNpbAction_of_shares (aclID : BitVec 32) (nonempty : actions ≠ [])
    (apart : ∀ n ∈ actions, ∀ m ∈ d.npbActions, Apart tunnelIpIdMap m n)
    (shares : ∀ m ∈ actions, ∀ n ∈ actions, Shares tunnelIpIdMap m n) :
    ∃ merged entry, d.mergeNpbAction tunnelIpIdMap direction actions aclID = some merged ∧
      merged.npbActions = d.npbActions ++ [entry] ∧
      entry.npbAction.payloadSlice = (slices actions).foldl stepSlice 0 := by
  obtain ⟨first, rest, rfl⟩ := List.exists_cons_of_ne_nil nonempty
  obtain ⟨next, entry, added, entries, follows, slice_eq⟩ :=
    @mergeAction_of_apart tunnelIpIdMap direction first
      { d with aclId := if d.aclId = 0 then aclID else d.aclId }
      (apart first List.mem_cons_self)
  obtain ⟨merged, last, folded, last_eq, lastSlice_eq⟩ :=
    foldlM_mergeAction direction entries (fun n isIn => apart n (List.mem_cons_of_mem _ isIn))
      fun n isIn => (shares first List.mem_cons_self n
        (List.mem_cons_of_mem _ isIn)).of_follows follows
  refine ⟨merged, last, ?_, last_eq, ?_⟩
  · rw [PolicyData.mergeNpbAction, List.foldlM_cons, added]
    exact folded
  · have slices_eq : slices (first :: rest) = first.npbAction.payloadSlice :: slices rest := rfl
    rw [lastSlice_eq, slice_eq, slices_eq, List.foldl_cons, stepSlice_zero]

end

attribute [local instance] NpbActions.decidableMemGids

/-- No truncation if some slice is 0, else the largest slice. -/
def intendedSlice (slices : List (BitVec 16)) : Nat :=
  if 0 ∈ slices then 0 else (slices.map BitVec.toNat).foldl max 0

theorem toNat_stepSlice (notZero : new ≠ 0) (slice : BitVec 16) :
    (stepSlice slice new).toNat = max slice.toNat new.toNat := by
  unfold stepSlice
  by_cases larger : new > slice
  · rw [if_pos (.inr larger), Nat.max_eq_right (Nat.le_of_lt larger)]
  · rw [if_neg (not_or.mpr ⟨notZero, larger⟩), Nat.max_eq_left (Nat.le_of_not_lt larger)]

section

variable {slices : List (BitVec 16)}

theorem toNat_foldl_stepSlice (notZero : 0 ∉ slices) (slice : BitVec 16) :
    (slices.foldl stepSlice slice).toNat = (slices.map BitVec.toNat).foldl max slice.toNat := by
  induction slices generalizing slice with
  | nil => rfl
  | cons new slices ih =>
    obtain ⟨notNew, notRest⟩ := not_or.mp (List.mem_cons.not.mp notZero)
    rw [List.foldl_cons, ih notRest,
      toNat_stepSlice (Ne.symm notNew), List.map_cons, List.foldl_cons]

theorem foldl_stepSlice_append_eq_zero_iff (slices : List (BitVec 16)) (last slice : BitVec 16) :
    (slices ++ [last]).foldl stepSlice slice = 0 ↔ last = 0 := by
  rw [List.foldl_append]
  exact stepSlice_eq_zero_iff _ _

theorem foldl_stepSlice_of_all_zero
    (allZero : ∀ slice ∈ slices, slice = 0) : slices.foldl stepSlice 0 = 0 := by
  induction slices with
  | nil => rfl
  | cons slice slices ih =>
    rw [List.foldl_cons, allZero slice List.mem_cons_self, stepSlice_self]
    exact ih fun other isIn =>
      allZero other (List.mem_cons_of_mem _ isIn)

theorem intendedSlice_of_perm (perm : slices.Perm other) :
    intendedSlice slices = intendedSlice other := by
  unfold intendedSlice
  rw [(perm.map BitVec.toNat).foldl_eq' fun _ _ _ _ _ => Nat.max_right_comm ..]
  simp only [perm.mem_iff]

/-- The fold over slices that are all 0, or none of them. -/
theorem foldl_stepSlice_eq_intended (pure : 0 ∉ slices ∨ ∀ slice ∈ slices, slice = 0) :
    (slices.foldl stepSlice 0).toNat = intendedSlice slices := by
  unfold intendedSlice
  split_ifs with hasZero
  · rw [foldl_stepSlice_of_all_zero (pure.resolve_left (not_not_intro hasZero))]
    rfl
  · rw [toNat_foldl_stepSlice hasZero]
    rfl

end

/-- Merging gives the slice that is meant in every order exactly if no action
asks for no truncation, or all do. -/
theorem payloadSlice_mergeNpbAction_iff {tunnelIpIdMap : BitVec 16 -> BitVec 16}
    (direction : Option DirectionType) {d : PolicyData} (aclID : BitVec 32)
    {actions : List NpbActions} (nonempty : actions ≠ [])
    (apart : ∀ n ∈ actions, ∀ m ∈ d.npbActions, Apart tunnelIpIdMap m n)
    (shares : ∀ m ∈ actions, ∀ n ∈ actions, Shares tunnelIpIdMap m n) :
    (∀ order, List.Perm order actions -> ∃ merged entry,
      d.mergeNpbAction tunnelIpIdMap direction order aclID = some merged ∧
      merged.npbActions = d.npbActions ++ [entry] ∧
      entry.npbAction.payloadSlice.toNat = intendedSlice (slices actions)) ↔
    0 ∉ slices actions ∨ ∀ slice ∈ slices actions, slice = 0 := by
  have results : ∀ order, List.Perm order actions -> ∃ merged entry,
      d.mergeNpbAction tunnelIpIdMap direction order aclID = some merged ∧
      merged.npbActions = d.npbActions ++ [entry] ∧
      entry.npbAction.payloadSlice = (slices order).foldl stepSlice 0 := by
    intro order perm
    refine mergeNpbAction_of_shares direction aclID ?_ ?_ ?_
    · rintro rfl
      exact nonempty perm.nil_eq.symm
    · exact fun n isIn => apart n (perm.mem_iff.mp isIn)
    · exact fun m isFirst n isSecond =>
        shares m (perm.mem_iff.mp isFirst) n (perm.mem_iff.mp isSecond)
  constructor
  · intro independent
    by_contra mixed
    simp only [not_or, not_not, not_forall] at mixed
    obtain ⟨hasZero, slice, isSlice, notZero⟩ := mixed
    obtain ⟨n, isIn, rfl⟩ := List.mem_map.mp isSlice
    have perm : List.Perm (actions.erase n ++ [n]) actions :=
      (List.perm_append_singleton _ _).trans (List.perm_cons_erase isIn).symm
    obtain ⟨merged, entry, isMerged, entries, intended⟩ := independent _ perm
    obtain ⟨other, otherEntry, isOther, otherEntries, slice_eq⟩ := results _ perm
    obtain rfl := Option.some.inj (isMerged.symm.trans isOther)
    obtain rfl : entry = otherEntry := by
      simpa using List.append_cancel_left (entries.symm.trans otherEntries)
    rw [intendedSlice, if_pos hasZero, slice_eq] at intended
    rw [slices, List.map_append] at intended
    exact notZero ((foldl_stepSlice_append_eq_zero_iff _ _ _).mp (BitVec.eq_of_toNat_eq intended))
  · intro pure order perm
    obtain ⟨merged, entry, isMerged, entries, slice_eq⟩ := results order perm
    have permSlices : List.Perm (slices order) (slices actions) := perm.map _
    refine ⟨merged, entry, isMerged, entries, ?_⟩
    rw [slice_eq, ← intendedSlice_of_perm permSlices]
    apply foldl_stepSlice_eq_intended
    simpa only [permSlices.mem_iff] using pure

/-- An action of the tunnel 1 with a payload slice. -/
def slicedAction (slice : BitVec 16) : NpbActions :=
  ⟨NpbAction.setPayloadSlice 1 slice, [1]⟩

theorem shares_slicedAction (tunnelIpIdMap : BitVec 16 -> BitVec 16) (slice other : BitVec 16) :
    Shares tunnelIpIdMap (slicedAction slice) (slicedAction other) := by
  have first := sameTunnel_setPayloadSlice 1 slice
  have second := sameTunnel_setPayloadSlice 1 other
  exact ⟨(first.tunnelIpId_eq _).trans (second.tunnelIpId_eq _).symm,
    first.tunnelId_eq.trans second.tunnelId_eq.symm,
    first.tunnelType_eq.trans second.tunnelType_eq.symm,
    fun _ => ⟨1, rfl, rfl⟩⟩

/-- Two truncating actions. -/
theorem payloadSlice_mergeNpbAction_truncating :
    ∃ merged entry,
      PolicyData.new.mergeNpbAction (fun gid => gid) none
        [slicedAction 128, slicedAction 64] 7 = some merged ∧
      merged.npbActions = [entry] ∧
      entry.npbAction.payloadSlice.toNat = 128 := by
  have shares : ∀ m ∈ [slicedAction 64, slicedAction 128],
      ∀ n ∈ [slicedAction 64, slicedAction 128], Shares (fun gid => gid) m n := by
    intro m isFirst n isSecond
    simp only [List.mem_cons, List.not_mem_nil, or_false] at isFirst isSecond
    rcases isFirst with rfl | rfl <;> rcases isSecond with rfl | rfl <;>
      exact shares_slicedAction _ _ _
  exact (payloadSlice_mergeNpbAction_iff none 7 (by simp)
    (by simp [PolicyData.new]) shares).mpr (.inl (by decide)) _
      (List.Perm.swap (slicedAction 64) (slicedAction 128) [])

/-- An action that asks for no truncation, then one that truncates: the entry
truncates. -/
theorem payloadSlice_mergeNpbAction_forgets :
    (PolicyData.new.mergeNpbAction (fun gid => gid) none
      [slicedAction 0, slicedAction 64] 7).map PolicyData.npbActions = some [slicedAction 64] ∧
    (PolicyData.new.mergeNpbAction (fun gid => gid) none
      [slicedAction 64, slicedAction 0] 7).map PolicyData.npbActions = some [slicedAction 0] := by
  decide

end Metaflow.Datatype
