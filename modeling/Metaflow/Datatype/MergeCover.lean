import Metaflow.Datatype.TunnelMerge

/-!
# What merging keeps

An entry keeps its tunnel and its groups, and its sides unless a direction is
given. So every merged action is covered, and one is appended only if no entry
has its tunnel, PCAP actions apart.
-/

namespace Metaflow.Datatype

open Library List
open NpbAction
open PolicyData

namespace NpbAction

variable (a : NpbAction)

theorem tapSide_and_mask : a.tapSide &&& tapSideMask = a.tapSide := by
  rw [tapSide, BitVec.and_assoc, BitVec.and_self]

variable (flag : BitVec 64)

theorem tapSide_addTapSide :
    (a.addTapSide flag).tapSide = (a.tapSide ||| flag) &&& tapSideMask := by
  have sides := congrArg tapSide (addTapSide_setTapSide a a.tapSide flag)
  rwa [setTapSide_tapSide, tapSide_setTapSide] at sides

theorem tapSide_setPayloadSlice (payload : BitVec 16) :
    (a.setPayloadSlice payload).tapSide = a.tapSide := by
  rw [tapSide_eq, tapSide_eq, setPayloadSlice_eq]
  exact getField_setField_of_separate (fitsField_setWidth (by decide) payload) (.inl (by decide))

theorem tapSideCompare_refl : a.tapSideCompare a.tapSide := by
  simp [tapSideCompare]

/-- A masked side is contained in its union with another one. -/
theorem and_of_or_left (masked : side &&& tapSideMask = side) :
    (side ||| more) &&& tapSideMask &&& side = side := by
  rw [BitVec.and_assoc, BitVec.and_comm tapSideMask side, masked, BitVec.and_comm]
  refine BitVec.eq_of_getLsbD_eq fun position _ => ?_
  rw [BitVec.getLsbD_and, BitVec.getLsbD_or]
  cases side.getLsbD position <;> simp

theorem tapSideCompare_addTapSide_self :
    (a.addTapSide flag).tapSideCompare a.tapSide := by
  rw [tapSideCompare, tapSide_addTapSide, and_of_or_left a.tapSide_and_mask]
  exact decide_eq_true rfl

theorem tapSideCompare_addTapSide (a b : NpbAction) :
    (a.addTapSide b.tapSide).tapSideCompare b.tapSide := by
  rw [tapSideCompare, tapSide_addTapSide, BitVec.or_comm, and_of_or_left b.tapSide_and_mask]
  exact decide_eq_true rfl

end NpbAction

variable (tunnelIpIdMap : BitVec 16 -> BitVec 16)
variable (direction : Option DirectionType)

/-- The actions have the same tunnel ip id, tunnel id and tunnel type. -/
def SharesTunnel (m n : NpbActions) : Prop :=
  m.npbAction.tunnelIpId tunnelIpIdMap = n.npbAction.tunnelIpId tunnelIpIdMap ∧
    m.npbAction.tunnelId = n.npbAction.tunnelId ∧
    m.npbAction.tunnelType = n.npbAction.tunnelType

/-- What an entry is after an action. -/
structure Grows (before after : NpbActions) : Prop where
  sameTunnel : NpbAction.SameTunnel after.npbAction before.npbAction
  groups : ∀ gid ∈ before.aclGids, gid ∈ after.aclGids
  sides : direction = none -> after.npbAction.tapSideCompare before.npbAction.tapSide
  settled : ∀ side, direction = some side ->
    before.npbAction.tapSide = side.setWidth 64 &&& tapSideMask ->
    after.npbAction.tapSide = side.setWidth 64 &&& tapSideMask

/-- An entry that stands for an action. -/
structure Covers (n m : NpbActions) : Prop where
  shares : SharesTunnel tunnelIpIdMap m n
  groups : ∀ gid ∈ n.aclGids, gid ∈ m.aclGids
  sides : direction = none -> m.npbAction.tapSideCompare n.npbAction.tapSide

variable {tunnelIpIdMap direction}

variable {m n : NpbActions} {entries : List NpbActions}

theorem sharesTunnel_of_sameTunnel (same : SameTunnel m.npbAction n.npbAction) :
    SharesTunnel tunnelIpIdMap m n :=
  ⟨same.tunnelIpId_eq tunnelIpIdMap, same.tunnelId_eq, same.tunnelType_eq⟩

theorem SharesTunnel.trans (front : SharesTunnel tunnelIpIdMap first second)
    (back : SharesTunnel tunnelIpIdMap second third) : SharesTunnel tunnelIpIdMap first third :=
  ⟨front.1.trans back.1, front.2.1.trans back.2.1, front.2.2.trans back.2.2⟩

theorem SharesTunnel.symm (shares : SharesTunnel tunnelIpIdMap m n) :
    SharesTunnel tunnelIpIdMap n m :=
  ⟨shares.1.symm, shares.2.1.symm, shares.2.2.symm⟩

theorem tapSideCompare_trans {a b c : NpbAction} (front : b.tapSideCompare a.tapSide)
    (back : c.tapSideCompare b.tapSide) : c.tapSideCompare a.tapSide := by
  simp only [tapSideCompare, decide_eq_true_eq] at *
  calc c.tapSide &&& a.tapSide = c.tapSide &&& (b.tapSide &&& a.tapSide) := by rw [front]
    _ = c.tapSide &&& b.tapSide &&& a.tapSide := (BitVec.and_assoc ..).symm
    _ = a.tapSide := by rw [back, front]

theorem Grows.refl (m : NpbActions) : Grows direction m m :=
  ⟨.refl _, fun _ mem => mem, fun _ => tapSideCompare_refl _, fun _ _ settled => settled⟩

theorem mem_aclGids_addAclGid :
    gid ∈ (m.addAclGid gids).aclGids ↔ gid ∈ m.aclGids ∨ gid ∈ gids := by
  rw [addAclGid_eq]
  exact mem_addGids_iff _ _ _

section

variable (m : NpbActions) (gids : List (BitVec 16))

theorem npbAction_addAclGid : (m.addAclGid gids).npbAction = m.npbAction := by
  rw [addAclGid_eq]

theorem grows_addAclGid : Grows direction m (m.addAclGid gids) where
  sameTunnel := by
    rw [npbAction_addAclGid]
    exact .refl _
  groups gid mem := mem_aclGids_addAclGid.mpr (.inl mem)
  sides _ := by
    rw [npbAction_addAclGid]
    exact tapSideCompare_refl _
  settled side _ settled := by
    rwa [npbAction_addAclGid]

end

theorem grows_mergeEntry (m n : NpbActions) : Grows direction m (mergeEntry direction m n) where
  sameTunnel := sameTunnel_mergeEntry direction m n
  groups gid mem := by
    rw [aclGids_mergeEntry]
    exact (mem_addGids_iff _ _ _).mpr (.inl mem)
  sides noDirection := by
    subst noDirection
    rw [mergeEntry_none]
    have sides := tapSideCompare_addTapSide_self (blend m n).npbAction n.npbAction.tapSide
    rwa [blend, tapSide_setPayloadSlice] at sides
  settled side isSide _ := by
    subst isSide
    rw [mergeEntry_some]
    exact tapSide_setTapSide _ _

theorem covers_mergeEntry (shares : SharesTunnel tunnelIpIdMap m n) :
    Covers tunnelIpIdMap direction n (mergeEntry direction m n) where
  shares := (sharesTunnel_of_sameTunnel (sameTunnel_mergeEntry direction m n)).trans shares
  groups gid mem := by
    rw [aclGids_mergeEntry]
    exact (mem_addGids_iff _ _ _).mpr (.inr mem)
  sides noDirection := by
    subst noDirection
    rw [mergeEntry_none]
    exact tapSideCompare_addTapSide _ _

theorem sharesTunnel_of_sameTunnel_eq (same : sameTunnel tunnelIpIdMap m n = some true) :
    SharesTunnel tunnelIpIdMap m n := by
  unfold sameTunnel at same
  split_ifs at same with different isPcap
  · cases same
  all_goals
    rw [not_or, not_or, not_not, not_not, not_not] at different
    exact different

theorem not_sharesTunnel_of_sameTunnel_eq (notSame : sameTunnel tunnelIpIdMap m n = some false)
    (notPcap : n.npbAction.tunnelType ≠ npbTunnelTypePcap) : ¬ SharesTunnel tunnelIpIdMap m n := by
  rintro ⟨sameIpId, sameId, sameType⟩
  simp [sameTunnel, sameIpId, sameId, sameType, notPcap] at notSame

/-- The entries after the loop, and what its flag says. -/
structure Loops (tunnelIpIdMap : BitVec 16 -> BitVec 16) (direction : Option DirectionType)
    (n : NpbActions) (entries after : List NpbActions) (repeated : Bool) : Prop where
  grow : List.Forall₂ (Grows direction) entries after
  covered : repeated = true -> ∃ m ∈ after, Covers tunnelIpIdMap direction n m
  fresh : repeated = false -> n.npbAction.tunnelType ≠ npbTunnelTypePcap ->
    ∀ m ∈ entries, ¬ SharesTunnel tunnelIpIdMap m n

variable {after : List NpbActions}

theorem loops_mergeLoop
    (looped : mergeLoop tunnelIpIdMap direction n entries = some (after, repeated)) :
    Loops tunnelIpIdMap direction n entries after repeated := by
  induction entries generalizing after repeated with
  | nil =>
    cases looped
    exact ⟨.nil, fun isTrue => (by cases isTrue), fun _ _ _ mem => (by cases mem)⟩
  | cons m rest ih =>
    rw [mergeLoop] at looped
    split_ifs at looped with equal
    · cases looped
      refine ⟨.cons (grows_addAclGid m n.aclGids) (forall₂_same.mpr fun other _ => .refl other),
        fun _ => ⟨_, mem_cons_self, ?_⟩, fun isFalse => (by cases isFalse)⟩
      refine ⟨?_, fun gid mem => mem_aclGids_addAclGid.mpr (.inr mem), fun _ => ?_⟩
      · rw [SharesTunnel, npbAction_addAclGid, equal]
        exact ⟨rfl, rfl, rfl⟩
      · rw [npbAction_addAclGid, equal]
        exact tapSideCompare_refl _
    · split at looped
      · rename_i rest' isRepeated same isRest
        cases looped
        have loops := ih isRest
        have covers := @covers_mergeEntry _ direction _ _ (sharesTunnel_of_sameTunnel_eq same)
        exact ⟨.cons (grows_mergeEntry m n) loops.grow, fun _ => ⟨_, mem_cons_self, covers⟩,
          fun isFalse => (by cases isFalse)⟩
      · rename_i rest' isRepeated notSame isRest
        cases looped
        have loops := ih isRest
        refine ⟨.cons (.refl m) loops.grow, fun isTrue => ?_, fun isFalse notPcap other mem => ?_⟩
        · obtain ⟨other, mem, covers⟩ := loops.covered isTrue
          exact ⟨other, mem_cons_of_mem _ mem, covers⟩
        · rcases mem_cons.mp mem with rfl | mem
          · exact not_sharesTunnel_of_sameTunnel_eq notSame notPcap
          · exact loops.fresh isFalse notPcap other mem
      · cases looped

/-- No two entries that are not PCAP entries have the same tunnel. -/
def Unshared (tunnelIpIdMap : BitVec 16 -> BitVec 16) (entries : List NpbActions) : Prop :=
  entries.Pairwise fun m other =>
    m.npbAction.tunnelType ≠ npbTunnelTypePcap -> ¬ SharesTunnel tunnelIpIdMap m other

theorem exists_of_mem_after (grow : List.Forall₂ grows entries after) (mem : m' ∈ after) :
    ∃ m ∈ entries, grows m m' := by
  induction grow with
  | nil => cases mem
  | cons isGrown _ ih =>
    rcases mem_cons.mp mem with rfl | mem
    · exact ⟨_, mem_cons_self, isGrown⟩
    · obtain ⟨m, before, isGrown⟩ := ih mem
      exact ⟨m, mem_cons_of_mem _ before, isGrown⟩

theorem exists_of_mem_before (grow : List.Forall₂ grows entries after) (mem : m ∈ entries) :
    ∃ m' ∈ after, grows m m' :=
  exists_of_mem_after grow.flip mem

theorem Unshared.grow (unshared : Unshared tunnelIpIdMap entries)
    (grow : List.Forall₂ (Grows direction) entries after) : Unshared tunnelIpIdMap after := by
  induction grow with
  | nil => exact .nil
  | cons grows rest ih =>
    obtain ⟨head, tail⟩ := pairwise_cons.mp unshared
    refine pairwise_cons.mpr ⟨?_, ih tail⟩
    intro other' mem notPcap shares
    obtain ⟨other, otherMem, otherGrows⟩ := exists_of_mem_after rest mem
    refine head other otherMem
      (fun isPcap => notPcap (grows.sameTunnel.tunnelType_eq.trans isPcap)) ?_
    exact ((sharesTunnel_of_sameTunnel grows.sameTunnel).symm.trans
      shares).trans (sharesTunnel_of_sameTunnel otherGrows.sameTunnel)

/-- An action with the direction of the call that merged it. -/
abbrev MergeStep := Option DirectionType × NpbActions

/-- What a policy is after the given actions. -/
structure Represents (tunnelIpIdMap : BitVec 16 -> BitVec 16) (seen : List MergeStep)
    (entries : List NpbActions) : Prop where
  unshared : Unshared tunnelIpIdMap entries
  covered : ∀ step ∈ seen, ∃ m ∈ entries,
    SharesTunnel tunnelIpIdMap m step.2 ∧ (∀ gid ∈ step.2.aclGids, gid ∈ m.aclGids) ∧
      ((∀ other ∈ seen, other.1 = none) -> m.npbAction.tapSideCompare step.2.npbAction.tapSide)
  settled : ∀ side : DirectionType, (∀ step ∈ seen, step.1 = some side) ->
    ∀ m ∈ entries, m.npbAction.tapSide = side.setWidth 64 &&& tapSideMask

/-- The entries have grown and one of them covers the new action. -/
theorem Represents.grow (represents : Represents tunnelIpIdMap seen entries)
    (unshared : Unshared tunnelIpIdMap after)
    (grow : ∀ m ∈ entries, ∃ m' ∈ after, Grows direction m m')
    (covered : ∃ m ∈ after, Covers tunnelIpIdMap direction n m)
    (settled : ∀ side, direction = some side ->
      (∀ m ∈ entries, m.npbAction.tapSide = side.setWidth 64 &&& tapSideMask) ->
      ∀ m ∈ after, m.npbAction.tapSide = side.setWidth 64 &&& tapSideMask) :
    Represents tunnelIpIdMap (seen ++ [(direction, n)]) after where
  unshared := unshared
  covered step mem := by
    rcases mem_append.mp mem with mem | mem
    · obtain ⟨m, isEntry, shares, groups, sides⟩ := represents.covered step mem
      obtain ⟨m', isAfter, grows⟩ := grow m isEntry
      refine ⟨m', isAfter, (sharesTunnel_of_sameTunnel grows.sameTunnel).trans shares,
        fun gid inGroups => grows.groups gid (groups gid inGroups),
        fun noDirections => ?_⟩
      exact tapSideCompare_trans (sides fun other inSeen => noDirections other (by simp [inSeen]))
        (grows.sides (noDirections (direction, n) (by simp)))
    · obtain rfl := mem_singleton.mp mem
      obtain ⟨m, isAfter, covers⟩ := covered
      exact ⟨m, isAfter, covers.shares, covers.groups, fun noDirections =>
        covers.sides (noDirections (direction, n) (by simp))⟩
  settled side allSide :=
    settled side (allSide (direction, n) (by simp))
      (represents.settled side fun step mem => allSide step (by simp [mem]))

theorem covers_absorb_none (n : NpbActions) :
    Covers tunnelIpIdMap direction n (absorb direction none n) where
  shares := sharesTunnel_of_sameTunnel (by
    cases direction with
    | none => exact .refl _
    | some side => exact sameTunnel_setTapSide _ _)
  groups gid mem := by rwa [aclGids_absorb_none]
  sides noDirection := by
    subst noDirection
    exact tapSideCompare_refl _

theorem Unshared.append (unshared : Unshared tunnelIpIdMap entries)
    (fresh : n.npbAction.tunnelType ≠ npbTunnelTypePcap ->
      ∀ m ∈ entries, ¬ SharesTunnel tunnelIpIdMap m n)
    (shares : SharesTunnel tunnelIpIdMap entry n) :
    Unshared tunnelIpIdMap (entries ++ [entry]) := by
  refine pairwise_append.mpr ⟨unshared, pairwise_singleton _ _, fun m mem other isEntry => ?_⟩
  obtain rfl := mem_singleton.mp isEntry
  intro notPcap sharesOther
  have sharesNew := sharesOther.trans shares
  exact fresh (sharesNew.2.2 ▸ notPcap) m mem sharesNew

theorem not_sharesTunnel_after (loops : Loops tunnelIpIdMap direction n entries after false)
    (notPcap : n.npbAction.tunnelType ≠ npbTunnelTypePcap) :
    ∀ m ∈ after, ¬ SharesTunnel tunnelIpIdMap m n := by
  intro m' mem shares
  obtain ⟨m, isEntry, grows⟩ := exists_of_mem_after loops.grow mem
  exact loops.fresh rfl notPcap m isEntry
    ((sharesTunnel_of_sameTunnel grows.sameTunnel).symm.trans shares)

theorem settled_of_grow (grow : List.Forall₂ (Grows direction) entries after)
    (isSide : direction = some side)
    (settled : ∀ m ∈ entries, m.npbAction.tapSide = side.setWidth 64 &&& tapSideMask) :
    ∀ m ∈ after, m.npbAction.tapSide = side.setWidth 64 &&& tapSideMask := by
  intro m' mem
  obtain ⟨m, isEntry, grows⟩ := exists_of_mem_after grow mem
  exact grows.settled side isSide (settled m isEntry)

theorem represents_mergeAction {d after : PolicyData}
    (represents : Represents tunnelIpIdMap seen d.npbActions)
    (merged : mergeAction tunnelIpIdMap direction d n = some after) :
    Represents tunnelIpIdMap (seen ++ [(direction, n)]) after.npbActions := by
  unfold mergeAction at merged
  split at merged
  · cases merged
  · rename_i entries looped
    cases merged
    have loops := loops_mergeLoop looped
    exact represents.grow (represents.unshared.grow loops.grow)
      (fun m mem => exists_of_mem_before loops.grow mem) (loops.covered rfl)
      fun side => settled_of_grow loops.grow
  · rename_i entries looped
    cases merged
    have loops := loops_mergeLoop looped
    have covers := @covers_absorb_none tunnelIpIdMap direction n
    rw [appendAction_eq]
    refine represents.grow
      ((represents.unshared.grow loops.grow).append (not_sharesTunnel_after loops) covers.shares)
      (fun m mem => ?_) ⟨_, mem_append_right _ (by simp), covers⟩
      (fun side isSide settled m mem => ?_)
    · obtain ⟨m', isAfter, grows⟩ := exists_of_mem_before loops.grow mem
      exact ⟨m', mem_append_left _ isAfter, grows⟩
    · rcases mem_append.mp mem with mem | mem
      · exact settled_of_grow loops.grow isSide settled m mem
      · obtain rfl := mem_singleton.mp mem
        subst isSide
        exact tapSide_setTapSide _ _

/-- The arguments of a call of `MergeNpbAction`. -/
structure MergeCall where
  actions : List NpbActions
  aclID : BitVec 32
  directions : Option DirectionType

/-- The actions of a call, each with its direction. -/
def MergeCall.steps (call : MergeCall) : List MergeStep :=
  call.actions.map fun n => (call.directions, n)

def mergeCalls (tunnelIpIdMap : BitVec 16 -> BitVec 16) (d : PolicyData)
    (calls : List MergeCall) : Option PolicyData :=
  calls.foldlM
    (fun d call => d.mergeNpbAction tunnelIpIdMap call.directions call.actions call.aclID) d

theorem represents_mergeNpbAction {d after : PolicyData}
    (represents : Represents tunnelIpIdMap seen d.npbActions)
    (merged : d.mergeNpbAction tunnelIpIdMap direction actions aclID = some after) :
    Represents tunnelIpIdMap (seen ++ actions.map fun n => (direction, n)) after.npbActions := by
  have keeps : ∀ (state : PolicyData) history n next,
      Represents tunnelIpIdMap (seen ++ MergeCall.steps ⟨history, aclID, direction⟩)
        state.npbActions ->
      mergeAction tunnelIpIdMap direction state n = some next ->
      Represents tunnelIpIdMap (seen ++ MergeCall.steps ⟨history ++ [n], aclID, direction⟩)
        next.npbActions := by
    intro state history n next held stepped
    rw [MergeCall.steps, map_append, ← append_assoc]
    exact represents_mergeAction held stepped
  have start : Represents tunnelIpIdMap (seen ++ MergeCall.steps ⟨[], aclID, direction⟩)
      { d with aclId := if d.aclId = 0 then aclID else d.aclId }.npbActions := by
    rw [MergeCall.steps, map_nil, append_nil]
    exact represents
  exact foldlM_of_history keeps start merged

theorem represents_mergeCalls {after : PolicyData}
    (merged : mergeCalls tunnelIpIdMap .new calls = some after) :
    Represents tunnelIpIdMap (calls.flatMap MergeCall.steps) after.npbActions := by
  have keeps : ∀ (state : PolicyData) (history : List MergeCall) call next,
      Represents tunnelIpIdMap (history.flatMap MergeCall.steps) state.npbActions ->
      state.mergeNpbAction tunnelIpIdMap call.directions call.actions call.aclID = some next ->
      Represents tunnelIpIdMap ((history ++ [call]).flatMap MergeCall.steps)
        next.npbActions := by
    intro state history call next held stepped
    rw [flatMap_append, flatMap_singleton]
    exact represents_mergeNpbAction held stepped
  have start : Represents tunnelIpIdMap (([] : List MergeCall).flatMap MergeCall.steps)
      new.npbActions := ⟨.nil, fun _ mem => (by cases mem), fun _ _ _ mem => (by cases mem)⟩
  exact foldlM_of_history keeps start merged

theorem mergeCalls_isSome (d : PolicyData) {calls : List MergeCall}
    (haveGroups : ∀ call ∈ calls, ∀ n ∈ call.actions, HasGroup n) :
    (mergeCalls tunnelIpIdMap d calls).isSome :=
  foldlM_isSome (fun d call isCall =>
    d.merge_isSome tunnelIpIdMap call.directions (haveGroups call isCall) _) d

/-- Merging calls into an empty policy gives one entry per tunnel, PCAP entries
apart, and covers every action: with its groups, and with its sides if no call
gives a direction. If all give one direction, the entries have its sides. -/
theorem mergeCalls_covers (tunnelIpIdMap : BitVec 16 -> BitVec 16) (calls : List MergeCall)
    (haveGroups : ∀ call ∈ calls, ∀ n ∈ call.actions, PolicyData.HasGroup n) :
    ∃ after, mergeCalls tunnelIpIdMap .new calls = some after ∧
      (after.npbActions.Pairwise fun m other =>
        m.npbAction.tunnelType ≠ npbTunnelTypePcap -> ¬ SharesTunnel tunnelIpIdMap m other) ∧
      (∀ call ∈ calls, ∀ n ∈ call.actions, ∃ m ∈ after.npbActions,
        SharesTunnel tunnelIpIdMap m n ∧ (∀ gid ∈ n.aclGids, gid ∈ m.aclGids) ∧
          ((∀ other ∈ calls, other.directions = none) ->
            m.npbAction.tapSideCompare n.npbAction.tapSide)) ∧
      ∀ side, (∀ call ∈ calls, call.directions = some side) ->
        ∀ m ∈ after.npbActions, m.npbAction.tapSide = side.setWidth 64 &&& tapSideMask := by
  obtain ⟨after, merged⟩ := Option.isSome_iff_exists.mp
    (@mergeCalls_isSome tunnelIpIdMap .new calls haveGroups)
  have represents := represents_mergeCalls merged
  have ofStep : ∀ holds : Option DirectionType -> Prop, (∀ call ∈ calls, holds call.directions) ->
      ∀ step ∈ calls.flatMap MergeCall.steps, holds step.1 := by
    intro holds allCalls step isStep
    obtain ⟨call, isCall, inCall⟩ := List.mem_flatMap.mp isStep
    obtain ⟨n, _, rfl⟩ := List.mem_map.mp inCall
    exact allCalls call isCall
  refine ⟨after, merged, represents.unshared, fun call isCall n inCall => ?_,
    fun side allSide => represents.settled side (ofStep (· = some side) allSide)⟩
  obtain ⟨m, isEntry, shares, groups, sides⟩ := represents.covered (call.directions, n)
      (List.mem_flatMap.mpr ⟨call, isCall, List.mem_map.mpr ⟨n, inCall, rfl⟩⟩)
  exact ⟨m, isEntry, shares, groups, fun noDirections =>
    sides (ofStep (· = none) noDirections)⟩

/-- A PCAP action of group 7 for both sides. -/
def pcapAction : NpbActions := ⟨(11 : BitVec 64) <<< 26, [7]⟩

/-- The same action for groups 8 and 7, which shares its entry. -/
def pcapActions : NpbActions := ⟨(11 : BitVec 64) <<< 26, [8, 7]⟩

theorem mergeCalls_covers_pcapActions :
    ∃ after, mergeCalls id .new [⟨[pcapAction], 1, none⟩, ⟨[pcapActions], 2, none⟩] = some after ∧
      (∃ m ∈ after.npbActions, 7 ∈ m.aclGids ∧ m.npbAction.tapSideCompare 3) ∧
      ∃ m ∈ after.npbActions, 8 ∈ m.aclGids ∧ m.npbAction.tapSideCompare 3 := by
  obtain ⟨after, merged, _, covered, _⟩ :=
    mergeCalls_covers id [⟨[pcapAction], 1, none⟩, ⟨[pcapActions], 2, none⟩]
      (by simp [HasGroup, pcapAction, pcapActions])
  obtain ⟨first, firstIs, _, firstGroups, firstSides⟩ :=
    covered ⟨[pcapAction], 1, none⟩ (by simp) pcapAction (by simp)
  obtain ⟨second, secondIs, _, secondGroups, secondSides⟩ :=
    covered ⟨[pcapActions], 2, none⟩ (by simp) pcapActions (by simp)
  exact ⟨after, merged, ⟨first, firstIs, firstGroups 7 (by decide), firstSides (by simp)⟩,
    second, secondIs, secondGroups 8 (by decide), secondSides (by simp)⟩

/-- With a direction the sides of an action are replaced. -/
theorem mergeCalls_replaces_sides :
    ∃ after, mergeCalls id .new [⟨[pcapAction], 1, some forward⟩] = some after ∧
      ∀ m ∈ after.npbActions, ¬ m.npbAction.tapSideCompare pcapAction.npbAction.tapSide :=
  ⟨_, rfl, by decide⟩

end Metaflow.Datatype
