import Metaflow.Datatype.TapSides
import Metaflow.Library.KeyedList

/-!
# Merging by tunnels

What merging an action does to the entry of its tunnel, or to a policy without
such an entry.
-/

namespace Metaflow.Datatype

open Library List
open PolicyData
open NpbActions
open NpbAction

attribute [local instance] NpbActions.decidableMemGids

/-- Append the groups that are not yet there. -/
def addGids (gids more : List (BitVec 16)) : List (BitVec 16) :=
  more.foldl (fun gids m => if m ∈ gids then gids else gids ++ [m]) gids

theorem addAclGid_eq (a : NpbActions) (more : List (BitVec 16)) :
    a.addAclGid more = { a with aclGids := addGids a.aclGids more } := by
  induction more generalizing a with
  | nil => rfl
  | cons gid more ih =>
    rw [addAclGid, addGids, foldl_cons, foldl_cons,
      ← addAclGid, ← addGids]
    split_ifs with isIn
    · exact ih a
    · exact ih { a with aclGids := a.aclGids ++ [gid] }

theorem mem_addGids_iff (gids more : List (BitVec 16)) (gid : BitVec 16) :
    gid ∈ addGids gids more ↔ gid ∈ gids ∨ gid ∈ more := by
  induction more generalizing gids with
  | nil => simp [addGids]
  | cons first more ih =>
    rw [addGids, foldl_cons, ← addGids, ih]
    split_ifs with isIn
    · rw [mem_cons]
      constructor
      · exact fun either => either.imp_right .inr
      · rintro (here | rfl | later)
        · exact .inl here
        · exact .inl isIn
        · exact .inr later
    · rw [mem_append, mem_singleton, mem_cons, or_assoc]

/-- The action with another side. -/
def NpbActions.withSide (n : NpbActions) (side : BitVec 64) : NpbActions :=
  { n with npbAction := n.npbAction.setTapSide side }

/-- Two actions of a tunnel but for the side. -/
def blend (m n : NpbActions) : NpbActions where
  npbAction := m.npbAction.setPayloadSlice
    (stepSlice m.npbAction.payloadSlice n.npbAction.payloadSlice)
  aclGids := addGids m.aclGids n.aclGids

section

variable (m n : NpbActions)

theorem sliced_eq :
    (if n.npbAction.payloadSlice = 0 ∨ n.npbAction.payloadSlice > m.npbAction.payloadSlice then
      m.npbAction.setPayloadSlice n.npbAction.payloadSlice
    else m.npbAction) = (blend m n).npbAction := by
  rw [blend, stepSlice]
  split_ifs
  · rfl
  · exact (setPayloadSlice_payloadSlice _).symm

theorem mergeEntry_some (side : DirectionType) (m n : NpbActions) :
    mergeEntry (some side) m n = (blend m n).withSide (side.setWidth 64) := by
  rw [withSide, ← sliced_eq]
  exact addAclGid_eq _ _

theorem mergeEntry_none :
    mergeEntry none m n =
      { blend m n with npbAction :=
          (blend m n).npbAction.addTapSide n.npbAction.tapSide } := by
  rw [← sliced_eq]
  exact addAclGid_eq _ _

theorem sameTunnel_blend : SameTunnel (blend m n).npbAction m.npbAction :=
  sameTunnel_setPayloadSlice _ _

end

section

variable (direction : Option DirectionType)

/-- The entry of a tunnel after an action. -/
def absorb : Option NpbActions -> NpbActions -> NpbActions
  | none, n =>
    match direction with
    | some side => n.withSide (side.setWidth 64)
    | none => n
  | some m, n => PolicyData.mergeEntry direction m n

section

variable (m n : NpbActions)

theorem sameTunnel_mergeEntry :
    SameTunnel (mergeEntry direction m n).npbAction m.npbAction := by
  cases direction with
  | none =>
    rw [mergeEntry_none]
    exact (sameTunnel_addTapSide _ _).trans (sameTunnel_blend m n)
  | some side =>
    rw [mergeEntry_some]
    exact (sameTunnel_setTapSide _ _).trans (sameTunnel_blend m n)

theorem aclGids_mergeEntry :
    (mergeEntry direction m n).aclGids = addGids m.aclGids n.aclGids := by
  cases direction with
  | none => rw [mergeEntry_none, blend]
  | some side => rw [mergeEntry_some, blend, withSide]

end

theorem aclGids_absorb_none (n : NpbActions) : (absorb direction none n).aclGids = n.aclGids := by
  cases direction <;> rfl

theorem appendAction_eq (d : PolicyData) (n : NpbActions) :
    appendAction direction d n =
      { d with
        npbActions := d.npbActions ++ [absorb direction none n]
        actionFlags :=
          if (absorb direction none n).doTridentPcap then
            d.actionFlags ||| actionPcap
          else d.actionFlags } := by
  cases direction <;> rfl

end

end Metaflow.Datatype
