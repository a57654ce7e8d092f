import Metaflow.Library.Run

/-!
# Policies

`policy.go`: a policy is a list of NPB actions, each a packed word with the
groups it came from. Merging combines the actions that share a tunnel.
-/

namespace Metaflow.Datatype

open Library

/-- `aclgid | payload-slice | tunnel-type | TapSide | tunnel-id` -/
abbrev NpbAction := BitVec 64

/-- `NPB_TUNNEL_TYPE_PCAP` -/
def npbTunnelTypePcap : BitVec 8 := 2

/-- `TAPSIDE_MASK` -/
def tapSideMask : BitVec 64 := 3

/-- A set of the two directions, one bit each. -/
abbrev DirectionType := BitVec 8

/-- `FORWARD` -/
def forward : DirectionType := 1

namespace NpbAction

def tapSide (a : NpbAction) : BitVec 64 :=
  (a >>> 26) &&& tapSideMask

def setTapSide (a : NpbAction) (flag : BitVec 64) : NpbAction :=
  (a &&& ~~~(tapSideMask <<< 26)) ||| ((flag &&& tapSideMask) <<< 26)

def addTapSide (a : NpbAction) (flag : BitVec 64) : NpbAction :=
  a ||| ((flag &&& tapSideMask) <<< 26)

def tunnelType (a : NpbAction) : BitVec 8 :=
  ((a >>> 30) &&& 0x3).setWidth 8

def tunnelGid (a : NpbAction) : BitVec 16 :=
  (a >>> 48).setWidth 16

/-- The global table `tunnelIpIdMap` is a parameter. -/
def tunnelIpId (tunnelIpIdMap : BitVec 16 -> BitVec 16) (a : NpbAction) : BitVec 16 :=
  if a.tunnelType = npbTunnelTypePcap then 0
  else tunnelIpIdMap a.tunnelGid

def tunnelId (a : NpbAction) : BitVec 32 :=
  (a &&& 0xffffff).setWidth 32

def payloadSlice (a : NpbAction) : BitVec 16 :=
  ((a >>> 32) &&& 0xffff).setWidth 16

def setPayloadSlice (a : NpbAction) (payload : BitVec 16) : NpbAction :=
  (a &&& ~~~((0xffff : BitVec 64) <<< 32)) ||| (payload.setWidth 64 <<< 32)

end NpbAction

structure NpbActions where
  npbAction : NpbAction
  aclGids : List (BitVec 16)
  deriving DecidableEq

namespace NpbActions

/-- Append the groups that are not yet there. -/
def addAclGid (a : NpbActions) (aclGids : List (BitVec 16)) : NpbActions :=
  aclGids.foldl (fun a m => if m ∈ a.aclGids then a else { a with aclGids := a.aclGids ++ [m] }) a

/-- Membership among groups is decidable. -/
@[reducible] def decidableMemGids (gid : BitVec 16) (gids : List (BitVec 16)) :
    Decidable (gid ∈ gids) :=
  List.instDecidableMemOfLawfulBEq gid gids

def doTridentPcap (a : NpbActions) : Bool :=
  a.npbAction.tunnelType = npbTunnelTypePcap

end NpbActions

structure PolicyData where
  npbActions : List NpbActions
  aclId : BitVec 32
  actionFlags : BitVec 16
  deriving DecidableEq

namespace PolicyData

/-- `new(PolicyData)` -/
def new : PolicyData := ⟨[], 0, 0⟩

/-- `ACTION_PCAP` -/
def actionPcap : BitVec 16 := 1

section

variable (tunnelIpIdMap : BitVec 16 -> BitVec 16)
variable (direction : Option DirectionType)

/-- Whether `MergeNpbAction` reaches the merging statements for `m` and another
`n`; `none` is the panic on a PCAP action without groups. -/
def sameTunnel (m n : NpbActions) : Option Bool :=
  if m.npbAction.tunnelIpId tunnelIpIdMap ≠ n.npbAction.tunnelIpId tunnelIpIdMap ∨
      m.npbAction.tunnelId ≠ n.npbAction.tunnelId ∨
      m.npbAction.tunnelType ≠ n.npbAction.tunnelType then
    some false
  else if n.npbAction.tunnelType = npbTunnelTypePcap then
    n.aclGids.head?.map fun aclGid => decide (aclGid ∈ m.aclGids)
  else some true

/-- The merging statements. -/
def mergeEntry (m n : NpbActions) : NpbActions :=
  let slice := n.npbAction.payloadSlice
  let action := m.npbAction
  let action :=
    if slice = 0 ∨ slice > action.payloadSlice then
      action.setPayloadSlice slice
    else action
  let action :=
    match direction with
    | some side => action.setTapSide (side.setWidth 64)
    | none => action.addTapSide n.npbAction.tapSide
  { m with npbAction := action }.addAclGid n.aclGids

/-- The inner loop of `MergeNpbAction`: the entries after it and `repeat`. -/
def mergeLoop (n : NpbActions) : List NpbActions -> Option (List NpbActions × Bool)
  | [] => some ([], false)
  | m :: rest =>
    if m.npbAction = n.npbAction then
      some (m.addAclGid n.aclGids :: rest, true)
    else
      match sameTunnel tunnelIpIdMap m n, mergeLoop n rest with
      | some true, some (rest', _) => some (mergeEntry direction m n :: rest', true)
      | some false, some (rest', repeated) => some (m :: rest', repeated)
      | _, _ => none

/-- An action that no entry takes is appended. -/
def appendAction (d : PolicyData) (n : NpbActions) : PolicyData :=
  let npbAction :=
    match direction with
    | some side => { n with npbAction := n.npbAction.setTapSide (side.setWidth 64) }
    | none => n
  { d with
    npbActions := d.npbActions ++ [npbAction]
    actionFlags :=
      if npbAction.doTridentPcap then d.actionFlags ||| actionPcap
      else d.actionFlags }

/-- The body of the outer loop of `MergeNpbAction`. -/
def mergeAction (d : PolicyData) (n : NpbActions) : Option PolicyData :=
  match mergeLoop tunnelIpIdMap direction n d.npbActions with
  | none => none
  | some (npbActions, true) => some { d with npbActions := npbActions }
  | some (npbActions, false) => some (appendAction direction { d with npbActions := npbActions } n)

/-- Only the first of the optional directions is read. -/
def mergeNpbAction (d : PolicyData) (actions : List NpbActions) (aclID : BitVec 32) :
    Option PolicyData :=
  actions.foldlM (mergeAction tunnelIpIdMap direction)
    { d with aclId := if d.aclId = 0 then aclID else d.aclId }

def merge (d : PolicyData) (npbActions : List NpbActions) (aclID : BitVec 32) : Option PolicyData :=
  mergeNpbAction tunnelIpIdMap direction d npbActions aclID

/-- A PCAP action has a group. -/
def HasGroup (n : NpbActions) : Prop :=
  n.npbAction.tunnelType = npbTunnelTypePcap -> n.aclGids ≠ []

theorem sameTunnel_isSome (m : NpbActions) (hasGroup : HasGroup n) :
    (sameTunnel tunnelIpIdMap m n).isSome := by
  unfold sameTunnel
  split_ifs with _ isPcap
  · rfl
  · obtain ⟨first, rest, groups⟩ := List.exists_cons_of_ne_nil (hasGroup isPcap)
    simp [groups]
  · rfl

theorem mergeLoop_isSome (hasGroup : HasGroup n) (entries : List NpbActions) :
    (mergeLoop tunnelIpIdMap direction n entries).isSome := by
  induction entries with
  | nil => rfl
  | cons m rest ih =>
    obtain ⟨same, tunnel⟩ := Option.isSome_iff_exists.mp
      (sameTunnel_isSome tunnelIpIdMap m hasGroup)
    obtain ⟨⟨rest', repeated⟩, looped⟩ := Option.isSome_iff_exists.mp ih
    rw [mergeLoop, tunnel, looped]
    split_ifs
    · rfl
    · cases same <;> rfl

variable (d : PolicyData)

theorem mergeAction_isSome (hasGroup : HasGroup n) :
    (mergeAction tunnelIpIdMap direction d n).isSome := by
  obtain ⟨⟨entries, repeated⟩, looped⟩ := Option.isSome_iff_exists.mp
    (mergeLoop_isSome tunnelIpIdMap direction hasGroup d.npbActions)
  rw [mergeAction, looped]
  cases repeated <;> rfl

theorem merge_isSome (haveGroups : ∀ n ∈ actions, HasGroup n) (aclID : BitVec 32) :
    (merge tunnelIpIdMap direction d actions aclID).isSome := by
  exact foldlM_isSome (fun d n mem =>
    mergeAction_isSome tunnelIpIdMap direction d (haveGroups n mem)) _

end

end PolicyData
end Metaflow.Datatype
