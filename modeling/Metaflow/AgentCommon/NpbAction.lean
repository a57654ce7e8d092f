import Metaflow.Library.BitField
import Metaflow.Library.Run
import Mathlib.Data.List.Forall2

/-!
# Packet broker actions of the agent

An action is one word of 64 bits. The setters take the exclusive or with the
complement of the mask of their field: they clear nothing in the field and turn
every other bit.
-/

namespace Metaflow.AgentCommon

open Library
open BitVec

/-- Sides of a flow that are tapped; no flags but the two known ones. -/
@[ext] structure NpbAction.TapSide where
  bits : BitVec 8
  known : bits &&& 0x3 = bits
  deriving DecidableEq

namespace NpbAction.TapSide

def src : TapSide := ⟨0x1, rfl⟩
def all : TapSide := ⟨0x3, rfl⟩

/-- `from_bits_truncate` -/
def fromBitsTruncate (bits : BitVec 8) : TapSide :=
  ⟨bits &&& 0x3, by rw [BitVec.and_assoc, BitVec.and_self]⟩

end NpbAction.TapSide

inductive NpbTunnelType
  | vxLan | greErspan | pcap
  deriving DecidableEq

/-- `NpbTunnelType::try_from` -/
def NpbTunnelType.tryFrom (value : BitVec 8) : Option NpbTunnelType :=
  match value.toNat with
  | 0 => some .vxLan
  | 1 => some .greErspan
  | 2 => some .pcap
  | _ => none

structure NpbAction where
  action : BitVec 64
  aclGids : List (BitVec 16) := []
  deriving DecidableEq

namespace NpbAction

def payloadSliceMask : BitVec 64 := 0xffff
def tunnelIdMask : BitVec 64 := 0x3ffffff
def tunnelTypeMask : BitVec 64 := 0x3

/-- The field for the group of the rule, which the agent writes and does not read. -/
def aclGid (self : NpbAction) : BitVec 16 :=
  (self.action >>> 48).setWidth 16

def tapSide (self : NpbAction) : TapSide :=
  TapSide.fromBitsTruncate ((self.action >>> 26).setWidth 8 &&& TapSide.all.bits)

def tunnelId (self : NpbAction) : BitVec 32 :=
  (self.action &&& tunnelIdMask).setWidth 32

def payloadSlice (self : NpbAction) : BitVec 16 :=
  (self.action >>> 32 &&& payloadSliceMask).setWidth 16

/-- A tunnel type of 3 is no type: the `unwrap` panics. -/
def tunnelType (self : NpbAction) : Option NpbTunnelType :=
  NpbTunnelType.tryFrom ((self.action >>> 30 &&& tunnelTypeMask).setWidth 8)

def setPayloadSlice (self : NpbAction) (payloadSlice : BitVec 16) : NpbAction :=
  let cleared := self.action ^^^ ~~~(payloadSliceMask <<< 32)
  { self with action := cleared ||| (payloadSlice.setWidth 64 &&& payloadSliceMask) <<< 32 }

def setTapSide (self : NpbAction) (tapSide : TapSide) : NpbAction :=
  let cleared := self.action ^^^ ~~~(TapSide.all.bits.setWidth 64 <<< 26)
  { self with action := cleared ||| tapSide.bits.setWidth 64 <<< 26 }

/-- How both setters write a field: the exclusive or turns the bits outside it. -/
def turnField (start length : Nat) (word value : BitVec 64) : BitVec 64 :=
  (word ^^^ ~~~(lowMask length <<< start)) ||| value <<< start

variable (self : NpbAction)

theorem action_setPayloadSlice (payloadSlice : BitVec 16) :
    (self.setPayloadSlice payloadSlice).action =
      turnField 32 16 self.action (payloadSlice.setWidth 64 &&& lowMask 16) :=
  rfl

theorem action_setTapSide (tapSide : TapSide) :
    (self.setTapSide tapSide).action = turnField 26 2 self.action (tapSide.bits.setWidth 64) :=
  rfl

section

variable {start length : Nat} {word value : BitVec 64}

theorem getLsbD_turnField (fits : FitsField length value) {position : Nat}
    (inside : position < 64) :
    (turnField start length word value).getLsbD position =
      if start ≤ position ∧ position < start + length then
        word.getLsbD position || value.getLsbD (position - start)
      else !word.getLsbD position := by
  rw [turnField, getLsbD_or, getLsbD_xor, getLsbD_not,
    getLsbD_shiftLeft, getLsbD_shiftLeft, getLsbD_lowMask]
  by_cases starts : start ≤ position
  · have small : position - start < 64 := by omega
    by_cases ends : position < start + length
    · have short : position - start < length := by omega
      simp [starts, ends, inside, small, short, Nat.not_lt_of_le starts]
    · have long : ¬ position - start < length := by omega
      simp [ends, inside, long, fits (position - start) (by omega)]
  · simp [starts, inside, Nat.lt_of_not_le starts]

theorem getField_turnField_same (fits : FitsField length value) (inside : start + length ≤ 64) :
    getField start length (turnField start length word value) =
      getField start length word ||| value := by
  refine eq_of_getLsbD_eq fun position _ => ?_
  rw [getLsbD_or, getLsbD_getField, getLsbD_getField]
  by_cases short : position < length
  · rw [getLsbD_turnField fits (by omega)]
    simp [short]
  · simp [short, fits position (by omega)]

end

theorem fitsField_tapSide (tapSide : TapSide) :
    FitsField 2 (tapSide.bits.setWidth 64 : BitVec 64) := by
  have masked : (tapSide.bits.setWidth 64 : BitVec 64) =
      tapSide.bits.setWidth 64 &&& lowMask 2 := by
    conv_lhs => rw [← tapSide.known]
    rw [setWidth_and]
    rfl
  rw [masked]
  exact fitsField_and_lowMask 2 _

theorem tunnelId_turnField_ne {before after : NpbAction}
    (fits : FitsField length value) (behind : 26 ≤ start)
    (written : after.action = turnField start length before.action value) :
    after.tunnelId ≠ before.tunnelId := by
  intro same
  have lowest := congrArg (fun id => id.getLsbD 0) same
  have turned := @getLsbD_turnField start length before.action _ fits 0 (by omega)
  rw [if_neg (by omega), ← written] at turned
  have kept : after.action.getLsbD 0 = before.action.getLsbD 0 := by
    simpa [tunnelId, tunnelIdMask] using lowest
  rw [turned] at kept
  exact Bool.not_ne_self _ kept

/-- The slice is set, and all else is read as before. -/
structure SetsPayloadSlice (before after : NpbAction) (payloadSlice : BitVec 16) : Prop where
  payloadSlice : after.payloadSlice = payloadSlice
  tapSide : after.tapSide = before.tapSide
  tunnelId : after.tunnelId = before.tunnelId
  tunnelType : after.tunnelType = before.tunnelType
  aclGid : after.aclGid = before.aclGid
  aclGids : after.aclGids = before.aclGids

/-- The tap side is set, and all else is read as before. -/
structure SetsTapSide (before after : NpbAction) (tapSide : TapSide) : Prop where
  tapSide : after.tapSide = tapSide
  payloadSlice : after.payloadSlice = before.payloadSlice
  tunnelId : after.tunnelId = before.tunnelId
  tunnelType : after.tunnelType = before.tunnelType
  aclGid : after.aclGid = before.aclGid
  aclGids : after.aclGids = before.aclGids

/-- A setter never does what it is for, whatever the action and the argument are. -/
theorem setters_never_frame (self : NpbAction) (payloadSlice : BitVec 16) (tapSide : TapSide) :
    ¬ SetsPayloadSlice self (self.setPayloadSlice payloadSlice) payloadSlice ∧
      ¬ SetsTapSide self (self.setTapSide tapSide) tapSide := by
  constructor
  · intro sets
    exact tunnelId_turnField_ne (fitsField_and_lowMask 16 _) (by omega)
      (action_setPayloadSlice self payloadSlice) sets.tunnelId
  · intro sets
    exact tunnelId_turnField_ne (fitsField_tapSide tapSide) (by omega)
      (action_setTapSide self tapSide) sets.tunnelId

theorem setTapSide_turns_tunnelId :
    (setTapSide ⟨0, []⟩ TapSide.src).tunnelId = 0x3ffffff ∧ tunnelId ⟨0, []⟩ = 0 := by
  decide

theorem bits_tapSide : self.tapSide.bits = (getField 26 2 self.action).setWidth 8 := by
  rw [getField, setWidth_and]
  exact and_assoc _ _ _

/-- A side that is not among the tapped ones is added, and none goes. -/
theorem bits_tapSide_setTapSide (tapSide : TapSide) :
    (self.setTapSide tapSide).tapSide.bits = self.tapSide.bits ||| tapSide.bits := by
  rw [bits_tapSide, bits_tapSide, action_setTapSide,
    getField_turnField_same (fitsField_tapSide tapSide) (by omega), setWidth_or,
    setWidth_setWidth_of_le _ (by omega), setWidth_eq]

end NpbAction

/-- One turn of `format_npb_action`: tunnels are to be fed from the source only. -/
def formatAction (item : NpbAction) : Option NpbAction :=
  if item.tapSide = NpbAction.TapSide.all then do
    let tunnelType <- item.tunnelType
    return if tunnelType ≠ .pcap then item.setTapSide NpbAction.TapSide.src else item
  else some item

def formatNpbAction (npbActions : List NpbAction) : Option (List NpbAction) :=
  npbActions.mapM formatAction

/-- The sides that were to be narrowed are all still there. -/
theorem formatAction_tapSide (formatted : formatAction item = some after) :
    after.tapSide = item.tapSide := by
  rw [formatAction] at formatted
  split_ifs at formatted with onAll
  · obtain ⟨tunnelType, _, result⟩ := Option.bind_eq_some_iff.mp formatted
    rw [← Option.some.inj result]
    split_ifs with isTunnel
    · refine NpbAction.TapSide.ext ?_
      rw [NpbAction.bits_tapSide_setTapSide, onAll]
      rfl
    · rfl
  · rw [Option.some.inj formatted]

/-- The pass narrows no action: each comes out with the tap sides it had. -/
theorem formatNpbAction_tapSides (formatted : formatNpbAction npbActions = some after) :
    List.Forall₂ (fun item formatted => formatted.tapSide = item.tapSide) npbActions after :=
  (forall₂_of_mapM formatted).imp fun _ _ => formatAction_tapSide

theorem formatNpbAction_tapSides_vxlan :
    let both : NpbAction := ⟨0xc000000, []⟩
    List.Forall₂ (fun item formatted => formatted.tapSide = item.tapSide) [both]
      [both.setTapSide .src] :=
  formatNpbAction_tapSides rfl

end Metaflow.AgentCommon
