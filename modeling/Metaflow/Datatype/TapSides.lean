import Metaflow.Datatype.LookupKey
import Metaflow.Datatype.NpbMerge

/-!
# Sides of actions

`policy.go`: an action is made for the packets of one side or of both. The
sides are a field of the action's word, like the slice, and the accessors read
and write these fields.
-/

namespace Metaflow.Datatype

open Library
open BitVec

namespace NpbAction

def tapSideCompare (a : NpbAction) (flag : BitVec 64) : Bool :=
  a.tapSide &&& flag = flag

theorem fitsField_side (flag : BitVec 64) : FitsField 2 (flag &&& lowMask 2) :=
  fitsField_and_lowMask 2 flag

section

variable (a : NpbAction)
include a

@[simp] theorem tapSide_setTapSide (flag : BitVec 64) :
    (a.setTapSide flag).tapSide = flag &&& tapSideMask := by
  rw [tapSide_eq, setTapSide_eq]
  exact getField_setField_same (by decide) (fitsField_side flag)

theorem setTapSide_tapSide : a.setTapSide a.tapSide = a := by
  have fits : a.tapSide &&& lowMask 2 = a.tapSide := by
    rw [tapSide_eq, getField, BitVec.and_assoc, BitVec.and_self]
  rw [setTapSide_eq, fits, tapSide_eq]
  exact setField_getField

theorem setPayloadSlice_payloadSlice : a.setPayloadSlice a.payloadSlice = a := by
  have wide : (a.payloadSlice.setWidth 64 : BitVec 64) = getField 32 16 a := by
    refine eq_of_getLsbD_eq fun position _ => ?_
    rw [payloadSlice_eq, getLsbD_setWidth, getLsbD_setWidth, getLsbD_getField]
    by_cases short : position < 16 <;> simp [short]
    omega
  rw [setPayloadSlice_eq, wide]
  exact setField_getField

theorem addTapSide_setTapSide (flag more : BitVec 64) :
    (a.setTapSide flag).addTapSide more = a.setTapSide (flag ||| more) := by
  rw [setTapSide_eq, setTapSide_eq, addTapSide_eq, addField_setField
    (fitsField_side flag) (fitsField_side more), and_or_distrib_right]

end

end NpbAction

end Metaflow.Datatype
