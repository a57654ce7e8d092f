import Metaflow.Datatype.FieldLayout
import Metaflow.Datatype.PolicyData

/-!
# Keys of packets

`lookup_key.go`: what is known of a packet, and the two matched fields that
are made of it, one for each direction.
-/

namespace Metaflow.Datatype

open Library

namespace MatchedField

variable {Flag : Type} (layout : FieldLayout words Flag)

/-- Several calls of `Set`, one after the other. -/
def setAll (f : MatchedField words) (assignments : List (Flag × BitVec 64)) : MatchedField words :=
  assignments.foldl (fun f assignment =>
    f.set layout assignment.1 assignment.2) f

/-- The values of parts after several calls of `Set`. -/
def assigned [DecidableEq Flag] (values : Flag -> BitVec 64)
    (assignments : List (Flag × BitVec 64)) : Flag -> BitVec 64 :=
  assignments.foldl (fun values assignment =>
    Function.update values assignment.1 assignment.2) values

variable {layout} [DecidableEq Flag]

/-- The values are short enough for their parts. -/
def AllFit (layout : FieldLayout words Flag) (assignments : List (Flag × BitVec 64)) : Prop :=
  ∀ assignment ∈ assignments, FitsField (layout.length assignment.1) assignment.2

theorem Has.setAll (has : Has layout f values) (allFit : AllFit layout assignments) :
    Has layout (f.setAll layout assignments) (assigned values assignments) := by
  induction assignments generalizing f values with
  | nil => exact has
  | cons assignment assignments ih =>
    refine ih (has.set assignment.1 (allFit assignment List.mem_cons_self)) ?_
    exact fun other isIn => allFit other (List.mem_cons_of_mem _ isIn)

/-- Whatever a field had before, it has the values that are assigned. -/
theorem get_setAll (f : MatchedField words) (allFit : AllFit layout assignments) (flag : Flag) :
    (f.setAll layout assignments).get layout flag = assigned (f.get layout) assignments flag := by
  induction assignments generalizing f with
  | nil => rfl
  | cons assignment assignments ih =>
    have step : (f.set layout assignment.1 assignment.2).get layout =
        Function.update (f.get layout) assignment.1 assignment.2 := by
      funext other
      rw [get_set layout f assignment.1 other
        (allFit assignment List.mem_cons_self), Function.update_apply]
    rw [setAll, List.foldl_cons, ← setAll, ih _ fun other isIn =>
      allFit other (List.mem_cons_of_mem _ isIn), step]
    rfl

omit [DecidableEq Flag] in
/-- The bits behind the last part are not changed by values that fit. -/
theorem bit_setAll_of_behind (f : MatchedField words) (allFit : AllFit layout assignments)
    (behind : layout.bitsLen ≤ position) :
    (f.setAll layout assignments).bit position = f.bit position := by
  induction assignments generalizing f with
  | nil => rfl
  | cons assignment assignments ih =>
    have ends := layout.ends assignment.1
    rw [setAll, List.foldl_cons, ← setAll, ih _ fun other isIn =>
        allFit other (List.mem_cons_of_mem _ isIn),
      bit_set layout f assignment.1 (allFit assignment List.mem_cons_self), if_neg (by omega)]

omit [DecidableEq Flag] in
/-- No key matches a field in which a value has bits behind the last part. -/
theorem not_and_equal_of_spill (key f : MatchedField words) {value : BitVec 64} {above : Nat}
    (hasMask : Has layout mask maskValues) (restFits : AllFit layout rest)
    (sameWord : (layout.offset flag + above) / 64 = layout.offset flag / 64)
    (behind : layout.bitsLen ≤ layout.offset flag + above)
    (spills : value.getLsbD above = true) :
    ¬ (key.and mask).equal (f.setAll layout ((flag, value) :: rest)) := by
  intro same
  have bits := (equal_iff_bit _ _).mp same (layout.offset flag + above)
  rw [bit_and, hasMask.tidy _ behind, Bool.and_false, setAll, List.foldl_cons, ← setAll,
    bit_setAll_of_behind _ restFits behind, bit_set_of_spill layout f flag sameWord spills] at bits
  cases bits

end MatchedField

/-- The fields of `LookupKey` that the lookup reads. An IPv6 address is the
pair of its halves. -/
structure LookupKey where
  srcMac : BitVec 64 := 0
  dstMac : BitVec 64 := 0
  srcIp : BitVec 32 := 0
  dstIp : BitVec 32 := 0
  isIpv6 : Bool := false
  src6Ip : BitVec 64 × BitVec 64 := (0, 0)
  dst6Ip : BitVec 64 × BitVec 64 := (0, 0)
  srcPort : UInt16 := 0
  dstPort : UInt16 := 0
  proto : BitVec 8 := 0
  tapType : BitVec 16 := 0
  l2End0 : Bool := false
  l2End1 : Bool := false
  l3End0 : Bool := false
  l3End1 : Bool := false
  hasNpbFlag : Bool := false
  forwardMatched : MatchedField matchedFieldLen := .blank
  backwardMatched : MatchedField matchedFieldLen := .blank
  forwardMatched6 : MatchedField matchedField6Len := .blank
  backwardMatched6 : MatchedField matchedField6Len := .blank
  fastIndex : Nat := 0

/-- The number of a port as written into a field. -/
def portValue (port : UInt16) : BitVec 64 :=
  port.toBitVec.setWidth 64

namespace LookupKey

/-- The calls of `Set` in `generateMatchedField`. -/
def assignments (k : LookupKey) (srcIp dstIp : BitVec 32) (srcEpc dstEpc : BitVec 16)
    (srcPort dstPort : UInt16) : List (MatchFlag × BitVec 64) :=
  [(.tapType, k.tapType.setWidth 64), (.proto, k.proto.setWidth 64), (.srcIp, srcIp.setWidth 64),
    (.dstIp, dstIp.setWidth 64),
    (.srcEpc, srcEpc.setWidth 64),
    (.dstEpc, dstEpc.setWidth 64),
    (.srcPort, portValue srcPort),
    (.dstPort, portValue dstPort)]

/-- The calls of `Set` in `generateMatchedField6`. -/
def assignments6 (k : LookupKey) (srcIp dstIp : BitVec 64 × BitVec 64) (srcEpc dstEpc : BitVec 16)
    (srcPort dstPort : UInt16) : List (MatchFlag6 × BitVec 64) :=
  [(.tapType, k.tapType.setWidth 64), (.proto, k.proto.setWidth 64), (.srcIp0, srcIp.1),
    (.srcIp1, srcIp.2),
    (.dstIp0, dstIp.1),
    (.dstIp1, dstIp.2),
    (.srcEpc, srcEpc.setWidth 64),
    (.dstEpc, dstEpc.setWidth 64),
    (.srcPort, portValue srcPort),
    (.dstPort, portValue dstPort)]

/-- Both calls of `generateMatchedField` or `generateMatchedField6`, the second
with exchanged ends. -/
def generateMatchedField (k : LookupKey) (srcEpc dstEpc : BitVec 16) : LookupKey :=
  if k.isIpv6 then
    { k with
      forwardMatched6 := k.forwardMatched6.setAll matched6Layout
        (k.assignments6 k.src6Ip k.dst6Ip srcEpc dstEpc k.srcPort k.dstPort)
      backwardMatched6 := k.backwardMatched6.setAll matched6Layout
        (k.assignments6 k.dst6Ip k.src6Ip dstEpc srcEpc k.dstPort k.srcPort) }
  else
    { k with
      forwardMatched := k.forwardMatched.setAll matchedLayout
        (k.assignments k.srcIp k.dstIp srcEpc dstEpc k.srcPort k.dstPort)
      backwardMatched := k.backwardMatched.setAll matchedLayout
        (k.assignments k.dstIp k.srcIp dstEpc srcEpc k.dstPort k.srcPort) }

variable (k : LookupKey) (srcEpc dstEpc : BitVec 16)

end LookupKey

end Metaflow.Datatype
