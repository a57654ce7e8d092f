import Metaflow.Policy.AclCompile

/-!
# What the compiled nodes match

Each part of a key is tested by itself: the tap type, the protocol and the
networks are compared unless the ACL leaves them open, the addresses and ports
under the masks of their segments.
-/

namespace Metaflow.Policy

open Datatype Library
open MatchedField

theorem setWidth_inj (fits : narrow ≤ 64) (value other : BitVec narrow) :
    value.setWidth 64 = other.setWidth 64 ↔ value = other := by
  constructor
  · intro same
    have numbers := congrArg BitVec.toNat same
    rw [BitVec.toNat_setWidth_of_le fits, BitVec.toNat_setWidth_of_le fits] at numbers
    exact BitVec.eq_of_toNat_eq numbers
  · exact congrArg (BitVec.setWidth 64)

theorem setWidth_eq_zero_iff (fits : narrow ≤ 64) (value : BitVec narrow) :
    value.setWidth 64 = 0 ↔ value = 0 := by
  have zero : (0 : BitVec narrow).setWidth 64 = 0 := BitVec.setWidth_zero _ _
  rw [← zero]
  exact setWidth_inj fits value 0

theorem fitsField_of_lt (small : value.toNat < 2 ^ length) : FitsField length value := by
  intro position behind
  exact Nat.testBit_lt_two_pow (Nat.lt_of_lt_of_le small (Nat.pow_le_pow_right (by decide) behind))

theorem and_lowMask_of_fits (fits : FitsField length value) : value &&& lowMask length = value := by
  refine BitVec.eq_of_getLsbD_eq fun position inside => ?_
  rw [BitVec.getLsbD_and, getLsbD_lowMask]
  by_cases short : position < length
  · simp [short, inside]
  · simp [short, fits position (by omega)]

/-- A part that is compared unless the wanted value is zero. -/
theorem and_maskOrZero_eq_iff {value wanted : BitVec 16}
    (fits : FitsField length (value.setWidth 64)) :
    value.setWidth 64 &&& (if wanted.setWidth 64 ≠ 0 then lowMask length
        else wanted.setWidth 64) = wanted.setWidth 64 ↔ wanted = 0 ∨ wanted = value := by
  rw [← setWidth_eq_zero_iff (by decide) wanted, ← setWidth_inj (by decide) wanted value]
  by_cases zero : wanted.setWidth 64 = 0
  · simp [zero]
  · rw [if_pos zero, and_lowMask_of_fits fits]
    constructor
    · exact fun same => .inr same.symm
    · exact fun or => (or.resolve_left zero).symm

theorem setWidth_and_eq_iff (fits : narrow ≤ 64) (value mask wanted : BitVec narrow) :
    value.setWidth 64 &&& mask.setWidth 64 = wanted.setWidth 64 ↔ value &&& mask = wanted := by
  rw [← BitVec.setWidth_and]
  exact setWidth_inj fits _ _

theorem portValue_and_eq_iff (segment : PortSegment) (port : UInt16) :
    portValue port &&& portValue segment.mask = portValue segment.port ↔ segment.Matches port := by
  rw [portValue, portValue, portValue, setWidth_and_eq_iff (by decide),
    ← UInt16.toBitVec_and, UInt16.toBitVec_inj, PortSegment.Matches]

/-- The tap type and the protocol are those of the ACL, if it has any. -/
def Acl.AcceptsKind (a : Acl) (key : Datatype.LookupKey) : Prop :=
  (a.tapType = 0 ∨ a.tapType = key.tapType) ∧ (a.proto = protoAll ∨ a.proto = key.proto.setWidth 16)

/-- The network is that of the segment, if it has any. -/
def IpSegment.AcceptsEpc (segment : IpSegment) (epc : BitVec 16) : Prop :=
  segment.epcId = 0 ∨ segment.epcId = epc

/-- An IPv4 address and its network lie in the segment. -/
def IpSegment.Contains (segment : IpSegment) (ip : BitVec 32) (epc : BitVec 16) : Prop :=
  segment.ipv6 = false ∧ ip &&& segment.mask = segment.ip ∧ segment.AcceptsEpc epc

/-- An IPv6 address and its network lie in the segment. -/
def IpSegment.Contains6 (segment : IpSegment) (ip : BitVec 64 × BitVec 64)
    (epc : BitVec 16) : Prop :=
  segment.ipv6 = true ∧ ip.1 &&& segment.mask0 = segment.ip0 ∧
    ip.2 &&& segment.mask1 = segment.ip1 ∧ segment.AcceptsEpc epc

section Parts

variable {a : Acl} {key : Datatype.LookupKey}

theorem fitsField_byte {value : BitVec 16} (small : value.toNat < 256) :
    FitsField 8 (value.setWidth 64 : BitVec 64) := by
  apply fitsField_of_lt
  rwa [BitVec.toNat_setWidth_of_le (by decide)]

theorem epcId_iff (segment : IpSegment) (epc : BitVec 16) : epc.setWidth 64 &&&
        (if segment.epcId.setWidth 64 ≠ 0 then lowMask 16
          else segment.epcId.setWidth 64) = segment.epcId.setWidth 64 ↔ segment.AcceptsEpc epc :=
  and_maskOrZero_eq_iff (fitsField_setWidth (by decide) epc)

theorem proto_iff : key.proto.setWidth 64 &&& (if a.proto = protoAll then 0 else lowMask 8) =
        (if a.proto = protoAll then 0 else a.proto.setWidth 64) ↔
      a.proto = protoAll ∨ a.proto = key.proto.setWidth 16 := by
  by_cases isAll : a.proto = protoAll
  · simp [isAll]
  · have wide : (key.proto.setWidth 16).setWidth 64 = key.proto.setWidth 64 := by
      apply BitVec.eq_of_toNat_eq
      rw [BitVec.toNat_setWidth_of_le (by decide), BitVec.toNat_setWidth_of_le (by decide),
        BitVec.toNat_setWidth_of_le (by decide)]
    rw [if_neg isAll, if_neg isAll, and_lowMask_of_fits
      (fitsField_setWidth (by decide) key.proto), ← wide,
      setWidth_inj (by decide), or_iff_right isAll, eq_comm]

end Parts

/-- An ACL whose protocol fits into the part of a field. -/
structure Acl.Fits (a : Acl) : Prop where
  proto : a.proto.toNat ≤ 256

/-- A tap type that does not fit into its part has a bit behind it. -/
theorem exists_bit_of_wide {tapType : BitVec 16} (wide : ¬ tapType.toNat < 256) :
    ∃ position, 8 ≤ position ∧ position < 16 ∧ (tapType.setWidth 64).getLsbD position = true := by
  by_contra none
  refine wide (Nat.lt_pow_two_of_testBit (n := 8) _ fun position behind => ?_)
  by_contra isSet
  have isBit : tapType.getLsbD position = true := Bool.not_eq_false _ ▸ isSet
  have inside : position < 16 := BitVec.lt_of_getLsbD isBit
  refine none ⟨position, behind, inside, ?_⟩
  rw [BitVec.getLsbD_setWidth, isBit]
  simp
  omega

/-- An ACL with a tap type that does not fit accepts no key. -/
theorem not_acceptsKind_of_wide {a : Acl} {key : Datatype.LookupKey}
    (keyTap : key.tapType.toNat < 256) (wide : ¬ a.tapType.toNat < 256) : ¬ a.AcceptsKind key := by
  rintro ⟨zero | same, _⟩
  · rw [zero] at wide
    exact wide (by decide)
  · rw [same] at wide
    exact wide keyTap

theorem Acl.Fits.proto_fits {a : Acl} (fits : a.Fits) : FitsField 8 (if a.proto = protoAll then 0
      else (a.proto.setWidth 64 : BitVec 64)) := by
  split_ifs with isAll
  · exact fitsField_zero 8
  · apply fitsField_byte
    exact Nat.lt_of_le_of_ne fits.proto fun same =>
      isAll (BitVec.eq_of_toNat_eq same)

theorem fitsField_maskValue {Flag : Type} (layout : FieldLayout words Flag)
    (flag : Flag) (value : BitVec 64) :
    FitsField (layout.length flag) (Acl.maskValue layout flag value).2 := by
  unfold Acl.maskValue
  by_cases zero : value = 0
  · rw [zero]
    exact fitsField_zero _
  · simp only [ne_eq, zero, not_false_eq_true, if_true, layout.mask_eq]
    exact fitsField_lowMask _

theorem fitsField_portValue (port : UInt16) : FitsField 16 (portValue port) :=
  fitsField_setWidth (by decide) _

theorem forall_matchFlag_iff (property : MatchFlag -> Prop) : (∀ flag, property flag) ↔
      property .tapType ∧ property .proto ∧ property .srcIp ∧
        property .srcEpc ∧ property .dstIp ∧ property .dstEpc ∧
        property .srcPort ∧ property .dstPort := by
  constructor
  · exact fun all => ⟨all _, all _, all _, all _, all _, all _, all _, all _⟩
  · rintro ⟨tapType, proto, srcIp, srcEpc, dstIp, dstEpc, srcPort, dstPort⟩ flag
    cases flag <;> assumption

theorem forall_matchFlag6_iff (property : MatchFlag6 -> Prop) : (∀ flag, property flag) ↔
      property .tapType ∧ property .proto ∧ property .srcIp0 ∧
        property .srcIp1 ∧ property .srcEpc ∧ property .dstIp0 ∧
        property .dstIp1 ∧ property .dstEpc ∧ property .srcPort ∧ property .dstPort := by
  constructor
  · exact fun all => ⟨all _, all _, all _, all _, all _, all _, all _, all _, all _, all _⟩
  · rintro ⟨tapType, proto, srcIp0, srcIp1, srcEpc, dstIp0, dstIp1, dstEpc, srcPort, dstPort⟩ flag
    cases flag <;> assumption

theorem fitsField_word (value : BitVec 64) : FitsField 64 value :=
  fitsField_of_lt value.isLt

section Nodes

variable {a : Acl} {key : Datatype.LookupKey}
variable (srcIps dstIps : IpSegment) (srcPort dstPort : PortSegment)

/-- The values behind the tap type fit. -/
theorem allFit_matchAssignments (fits : a.Fits) :
    AllFit matchedLayout (a.matchAssignments srcIps dstIps srcPort dstPort).tail := by
  simp only [AllFit, Acl.matchAssignments, List.tail_cons, List.forall_mem_cons]
  exact ⟨fitsField_setWidth (by decide) _,
    fitsField_setWidth (by decide) _, fitsField_setWidth (by decide) _,
    fitsField_setWidth (by decide) _, fitsField_portValue _,
    fitsField_portValue _, fits.proto_fits, by simp⟩

theorem allFit_maskAssignments :
    AllFit matchedLayout (a.maskAssignments srcIps dstIps srcPort dstPort) := by
  have protoFits : FitsField 8 (if a.proto = protoAll then 0
      else (Acl.maskValue matchedLayout .proto 0xff).2) := by
    split_ifs
    · exact fitsField_zero _
    · exact fitsField_maskValue matchedLayout .proto _
  simp only [AllFit, Acl.maskAssignments, List.forall_mem_cons]
  exact ⟨fitsField_maskValue _ _ _, fitsField_setWidth (by decide) _,
    fitsField_maskValue _ _ _, fitsField_setWidth (by decide) _,
    fitsField_maskValue _ _ _, fitsField_portValue _, fitsField_portValue _,
    protoFits, by simp⟩

theorem allFit_assignments (keyTap : key.tapType.toNat < 256) (srcIp dstIp : BitVec 32)
    (srcEpc dstEpc : BitVec 16) (srcPort dstPort : UInt16) : AllFit matchedLayout
      (key.assignments srcIp dstIp srcEpc dstEpc srcPort dstPort) := by
  simp only [AllFit, Datatype.LookupKey.assignments, List.forall_mem_cons]
  exact ⟨fitsField_byte keyTap, fitsField_setWidth (by decide) _,
    fitsField_setWidth (by decide) _, fitsField_setWidth (by decide) _,
    fitsField_setWidth (by decide) _, fitsField_setWidth (by decide) _,
    fitsField_portValue _, fitsField_portValue _, by simp⟩

/-- A key matches a node if it passes each of its tests. -/
theorem matchNode_matches_iff (fits : a.Fits) (keyTap : key.tapType.toNat < 256)
    (stale : MatchedField matchedFieldLen) (srcIp dstIp : BitVec 32) (srcEpc dstEpc : BitVec 16)
    (src dst : UInt16) :
    ((stale.setAll matchedLayout (key.assignments srcIp dstIp srcEpc dstEpc src dst)).and
      (a.matchNode srcIps dstIps srcPort dstPort).matchedMask).equal
        (a.matchNode srcIps dstIps srcPort dstPort).matched ↔
    a.AcceptsKind key ∧ (srcIp &&& srcIps.mask = srcIps.ip ∧ srcIps.AcceptsEpc srcEpc) ∧
      (dstIp &&& dstIps.mask = dstIps.ip ∧ dstIps.AcceptsEpc dstEpc) ∧
      srcPort.Matches src ∧ dstPort.Matches dst := by
  have restFits := allFit_matchAssignments srcIps dstIps srcPort dstPort fits
  have hasMask := (has_blank matchedLayout).setAll
    (@allFit_maskAssignments a srcIps dstIps srcPort dstPort)
  by_cases wide : ¬ a.tapType.toNat < 256
  · obtain ⟨position, behind, inside, isSet⟩ := exists_bit_of_wide wide
    refine iff_of_false ?_ fun accepts => not_acceptsKind_of_wide keyTap wide accepts.1
    exact not_and_equal_of_spill _ _ hasMask restFits
      (by simp only [matchedLayout, fieldOffset]; omega)
      (by simp only [matchedLayout, fieldOffset]; omega) isSet
  have matchedFits : AllFit matchedLayout (a.matchAssignments srcIps dstIps srcPort dstPort) :=
    List.forall_mem_cons.mpr ⟨fitsField_byte (not_not.mp wide), restFits⟩
  have hasMatched := (has_blank matchedLayout).setAll matchedFits
  have keyFits := allFit_assignments keyTap srcIp dstIp srcEpc dstEpc src dst
  rw [Acl.matchNode, and_equal_iff hasMatched hasMask, forall_matchFlag_iff]
  simp only [get_setAll stale keyFits]
  refine (and_congr (and_maskOrZero_eq_iff (fitsField_byte keyTap)) (and_congr proto_iff
    (and_congr (setWidth_and_eq_iff (by decide) srcIp srcIps.mask srcIps.ip)
      (and_congr (epcId_iff srcIps srcEpc)
        (and_congr (setWidth_and_eq_iff (by decide) dstIp dstIps.mask dstIps.ip)
          (and_congr (epcId_iff dstIps dstEpc) (and_congr (portValue_and_eq_iff srcPort src)
              (portValue_and_eq_iff dstPort dst)))))))).trans ?_
  simp only [Acl.AcceptsKind, and_assoc]

/-- The values behind the tap type fit. -/
theorem allFit_match6Assignments (fits : a.Fits) :
    AllFit matched6Layout (a.match6Assignments srcIps dstIps srcPort dstPort).tail := by
  simp only [AllFit, Acl.match6Assignments, List.tail_cons, List.forall_mem_cons]
  exact ⟨fitsField_word _, fitsField_word _,
    fitsField_setWidth (by decide) _, fitsField_word _, fitsField_word _,
    fitsField_setWidth (by decide) _, fitsField_portValue _,
    fitsField_portValue _, fits.proto_fits, by simp⟩

theorem allFit_mask6Assignments :
    AllFit matched6Layout (a.mask6Assignments srcIps dstIps srcPort dstPort) := by
  simp only [AllFit, Acl.mask6Assignments, List.forall_mem_cons]
  exact ⟨fitsField_maskValue _ _ _, fitsField_word _, fitsField_word _,
    fitsField_maskValue _ _ _, fitsField_word _, fitsField_word _,
    fitsField_maskValue _ _ _, fitsField_portValue _, fitsField_portValue _,
    fitsField_maskValue _ _ _, by simp⟩

theorem allFit_assignments6 (keyTap : key.tapType.toNat < 256)
    (srcIp dstIp : BitVec 64 × BitVec 64) (srcEpc dstEpc : BitVec 16) (srcPort dstPort : UInt16) :
    AllFit matched6Layout (key.assignments6 srcIp dstIp srcEpc dstEpc srcPort dstPort) := by
  simp only [AllFit, Datatype.LookupKey.assignments6, List.forall_mem_cons]
  exact ⟨fitsField_byte keyTap, fitsField_setWidth (by decide) _,
    fitsField_word _, fitsField_word _, fitsField_word _, fitsField_word _,
    fitsField_setWidth (by decide) _, fitsField_setWidth (by decide) _,
    fitsField_portValue _, fitsField_portValue _, by simp⟩

/-- The mask of a protocol, which `SetMask` makes in either case. -/
theorem maskValue6_proto :
    (Acl.maskValue matched6Layout .proto (if a.proto = protoAll then 0 else 0xff)).2 =
      if a.proto = protoAll then 0 else lowMask 8 := by
  split_ifs with isAll
  · rfl
  · rfl

theorem match6Node_matches_iff (fits : a.Fits) (keyTap : key.tapType.toNat < 256)
    (stale : MatchedField matchedField6Len) (srcIp dstIp : BitVec 64 × BitVec 64)
    (srcEpc dstEpc : BitVec 16) (src dst : UInt16) :
    ((stale.setAll matched6Layout (key.assignments6 srcIp dstIp srcEpc dstEpc src dst)).and
      (a.match6Node srcIps dstIps srcPort dstPort).matchedMask).equal
        (a.match6Node srcIps dstIps srcPort dstPort).matched ↔
    a.AcceptsKind key ∧ (srcIp.1 &&& srcIps.mask0 = srcIps.ip0 ∧
        srcIp.2 &&& srcIps.mask1 = srcIps.ip1 ∧ srcIps.AcceptsEpc srcEpc) ∧
      (dstIp.1 &&& dstIps.mask0 = dstIps.ip0 ∧
        dstIp.2 &&& dstIps.mask1 = dstIps.ip1 ∧ dstIps.AcceptsEpc dstEpc) ∧
      srcPort.Matches src ∧ dstPort.Matches dst := by
  have restFits := allFit_match6Assignments srcIps dstIps srcPort dstPort fits
  have hasMask := (has_blank matched6Layout).setAll
    (@allFit_mask6Assignments a srcIps dstIps srcPort dstPort)
  by_cases wide : ¬ a.tapType.toNat < 256
  · obtain ⟨position, behind, inside, isSet⟩ := exists_bit_of_wide wide
    refine iff_of_false ?_ fun accepts => not_acceptsKind_of_wide keyTap wide accepts.1
    exact not_and_equal_of_spill _ _ hasMask restFits
      (by simp only [matched6Layout, field6Offset]; omega)
      (by simp only [matched6Layout, field6Offset]; omega) isSet
  have matchedFits : AllFit matched6Layout (a.match6Assignments srcIps dstIps srcPort dstPort) :=
    List.forall_mem_cons.mpr ⟨fitsField_byte (not_not.mp wide), restFits⟩
  have hasMatched := (has_blank matched6Layout).setAll matchedFits
  have keyFits := allFit_assignments6 keyTap srcIp dstIp srcEpc dstEpc src dst
  have protoTest := @proto_iff a key
  rw [← maskValue6_proto] at protoTest
  rw [Acl.match6Node, and_equal_iff hasMatched hasMask, forall_matchFlag6_iff]
  simp only [get_setAll stale keyFits]
  refine (and_congr (and_maskOrZero_eq_iff (fitsField_byte keyTap)) (and_congr protoTest
      (and_congr Iff.rfl (and_congr Iff.rfl
      (and_congr (epcId_iff srcIps srcEpc) (and_congr Iff.rfl (and_congr Iff.rfl
          (and_congr (epcId_iff dstIps dstEpc) (and_congr (portValue_and_eq_iff srcPort src)
              (portValue_and_eq_iff dstPort dst)))))))))).trans ?_
  simp only [Acl.AcceptsKind, and_assoc]
  rfl

end Nodes

end Metaflow.Policy
