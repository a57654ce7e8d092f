import Metaflow.Datatype.MatchedField
import Metaflow.Datatype.PolicyData
import Metaflow.Datatype.PortRange

/-!
# ACLs

`acl.go`: an ACL with the port ranges it was configured with, and the nodes
and the policy it was compiled to.
-/

namespace Metaflow.Policy

open Datatype

/-- `MatchNode` and `Match6Node` -/
structure MatchNode (words : Nat) where
  matched : MatchedField words
  matchedMask : MatchedField words
  deriving DecidableEq

def MatchNode.getAllTableIndex {words : Nat} (n : MatchNode words)
    (maskVector : MatchedField words) (min max : Nat) (vectorBits : List Nat) : List (BitVec 16) :=
  n.matched.getAllTableIndex maskVector n.matchedMask min max vectorBits

/-- `PROTO_ALL` -/
def protoAll : BitVec 16 := 256

/-- The linked lists of nodes are read from their heads. -/
structure Acl where
  id : BitVec 32 := 0
  tapType : BitVec 16 := 0
  srcGroups : List (BitVec 32) := []
  dstGroups : List (BitVec 32) := []
  proto : BitVec 16 := protoAll
  npbActions : List NpbActions := []
  srcPortRange : List PortRange := []
  dstPortRange : List PortRange := []
  fieldLink : List (MatchNode matchedFieldLen) := []
  field6Link : List (MatchNode matchedField6Len) := []
  policy : PolicyData := .new

/-- The actions of an ACL are merged into its policy. -/
def Acl.initPolicy (tunnelIpIdMap : BitVec 16 -> BitVec 16) (a : Acl) : Option Acl :=
  (a.policy.merge tunnelIpIdMap none a.npbActions a.id).map fun policy =>
    { a with policy := policy }

end Metaflow.Policy
