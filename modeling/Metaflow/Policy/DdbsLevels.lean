import Metaflow.Policy.AclCompile
import Metaflow.Policy.SortTable

/-!
# Building the tables within the memory limit

`ddbs.go`: vectors are chosen for a level. If the tables would not fit into
memory the level is raised, until they fit or there is no further level.
-/

namespace Metaflow.Policy

open Library Datatype

/-- `_LEVEL_MAX` -/
def levelMax : Nat := 16

/-- `_FIELD_NODE_SIZE` -/
def fieldNodeSize : Nat := matchedFieldLen * 8 * 2 + 8

/-- `_FIELD6_NODE_SIZE` -/
def field6NodeSize : Nat := matchedField6Len * 8 * 2 + 8

/-- `_TABLE_ITEM_SIZE` -/
def tableItemSize : BitVec 64 := 8 * 4

/-- What is not changed while tables are built, and the readings of `Current` in
their order. -/
structure BuildEnv where
  groupIpMap : GroupIpMap
  level : Nat
  memoryLimit : BitVec 64
  tunnelIpIdMap : BitVec 16 -> BitVec 16
  readings : Nat -> BitVec 64

variable (env : BuildEnv)

/-- The answer, and the number of readings after it. -/
def memoryCheck (used : Nat) (size : BitVec 64) : Bool × Nat :=
  if env.memoryLimit = 0 then (true, used)
  else (decide (env.readings used + size < env.memoryLimit), used + 1)

/-- The ACLs behind the pointers. -/
abbrev AclHeap := Nat -> Acl

/-- The memory that the nodes of an ACL need. -/
def Acl.nodeMemory (a : Acl) (srcIps dstIps : List IpSegment) : BitVec 64 :=
  let ports := a.srcPortRange.length * a.dstPortRange.length
  BitVec.ofNat 64 (fieldNodeSize * srcIps.countP (!·.ipv6) * dstIps.countP (!·.ipv6) * ports) +
  BitVec.ofNat 64 (field6NodeSize * srcIps.countP (·.ipv6) * dstIps.countP (·.ipv6) * ports)

/-- The ACLs and the number of readings. -/
structure AclBits where
  acls : AclHeap
  used : Nat

/-- The loop body of `generateAclBits`: an error is the failed memory check,
`none` a panic. -/
def aclBits (bits : AclBits) (acl : Nat) : Option (Except AclBits AclBits) :=
  let a := bits.acls acl
  let srcIps := Acl.orEmptySegments (Acl.groupSegments env.groupIpMap a.srcGroups)
  let dstIps := Acl.orEmptySegments (Acl.groupSegments env.groupIpMap a.dstGroups)
  let checked := memoryCheck env bits.used (a.nodeMemory srcIps dstIps)
  if checked.1 then
    ((a.generateMatched srcIps dstIps).bind
      (Acl.initPolicy env.tunnelIpIdMap)).map fun a =>
        .ok ⟨Function.update bits.acls acl a, checked.2⟩
  else some (.error { bits with used := checked.2 })

def generateAclBits : AclBits -> List Nat -> Option (Except AclBits AclBits)
  | bits, [] => some (.ok bits)
  | bits, acl :: rest =>
    match aclBits env bits acl with
    | none => none
    | some (.error bits) => some (.error bits)
    | some (.ok bits) => generateAclBits bits rest

/-- The number of items of a table. -/
def itemCount {words : Nat} (vector : MaskVector words) (link : Acl -> List (MatchNode words))
    (acls : List Acl) : BitVec 64 :=
  acls.foldl
    (fun num acl => (link acl).foldl
      (fun num node => num + BitVec.ofNat 64
        (node.getAllTableIndex vector.maskVector vector.maskMinBit
          vector.maskMaxBit vector.vectorBits).length) num) 0

/-- `vector` and `vector6` -/
structure Vectors where
  vector : MaskVector matchedFieldLen
  vector6 : MaskVector matchedField6Len
  itemCount : BitVec 64
  item6Count : BitVec 64
  deriving DecidableEq

/-- `vector{}` and `vector6{}` -/
def Vectors.zero : Vectors :=
  ⟨⟨0, 0, [], .blank⟩, ⟨0, 0, [], .blank⟩, 0, 0⟩

/-- Both calls of `calcVectorTableMemory`. -/
def Vectors.memorySize (vectors : Vectors) : BitVec 64 :=
  vectors.itemCount * tableItemSize + vectors.item6Count * tableItemSize

/-- Both vectors of a size, with the numbers of items that they give. -/
def buildVectors (acls : List Acl) (vectorSize : Nat) : Option Vectors := do
  let table ← generateSortTable acls
  let vector ← generateMaskVector vectorSize table
  let table6 ← generateSortTable6 acls
  let vector6 ← generateMaskVector vectorSize table6
  some ⟨vector, vector6, Policy.itemCount vector Acl.fieldLink acls,
    Policy.itemCount vector6 Acl.field6Link acls⟩

/-- `policyCount`; the counts of an ACL are added in 32 bits. -/
def policyCount (acls : List Acl) : BitVec 64 :=
  acls.foldl (fun count acl => count +
    (linkCount acl.fieldLink + linkCount acl.field6Link).setWidth 64) 0

/-- A memory check: the level, the vectors that were built for it and the
answer. -/
structure LevelCheck where
  level : Nat
  vectors : Vectors
  ok : Bool

/-- The local variables of `generateDdbsTable`; `checks` are the memory checks
so far, which the source does not keep. -/
structure LevelState where
  currentLevel : Nat
  ok : Bool
  vectorSize : Nat
  vectors : Vectors
  used : Nat
  checks : List LevelCheck

/-- The state before the loop. -/
def LevelState.start (currentLevel used : Nat) : LevelState :=
  ⟨currentLevel, true, 0, .zero, used, []⟩

variable (acls : List Acl)

/-- The condition of the loop. -/
def LevelState.loops (s : LevelState) : Bool :=
  s.currentLevel < levelMax && (!s.ok || s.vectorSize == 0)

/-- The loop body up to the memory check. -/
def LevelState.measure (s : LevelState) : Option LevelState :=
  let sized := getVectorSize env.level s.currentLevel env.memoryLimit acls (!s.ok)
  (buildVectors acls sized.2).map fun vectors =>
    let checked := memoryCheck env s.used vectors.memorySize
    { currentLevel := sized.1
      ok := checked.1
      vectorSize := sized.2
      vectors := vectors
      used := checked.2
      checks := s.checks ++ [⟨sized.1, vectors, checked.1⟩] }

/-- Whether there is a further level with fewer items. -/
def LevelState.canRaise (s : LevelState) : Bool :=
  s.currentLevel < levelMax && policyCount acls < s.vectors.itemCount + s.vectors.item6Count

/-- The loop of `generateDdbsTable`; its error is the returned one. -/
def levelLoop : Nat -> LevelState -> Option (Except LevelState LevelState)
  | 0, _ => none
  | fuel + 1, s =>
    if s.loops then
      match s.measure env acls with
      | none => none
      | some s =>
        if s.ok then levelLoop fuel s
        else if s.canRaise acls then
          levelLoop fuel { s with currentLevel := s.currentLevel + 1 }
        else some (.error s)
    else some (.ok s)

/-- Enough for one try at every level and the last test of the condition. -/
def levelFuel : Nat := levelMax + 2

end Metaflow.Policy
