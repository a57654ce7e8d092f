import Metaflow.Library.Slices
import Metaflow.Policy.Interest
import Metaflow.Policy.TablePolicies

/-!
# Updating the ACLs

`UpdateAcls`, `AddAcl` and `DelAcl` of `ddbs.go`. An ACL is deleted by appending
the ones behind it to the ones before it, which writes into the array of the
list before the new tables are known to fit.
-/

namespace Metaflow.Policy

open Library Datatype
open HeapSlice

/-- The tables, the raw ACLs with the arrays of slices of ACL pointers, and the
interest ports. -/
structure DdbsState where
  tables : DdbsTables
  arrays : Heap Nat
  rawAcls : HeapSlice
  interest : InterestTable
  rawSound : HeapSlice.Sound arrays rawAcls

namespace DdbsState

/-- The pointers of the raw ACLs. -/
def raw (d : DdbsState) : List Nat :=
  d.rawAcls.read d.arrays

/-- Whether an ACL is left out; `check` is the optional argument. -/
def checkAcl (groupIpMap : GroupIpMap) (check : Option Bool) (acl : Acl) : Bool :=
  if check = some false then false
  else (acl.srcGroups ++ acl.dstGroups).any fun group =>
    groupIpMap (group.setWidth 16) = []

/-- The ACLs of the new tables. -/
def generateAcls (env : BuildEnv) (acls : AclHeap) (check : Option Bool)
    (refs : List Nat) : List Nat :=
  refs.filter fun acl => !checkAcl env.groupIpMap check (acls acl)

/-- The ACLs of the new tables are reset. -/
def resetAcls (acls : AclHeap) (refs : List Nat) : AclHeap :=
  refs.foldl (fun acls acl => Function.update acls acl (acls acl).reset) acls

section Calls

variable (env : BuildEnv) (d : DdbsState)

/-- The state is the one that is left behind; an error is the one that is
returned. -/
def updateAcls (acls : HeapSlice) (sound : HeapSlice.Sound d.arrays acls)
    (check : Option Bool) : Option (Except DdbsState DdbsState) :=
  let generate := generateAcls env d.tables.acls check (acls.read d.arrays)
  let reset := { d.tables with acls := resetAcls d.tables.acls generate }
  match reset.generateDdbsTable env generate with
  | none => none
  | some (.error tables) => some (.error { d with tables := tables })
  | some (.ok (tables, _)) =>
    (generateInterestPortMap (generate.map tables.acls)).map fun interest =>
      .ok { d with
        tables := tables
        rawAcls := acls
        interest := interest
        rawSound := sound }

/-- `grow` is the room of a new array. -/
def addAcl (grow : Nat -> Nat) (grows : ∀ len, len < grow len)
    (acl : Nat) : Option (Except DdbsState DdbsState) :=
  updateAcls env
    { d with
      arrays := (d.rawAcls.append grow d.arrays acl).1
      rawSound := d.rawSound.append grow d.rawAcls acl }
    (d.rawAcls.append grow d.arrays acl).2
    (HeapSlice.sound_append d.rawSound grows acl) none

/-- The second part of `DelAcl`: the ACLs behind the deleted one are appended
to those before it. -/
def delInside (grow : Nat -> Nat) (grows : ∀ len, len < grow len) (index : Nat)
    (inside : index ≤ d.rawAcls.len) : Option (Except DdbsState DdbsState) :=
  let newAcls := d.rawAcls.front index
  let behind := d.raw.drop (index + 1)
  updateAcls env
    { d with
      arrays := (newAcls.appendAll grow d.arrays behind).1
      rawSound := d.rawSound.appendAll grow newAcls behind }
    (newAcls.appendAll grow d.arrays behind).2
    (HeapSlice.sound_appendAll (d.rawSound.front inside) grows behind) none

/-- ACLs are numbered from 1; other numbers are ignored. -/
def delAcl (grow : Nat -> Nat) (grows : ∀ len, len < grow len)
    (id : Int) : Option (Except DdbsState DdbsState) :=
  if inside : 0 < id ∧ id ≤ d.rawAcls.len then
    if id = d.rawAcls.len then
      d.updateAcls env (d.rawAcls.front (id.toNat - 1)) (d.rawSound.front (by omega)) none
    else d.delInside env grow grows (id.toNat - 1) (by omega)
  else some (.ok d)

end Calls

end DdbsState

/-- The calls that change the ACLs of a state. -/
inductive AclCall (d : DdbsState) where
  | update
      (acls : HeapSlice)
      (sound : HeapSlice.Sound d.arrays acls)
      (check : Option Bool)
  | add (acl : Nat)
  | del (id : Int)

namespace AclCall

/-- `AddAcl` and `DelAcl` drop the error of `UpdateAcls`; here it is the
result. -/
def run (env : BuildEnv) (grow : Nat -> Nat) (grows : ∀ len, len < grow len) :
    AclCall d -> Option (Except DdbsState DdbsState)
  | .update acls sound check => d.updateAcls env acls sound check
  | .add acl => d.addAcl env grow grows acl
  | .del id => d.delAcl env grow grows id

/-- The ACLs that `UpdateAcls` is called with. -/
def newAcls : AclCall d -> List Nat
  | .update acls _ _ => acls.read d.arrays
  | .add acl => d.raw ++ [acl]
  | .del id => d.raw.eraseIdx (id.toNat - 1)

/-- The ACLs of the new tables. -/
def generateAcls (env : BuildEnv) (call : AclCall d) : List Nat :=
  let check := match call with
    | .update _ _ check => check
    | _ => none
  DdbsState.generateAcls env d.tables.acls check call.newAcls

/-- All pointers from a deleted ACL on are the same. -/
def KeepsRaw : AclCall d -> Prop
  | .del id => ∀ acl ∈ d.raw.drop (id.toNat - 1), ∀ other ∈ d.raw.drop (id.toNat - 1), acl = other
  | _ => True

end AclCall

/-- The memory that the nodes of an ACL need for its groups. -/
def Acl.neededMemory (env : BuildEnv) (a : Acl) : BitVec 64 :=
  a.nodeMemory (Acl.orEmptySegments (Acl.groupSegments env.groupIpMap a.srcGroups))
    (Acl.orEmptySegments (Acl.groupSegments env.groupIpMap a.dstGroups))

/-- The ACLs in front of the first one that the memory check refuses, which are
compiled. -/
def admittedAcls (env : BuildEnv) (acls : AclHeap) : (used : Nat) -> List Nat -> List Nat
  | _, [] => []
  | used, acl :: rest =>
    let checked := memoryCheck env used ((acls acl).neededMemory env)
    if checked.1 then acl :: admittedAcls env acls checked.2 rest else []

/-- A policy into which the actions of an ACL are merged a number of times. -/
def Acl.mergedPolicy (env : BuildEnv) (a : Acl) : (times : Nat) -> PolicyData -> Option PolicyData
  | 0, policy => some policy
  | times + 1, policy =>
    (policy.merge env.tunnelIpIdMap none a.npbActions a.id).bind (a.mergedPolicy env times)

/-- The policy of an ACL with nodes in the tables stays the same when its
actions are merged once more for every time that it is compiled. -/
def AclCall.KeepsPolicies {d : DdbsState} (env : BuildEnv) (call : AclCall d) : Prop :=
  ∀ entry ∈ d.tables.built, entry.nodes ≠ [] ∨ entry.nodes6 ≠ [] ->
    (d.tables.acls entry.acl).mergedPolicy env
        ((admittedAcls env d.tables.acls 0 (call.generateAcls env)).count entry.acl)
        (d.tables.acls entry.acl).policy =
      some (d.tables.acls entry.acl).policy

section Recompiled

variable {env : BuildEnv}

/-- Two ACLs that differ in their nodes and their policies only. -/
def Acl.SameContents (a b : Acl) : Prop :=
  b = { a with fieldLink := b.fieldLink, field6Link := b.field6Link, policy := b.policy }

/-- The memory is that of the contents. -/
theorem Acl.SameContents.neededMemory (same : Acl.SameContents a b) :
    b.neededMemory env = a.neededMemory env := by
  rw [same]
  rfl

/-- The merged actions are those of the contents. -/
theorem Acl.SameContents.mergedPolicy (same : Acl.SameContents a b) (times : Nat)
    (policy : PolicyData) : b.mergedPolicy env times policy = a.mergedPolicy env times policy := by
  rw [same]
  induction times generalizing policy with
  | zero => rfl
  | succ times ih => exact Option.bind_congr fun merged _ => ih merged

theorem admittedAcls_congr {acls others : AclHeap}
    (same : ∀ acl, Acl.SameContents (acls acl) (others acl)) :
    admittedAcls env others used refs = admittedAcls env acls used refs := by
  induction refs generalizing used with
  | nil => rfl
  | cons acl rest ih => simp only [admittedAcls, (same acl).neededMemory, ih]

/-- The nodes are all that `generateMatched` changes. -/
theorem Acl.generateMatched_sameContents
    (matched : Acl.generateMatched a srcIps dstIps = some b) :
    Acl.SameContents a b ∧ b.policy = a.policy := by
  let Kept (s : Acl) : Prop := Acl.SameContents a s ∧ s.policy = a.policy
  have step (srcPorts dstPorts : List PortSegment) (s : Acl) (srcIp dstIp : IpSegment)
      (kept : Kept s) : Kept (Acl.addSegments srcPorts dstPorts s srcIp dstIp) := by
    obtain ⟨same, policy⟩ := kept
    unfold Acl.addSegments
    split_ifs
    · exact ⟨same, policy⟩
    all_goals
      rw [same]
      exact ⟨rfl, policy⟩
  simp only [Acl.generateMatched, Option.bind_eq_bind, Option.bind_eq_some_iff,
    Option.some.injEq] at matched
  obtain ⟨srcPorts, _, dstPorts, _, rfl⟩ := matched
  refine List.foldlRecOn (motive := Kept) srcIps _ ⟨rfl, rfl⟩ fun s kept srcIp _ => ?_
  exact List.foldlRecOn (motive := Kept) dstIps _ kept fun s kept dstIp _ =>
    step srcPorts dstPorts s srcIp dstIp kept

/-- The policies of the admitted ACLs are merged as often as they were admitted,
the others are kept. -/
def Recompiled (env : BuildEnv) (acls : AclHeap) (used : Nat) (refs : List Nat)
    (left : AclHeap) : Prop :=
  ∀ acl, (acls acl).mergedPolicy env ((admittedAcls env acls used refs).count acl)
    (acls acl).policy = some (left acl).policy

/-- An ACL that is compiled first is merged once before the ones behind it. -/
theorem Recompiled.cons {acls : AclHeap}
    (admitted : (memoryCheck env used ((acls ref).neededMemory env)).1 = true)
    (same : Acl.SameContents (acls ref) a)
    (merged : (acls ref).policy.merge env.tunnelIpIdMap none (acls ref).npbActions (acls ref).id =
      some a.policy)
    (rest : Recompiled env (Function.update acls ref a)
      (memoryCheck env used ((acls ref).neededMemory env)).2 refs left) :
    Recompiled env acls used (ref :: refs) left := by
  have contents (acl : Nat) :
      Acl.SameContents (acls acl) (Function.update acls ref a acl) := by
    by_cases isRef : acl = ref
    · rw [isRef, Function.update_self]
      exact same
    · rw [Function.update_of_ne isRef]
      exact rfl
  intro acl
  have ofRest := rest acl
  rw [admittedAcls_congr contents, (contents acl).mergedPolicy] at ofRest
  rw [admittedAcls, if_pos admitted]
  by_cases isRef : acl = ref
  · rw [isRef, Function.update_self] at ofRest
    rw [isRef, List.count_cons_self, Acl.mergedPolicy, merged]
    exact ofRest
  · rw [Function.update_of_ne isRef] at ofRest
    rw [List.count_cons_of_ne (Ne.symm isRef)]
    exact ofRest

/-- The loop body compiles the ACL, or the memory check refuses it. -/
theorem aclBits_cases (compiled : aclBits env bits ref = some result) :
    (∃ a, (memoryCheck env bits.used ((bits.acls ref).neededMemory env)).1 = true ∧
      Acl.SameContents (bits.acls ref) a ∧
      (bits.acls ref).policy.merge env.tunnelIpIdMap none (bits.acls ref).npbActions
        (bits.acls ref).id = some a.policy ∧
      result = .ok ⟨Function.update bits.acls ref a,
        (memoryCheck env bits.used ((bits.acls ref).neededMemory env)).2⟩) ∨
    ((memoryCheck env bits.used ((bits.acls ref).neededMemory env)).1 = false ∧
      ∃ used, result = .error ⟨bits.acls, used⟩) := by
  dsimp only [aclBits] at compiled
  split_ifs at compiled with admitted
  · obtain ⟨a, isCompiled, rfl⟩ := Option.map_eq_some_iff.mp compiled
    obtain ⟨matched, isMatched, isMerged⟩ := Option.bind_eq_some_iff.mp isCompiled
    obtain ⟨policy, merges, rfl⟩ := Option.map_eq_some_iff.mp isMerged
    obtain ⟨same, samePolicy⟩ := Acl.generateMatched_sameContents isMatched
    rw [samePolicy, same] at merges
    rw [same]
    refine .inl ⟨_, admitted, ?_, merges, rfl⟩
    rfl
  · exact .inr ⟨Bool.eq_false_iff.mpr admitted, _, (Option.some.inj compiled).symm⟩

/-- The policies that the loop leaves, whether a memory check stops it or not. -/
theorem generateAclBits_recompiled
    (compiled : generateAclBits env bits refs = some result) :
    ∃ left, (result = .ok left ∨ result = .error left) ∧
      Recompiled env bits.acls bits.used refs left.acls := by
  induction refs generalizing bits with
  | nil => exact ⟨bits, .inl (Option.some.inj compiled).symm, fun _ => rfl⟩
  | cons ref refs ih =>
    rw [generateAclBits] at compiled
    split at compiled
    · cases compiled
    · rename_i stopped isStopped
      obtain ⟨_, _, _, _, isOk⟩ | ⟨refused, used, isError⟩ := aclBits_cases isStopped
      · cases isOk
      · cases isError
        refine ⟨_, .inr (Option.some.inj compiled).symm, fun acl => ?_⟩
        rw [admittedAcls, if_neg (by simp only [refused, Bool.false_eq_true, not_false_eq_true])]
        rfl
    · rename_i next isNext
      obtain ⟨a, admitted, same, merged, isOk⟩ | ⟨_, _, isError⟩ := aclBits_cases isNext
      · cases isOk
        obtain ⟨left, isResult, rest⟩ := ih compiled
        exact ⟨left, isResult, .cons admitted same merged rest⟩
      · cases isError

/-- Resetting ACLs removes their nodes and nothing else. -/
theorem resetAcls_sameContents (acls : AclHeap) (refs : List Nat) (acl : Nat) :
    Acl.SameContents (acls acl) (DdbsState.resetAcls acls refs acl) ∧
      (DdbsState.resetAcls acls refs acl).policy = (acls acl).policy := by
  unfold DdbsState.resetAcls
  refine List.foldlRecOn (motive := fun left : AclHeap =>
    Acl.SameContents (acls acl) (left acl) ∧ (left acl).policy = (acls acl).policy)
    refs _ ⟨rfl, rfl⟩ fun left kept ref _ => ?_
  by_cases isRef : acl = ref
  · subst isRef
    rw [Function.update_self, kept.1]
    exact ⟨rfl, kept.2⟩
  · rw [Function.update_of_ne isRef]
    exact kept

/-- The policies are merged as if the ACLs had not been reset. -/
theorem Recompiled.of_resetAcls
    (compiled : Recompiled env (DdbsState.resetAcls acls refs) used refs left) :
    Recompiled env acls used refs left := by
  intro acl
  have contents := resetAcls_sameContents acls refs
  have ofReset := compiled acl
  rwa [admittedAcls_congr fun acl => (contents acl).1, (contents acl).1.mergedPolicy,
    (contents acl).2] at ofReset

end Recompiled

/-- A failed build changes the ACLs and the level only. -/
theorem DdbsTables.generateDdbsTable_error {d after : DdbsTables} {acls : AclHeap}
    (failed : DdbsTables.generateDdbsTable env
      { d with acls := DdbsState.resetAcls acls refs } refs = some (.error after)) :
    ∃ left, Recompiled env acls 0 refs left ∧
      after = { d with acls := left, currentLevel := after.currentLevel } := by
  unfold generateDdbsTable at failed
  split at failed
  · cases failed
  · rename_i bits compiled
    cases failed
    obtain ⟨left, isLeft | isLeft, merged⟩ := generateAclBits_recompiled compiled
    · cases isLeft
    · cases isLeft
      exact ⟨_, merged.of_resetAcls, rfl⟩
  · rename_i bits compiled
    split at failed
    · cases failed
    · cases failed
      obtain ⟨left, isLeft | isLeft, merged⟩ := generateAclBits_recompiled compiled
      · cases isLeft
        exact ⟨_, merged.of_resetAcls, rfl⟩
      · cases isLeft
    · cases failed

variable {d after : DdbsState}

/-- A failed update changes the ACLs and the level only. -/
theorem DdbsState.updateAcls_error {acls : HeapSlice} {sound : Sound d.arrays acls}
    (failed : d.updateAcls env acls sound check = some (.error after)) :
    ∃ left, Recompiled env d.tables.acls 0
        (generateAcls env d.tables.acls check (acls.read d.arrays)) left ∧
      after = { d with tables := { d.tables with
        acls := left
        currentLevel := after.tables.currentLevel } } := by
  dsimp only [updateAcls] at failed
  split at failed
  · cases failed
  · rename_i tables built
    cases failed
    obtain ⟨left, merged, isAfter⟩ := DdbsTables.generateDdbsTable_error built
    refine ⟨left, merged, ?_⟩
    rw [← isAfter]
  · rename_i tables checks built
    obtain ⟨interest, _, isError⟩ := Option.map_eq_some_iff.mp failed
    cases isError

/-- A list is its tail with the last element repeated exactly if its elements
are all the same. -/
theorem tail_append_last_eq_iff (isLast : (head :: rest).getLast? = some last) :
    rest ++ [last] = head :: rest ↔ ∀ acl ∈ head :: rest, ∀ other ∈ head :: rest, acl = other := by
  induction rest generalizing head with
  | nil =>
    obtain rfl : head = last := by simpa using isLast
    simp
  | cons next rest ih =>
    have isLastRest : (next :: rest).getLast? = some last := by
      rwa [List.getLast?_cons_cons] at isLast
    rw [List.cons_append, List.cons.injEq, ih isLastRest]
    constructor
    · rintro ⟨rfl, same⟩ acl mem other otherMem
      refine same acl ?_ other ?_
      · simpa using mem
      · simpa using otherMem
    · intro same
      exact ⟨same next (by simp) head (by simp), fun acl mem other otherMem =>
        same acl (List.mem_cons_of_mem _ mem) other (List.mem_cons_of_mem _ otherMem)⟩

/-- What stands in the list after the ACLs behind an ACL were moved. -/
theorem overwritten_eq_iff {raw : List Nat} {index : Nat} (inside : index < raw.length) :
    raw.take index ++ raw.drop (index + 1) ++ raw.drop (raw.length - 1) = raw ↔
      ∀ acl ∈ raw.drop index, ∀ other ∈ raw.drop index, acl = other := by
  have split : raw.drop index = raw[index] :: raw.drop (index + 1) :=
    List.drop_eq_getElem_cons inside
  have last : raw.drop (raw.length - 1) = [raw[raw.length - 1]] := by
    rw [List.drop_eq_getElem_cons (by omega), List.drop_eq_nil_of_le (by omega)]
  have isLast : (raw[index] :: raw.drop (index + 1)).getLast? = some raw[raw.length - 1] := by
    rw [← split, List.getLast?_drop, if_neg (by omega),
      List.getLast?_eq_getElem?, List.getElem?_eq_getElem]
  rw [split, ← tail_append_last_eq_iff isLast, ← split, last, List.append_assoc]
  have whole := List.take_append_drop index raw
  constructor
  · intro same
    exact List.append_cancel_left (same.trans whole.symm)
  · intro same
    rw [same, whole]

/-- What a failed call leaves, if it has changed nothing but the arrays before
`UpdateAcls` fails. -/
theorem unchanged_iff_of_error {call : AclCall d} {arrays : Heap Nat}
    {rawSound : Sound arrays d.rawAcls}
    {sound : Sound arrays acls} {check : Option Bool} (failed : DdbsState.updateAcls env
      { d with arrays := arrays, rawSound := rawSound } acls sound check = some (.error after))
    (generated : DdbsState.generateAcls env d.tables.acls check
      (acls.read arrays) = call.generateAcls env)
    (keepsRaw : d.rawAcls.read arrays = d.raw ↔ call.KeepsRaw) :
    (after.raw = d.raw ∧ after.tables.toDdbs = d.tables.toDdbs ∧ after.interest = d.interest) ↔
      call.KeepsRaw ∧ call.KeepsPolicies env := by
  obtain ⟨left, merged, isAfter⟩ := DdbsState.updateAcls_error failed
  rw [generated] at merged
  have kept : call.KeepsPolicies env ↔
      ∀ entry ∈ d.tables.built, entry.nodes ≠ [] ∨ entry.nodes6 ≠ [] ->
        (left entry.acl).policy = (d.tables.acls entry.acl).policy := by
    unfold AclCall.KeepsPolicies
    refine forall_congr' fun entry => imp_congr_right fun _ => imp_congr_right fun _ => ?_
    rw [merged entry.acl, Option.some.injEq]
  rw [isAfter, ← keepsRaw, kept]
  exact and_congr_right fun _ =>
    (and_iff_left rfl).trans (d.tables.toDdbs_eq_iff _ _)

theorem DdbsState.length_raw (d : DdbsState) (notEmpty : 0 < d.rawAcls.len) :
    Valid d.arrays d.rawAcls ∧ d.raw.length = d.rawAcls.len := by
  have notMore := d.rawSound.lenLeCap
  have valid := d.rawSound.valid.resolve_right (by omega)
  exact ⟨valid, valid.length_read⟩

variable {grow : Nat -> Nat} {grows : ∀ len, len < grow len}

theorem unchanged_iff_of_delInside {index : Nat} {inside : index ≤ d.rawAcls.len}
    (notLast : index + 1 < d.rawAcls.len)
    (failed : d.delInside env grow grows index inside = some (.error after)) :
    (after.raw = d.raw ∧ after.tables.toDdbs = d.tables.toDdbs ∧ after.interest = d.interest) ↔
      (AclCall.del (index + 1 : Nat) : AclCall d).KeepsRaw ∧
        (AclCall.del (index + 1 : Nat) : AclCall d).KeepsPolicies env := by
  obtain ⟨valid, length⟩ := d.length_raw (by omega)
  have behind : index + (d.raw.drop (index + 1)).length = d.rawAcls.len - 1 := by
    rw [List.length_drop, length]
    omega
  refine unchanged_iff_of_error failed ?_ ?_
  · rw [read_appendAll (d.rawSound.front inside), read_front inside]
    exact congrArg _ (List.eraseIdx_eq_take_drop_succ ..).symm
  · rw [appendAll_front d.rawSound (by omega),
      read_overwritten valid (by omega), behind, ← length]
    exact @overwritten_eq_iff d.raw index (by omega)

theorem unchanged_iff_of_del {id : Int}
    (failed : d.delAcl env grow grows id = some (.error after)) :
    (after.raw = d.raw ∧ after.tables.toDdbs = d.tables.toDdbs ∧ after.interest = d.interest) ↔
      (AclCall.del id : AclCall d).KeepsRaw ∧ (AclCall.del id : AclCall d).KeepsPolicies env := by
  unfold DdbsState.delAcl at failed
  split_ifs at failed with inside isLast
  · obtain ⟨valid, length⟩ := d.length_raw (by omega)
    refine unchanged_iff_of_error failed ?_ ?_
    · rw [read_front (by omega)]
      have erased : d.raw.eraseIdx (id.toNat - 1) = d.raw.take (id.toNat - 1) := by
        rw [List.eraseIdx_eq_take_drop_succ, List.drop_eq_nil_of_le (by omega), List.append_nil]
      exact congrArg _ erased.symm
    · have one : d.raw.drop (id.toNat - 1) = [d.raw[id.toNat - 1]] := by
        rw [List.drop_eq_getElem_cons (by omega), List.drop_eq_nil_of_le (by omega)]
      refine iff_of_true rfl ?_
      rw [AclCall.KeepsRaw, one]
      simp
  · obtain ⟨index, rfl⟩ : ∃ index : Nat, id = (index + 1 : Nat) := ⟨id.toNat - 1, by omega⟩
    exact unchanged_iff_of_delInside (by omega) failed
  · cases failed

/-- A call that returns an error leaves raw ACLs, tables and interest ports as
they were exactly if it does not delete an ACL in front of another one, and the
ACLs in the tables keep their policies when they are compiled again. -/
theorem failedCall_unchanged_iff (env : BuildEnv) (grow : Nat -> Nat)
    (grows : ∀ len, len < grow len) (d : DdbsState) (call : AclCall d) (after : DdbsState)
    (failed : call.run env grow grows = some (.error after)) :
    (after.raw = d.raw ∧ after.tables.toDdbs = d.tables.toDdbs ∧ after.interest = d.interest) ↔
      call.KeepsRaw ∧ call.KeepsPolicies env := by
  cases call with
  | update acls sound check => exact unchanged_iff_of_error failed rfl (iff_of_true rfl trivial)
  | add acl =>
    refine unchanged_iff_of_error failed ?_ (iff_of_true ?_ trivial)
    · rw [read_append d.rawSound.valid]
      rfl
    · exact read_append_self d.rawSound grow acl
  | del id => exact unchanged_iff_of_del failed

/-- The process has more memory than its limit. -/
def exceededEnv : BuildEnv :=
  { lastLevelEnv with memoryLimit := 100 }

/-- Three ACLs in a full array. -/
def threeAcls : DdbsState where
  tables := lastLevelTables
  arrays := ⟨fun _ => [0, 1, 2], 1⟩
  rawAcls := ⟨0, 3, 3⟩
  interest := ⟨fun _ => ⟨0, 0⟩⟩
  rawSound := ⟨by decide, .inl ⟨by decide, by decide⟩⟩

/-- The first ACL is deleted and the last one stays twice, although the update
has failed. -/
theorem delAcl_failed_overwrites :
    ∃ after, (AclCall.del 1 : AclCall threeAcls).run exceededEnv (· + 1)
        Nat.lt_succ_self = some (.error after) ∧
      threeAcls.raw = [0, 1, 2] ∧ after.raw = [1, 2, 2] :=
  ⟨_, rfl, rfl, rfl⟩

/-- The memory is short at the second reading only. -/
def fillingEnv : BuildEnv :=
  { lastLevelEnv with readings := fun reading => if reading = 1 then 900 else 0 }

/-- Two of the three ACLs have nodes in the tables, and their own actions in
their policies. -/
def keptAcls : DdbsState :=
  { threeAcls with tables := { lastLevelTables with
      acls := fun acl =>
        { id := BitVec.ofNat 32 (acl + 1)
          npbActions := [⟨BitVec.ofNat 64 acl, [7]⟩]
          srcPortRange := [⟨80, 80⟩]
          dstPortRange := [⟨443, 443⟩]
          policy := ⟨[⟨BitVec.ofNat 64 acl, [7]⟩], BitVec.ofNat 32 (acl + 1), 0⟩ }
      built := [⟨0, [⟨.blank, .blank⟩], []⟩, ⟨1, [⟨.blank, .blank⟩], []⟩] } }

/-- The first ACL is compiled again before the memory is short. -/
theorem failedCall_unchanged_iff_keptAcls :
    ∃ after, (AclCall.add 3 : AclCall keptAcls).run fillingEnv (· + 1)
        Nat.lt_succ_self = some (.error after) ∧
      admittedAcls fillingEnv keptAcls.tables.acls 0
        ((AclCall.add 3 : AclCall keptAcls).generateAcls fillingEnv) = [0] ∧
      after.raw = keptAcls.raw ∧ after.tables.toDdbs = keptAcls.tables.toDdbs ∧
      after.interest = keptAcls.interest := by
  refine ⟨_, rfl, by decide +kernel, (failedCall_unchanged_iff fillingEnv (· + 1)
    Nat.lt_succ_self keptAcls (.add 3) _ rfl).mpr ⟨trivial, ?_⟩⟩
  unfold AclCall.KeepsPolicies
  decide +kernel

end Metaflow.Policy
