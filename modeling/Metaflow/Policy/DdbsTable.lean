import Metaflow.Policy.DdbsLevels

/-!
# Installing the tables

`generateDdbsTable` of `ddbs.go` installs the vectors that the loop over the
levels ends with. The loop also ends when the last level is reached, so the
vectors need not be ones that the memory check has accepted.
-/

namespace Metaflow.Policy

open Library Datatype
open LevelState

/-- The nodes of an ACL when the tables were built, which are not changed later;
the items point to them and to the ACL's policy. -/
structure BuiltAcl where
  acl : Nat
  nodes : List (MatchNode matchedFieldLen)
  nodes6 : List (MatchNode matchedField6Len)

/-- The ACLs, the level and what the tables are made of. -/
structure DdbsTables where
  acls : AclHeap
  currentLevel : Nat
  vectors : Vectors
  built : List BuiltAcl
  maxBucket : Nat

namespace DdbsTables

/-- The ACL that a part of the tables leads to, with the policy it has now. -/
def builtAcl (d : DdbsTables) (entry : BuiltAcl) : Acl :=
  { d.acls entry.acl with fieldLink := entry.nodes, field6Link := entry.nodes6 }

def builtAcls (d : DdbsTables) : List Acl :=
  d.built.map d.builtAcl

/-- The tables as they are read through their pointers. -/
def toDdbs (d : DdbsTables) : Ddbs where
  vector := d.vectors.vector
  table := (TableBuild.run d.vectors.vector Acl.fieldLink d.builtAcls).table
  vector6 := d.vectors.vector6
  table6 := (TableBuild.run d.vectors.vector6 Acl.field6Link d.builtAcls).table
  maxBucket := d.maxBucket

/-- The last statements of `generateDdbsTable`. -/
def install (d : DdbsTables) (vectors : Vectors) (acls : List Nat) : DdbsTables :=
  let ddbs := { d.toDdbs with vector := vectors.vector, vector6 := vectors.vector6 }
  let values := acls.map d.acls
  { d with
    vectors := vectors
    built := acls.map fun acl =>
      ⟨acl, (d.acls acl).fieldLink, (d.acls acl).field6Link⟩
    maxBucket := ((ddbs.generateVectorTable values).generateVectorTable6
      values).maxBucket }

/-- The state with the checks of the loop; an error leaves ACLs and level as
they were reached. -/
def generateDdbsTable (env : BuildEnv) (d : DdbsTables) (acls : List Nat) :
    Option (Except DdbsTables (DdbsTables × List LevelCheck)) :=
  match generateAclBits env ⟨d.acls, 0⟩ acls with
  | none => none
  | some (.error bits) => some (.error { d with acls := bits.acls })
  | some (.ok bits) =>
    match levelLoop env (acls.map bits.acls) levelFuel (.start d.currentLevel bits.used) with
    | none => none
    | some (.error s) => some (.error { d with acls := bits.acls, currentLevel := s.currentLevel })
    | some (.ok s) =>
      some (.ok
        (DdbsTables.install { d with acls := bits.acls, currentLevel := s.currentLevel }
          s.vectors acls, s.checks))

/-- The installed tables are the ones that `generateVectorTable` and
`generateVectorTable6` build. -/
theorem toDdbs_install (d : DdbsTables) (vectors : Vectors) (acls : List Nat) :
    (d.install vectors acls).toDdbs = (Ddbs.generateVectorTable
        { d.toDdbs with vector := vectors.vector, vector6 := vectors.vector6 }
        (acls.map d.acls)).generateVectorTable6 (acls.map d.acls) := by
  have same : (d.install vectors acls).builtAcls = acls.map d.acls := by
    simp only [builtAcls, install, List.map_map]
    rfl
  simp only [toDdbs, same]
  rfl

end DdbsTables

section Loop

variable {env : BuildEnv} {acls : List Acl}

/-- The memory check of the vectors of a level, at a reading. -/
def AcceptsAt (env : BuildEnv) (acls : List Acl) (level used : Nat) : Prop :=
  ∃ vectors,
    buildVectors acls (shrinkVector (matchedSum acls >>> level) maskVectorMaxSize) = some vectors ∧
    (memoryCheck env used vectors.memorySize).1 = true

/-- No check was accepted. -/
def AllRejected (s : LevelState) : Prop :=
  ∀ check ∈ s.checks, check.ok = false

/-- The vectors were accepted. -/
def Accepted (s : LevelState) : Prop :=
  ∃ check ∈ s.checks, check.ok = true ∧ check.vectors = s.vectors

variable {s : LevelState} {used fuel : Nat}

theorem AllRejected.not_accepted (rejected : AllRejected s) : ¬ Accepted s := by
  rintro ⟨check, mem, ok, _⟩
  rw [rejected check mem] at ok
  cases ok

/-- What the loop body does up to the memory check. -/
structure Measures (env : BuildEnv) (acls : List Acl) (s after : LevelState) : Prop where
  level : after.currentLevel =
    (getVectorSize env.level s.currentLevel env.memoryLimit acls (!s.ok)).1
  checks : after.checks = s.checks ++ [⟨after.currentLevel, after.vectors, after.ok⟩]
  size : after.vectorSize ≠ 0
  accepts : after.ok = true ↔ AcceptsAt env acls after.currentLevel s.used
  used : after.ok = false -> after.used = s.used + 1

theorem used_memoryCheck (rejected : (memoryCheck env used size).1 = false) :
    (memoryCheck env used size).2 = used + 1 := by
  unfold memoryCheck at rejected ⊢
  split_ifs at rejected ⊢
  rfl

variable {after : LevelState}

theorem LevelState.measures (measured : s.measure env acls = some after) :
    Measures env acls s after := by
  obtain ⟨vectors, isBuilt, rfl⟩ := Option.map_eq_some_iff.mp measured
  refine ⟨rfl, rfl, ?_, ⟨fun ok => ⟨vectors, isBuilt, ok⟩, ?_⟩, used_memoryCheck⟩
  · have atLeast := (getVectorSize_bounds env.level s.currentLevel env.memoryLimit acls (!s.ok)).1
    exact Nat.ne_of_gt (Nat.lt_of_lt_of_le (by decide) atLeast)
  · rintro ⟨others, isOther, ok⟩
    obtain rfl := Option.some.inj (isBuilt.symm.trans isOther)
    exact ok

/-- Accepted vectors end the loop. -/
theorem Measures.accepted (measures : Measures env acls s after) :
    after.ok = true -> Accepted after := by
  intro ok
  refine ⟨⟨after.currentLevel, after.vectors, after.ok⟩, ?_, ok, rfl⟩
  rw [measures.checks]
  exact List.mem_append_right _ (List.mem_singleton_self _)

theorem Measures.rejected (measures : Measures env acls s after)
    (rejected : AllRejected s) (notOk : after.ok = false) : AllRejected after := by
  intro check mem
  rw [measures.checks] at mem
  rcases List.mem_append.mp mem with mem | mem
  · exact rejected check mem
  · rw [List.mem_singleton.mp mem]
    exact notOk

theorem levelLoop_of_not_loops (ends : s.loops = false)
    (ran : levelLoop env acls fuel s = some (.ok after)) : after = s := by
  cases fuel with
  | zero => cases ran
  | succ fuel =>
    rw [levelLoop, ends] at ran
    cases ran
    rfl

/-- The ways in which a turn of the loop leads to a result without error. -/
theorem levelLoop_cases (loops : s.loops = true)
    (ran : levelLoop env acls (fuel + 1) s = some (.ok after)) :
    ∃ middle, Measures env acls s middle ∧ (middle.ok = true ∧ after = middle ∨
        middle.ok = false ∧ middle.currentLevel < levelMax ∧ levelLoop env acls fuel
            { middle with currentLevel := middle.currentLevel + 1 } = some (.ok after)) := by
  rw [levelLoop, if_pos loops] at ran
  split at ran
  · cases ran
  · rename_i middle measured
    have measures := measures measured
    refine ⟨middle, measures, ?_⟩
    split_ifs at ran with ok raise
    · refine .inl ⟨ok, levelLoop_of_not_loops ?_ ran⟩
      simp [LevelState.loops, ok, measures.size]
    · refine .inr ⟨by simpa using ok, ?_, ran⟩
      simp only [canRaise, Bool.and_eq_true] at raise
      exact of_decide_eq_true raise.1
    · cases ran

/-- After a rejected try the later ones count. -/
theorem exists_attempt_succ (rejected : ¬ AcceptsAt env acls level used) :
    (∃ attempt, level + 1 + attempt < levelMax ∧
        AcceptsAt env acls (level + 1 + attempt) (used + 1 + attempt)) ↔
      ∃ attempt, level + attempt < levelMax ∧
        AcceptsAt env acls (level + attempt) (used + attempt) := by
  constructor
  · rintro ⟨attempt, inside, accepts⟩
    refine ⟨attempt + 1, by omega, ?_⟩
    rwa [Nat.add_right_comm, Nat.add_right_comm used] at accepts
  · rintro ⟨attempt, inside, accepts⟩
    cases attempt with
    | zero => exact absurd accepts rejected
    | succ attempt =>
      refine ⟨attempt, by omega, ?_⟩
      rwa [Nat.add_right_comm, Nat.add_right_comm used]

/-- From a rejected level on, vectors are accepted exactly if those of a later
one before the last are. -/
theorem levelLoop_accepted_iff (notOk : s.ok = false)
    (rejected : AllRejected s) (ran : levelLoop env acls fuel s = some (.ok after)) :
    Accepted after ↔ ∃ attempt, s.currentLevel + attempt < levelMax ∧
      AcceptsAt env acls (s.currentLevel + attempt) (s.used + attempt) := by
  induction fuel generalizing s with
  | zero => cases ran
  | succ fuel ih =>
    by_cases below : s.currentLevel < levelMax
    · have loops : s.loops = true := by simp [loops, below, notOk]
      obtain ⟨middle, measures, rest⟩ := levelLoop_cases loops ran
      have sameLevel : middle.currentLevel = s.currentLevel := by
        rw [measures.level, notOk]
        simp [getVectorSize]
      have accepts := measures.accepts
      rw [sameLevel] at accepts
      rcases rest with ⟨ok, rfl⟩ | ⟨notAccepted, _, ranRest⟩
      · exact iff_of_true (measures.accepted ok) ⟨0, below, accepts.mp ok⟩
      · have later := ih (s := { middle with currentLevel := middle.currentLevel + 1 })
          notAccepted (measures.rejected rejected notAccepted) ranRest
        simp only [sameLevel, measures.used notAccepted] at later
        rw [later]
        refine exists_attempt_succ fun acceptsHere => ?_
        rw [accepts.mpr acceptsHere] at notAccepted
        cases notAccepted
    · have ends : s.loops = false := by simp [loops, below]
      obtain rfl := levelLoop_of_not_loops ends ran
      exact iff_of_false rejected.not_accepted fun ⟨attempt, inside, _⟩ =>
        below (by omega)

/-- The level of the first try. -/
def firstLevel (env : BuildEnv) (acls : List Acl) (currentLevel : Nat) : Nat :=
  (getVectorSize env.level currentLevel env.memoryLimit acls false).1

/-- The memory check accepts the first try or a later one before the last
level. -/
def SomeLevelFits (env : BuildEnv) (acls : List Acl) (currentLevel used : Nat) : Prop :=
  currentLevel < levelMax ∧
    ∃ attempt, (attempt = 0 ∨ firstLevel env acls currentLevel + attempt < levelMax) ∧
      AcceptsAt env acls (firstLevel env acls currentLevel + attempt) (used + attempt)

theorem levelLoop_start_accepted_iff {currentLevel : Nat}
    (ran : levelLoop env acls fuel (.start currentLevel used) = some (.ok after)) :
    Accepted after ↔ SomeLevelFits env acls currentLevel used := by
  have noChecks : AllRejected (.start currentLevel used) := fun _ mem => (by cases mem)
  by_cases below : currentLevel < levelMax
  · cases fuel with
    | zero => cases ran
    | succ fuel =>
      have loops : (start currentLevel used).loops = true := by simp [loops, start, below]
      obtain ⟨middle, measures, rest⟩ := levelLoop_cases loops ran
      have level : middle.currentLevel = firstLevel env acls currentLevel := measures.level
      have accepts := measures.accepts
      rw [level] at accepts
      rcases rest with ⟨ok, rfl⟩ | ⟨notAccepted, notLast, ranRest⟩
      · exact iff_of_true (measures.accepted ok) ⟨below, 0, .inl rfl, accepts.mp ok⟩
      · have rejectedHere : ¬ AcceptsAt env acls (firstLevel env acls currentLevel) used := by
          intro acceptsHere
          rw [accepts.mpr acceptsHere] at notAccepted
          cases notAccepted
        have later := levelLoop_accepted_iff
          (s := { middle with currentLevel := middle.currentLevel + 1 })
          notAccepted (measures.rejected noChecks notAccepted) ranRest
        have isUsed : middle.used = used + 1 := measures.used notAccepted
        simp only [level, isUsed] at later
        rw [later, exists_attempt_succ rejectedHere, SomeLevelFits, and_iff_right below]
        rw [level] at notLast
        refine exists_congr fun attempt => and_congr_left fun _ => ?_
        constructor
        · exact .inr
        · rintro (rfl | inside)
          · exact notLast
          · exact inside
  · have ends : (start currentLevel used).loops = false := by simp [loops, start, below]
    obtain rfl := levelLoop_of_not_loops ends ran
    exact iff_of_false noChecks.not_accepted fun fits => below fits.1

/-- The links of the ACLs are counted without wrapping around. -/
def Counted (acls : List Acl) : Prop :=
  ∀ acl ∈ acls, acl.fieldLink.length < 4294967296 ∧ acl.field6Link.length < 4294967296

/-- Vectors of at most 16 ascending bits of their fields. -/
def Vectors.OfBits (vectors : Vectors) : Prop :=
  (∃ bits, vectors.vector = .ofBits bits) ∧ ∃ bits, vectors.vector6 = .ofBits bits

theorem Vectors.ofBits_zero : Vectors.zero.OfBits :=
  ⟨⟨⟨[], .nil, Nat.zero_le _, by simp⟩, rfl⟩, ⟨[], .nil, Nat.zero_le _, by simp⟩, rfl⟩

theorem PicksBits.exists_ofBits {vector : MaskVector words}
    (picks : PicksBits bitsLen size vector) (few : size ≤ 16)
    (inside : bitsLen ≤ 64 * words) : ∃ bits, vector = .ofBits bits := by
  refine ⟨⟨vector.vectorBits, picks.ascending, picks.length.trans_le few,
    fun bit mem => (picks.valid bit mem).trans_le inside⟩, ?_⟩
  obtain ⟨maskMinBit, maskMaxBit, vectorBits, maskVector⟩ := vector
  simp only [MaskVector.ofBits, VectorBits.minBit, VectorBits.maxBit, VectorBits.maskVector,
    picks.first, picks.last, Option.getD_some, ← picks.mask]

theorem buildVectors_spec (counted : Counted acls) {vectorSize : Nat} (lower : 3 ≤ vectorSize)
    (upper : vectorSize ≤ maskVectorMaxSize) :
    ∃ vectors, buildVectors acls vectorSize = some vectors ∧ vectors.OfBits := by
  have few : vectorSize ≤ 16 := upper
  obtain ⟨table, isTable, holds⟩ := sortTableOf_eq
    (countBits_le Acl.fieldLink fun acl mem => (counted acl mem).1)
    matchedFieldBitsLen
  obtain ⟨table6, isTable6, holds6⟩ := sortTableOf_eq
    (countBits_le Acl.field6Link fun acl mem => (counted acl mem).2)
    matchedField6BitsLen
  obtain ⟨vector, isVector, picks⟩ := @generateMaskVector_eq matchedFieldLen _ _ _
    holds (by decide) (by omega) (Nat.le_trans few (by decide))
  obtain ⟨vector6, isVector6, picks6⟩ := @generateMaskVector_eq matchedField6Len _ _ _
    holds6 (by decide) (by omega) (Nat.le_trans few (by decide))
  simp only [buildVectors, generateSortTable, generateSortTable6, isTable, isTable6, isVector,
    isVector6, Option.bind_eq_bind, Option.bind_some]
  exact ⟨_, rfl, picks.exists_ofBits few (by decide), picks6.exists_ofBits few (by decide)⟩

theorem LevelState.measure_spec (counted : Counted acls) (s : LevelState) :
    ∃ after, s.measure env acls = some after ∧ after.vectors.OfBits := by
  obtain ⟨lower, upper⟩ := getVectorSize_bounds env.level s.currentLevel
    env.memoryLimit acls (!s.ok)
  obtain ⟨vectors, isBuilt, ofBits⟩ := buildVectors_spec counted lower upper
  exact ⟨_, by rw [measure, isBuilt, Option.map_some], ofBits⟩

/-- The loop ends, with vectors of ascending bits if it succeeds. -/
def Ends (result : Option (Except LevelState LevelState)) : Prop :=
  ∃ outcome, result = some outcome ∧ ∀ s, outcome = .ok s -> s.vectors.OfBits

theorem ends_of_not_loops (ends : s.loops = false) (ofBits : s.vectors.OfBits) :
    Ends (levelLoop env acls (fuel + 1) s) := by
  rw [levelLoop, ends]
  refine ⟨_, rfl, ?_⟩
  rintro _ ⟨⟩
  exact ofBits

/-- One turn and what comes after it. -/
theorem ends_of_next (counted : Counted acls) (ofBits : s.vectors.OfBits)
    (next : ∀ middle, Measures env acls s middle -> middle.ok = false -> middle.vectors.OfBits ->
      Ends (levelLoop env acls (fuel + 1)
        { middle with currentLevel := middle.currentLevel + 1 })) :
    Ends (levelLoop env acls (fuel + 2) s) := by
  cases loops : s.loops with
  | false => exact ends_of_not_loops loops ofBits
  | true =>
    obtain ⟨middle, measured, middleOfBits⟩ := @LevelState.measure_spec env acls counted s
    have measures := measures measured
    rw [levelLoop, if_pos loops]
    simp only [measured]
    split_ifs with ok raise
    · exact ends_of_not_loops (by simp [LevelState.loops, ok, measures.size]) middleOfBits
    · exact next middle measures (by simpa using ok) middleOfBits
    · exact ⟨_, rfl, by simp⟩

theorem levelLoop_ends (counted : Counted acls) (notOk : s.ok = false)
    (ofBits : s.vectors.OfBits) (enough : levelMax ≤ fuel + s.currentLevel) :
    Ends (levelLoop env acls (fuel + 1) s) := by
  induction fuel generalizing s with
  | zero =>
    refine ends_of_not_loops ?_ ofBits
    simp [loops, Nat.not_lt.mpr (by omega : levelMax ≤ s.currentLevel)]
  | succ fuel ih =>
    refine ends_of_next counted ofBits fun middle measures rejected ofBits => ?_
    have sameLevel : middle.currentLevel = s.currentLevel := by
      rw [measures.level, notOk]
      simp [getVectorSize]
    exact ih rejected ofBits (by simp only [sameLevel]; omega)

/-- The lookups of a table merge what a scan over all nodes of the ACLs merges. -/
def Scans {words : Nat} (link : Acl -> List (MatchNode words)) (acls : List Acl)
    (lookup : (BitVec 16 -> BitVec 16) -> MatchedField words -> DirectionType ->
      Option PolicyData -> Option (Option PolicyData)) : Prop :=
  ∀ tunnelIpIdMap key direction portPolicy, lookup tunnelIpIdMap key direction portPolicy =
    (scannedItems link acls key).foldlM (mergeItem tunnelIpIdMap direction) portPolicy

/-- Once the ACLs are compiled, an error is returned or tables are installed
that stand for a scan, whatever the readings and the level. -/
theorem DdbsTables.generateDdbsTable_scans {d : DdbsTables} {refs : List Nat} {bits : AclBits}
    (compiled : generateAclBits env ⟨d.acls, 0⟩ refs = some (.ok bits))
    (counted : Counted (refs.map bits.acls)) :
    ∃ result, d.generateDdbsTable env refs = some result ∧
      ∀ after checks, result = .ok (after, checks) ->
        Scans Acl.fieldLink (refs.map bits.acls) after.toDdbs.getPolicyFromTable ∧
        Scans Acl.field6Link (refs.map bits.acls) after.toDdbs.getPolicyFromTable6 := by
  obtain ⟨outcome, looped, ofBits⟩ : Ends (levelLoop env (refs.map bits.acls) levelFuel
      (.start d.currentLevel bits.used)) :=
    ends_of_next counted Vectors.ofBits_zero fun middle _ rejected ofBits =>
      levelLoop_ends counted rejected ofBits (Nat.le_add_right ..)
  rw [generateDdbsTable, compiled]
  simp only [looped]
  cases outcome with
  | error s => exact ⟨_, rfl, by simp⟩
  | ok s =>
    refine ⟨_, rfl, ?_⟩
    rintro _ _ ⟨⟩
    rw [toDdbs_install]
    obtain ⟨⟨vector, isVector⟩, ⟨vector6, isVector6⟩⟩ := ofBits s rfl
    constructor
    · rw [isVector]
      exact fun _ key _ _ => (lookupTable_run _ vector _ _ key _ _).2
    · rw [isVector6]
      exact fun _ key _ _ => (lookupTable_run _ vector6 _ _ key _ _).2

end Loop

/-- Whenever tables are installed, the check has accepted their vectors exactly
if the level was not the last one and the first try or one at a later level
below the last one is accepted. -/
theorem generateDdbsTable_accepted_iff (env : BuildEnv) (d : DdbsTables) (acls : List Nat)
    (after : DdbsTables) (checks : List LevelCheck)
    (returned : d.generateDdbsTable env acls = some (.ok (after, checks))) :
    (∃ check ∈ checks, check.ok = true ∧ check.vectors = after.vectors) ↔
      ∃ bits, generateAclBits env ⟨d.acls, 0⟩ acls = some (.ok bits) ∧
        SomeLevelFits env (acls.map bits.acls) d.currentLevel bits.used := by
  unfold DdbsTables.generateDdbsTable at returned
  split at returned
  · cases returned
  · cases returned
  · rename_i bits compiled
    split at returned
    · cases returned
    · cases returned
    · rename_i s looped
      cases returned
      have accepted := levelLoop_start_accepted_iff looped
      constructor
      · intro held
        exact ⟨bits, compiled, accepted.mp held⟩
      · rintro ⟨others, isOther, fits⟩
        rw [compiled] at isOther
        cases isOther
        exact accepted.mpr fits

/-- An operator that is configured with the last level. -/
def lastLevelEnv : BuildEnv where
  groupIpMap := fun _ => []
  level := 16
  memoryLimit := 1000
  tunnelIpIdMap := id
  readings := fun _ => 900

def lastLevelTables : DdbsTables where
  acls := fun _ => {}
  currentLevel := 16
  vectors := .zero
  built := []
  maxBucket := 0

/-- No memory check is made at the last level. -/
theorem generateDdbsTable_unchecked :
    ∃ after, lastLevelTables.generateDdbsTable lastLevelEnv [0] = some (.ok (after, [])) ∧
      ¬ ∃ check ∈ ([] : List LevelCheck), check.ok = true ∧ check.vectors = after.vectors :=
  ⟨_, rfl, by simp⟩

/-- Whether a build succeeds with a property of its result is decidable. -/
instance decidableOk {holds : α -> Prop} [DecidablePred holds] :
    (result : Option (Except ε α)) -> Decidable (∃ value, result = some (.ok value) ∧ holds value)
  | some (.ok value) => decidable_of_iff (holds value)
      ⟨fun held => ⟨value, rfl, held⟩, fun ⟨_, isValue, held⟩ => by cases isValue; exact held⟩
  | some (.error _) => .isFalse fun ⟨_, isValue, _⟩ => by cases isValue
  | none => .isFalse fun ⟨_, isValue, _⟩ => by cases isValue

/-- An operator with room for tables of 16 items, configured with level 2. -/
def roomyEnv : BuildEnv :=
  { lastLevelEnv with level := 2, memoryLimit := 3000, readings := fun _ => 0 }

/-- ACLs for the packets from port 80. -/
def webTables : DdbsTables :=
  { lastLevelTables with
    acls := fun acl => { id := BitVec.ofNat 32 (acl + 1), srcPortRange := [⟨80, 80⟩] }
    currentLevel := 2 }

theorem generateDdbsTable_accepted_iff_twoAcls :
    ∃ after checks, webTables.generateDdbsTable roomyEnv [0, 1] = some (.ok (after, checks)) ∧
      after.built.map (·.nodes.length) = [1, 1] ∧
      (∃ check ∈ checks, check.ok = true ∧ check.vectors = after.vectors) ∧
      ∃ bits, generateAclBits roomyEnv ⟨webTables.acls, 0⟩ [0, 1] = some (.ok bits) ∧
        SomeLevelFits roomyEnv ([0, 1].map bits.acls) webTables.currentLevel bits.used := by
  obtain ⟨⟨after, checks⟩, returned, nodes, accepted⟩ :
      ∃ installed : DdbsTables × List LevelCheck,
        webTables.generateDdbsTable roomyEnv [0, 1] = some (.ok installed) ∧
        installed.1.built.map (·.nodes.length) = [1, 1] ∧
        ∃ check ∈ installed.2, check.ok = true ∧ check.vectors = installed.1.vectors := by
    decide +kernel
  exact ⟨after, checks, returned, nodes, accepted,
    (generateDdbsTable_accepted_iff _ _ _ _ _ returned).mp accepted⟩

theorem generateDdbsTable_scans_twoAcls :
    ∃ bits after checks, generateAclBits roomyEnv ⟨webTables.acls, 0⟩ [0, 1] = some (.ok bits) ∧
      webTables.generateDdbsTable roomyEnv [0, 1] = some (.ok (after, checks)) ∧
      after.built.map (·.nodes.length) = [1, 1] ∧
      Scans Acl.fieldLink ([0, 1].map bits.acls) after.toDdbs.getPolicyFromTable := by
  obtain ⟨bits, compiled, counted⟩ : ∃ bits,
      generateAclBits roomyEnv ⟨webTables.acls, 0⟩ [0, 1] = some (.ok bits) ∧
      ∀ acl ∈ [0, 1].map bits.acls,
        acl.fieldLink.length < 4294967296 ∧ acl.field6Link.length < 4294967296 := by
    decide +kernel
  obtain ⟨⟨after, checks⟩, returned, nodes⟩ : ∃ installed : DdbsTables × List LevelCheck,
      webTables.generateDdbsTable roomyEnv [0, 1] = some (.ok installed) ∧
      installed.1.built.map (·.nodes.length) = [1, 1] := by
    decide +kernel
  obtain ⟨result, isResult, scans⟩ := DdbsTables.generateDdbsTable_scans compiled counted
  have isInstalled := Option.some.inj (isResult.symm.trans returned)
  exact ⟨bits, after, checks, compiled, returned, nodes, (scans after checks isInstalled).1⟩

end Metaflow.Policy
