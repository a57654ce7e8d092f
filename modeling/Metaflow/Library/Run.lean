import Mathlib.Data.List.Basic

/-!
# Runs of fallible state machines

A program is a step function that may fail (`none`) and answers every operation
with a result. `simulates` is the one induction over runs that the refinement
results need: a relation kept by every guarded step carries over to whole runs.
-/

namespace Metaflow.Library

open List

variable {σ α ο ρ : Type*}

theorem some_bind {α β : Type u} (value : α) (next : α -> Option β) :
    (some value >>= next) = next value := rfl

theorem bind_eq_some {α β : Type u} {first : Option α} {next : α -> Option β} {result : β} :
    (first >>= next) = some result ↔ ∃ value, first = some value ∧ next value = some result :=
  Option.bind_eq_some_iff

/-- Run a list of operations, collecting the results. -/
def runSteps (step : σ -> ο -> Option (σ × ρ)) : σ -> List ο -> Option (σ × List ρ)
  | state, [] => some (state, [])
  | state, operation :: rest =>
    match step state operation with
    | none => none
    | some (state', result) =>
      match runSteps step state' rest with
      | none => none
      | some (final, results) => some (final, result :: results)

/-- Run a total machine. -/
def runTotal (step : α -> ο -> α × ρ) : α -> List ο -> α × List ρ
  | state, [] => (state, [])
  | state, operation :: rest =>
    let (state', result) := step state operation
    let (final, results) := runTotal step state' rest
    (final, result :: results)

/-- Every step of the run starts in a state that meets the guard. -/
def Guarded (guard : σ -> ο -> Prop) (step : σ -> ο -> Option (σ × ρ)) : σ -> List ο -> Prop
  | _, [] => True
  | state, operation :: rest =>
    guard state operation ∧
      ∀ state' result, step state operation = some (state', result) ->
        Guarded guard step state' rest

section Loops

variable {step : σ -> ο -> Option σ} {items : List ο}

/-- A loop whose steps do not fail on its items does not fail. -/
theorem foldlM_isSome (total : ∀ state, ∀ item ∈ items, (step state item).isSome) (state : σ) :
    (items.foldlM step state).isSome := by
  induction items generalizing state with
  | nil => rfl
  | cons item items ih =>
    obtain ⟨next, stepped⟩ := Option.isSome_iff_exists.mp (total state item (by simp))
    rw [foldlM_cons, stepped]
    exact ih (fun state other mem => total state other (by simp [mem])) next

/-- What the steps of a loop keep, with the items they have taken. -/
theorem foldlM_of_history {invariant : σ -> List ο -> Prop}
    (stepKeeps : ∀ state history item next, invariant state history ->
      step state item = some next -> invariant next (history ++ [item]))
    {history : List ο} {state after : σ} (holds : invariant state history)
    (ran : items.foldlM step state = some after) : invariant after (history ++ items) := by
  induction items generalizing state history with
  | nil =>
    cases ran
    rwa [append_nil]
  | cons item items ih =>
    rw [foldlM_cons] at ran
    obtain ⟨next, stepped, ranRest⟩ := Option.bind_eq_some_iff.mp ran
    have kept := ih (stepKeeps state history item next holds stepped) ranRest
    rwa [append_assoc] at kept

/-- A loop that does not fail has done a step for each item. -/
theorem exists_step_of_foldlM (ran : items.foldlM step state = some final) :
    ∀ item ∈ items, ∃ before after, step before item = some after := by
  induction items generalizing state with
  | nil => simp
  | cons item items ih =>
    rw [foldlM_cons] at ran
    obtain ⟨next, stepped, remaining⟩ := Option.bind_eq_some_iff.mp ran
    rw [forall_mem_cons]
    exact ⟨⟨state, next, stepped⟩, ih remaining⟩

/-- A map whose calls do not fail does not fail, and each result has what is
known of its call. -/
theorem mapM_spec (call : ο -> Option ρ) (items : List ο) (known : Nat -> ρ -> Prop)
    (total : ∀ index (inside : index < items.length),
      ∃ result, call items[index] = some result ∧ known index result) :
    ∃ results, items.mapM call = some results ∧ results.length = items.length ∧
      ∀ index result, results[index]? = some result -> known index result := by
  induction items generalizing known with
  | nil => exact ⟨[], rfl, rfl, by simp⟩
  | cons item items ih =>
    obtain ⟨first, called, knownFirst⟩ := total 0 (by simp)
    obtain ⟨rest, mapped, sameLength, knownRest⟩ := ih _
      fun index inside => total (index + 1) (by simpa using inside)
    refine ⟨first :: rest, ?_, by simp [sameLength], ?_⟩
    · rw [mapM_cons, show call item = some first from called, mapped]
      rfl
    · intro index result found
      cases index with
      | zero =>
        obtain rfl : first = result := by simpa using found
        exact knownFirst
      | succ index => exact knownRest index result (by simpa using found)

/-- The results of a map that does not fail are the results of its calls. -/
theorem forall₂_of_mapM (mapped : items.mapM call = some results) :
    List.Forall₂ (fun item result => call item = some result) items results := by
  induction items generalizing results with
  | nil =>
    cases mapped
    exact .nil
  | cons item items ih =>
    rw [mapM_cons] at mapped
    obtain ⟨first, called, others⟩ := Option.bind_eq_some_iff.mp mapped
    obtain ⟨rest, mappedRest, result⟩ := Option.bind_eq_some_iff.mp others
    rw [← Option.some.inj result]
    exact .cons called (ih mappedRest)

end Loops

variable {step : σ -> ο -> Option (σ × ρ)} {guard : σ -> ο -> Prop} {state state' final : σ}
  {operation : ο} {operations : List ο} {result : ρ}

@[simp] theorem runSteps_nil (step : σ -> ο -> Option (σ × ρ)) (state : σ) :
    runSteps step state [] = some (state, []) := rfl

theorem runTotal_cons (step : α -> ο -> α × ρ) (state : α) (operation : ο) (rest : List ο) :
    runTotal step state (operation :: rest) = ((runTotal step (step state operation).1 rest).1,
        (step state operation).2 :: (runTotal step (step state operation).1 rest).2) := rfl

theorem runSteps_cons_of_step (stepped : step state operation = some (state', result))
    (rest : List ο) : runSteps step state (operation :: rest) =
      (runSteps step state' rest).map fun (final, results) =>
        (final, result :: results) := by
  simp only [runSteps, stepped]
  cases runSteps step state' rest <;> rfl

theorem runSteps_cons_eq_some
    (ran : runSteps step state (operation :: rest) = some (final, results)) :
    ∃ middle result more, step state operation = some (middle, result) ∧
      runSteps step middle rest = some (final, more) ∧ results = result :: more := by
  cases stepped : step state operation with
  | none => simp [runSteps, stepped] at ran
  | some next =>
    obtain ⟨middle, result⟩ := next
    rw [runSteps_cons_of_step stepped] at ran
    obtain ⟨⟨last, more⟩, ranRest, same⟩ := Option.map_eq_some_iff.mp ran
    obtain ⟨rfl, rfl⟩ := Prod.mk.inj same
    exact ⟨middle, result, more, rfl, ranRest, rfl⟩

theorem runSteps_append_of_run
    (ran : runSteps step state operations = some (state', results)) (rest : List ο) :
    runSteps step state (operations ++ rest) = (runSteps step state' rest).map fun (final, more) =>
        (final, results ++ more) := by
  induction operations generalizing state results with
  | nil =>
    obtain ⟨rfl, rfl⟩ : state = state' ∧ [] = results := by simpa using ran
    rw [nil_append]
    cases runSteps step state rest <;> rfl
  | cons operation operations ih =>
    obtain ⟨middle, result, more, stepped, ranRest, rfl⟩ := runSteps_cons_eq_some ran
    rw [cons_append, runSteps_cons_of_step stepped, ih ranRest, Option.map_map]
    rfl

theorem guarded_cons_iff (stepped : step state operation = some (state', result)) (rest : List ο) :
    Guarded guard step state (operation :: rest) ↔
      guard state operation ∧ Guarded guard step state' rest := by
  simp only [Guarded, stepped]
  constructor
  · rintro ⟨admitted, remaining⟩
    exact ⟨admitted, remaining state' result rfl⟩
  · rintro ⟨admitted, remaining⟩
    refine ⟨admitted, ?_⟩
    rintro next answer same
    obtain ⟨rfl, _⟩ := Prod.mk.inj (Option.some.inj same)
    exact remaining

instance Guarded.decidable (guard : σ -> ο -> Prop)
    [∀ state operation, Decidable (guard state operation)] (step : σ -> ο -> Option (σ × ρ)) :
    ∀ state operations, Decidable (Guarded guard step state operations)
  | _, [] => isTrue trivial
  | state, operation :: rest =>
    match stepped : step state operation with
    | none =>
      decidable_of_iff (guard state operation)
        ⟨fun admitted => ⟨admitted, by simp [stepped]⟩, And.left⟩
    | some (state', _) =>
      haveI := Guarded.decidable guard step state' rest
      decidable_of_iff _ (guarded_cons_iff stepped rest).symm

theorem Guarded.of_forall (admits : ∀ state operation, guard state operation) :
    Guarded guard step state operations := by
  induction operations generalizing state with
  | nil => trivial
  | cons operation rest ih => exact ⟨admits state operation, fun _ _ _ => ih⟩

theorem Guarded.of_runSteps
    (fails : ∀ state operation, ¬ guard state operation -> step state operation = none)
    (ran : runSteps step state operations = some (final, results)) :
    Guarded guard step state operations := by
  induction operations generalizing state results with
  | nil => trivial
  | cons operation rest ih =>
    obtain ⟨middle, result, more, stepped, ranRest, rfl⟩ := runSteps_cons_eq_some ran
    refine (guarded_cons_iff stepped rest).mpr ⟨?_, ih ranRest⟩
    by_contra unguarded
    simp [fails state operation unguarded] at stepped

/-- Guards that agree under an invariant of the steps admit the same runs. -/
theorem guarded_congr {other : σ -> ο -> Prop} (invariant : σ -> Prop)
    (stepKeeps : ∀ state operation state' result, invariant state ->
      step state operation = some (state', result) -> invariant state')
    (same : ∀ state operation, invariant state -> (guard state operation ↔ other state operation))
    (initially : invariant state) :
    Guarded guard step state operations ↔ Guarded other step state operations := by
  induction operations generalizing state with
  | nil => exact Iff.rfl
  | cons operation rest ih =>
    refine and_congr (same state operation initially) (forall₃_congr fun next result stepped => ?_)
    exact ih (stepKeeps state operation next result initially stepped)

/-- Guarded steps that succeed and keep an invariant of the operations and
results so far. -/
theorem runSteps_of_trace {invariant : σ -> List (ο × ρ) -> Prop}
    (stepKeeps : ∀ state trace operation, invariant state trace -> guard state operation ->
      ∃ state' result, step state operation = some (state', result) ∧
        invariant state' (trace ++ [(operation, result)]))
    (trace : List (ο × ρ)) (initially : invariant state trace) (operations : List ο)
    (guarded : Guarded guard step state operations) :
    ∃ final results, runSteps step state operations = some (final, results) ∧
      results.length = operations.length ∧ invariant final (trace ++ operations.zip results) := by
  induction operations generalizing state trace with
  | nil => exact ⟨state, [], rfl, rfl, by simpa using initially⟩
  | cons operation rest ih =>
    obtain ⟨admitted, remaining⟩ := guarded
    obtain ⟨state', result, stepped, stillHolds⟩ :=
      stepKeeps state trace operation initially admitted
    obtain ⟨final, results, ran, length_eq, holdsFinally⟩ :=
      ih _ stillHolds (remaining state' result stepped)
    refine ⟨final, result :: results, ?_, ?_, ?_⟩
    · rw [runSteps_cons_of_step stepped, ran]
      rfl
    · rw [length_cons, length_eq, length_cons]
    · rwa [append_assoc] at holdsFinally

/-- Guarded steps that succeed and keep an invariant make guarded runs that do
so. -/
theorem runSteps_of_invariant {invariant : σ -> Prop}
    (stepKeeps : ∀ state operation, invariant state -> guard state operation ->
      ∃ state' result, step state operation = some (state', result) ∧ invariant state')
    (initially : invariant state) (operations : List ο)
    (guarded : Guarded guard step state operations) :
    ∃ final results, runSteps step state operations = some (final, results) ∧ invariant final := by
  obtain ⟨final, results, ran, -, holds⟩ := runSteps_of_trace
    (fun state _ operation => stepKeeps state operation) [] initially operations guarded
  exact ⟨final, results, ran, holds⟩

/-- Steps that keep an invariant which speaks of the results so far. -/
theorem runSteps_of_history {invariant : σ -> List ρ -> Prop}
    (stepKeeps : ∀ state history operation, invariant state history ->
      ∃ state' result, step state operation = some (state', result) ∧
        invariant state' (history ++ [result]))
    (initially : invariant state []) (operations : List ο) :
    ∃ final results, runSteps step state operations = some (final, results) ∧
      invariant final results := by
  have traceKeeps : ∀ state (trace : List (ο × ρ)) operation,
      invariant state (trace.map Prod.snd) -> True ->
      ∃ state' result, step state operation = some (state', result) ∧
        invariant state' ((trace ++ [(operation, result)]).map Prod.snd) := by
    intro state trace operation holds _
    simpa using stepKeeps state (trace.map Prod.snd) operation holds
  obtain ⟨final, results, ran, length_eq, holds⟩ := runSteps_of_trace traceKeeps
    [] initially operations (Guarded.of_forall fun _ _ => trivial)
  rw [nil_append, map_snd_zip (by omega)] at holds
  exact ⟨final, results, ran, holds⟩

/-- What guarded steps that do not fail keep, with the results so far, a guarded
run keeps. -/
theorem keeps_of_runSteps (guard : σ -> ο -> Prop) (invariant : σ -> List ρ -> Prop)
    (stepKeeps : ∀ state history operation state' result,
      invariant state history -> guard state operation ->
      step state operation = some (state', result) -> invariant state' (history ++ [result]))
    (history : List ρ) (initially : invariant state history)
    (guarded : Guarded guard step state operations)
    (ran : runSteps step state operations = some (final, results)) :
    invariant final (history ++ results) := by
  induction operations generalizing state history results with
  | nil =>
    obtain ⟨rfl, rfl⟩ : state = final ∧ [] = results := by simpa using ran
    rwa [append_nil]
  | cons operation rest ih =>
    obtain ⟨middle, result, more, stepped, ranRest, rfl⟩ := runSteps_cons_eq_some ran
    obtain ⟨admitted, remaining⟩ := (guarded_cons_iff stepped rest).mp guarded
    have stillHolds := stepKeeps state history operation middle result initially admitted stepped
    have holdsFinally := ih (history ++ [result]) stillHolds remaining ranRest
    rwa [append_assoc] at holdsFinally

/-- Steps that keep an invariant and answer as required make runs whose
answers are all as required. -/
theorem forall₂_of_runSteps {admitted : ο -> Prop} {invariant : σ -> Prop}
    (stepKeeps : ∀ state operation state' result, invariant state -> admitted operation ->
      step state operation = some (state', result) -> invariant state' ∧ answers operation result)
    (initially : invariant state) (allAdmitted : ∀ operation ∈ operations, admitted operation)
    (ran : runSteps step state operations = some (final, results)) :
    List.Forall₂ answers operations results := by
  induction operations generalizing state results with
  | nil =>
    obtain ⟨-, rfl⟩ : state = final ∧ [] = results := by simpa using ran
    exact .nil
  | cons operation rest ih =>
    obtain ⟨middle, result, more, stepped, ranRest, rfl⟩ := runSteps_cons_eq_some ran
    rw [forall_mem_cons] at allAdmitted
    obtain ⟨stillHolds, answered⟩ := stepKeeps state operation middle result initially
      allAdmitted.1 stepped
    exact .cons answered (ih stillHolds allAdmitted.2 ranRest)

/-- If a step has a proper answer exactly under the guard, so has a run exactly
if it is guarded. -/
theorem exists_run_forall₂_iff (stepIff : ∀ state operation,
      (∃ state' result, step state operation = some (state', result) ∧
        answers operation result) ↔ guard state operation) (state : σ) (operations : List ο) :
    (∃ final results, runSteps step state operations = some (final, results) ∧
      List.Forall₂ answers operations results) ↔ Guarded guard step state operations := by
  induction operations generalizing state with
  | nil => exact ⟨fun _ => trivial, fun _ => ⟨state, [], rfl, .nil⟩⟩
  | cons operation rest ih =>
    constructor
    · rintro ⟨final, results, ran, answered⟩
      obtain ⟨middle, result, more, stepped, ranRest, rfl⟩ := runSteps_cons_eq_some ran
      obtain ⟨first, others⟩ := forall₂_cons.mp answered
      exact (guarded_cons_iff stepped rest).mpr
        ⟨(stepIff state operation).mp ⟨middle, result, stepped, first⟩,
          (ih middle).mp ⟨final, more, ranRest, others⟩⟩
    · rintro ⟨admitted, remaining⟩
      obtain ⟨middle, result, stepped, first⟩ := (stepIff state operation).mpr admitted
      obtain ⟨final, more, ranRest, others⟩ := (ih middle).mpr (remaining middle result stepped)
      refine ⟨final, result :: more, ?_, .cons first others⟩
      rw [runSteps_cons_of_step stepped, ranRest]
      rfl

/-- If a step has a good result exactly under the guard, and a good result keeps
the invariant, all results of a run are good exactly if it is guarded. -/
theorem forall_results_iff_guarded (invariant : σ -> Prop) (good : ρ -> Prop)
    (stepIff : ∀ state operation state' result,
      invariant state -> step state operation = some (state', result) ->
      (good result ↔ guard state operation)) (stepKeeps : ∀ state operation state' result,
      invariant state -> step state operation = some (state', result) ->
      good result -> invariant state')
    (initially : invariant state) (ran : runSteps step state operations = some (final, results)) :
    (∀ result ∈ results, good result) ↔ Guarded guard step state operations := by
  induction operations generalizing state results with
  | nil =>
    obtain ⟨-, rfl⟩ : state = final ∧ [] = results := by simpa using ran
    simp [Guarded]
  | cons operation rest ih =>
    obtain ⟨middle, result, more, stepped, ranRest, rfl⟩ := runSteps_cons_eq_some ran
    rw [guarded_cons_iff stepped, forall_mem_cons,
      ← stepIff state operation middle result initially stepped]
    refine and_congr_right fun isGood => ?_
    exact ih (stepKeeps state operation middle result initially stepped isGood) ranRest

section Simulation

variable (spec : α -> ο -> α × ρ) (related : σ -> α -> Prop)
  (stepSimulates : ∀ state abstract operation, related state abstract -> guard state operation ->
    ∃ state', step state operation = some (state', (spec abstract operation).2) ∧
      related state' (spec abstract operation).1)
include stepSimulates

/-- A guard that follows from a relation kept by every guarded step. -/
theorem Guarded.of_related
    (admits : ∀ state abstract operation, related state abstract -> guard state operation)
    (initially : related state abstract) (operations : List ο) :
    Guarded guard step state operations := by
  induction operations generalizing state abstract with
  | nil => trivial
  | cons operation rest ih =>
    have admitted := admits state abstract operation initially
    obtain ⟨next, stepped, stillRelated⟩ :=
      stepSimulates state abstract operation initially admitted
    exact (guarded_cons_iff stepped rest).mpr ⟨admitted, ih stillRelated⟩

/-- A relation kept by every guarded step, with equal results, is kept by
every guarded run. -/
theorem simulates (initially : related state abstract) (operations : List ο)
    (guarded : Guarded guard step state operations) :
    ∃ final, runSteps step state operations = some (final, (runTotal spec abstract operations).2) ∧
      related final (runTotal spec abstract operations).1 := by
  induction operations generalizing state abstract with
  | nil => exact ⟨state, rfl, initially⟩
  | cons operation rest ih =>
    obtain ⟨admitted, remaining⟩ := guarded
    obtain ⟨state', stepped, stillRelated⟩ :=
      stepSimulates state abstract operation initially admitted
    obtain ⟨final, ran, finallyRelated⟩ := ih stillRelated (remaining state' _ stepped)
    refine ⟨final, ?_, ?_⟩
    · rw [runSteps_cons_of_step stepped, ran, runTotal_cons]
      rfl
    · rw [runTotal_cons]
      exact finallyRelated

end Simulation

end Metaflow.Library
