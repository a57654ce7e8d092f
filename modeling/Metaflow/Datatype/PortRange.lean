import Metaflow.Library.ChangeEach
import Mathlib.Order.Basic

/-!
# Port ranges

`port_range.go`: `GetPortRanges` cuts a list of overlapping port ranges into
pieces. The ends of the ranges are marked in a table of all ports, then a
sweep over the table emits a piece between any two neighbouring marks.
-/

namespace Metaflow.Datatype

open Library

/-- `PortRange`, whose word holds the two bounds. -/
structure PortRange where
  min : UInt16
  max : UInt16
  deriving DecidableEq

/-- The range contains a port. -/
def PortRange.Contains (range : PortRange) (port : Nat) : Prop :=
  range.min.toNat ≤ port ∧ port ≤ range.max.toNat

instance (range : PortRange) (port : Nat) : Decidable (range.Contains port) :=
  inferInstanceAs (Decidable (_ ∧ _))

inductive PortStatus where
  | rangeNone
  | rangeIn
  | rangeEdge
  | rangeLeft
  | rangeRight
  deriving DecidableEq

namespace PortStatus

/-- The status of the lower bound of a range. -/
def markMin (status : PortStatus) : PortStatus :=
  if status = .rangeRight ∨ status = .rangeEdge then .rangeEdge
  else .rangeLeft

/-- The status of the upper bound of a range. -/
def markMax (status : PortStatus) : PortStatus :=
  if status = .rangeLeft ∨ status = .rangeEdge then .rangeEdge
  else .rangeRight

/-- The status of a port between the bounds of a range. -/
def markIn (status : PortStatus) : PortStatus :=
  if status = .rangeNone then .rangeIn else status

/-- Some range has its lower bound here. -/
def Starts (status : PortStatus) : Prop :=
  status = .rangeLeft ∨ status = .rangeEdge

/-- Some range has its upper bound here. -/
def Ends (status : PortStatus) : Prop :=
  status = .rangeRight ∨ status = .rangeEdge

instance (status : PortStatus) : Decidable status.Starts :=
  inferInstanceAs (Decidable (_ ∨ _))

instance (status : PortStatus) : Decidable status.Ends :=
  inferInstanceAs (Decidable (_ ∨ _))

@[simp] theorem starts_rangeEdge : Starts .rangeEdge := by decide

@[simp] theorem ends_rangeEdge : Ends .rangeEdge := by decide

section

variable (status : PortStatus)
include status

@[simp] theorem starts_markMin : status.markMin.Starts := by
  cases status <;> decide

@[simp] theorem ends_markMin : status.markMin.Ends ↔ status.Ends := by
  cases status <;> decide

@[simp] theorem starts_markMax : status.markMax.Starts ↔ status.Starts := by
  cases status <;> decide

@[simp] theorem ends_markMax : status.markMax.Ends := by
  cases status <;> decide

@[simp] theorem starts_markIn : status.markIn.Starts ↔ status.Starts := by
  cases status <;> decide

@[simp] theorem ends_markIn : status.markIn.Ends ↔ status.Ends := by
  cases status <;> decide

theorem markIn_ne : status.markIn ≠ .rangeNone := by
  cases status <;> decide

end

variable {status : PortStatus}

theorem Starts.ne (starts : status.Starts) : status ≠ .rangeNone := by
  rintro rfl
  exact absurd starts (by decide)

theorem Ends.ne (ends : status.Ends) : status ≠ .rangeNone := by
  rintro rfl
  exact absurd ends (by decide)

end PortStatus

/-- One entry per port. -/
abbrev PortStatusTable := Nat -> PortStatus

/-- The loop body of `createPortStatusTable`. The inner counter has 16 bits, so
behind the last port it starts at 0. -/
def markRange (table : PortStatusTable) (port : PortRange) : PortStatusTable :=
  let low := port.min.toNat
  let high := port.max.toNat
  if port.min = port.max then
    Function.update table low .rangeEdge
  else
    let table := Function.update table low (table low).markMin
    let table := Function.update table high (table high).markMax
    let next := (port.min + 1).toNat
    changeEach PortStatus.markIn next (high - next) table

def createPortStatusTable (raw : List PortRange) : PortStatusTable :=
  raw.foldl markRange fun _ => .rangeNone

/-- The local variables of `createPortRangeByTable`; `lastPort` is `none`
where the source has `-1`. -/
structure Sweep where
  lastPort : Option Nat
  portRanges : List PortRange

namespace Sweep

/-- What the cases `RANGE_EDGE` and `RANGE_LEFT` emit for the ports before. -/
def closeBefore (table : PortStatusTable) (sweep : Sweep) (port : Nat) : List PortRange :=
  match sweep.lastPort with
  | none => sweep.portRanges
  | some lastPort =>
    if lastPort ≠ port ∧ table lastPort ≠ .rangeNone then
      sweep.portRanges ++ [⟨.ofNat lastPort, .ofNat port - 1⟩]
    else sweep.portRanges

/-- The loop body of `createPortRangeByTable`; `none` is the panic on reading
the table at `-1`. -/
def visit (table : PortStatusTable) (sweep : Sweep) (port : Nat) : Option Sweep :=
  match table port with
  | .rangeNone => some sweep
  | .rangeIn => some sweep
  | .rangeEdge =>
    some ⟨some (port + 1), sweep.closeBefore table port ++ [⟨.ofNat port, .ofNat port⟩]⟩
  | .rangeLeft => some ⟨some port, sweep.closeBefore table port⟩
  | .rangeRight =>
    match sweep.lastPort with
    | none => none
    | some lastPort =>
      some ⟨some (port + 1),
        if table lastPort ≠ .rangeNone then
          sweep.portRanges ++ [⟨.ofNat lastPort, .ofNat port⟩]
        else sweep.portRanges⟩

/-- The loop of `createPortRangeByTable` over the ports below a bound. -/
def upTo (table : PortStatusTable) (bound : Nat) : Option Sweep :=
  (List.range bound).foldlM (visit table) ⟨none, []⟩

variable (table : PortStatusTable)

theorem upTo_zero : upTo table 0 = some ⟨none, []⟩ := rfl

theorem upTo_succ (bound : Nat) :
    upTo table (bound + 1) = (upTo table bound).bind fun sweep => sweep.visit table bound := by
  simp only [upTo, List.range_succ, List.foldlM_append, List.foldlM_cons,
    List.foldlM_nil, bind_pure]
  rfl

end Sweep

/-- `math.MaxUint16 + 1` -/
def portCount : Nat := 65536

def createPortRangeByTable (table : PortStatusTable) : Option (List PortRange) :=
  (Sweep.upTo table portCount).map Sweep.portRanges

def getPortRanges (raw : List PortRange) : Option (List PortRange) :=
  if raw = [] then some raw
  else createPortRangeByTable (createPortStatusTable raw)

/-- The marks of one range, with the loop from `next` on; server and agent
differ in where it starts. -/
def markFrom (next : Nat) (table : PortStatusTable) (port : PortRange) : PortStatusTable :=
  let low := port.min.toNat
  let high := port.max.toNat
  if port.min = port.max then
    Function.update table low .rangeEdge
  else
    let table := Function.update table low (table low).markMin
    let table := Function.update table high (table high).markMax
    changeEach PortStatus.markIn next (high - next) table

theorem markRange_eq_markFrom (table : PortStatusTable) (range : PortRange) :
    markRange table range = markFrom (range.min + 1).toNat table range := rfl

section Mark

variable (next : Nat) (table : PortStatusTable) (range : PortRange) (port : Nat)

theorem markFrom_single (single : range.min = range.max) : markFrom next table range port =
      if port = range.max.toNat then .rangeEdge else table port := by
  simp only [markFrom, if_pos single, Function.update_apply]
  rw [single]

theorem markFrom_of_ne (apart : range.min ≠ range.max) :
    markFrom next table range port =
      let marked :=
        if port = range.max.toNat then (table port).markMax
        else if port = range.min.toNat then (table port).markMin
        else table port
      if next ≤ port ∧ port < range.max.toNat then marked.markIn
      else marked := by
  have boundsApart : range.max.toNat ≠ range.min.toNat :=
    fun same => apart (UInt16.toNat_inj.mp same.symm)
  simp only [markFrom, if_neg apart, changeEach_apply, Function.update_apply, if_neg boundsApart]
  refine ite_congr (propext (by omega)) (fun _ => ?_) (fun _ => ?_) <;>
    split_ifs <;> simp_all

theorem starts_markFrom_iff :
    (markFrom next table range port).Starts ↔ (table port).Starts ∨ port = range.min.toNat := by
  by_cases single : range.min = range.max
  · rw [markFrom_single next table range port single, single]
    split_ifs <;> simp_all
  · have boundsApart : range.max.toNat ≠ range.min.toNat :=
      fun same => single (UInt16.toNat_inj.mp same.symm)
    rw [markFrom_of_ne next table range port single]
    split_ifs <;> simp_all

theorem ends_markFrom_iff :
    (markFrom next table range port).Ends ↔ (table port).Ends ∨ port = range.max.toNat := by
  by_cases single : range.min = range.max
  · rw [markFrom_single next table range port single]
    split_ifs <;> simp_all
  · rw [markFrom_of_ne next table range port single]
    split_ifs <;> simp_all

theorem markFrom_ne_of_ne (marked : table port ≠ .rangeNone) :
    markFrom next table range port ≠ .rangeNone := by
  by_cases single : range.min = range.max
  · rw [markFrom_single next table range port single]
    split_ifs <;> simp_all
  · rw [markFrom_of_ne next table range port single]
    have inside := PortStatus.markIn_ne
    have atMin := (PortStatus.starts_markMin (table port)).ne
    have atMax := (PortStatus.ends_markMax (table port)).ne
    split_ifs <;> simp_all

theorem markFrom_ne_of_contains (early : next ≤ range.min.toNat + 1)
    (contains : range.Contains port) : markFrom next table range port ≠ .rangeNone := by
  obtain ⟨above, below⟩ := contains
  by_cases atMin : port = range.min.toNat
  · exact ((starts_markFrom_iff next table range port).mpr (.inr atMin)).ne
  by_cases atMax : port = range.max.toNat
  · exact ((ends_markFrom_iff next table range port).mpr (.inr atMax)).ne
  have apart : range.min ≠ range.max := by
    intro same
    rw [same] at above atMin
    omega
  rw [markFrom_of_ne next table range port apart, if_pos (by omega)]
  exact PortStatus.markIn_ne _

end Mark

/-- Exactly the bounds of the ranges are marked as such, and all their ports are
marked somehow. -/
structure Marks (raw : List PortRange) (table : PortStatusTable) : Prop where
  starts_iff : ∀ port, (table port).Starts ↔ ∃ range ∈ raw, port = range.min.toNat
  ends_iff : ∀ port, (table port).Ends ↔ ∃ range ∈ raw, port = range.max.toNat
  ne : ∀ range ∈ raw, ∀ port, range.Contains port -> table port ≠ .rangeNone

/-- A mark that every range sets at one port, and no range takes back. -/
theorem foldl_mark_iff {marked : PortStatus -> Prop} {place : PortRange -> Nat}
    (marks : ∀ table range port,
      marked (mark table range port) ↔ marked (table port) ∨ port = place range)
    (raw : List PortRange) (table : PortStatusTable) (port : Nat) :
    marked (raw.foldl mark table port) ↔
      marked (table port) ∨ ∃ range ∈ raw, port = place range := by
  induction raw generalizing table with
  | nil => simp
  | cons range raw ih =>
    rw [List.foldl_cons, ih, marks]
    simp [or_assoc]

/-- The table of a loop over the ranges, wherever its inner loop starts. -/
theorem marks_foldl {next : PortRange -> Nat}
    (isMark : ∀ table range, mark table range = markFrom (next range) table range)
    (early : ∀ range, next range ≤ range.min.toNat + 1) (raw : List PortRange) :
    Marks raw (raw.foldl mark fun _ => .rangeNone) where
  starts_iff port := by
    refine (foldl_mark_iff ?_ raw _ port).trans (or_iff_right (by decide))
    intro table range port
    rw [isMark]
    exact starts_markFrom_iff _ table range port
  ends_iff port := by
    refine (foldl_mark_iff ?_ raw _ port).trans (or_iff_right (by decide))
    intro table range port
    rw [isMark]
    exact ends_markFrom_iff _ table range port
  ne range mem port contains := by
    obtain ⟨before, after, rfl⟩ := List.append_of_mem mem
    rw [List.foldl_append, List.foldl_cons]
    refine List.foldlRecOn (motive := fun table : PortStatusTable => table port ≠ .rangeNone)
      after mark ?_ ?_
    · rw [isMark]
      exact markFrom_ne_of_contains _ _ range port (early range) contains
    · intro table marked other _
      rw [isMark]
      exact markFrom_ne_of_ne _ table other port marked

theorem marks_createPortStatusTable (raw : List PortRange) :
    Marks raw (createPortStatusTable raw) := by
  refine marks_foldl markRange_eq_markFrom ?_ raw
  intro range
  rw [UInt16.toNat_add]
  exact Nat.mod_le _ _

end Metaflow.Datatype
