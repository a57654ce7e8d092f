import Mathlib.Algebra.Ring.Nat
import Mathlib.Data.List.Nodup
import Mathlib.Data.List.Perm.Subperm

/-!
# Filling the gaps of a time series

`callback.go`: the rows of a query are put into a list with one place for each
time, and empty places get fill values. Rows of one time share a place, where
the last one stays. An `int` of Go has 64 bits and wraps; for times that are not
far from 0 it agrees with the unbounded grid.
-/

namespace Metaflow.Querier

open List

/-- A value of a row. -/
inductive Cell where
  | null
  | int (value : Int64)
  | text (value : String)
  deriving DecidableEq

/-- A row of a result. -/
abbrev Row := List Cell

/-- What `TimeFill` reads of a model; `orders` has pairs of `SortBy` and
`OrderBy`. -/
structure TimeModel where
  timeAlias : String
  timeStart : Int64
  timeEnd : Int64
  interval : Int64
  /-- `Format` does not ask for filling otherwise. -/
  positive : 0 < interval
  windowSize : Int64
  fill : String
  orders : List (String × String)

namespace TimeModel

variable (m : TimeModel)

/-- The start of the interval of a time, 8 hours ahead of UTC. -/
def round (time : Int64) : Int64 :=
  (time + 3600 * 8) / m.interval * m.interval - 3600 * 8

/-- `start` -/
def start : Int64 := m.round m.timeStart

/-- `end` with the further intervals of the window. -/
def stop : Int64 := m.round m.timeEnd + (m.windowSize - 1) * m.interval

/-- Whether `orderby` is `asc`. -/
def isAsc : Bool :=
  (m.orders.find? (·.1 = m.timeAlias)).elim true (·.2 = "asc")

/-- The number of places. -/
def intervalLength : Int64 := (m.stop - m.start) / m.interval + 1

/-- The place of a time. -/
def timeIndex (time : Int64) : Int64 :=
  if m.isAsc then (time - m.start) / m.interval else (m.stop - time) / m.interval

/-- The time of a place. -/
def timestamp (i : Nat) : Int64 :=
  if m.isAsc then m.start + Int64.ofNat i * m.interval else m.stop - Int64.ofNat i * m.interval

/-- The column of the time. -/
def timeFieldIndex (columns : List String) : Nat :=
  (columns.findIdx? (· = m.timeAlias)).getD 0

/-- `record[timeFieldIndex].(int)` -/
def timeOf (columns : List String) (row : Row) : Option Int64 :=
  match row[m.timeFieldIndex columns]? with
  | some (.int time) => some time
  | _ => none

/-- Write a row to its place; `none` if an index is out of range. -/
def place (columns : List String) (newValues : List (Option Row)) (row : Row) :
    Option (List (Option Row)) := do
  let timeIndex := (m.timeIndex (<- m.timeOf columns row)).toInt
  if 0 ≤ timeIndex ∧ timeIndex.toNat < newValues.length then
    some (newValues.set timeIndex.toNat (some row))
  else none

/-- A row of fill values; `atoi` is `strconv.Atoi`. -/
def newValue (atoi : String -> Option Int64) (columns : List String) (timestamp : Int64) : Row :=
  let cell := if m.fill = "null" then .null else (atoi m.fill).elim (.text m.fill) .int
  (replicate columns.length cell).set (m.timeFieldIndex columns) (.int timestamp)

/-- `TimeFill`; a slice with more than `maxLen` elements cannot be made. -/
def timeFill (maxLen : Nat) (atoi : String -> Option Int64) (columns : List String)
    (values : List Row) : Option (List Row) :=
  if m.intervalLength < 1 then some []
  else if maxLen < m.intervalLength.toInt.toNat then none
  else do
    let newValues <- values.foldlM (m.place columns) (replicate m.intervalLength.toInt.toNat none)
    if none ∈ newValues ∧ columns.length ≤ m.timeFieldIndex columns then none
    else some (newValues.mapIdx fun i value =>
      value.getD (m.newValue atoi columns (m.timestamp i)))

section Grid

/-- The start of the interval of a time, as an integer without a bound. -/
def gridRound (time : Int) : Int :=
  (time + 3600 * 8).tdiv m.interval.toInt * m.interval.toInt - 3600 * 8

/-- The first time of the range. -/
def gridStart : Int := m.gridRound m.timeStart.toInt

/-- The last time of the range. -/
def gridStop : Int :=
  m.gridRound m.timeEnd.toInt + (m.windowSize.toInt - 1) * m.interval.toInt

/-- The number of times of the range. -/
def gridLength : Nat :=
  ((m.gridStop - m.gridStart).tdiv m.interval.toInt + 1).toNat

/-- The times of the range in the requested order. -/
def gridTime (i : Nat) : Int :=
  if m.isAsc then m.gridStart + i * m.interval.toInt else m.gridStop - i * m.interval.toInt

/-- The bounds of the range and the window are at most `2 ^ 60` seconds from 0. -/
structure Near : Prop where
  timeStart : m.timeStart.toInt.natAbs ≤ 2 ^ 60
  timeEnd : m.timeEnd.toInt.natAbs ≤ 2 ^ 60
  window : ((m.windowSize.toInt - 1) * m.interval.toInt).natAbs ≤ 2 ^ 60

end Grid

variable {m}

/-- A number of 64 bits is the exact result of an operation that has one. -/
theorem bmod_eq_self {number : Int} (small : number.natAbs < 2 ^ 63) :
    number.bmod (2 ^ 64) = number :=
  Int.bmod_eq_of_le (by omega) (by omega)

theorem interval_pos (m : TimeModel) : 0 < m.interval.toInt :=
  Int64.lt_iff_toInt_lt.mp m.positive

theorem interval_ne_zero (m : TimeModel) : m.interval.toInt ≠ 0 :=
  (Int.ne_of_lt m.interval_pos).symm

/-- Rounding towards 0 does not lead away from 0. -/
theorem natAbs_tdiv_mul_le (number divisor : Int) :
    (number.tdiv divisor * divisor).natAbs ≤ number.natAbs := by
  rw [Int.natAbs_mul, Int.natAbs_tdiv]
  exact Nat.div_mul_le_self _ _

/-- Nor does the quotient alone. -/
theorem natAbs_tdiv_le (number divisor : Int) : (number.tdiv divisor).natAbs ≤ number.natAbs := by
  rw [Int.natAbs_tdiv]
  exact Nat.div_le_self _ _

/-- A quotient of 64-bit numbers by the interval is exact. -/
theorem toInt_div_interval (number : Int64) (small : number.toInt.natAbs < 2 ^ 63) :
    (number / m.interval).toInt = number.toInt.tdiv m.interval.toInt := by
  have quotient := natAbs_tdiv_le number.toInt m.interval.toInt
  rw [Int64.toInt_div, bmod_eq_self (by omega)]

theorem natAbs_gridRound_le (m : TimeModel) (time : Int) :
    (m.gridRound time).natAbs ≤ time.natAbs + 57600 := by
  have rounded := natAbs_tdiv_mul_le (time + 3600 * 8) m.interval.toInt
  rw [gridRound]
  omega

/-- Times near 0 are rounded without wrapping. -/
theorem toInt_round {time : Int64} (near : time.toInt.natAbs ≤ 2 ^ 60) :
    (m.round time).toInt = m.gridRound time.toInt := by
  have hours : (3600 * 8 : Int64).toInt = 28800 := by decide
  have sum : (time + 3600 * 8).toInt = time.toInt + 3600 * 8 := by
    rw [Int64.toInt_add, hours, bmod_eq_self (by omega)]
    rfl
  have quotient : ((time + 3600 * 8) / m.interval).toInt =
      (time.toInt + 3600 * 8).tdiv m.interval.toInt := by
    rw [toInt_div_interval _ (by rw [sum]; omega), sum]
  have product := natAbs_tdiv_mul_le (time.toInt + 3600 * 8) m.interval.toInt
  have multiple : ((time + 3600 * 8) / m.interval * m.interval).toInt =
      (time.toInt + 3600 * 8).tdiv m.interval.toInt * m.interval.toInt := by
    rw [Int64.toInt_mul, quotient, bmod_eq_self (by omega)]
  rw [round, Int64.toInt_sub, multiple, hours, bmod_eq_self (by omega)]
  rfl

section Near

variable (near : m.Near)
include near

theorem toInt_start : m.start.toInt = m.gridStart :=
  toInt_round near.timeStart

theorem toInt_stop : m.stop.toInt = m.gridStop := by
  have window := near.window
  have ending := near.timeEnd
  have rounded := natAbs_gridRound_le m m.timeEnd.toInt
  have one : (1 : Int64).toInt = 1 := by decide
  have count : (m.windowSize - 1).toInt = m.windowSize.toInt - 1 := by
    have smaller : (m.windowSize.toInt - 1).natAbs ≤
        ((m.windowSize.toInt - 1) * m.interval.toInt).natAbs := by
      rw [Int.natAbs_mul]
      exact Nat.le_mul_of_pos_right _ (Int.natAbs_pos.mpr m.interval_ne_zero)
    rw [Int64.toInt_sub, one, bmod_eq_self (by omega)]
  have further : ((m.windowSize - 1) * m.interval).toInt =
      (m.windowSize.toInt - 1) * m.interval.toInt := by
    rw [Int64.toInt_mul, count, bmod_eq_self (by omega)]
  rw [stop, Int64.toInt_add, toInt_round ending, further, bmod_eq_self (by omega), gridStop]

/-- The bounds of the range are at most `2 ^ 61` and some hours from 0. -/
theorem natAbs_grid_le :
    m.gridStart.natAbs ≤ 2 ^ 60 + 57600 ∧ m.gridStop.natAbs ≤ 2 ^ 61 + 57600 := by
  have window := near.window
  have beginning := near.timeStart
  have ending := near.timeEnd
  have roundedStart := natAbs_gridRound_le m m.timeStart.toInt
  have roundedEnd := natAbs_gridRound_le m m.timeEnd.toInt
  rw [gridStop, gridStart]
  omega

/-- The range is at most `2 ^ 62` seconds long. -/
theorem natAbs_range_le : (m.gridStop - m.gridStart).natAbs ≤ 2 ^ 62 := by
  have bounds := natAbs_grid_le near
  omega

theorem toInt_intervalLength :
    m.intervalLength.toInt = (m.gridStop - m.gridStart).tdiv m.interval.toInt + 1 := by
  have range := natAbs_range_le near
  have quotient := natAbs_tdiv_le (m.gridStop - m.gridStart) m.interval.toInt
  have one : (1 : Int64).toInt = 1 := by decide
  have difference : (m.stop - m.start).toInt = m.gridStop - m.gridStart := by
    rw [Int64.toInt_sub, toInt_stop near, toInt_start near, bmod_eq_self (by omega)]
  have places : ((m.stop - m.start) / m.interval).toInt =
      (m.gridStop - m.gridStart).tdiv m.interval.toInt := by
    rw [toInt_div_interval _ (by rw [difference]; omega), difference]
  rw [intervalLength, Int64.toInt_add, places, one, bmod_eq_self (by omega)]

/-- The offset of a time from the end of the range where its order begins. -/
theorem natAbs_offset_le (inside : i < m.gridLength) :
    ((i : Int) * m.interval.toInt).natAbs ≤ 2 ^ 62 := by
  have range := natAbs_range_le near
  have multiple := natAbs_tdiv_mul_le (m.gridStop - m.gridStart) m.interval.toInt
  rw [gridLength] at inside
  have below : i ≤ ((m.gridStop - m.gridStart).tdiv m.interval.toInt).natAbs := by omega
  have product := Nat.mul_le_mul_right m.interval.toInt.natAbs below
  rw [Int.natAbs_mul] at multiple ⊢
  rw [Int.natAbs_natCast]
  omega

theorem toInt_offset (inside : i < m.gridLength) :
    (Int64.ofNat i * m.interval).toInt = i * m.interval.toInt := by
  have offset := natAbs_offset_le near inside
  have factor : (i : Int).natAbs ≤ ((i : Int) * m.interval.toInt).natAbs := by
    rw [Int.natAbs_mul]
    exact Nat.le_mul_of_pos_right _ (Int.natAbs_pos.mpr m.interval_ne_zero)
  have isNat : (Int64.ofNat i).toInt = i :=
    Int64.toInt_ofNat'.trans (bmod_eq_self (by omega))
  rw [Int64.toInt_mul, isNat, bmod_eq_self (by omega)]

/-- The code's time of a place is the time of the grid. -/
theorem toInt_timestamp (inside : i < m.gridLength) : (m.timestamp i).toInt = m.gridTime i := by
  have offset := natAbs_offset_le near inside
  have bounds := natAbs_grid_le near
  rw [timestamp, gridTime]
  split_ifs
  · rw [Int64.toInt_add, toInt_start near, toInt_offset near inside, bmod_eq_self (by omega)]
  · rw [Int64.toInt_sub, toInt_stop near, toInt_offset near inside, bmod_eq_self (by omega)]

/-- A time of the grid has the place with its number. -/
theorem toInt_timeIndex (inside : i < m.gridLength) {time : Int64}
    (isTime : time.toInt = m.gridTime i) : (m.timeIndex time).toInt = i := by
  have offset := natAbs_offset_le near inside
  have cancel := Int.mul_tdiv_cancel (i : Int) m.interval_ne_zero
  rw [gridTime] at isTime
  rw [timeIndex]
  split_ifs at isTime ⊢
  · have difference : (time - m.start).toInt = i * m.interval.toInt := by
      rw [Int64.toInt_sub, toInt_start near, isTime, Int.add_comm, Int.add_sub_cancel,
        bmod_eq_self (by omega)]
    rw [toInt_div_interval _ (by rw [difference]; omega), difference, cancel]
  · have difference : (m.stop - time).toInt = i * m.interval.toInt := by
      rw [Int64.toInt_sub, toInt_stop near, isTime, Int.sub_sub_self, bmod_eq_self (by omega)]
    rw [toInt_div_interval _ (by rw [difference]; omega), difference, cancel]

end Near

/-- Different places have different times. -/
theorem gridTime_inj : m.gridTime i = m.gridTime j ↔ i = j := by
  refine ⟨fun same => ?_, congrArg _⟩
  have offsets : (i : Int) * m.interval.toInt = j * m.interval.toInt := by
    unfold gridTime at same
    split_ifs at same <;> omega
  exact Int.ofNat.inj (Int.eq_of_mul_eq_mul_right m.interval_ne_zero offsets)

variable {columns : List String} {values : List Row}

variable (m columns) in
/-- A row has a time of the grid. -/
def HasTime (row : Row) (i : Nat) : Prop :=
  (m.timeOf columns row).map Int64.toInt = some (m.gridTime i)

instance (row : Row) (i : Nat) : Decidable (m.HasTime columns row i) :=
  inferInstanceAs (Decidable (_ = _))

theorem HasTime.inj (first : m.HasTime columns row i) (second : m.HasTime columns row j) : i = j :=
  gridTime_inj.mp (Option.some.inj (first.symm.trans second))

variable (m columns) in
/-- Each place has the first row of its time among those that are given. -/
def places (rows : List Row) : List (Option Row) :=
  (range m.gridLength).map fun i => rows.find? (m.HasTime columns · i)

/-- A row is written to the place of its time. -/
theorem place_places (near : m.Near) (inside : i < m.gridLength)
    (hasTime : m.HasTime columns row i) (rows : List Row) :
    m.place columns (m.places columns rows) row = some (m.places columns (row :: rows)) := by
  have length : (m.places columns rows).length = m.gridLength := by simp [places]
  have written : (m.places columns rows).set i (some row) = m.places columns (row :: rows) := by
    apply ext_getElem (by simp [places])
    intro j _ _
    by_cases same : i = j
    · subst same
      simp [places, hasTime]
    · have other : ¬ m.HasTime columns row j := fun second => same (hasTime.inj second)
      simp [places, other, same]
  obtain ⟨time, isTime, isGrid⟩ := Option.map_eq_some_iff.mp hasTime
  have isIndex := toInt_timeIndex near inside isGrid
  simp only [place, isTime, Option.bind_eq_bind, Option.bind_some, isIndex]
  rw [if_pos ⟨Int.natCast_nonneg i, length ▸ inside⟩]
  exact congrArg some written

/-- Every row is written to the place of its time, over those before it. -/
theorem foldlM_place (near : m.Near) (rows : List Row)
    (onGrid : ∀ row ∈ values, ∃ i < m.gridLength, m.HasTime columns row i) :
    values.foldlM (m.place columns) (m.places columns rows) =
      some (m.places columns (values.reverse ++ rows)) := by
  induction values generalizing rows with
  | nil => rfl
  | cons row values ih =>
    obtain ⟨⟨i, inside, isTime⟩, rest⟩ := forall_mem_cons.mp onGrid
    simp [place_places near inside isTime, ih _ rest]

variable (m columns) in
/-- The row of a place: the last one of its time, or a row of fill values. -/
def filled (atoi : String -> Option Int64) (values : List Row) (i : Nat) : Row :=
  (values.reverse.find? (m.HasTime columns · i)).getD (m.newValue atoi columns (m.timestamp i))

/-- The result has a row for each time of the grid, in order. -/
theorem timeFill_eq (near : m.Near) (inside : m.timeFieldIndex columns < columns.length)
    (small : m.gridLength ≤ maxLen)
    (onGrid : ∀ row ∈ values, ∃ i < m.gridLength, m.HasTime columns row i) :
    m.timeFill maxLen atoi columns values =
      some ((range m.gridLength).map (m.filled columns atoi values)) := by
  have length : m.intervalLength.toInt.toNat = m.gridLength := by
    rw [toInt_intervalLength near, gridLength]
  have one : (1 : Int64).toInt = 1 := by decide
  unfold timeFill
  split_ifs with short long
  · rw [Int64.lt_iff_toInt_lt, one] at short
    simp [show m.gridLength = 0 by omega]
  · omega
  · have initially : replicate m.gridLength none = m.places columns [] := by
      simp [places]
    have checked : ¬ columns.length ≤ m.timeFieldIndex columns := Nat.not_le_of_lt inside
    simp only [length, initially, foldlM_place near _ onGrid, append_nil, Option.bind_eq_bind,
      Option.bind_some, checked, and_false, if_false]
    congr 1
    apply ext_getElem (by simp [places])
    simp [places, filled]

/-- The row of a place has the time of the place. -/
theorem hasTime_filled (near : m.Near) (inside : m.timeFieldIndex columns < columns.length)
    (isPlace : i < m.gridLength) : m.HasTime columns (m.filled columns atoi values i) i := by
  rw [filled]
  cases found : values.reverse.find? (m.HasTime columns · i) with
  | none => simp [HasTime, timeOf, newValue, inside, toInt_timestamp near isPlace]
  | some row => simpa using find?_some found

end TimeModel

end Metaflow.Querier
