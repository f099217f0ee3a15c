import Mathlib.Data.List.Basic
import Mathlib.Tactic.IntervalCases

/-! # The calendar

The proleptic Gregorian calendar, by counting: a year has the days of its months, and a day is
numbered by the days before it since the first day of the year zero (`dayNumber`). Closed forms of
the two counts are `daysBeforeYear_eq` and `daysBeforeMonth_eq`. -/

namespace Troupe.Lib

/-- A year with a 29th of February. -/
def IsLeapYear (year : Nat) : Prop := year % 4 = 0 ∧ (year % 100 ≠ 0 ∨ year % 400 = 0)

instance (year : Nat) : Decidable (IsLeapYear year) := by
  unfold IsLeapYear
  infer_instance

/-- The days of the months of a year. -/
def monthLengths (year : Nat) : List Nat :=
  [31, if IsLeapYear year then 29 else 28, 31, 30, 31, 30, 31, 31, 30, 31, 30, 31]

/-- The days of a month, counted from one. -/
def monthLength (year month : Nat) : Nat := (monthLengths year)[month - 1]?.getD 0

/-- The days of a year. -/
def yearLength (year : Nat) : Nat := (monthLengths year).sum

/-- The days of the years before a year. -/
def daysBeforeYear (year : Nat) : Nat := ((List.range year).map yearLength).sum

/-- The days of the months before a month of its year. -/
def daysBeforeMonth (year month : Nat) : Nat := ((monthLengths year).take (month - 1)).sum

/-- The number of a day, the first day of the year zero being the day zero. -/
def dayNumber (year month day : Nat) : Nat :=
  daysBeforeYear year + daysBeforeMonth year month + (day - 1)

theorem yearLength_eq (year : Nat) : yearLength year = if IsLeapYear year then 366 else 365 := by
  unfold yearLength monthLengths
  by_cases h : IsLeapYear year <;> simp [h]

theorem daysBeforeYear_succ (year : Nat) :
    daysBeforeYear (year + 1) = daysBeforeYear year + yearLength year := by
  unfold daysBeforeYear
  rw [List.range_succ, List.map_append, List.sum_append, List.map_singleton, List.sum_singleton]

/-- A leap year every four years, but for three of four centuries. -/
theorem daysBeforeYear_eq (year : Nat) :
    daysBeforeYear year = 365 * year + (year + 3) / 4 + (year + 399) / 400 - (year + 99) / 100 := by
  induction year with
  | zero => rfl
  | succ year ih =>
    rw [daysBeforeYear_succ, ih, yearLength_eq]
    split
    · rename_i hleap
      unfold IsLeapYear at hleap
      omega
    · rename_i hleap
      unfold IsLeapYear at hleap
      omega

/-- The months from March on have 153 days in five of them. -/
theorem daysBeforeMonth_eq {year month : Nat} (hpos : 1 ≤ month) (hle : month ≤ 12) :
    daysBeforeMonth year month =
      if month ≤ 2 then 31 * (month - 1)
      else (153 * (month - 3) + 2) / 5 + 59 + if IsLeapYear year then 1 else 0 := by
  unfold daysBeforeMonth monthLengths
  by_cases h : IsLeapYear year <;> interval_cases month <;> simp [h]

end Troupe.Lib
