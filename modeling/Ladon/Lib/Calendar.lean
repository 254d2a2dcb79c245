import Mathlib.Data.FinEnum
import Mathlib.Tactic.Common
import Mathlib.Tactic.Ring

/-!
Calendar dates and the days since 1970-01-01.

Years are counted from 1900, months from 0 and days from 1, as in the C library. The years of the
computation begin in March, so that the leap day is the last of its year.
-/

namespace Ladon.Lib.Calendar

/-- The days before a year that begins in March, and the month in it. -/
def daysBefore (year month : ℤ) : ℤ :=
  365 * year + year / 4 - year / 100 + year / 400 + (153 * month + 2) / 5

/-- The days from 1970-01-01 to a date. A day beyond its month counts on into the next ones, and
a month beyond its year into the next years. -/
def dayNumber (year mon mday : ℤ) : ℤ :=
  daysBefore (year + 1900 + mon / 12 - if mon % 12 < 2 then 1 else 0) ((mon + 10) % 12) + mday -
    719469

lemma dayNumber_add (year mon mday k : ℤ) :
    dayNumber year mon (mday + k) = dayNumber year mon mday + k := by
  simp only [dayNumber]
  ring

/-- A date with its fields in their ranges. -/
structure Date where
  year : ℤ
  mon : ℤ
  mday : ℤ
  mon_range : 0 ≤ mon ∧ mon < 12
  mday_range : 1 ≤ mday ∧ mday ≤ 31

/-! ### The date of a day -/

/-- A day of a cycle of 400 years: its century, its leap period, the year and the day in it. -/
structure DayOfEra where
  century : ℤ
  period : ℤ
  year : ℤ
  day : ℤ
  century_range : 0 ≤ century ∧ century ≤ 3
  period_range : 0 ≤ period ∧ period ≤ 24
  year_range : 0 ≤ year ∧ year ≤ 3
  day_range : 0 ≤ day ∧ day ≤ 365

namespace DayOfEra

/-- The days of the cycle before it. -/
def number (d : DayOfEra) : ℤ := 36524 * d.century + 1461 * d.period + 365 * d.year + d.day

/-- The day with so many days of the cycle before it. -/
def ofNumber (n : ℤ) (h : 0 ≤ n) (h' : n < 146097) : DayOfEra where
  century := min (n / 36524) 3
  period := (n - 36524 * min (n / 36524) 3) / 1461
  year := min ((n - 36524 * min (n / 36524) 3) % 1461 / 365) 3
  day := (n - 36524 * min (n / 36524) 3) % 1461 -
    365 * min ((n - 36524 * min (n / 36524) 3) % 1461 / 365) 3
  century_range := by omega
  period_range := by omega
  year_range := by omega
  day_range := by omega

lemma number_ofNumber {n : ℤ} (h : 0 ≤ n) (h' : n < 146097) : (ofNumber n h h').number = n := by
  simp only [number, ofNumber]
  omega

/-- The month of the day, counted from March. -/
def month (d : DayOfEra) : ℤ := (5 * d.day + 2) / 153

lemma month_range (d : DayOfEra) : 0 ≤ d.month ∧ d.month ≤ 11 := by
  have hday := d.day_range
  simp only [month]
  omega

/-- The date of the day in the cycle that begins in March of the year `400 * era`. -/
def date (d : DayOfEra) (era : ℤ) : Date where
  year := 400 * era + 100 * d.century + 4 * d.period + d.year + (if d.month < 10 then 0 else 1) - 1900
  mon := if d.month < 10 then d.month + 2 else d.month - 10
  mday := d.day - (153 * d.month + 2) / 5 + 1
  mon_range := by
    have hmonth := d.month_range
    split <;> omega
  mday_range := by
    have hday := d.day_range
    simp only [month]
    omega

lemma dayNumber_date (d : DayOfEra) (era : ℤ) :
    dayNumber (d.date era).year (d.date era).mon (d.date era).mday =
      146097 * era + d.number - 719468 := by
  have hcentury := d.century_range
  have hperiod := d.period_range
  have hyear := d.year_range
  have hmonth := d.month_range
  obtain ⟨y, hy⟩ : ∃ y, y = 400 * era + 100 * d.century + 4 * d.period + d.year := ⟨_, rfl⟩
  -- January and February belong to the year before
  have hdays : dayNumber (d.date era).year (d.date era).mon (d.date era).mday =
      daysBefore y d.month + (d.date era).mday - 719469 := by
    simp only [dayNumber, date]
    split
    · rw [if_neg (by omega), show d.month + 2 + 10 = d.month + 12 by omega, Int.add_emod_right,
        Int.emod_eq_of_lt hmonth.1 (by omega)]
      congr 3
      omega
    · rw [if_pos (by omega), show d.month - 10 + 10 = d.month by omega,
        Int.emod_eq_of_lt hmonth.1 (by omega)]
      congr 3
      omega
  rw [hdays]
  simp only [daysBefore, date, number]
  omega

end DayOfEra

/-- The date of the day so many days after 1970-01-01. -/
def date (n : ℤ) : Date :=
  (DayOfEra.ofNumber ((n + 719468) % 146097) (by omega) (by omega)).date ((n + 719468) / 146097)

lemma dayNumber_date (n : ℤ) : dayNumber (date n).year (date n).mon (date n).mday = n := by
  rw [date, DayOfEra.dayNumber_date, DayOfEra.number_ofNumber]
  omega

end Ladon.Lib.Calendar
