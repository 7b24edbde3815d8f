import Mathlib.Algebra.Order.Ring.Nat
import Mathlib.Logic.Function.Iterate
import Mathlib.Tactic.Common

/-!
# The proleptic Gregorian calendar

Dates from the year 0 on, by the lengths of the months and of the leap years.

* `Date` is a day that exists, `Date.dayAfter` the day after it and `Date.after` the day so many
  days after it.
* `Date.dayNumber` counts the days before a date, year by year and month by month. A day later it is
  one more (`dayNumber_dayAfter`), so the days between two dates are the difference of their numbers
  (`dayNumber_after`).
* `daysBeforeYear_succ` is the closed form of the years.
-/

namespace PowerMonitor.Calendar

/-- A leap year. -/
def IsLeap (year : ℕ) : Prop := year % 4 = 0 ∧ (year % 100 ≠ 0 ∨ year % 400 = 0)

instance (year : ℕ) : Decidable (IsLeap year) := inferInstanceAs (Decidable (_ ∧ _))

/-- The days of a month. -/
def monthDays (year month : ℕ) : ℕ :=
  match month with
  | 2 => if IsLeap year then 29 else 28
  | 4 | 6 | 9 | 11 => 30
  | _ => 31

/-- The days of a year. -/
def yearDays (year : ℕ) : ℕ := if IsLeap year then 366 else 365

/-- The days before a month of the year; the months are numbered from 1. -/
def daysBeforeMonth (year : ℕ) : ℕ → ℕ
  | 0 | 1 => 0
  | month + 2 => daysBeforeMonth year (month + 1) + monthDays year (month + 1)

/-- The days of the years before a year. -/
def daysBeforeYear : ℕ → ℕ
  | 0 => 0
  | year + 1 => daysBeforeYear year + yearDays year

/-- A date that exists. -/
structure Date where
  year : ℕ
  month : ℕ
  day : ℕ
  month_range : 1 ≤ month ∧ month ≤ 12
  day_range : 1 ≤ day ∧ day ≤ monthDays year month

theorem monthDays_pos (year month : ℕ) : 1 ≤ monthDays year month := by
  unfold monthDays
  split
  · split <;> omega
  all_goals omega

theorem monthDays_le (year month : ℕ) : monthDays year month ≤ 31 := by
  unfold monthDays
  split
  · split <;> omega
  all_goals omega

theorem daysBeforeMonth_succ (year : ℕ) {month : ℕ} (h : 1 ≤ month) :
    daysBeforeMonth year (month + 1) = daysBeforeMonth year month + monthDays year month := by
  obtain ⟨month, rfl⟩ : ∃ m, month = m + 1 := ⟨month - 1, by omega⟩
  rfl

theorem daysBeforeMonth_mono (year : ℕ) {month month' : ℕ} (h : month ≤ month') :
    daysBeforeMonth year month ≤ daysBeforeMonth year month' := by
  induction month', h using Nat.le_induction with
  | base => exact le_rfl
  | succ month' _ ih =>
    cases month' with
    | zero => exact ih
    | succ month' => exact ih.trans (Nat.le_add_right _ _)

/-- The twelve months make up the year. -/
theorem daysBeforeMonth_all (year : ℕ) : daysBeforeMonth year 13 = yearDays year := by
  simp only [daysBeforeMonth, monthDays, yearDays]
  split <;> rfl

/-- The years up to the end of a year in one formula. -/
theorem daysBeforeYear_succ (year : ℕ) :
    daysBeforeYear (year + 1) + year / 100 = 365 * (year + 1) + year / 4 + year / 400 + 1 := by
  induction year with
  | zero => rfl
  | succ year ih =>
    have h₄ : (year + 1) / 4 = year / 4 + if (year + 1) % 4 = 0 then 1 else 0 := by
      split <;> omega
    have h₁₀₀ : (year + 1) / 100 = year / 100 + if (year + 1) % 100 = 0 then 1 else 0 := by
      split <;> omega
    have h₄₀₀ : (year + 1) / 400 = year / 400 + if (year + 1) % 400 = 0 then 1 else 0 := by
      split <;> omega
    have hcentury : (year + 1) % 100 = 0 → (year + 1) % 4 = 0 := by omega
    have hera : (year + 1) % 400 = 0 → (year + 1) % 100 = 0 := by omega
    rw [daysBeforeYear, yearDays, h₄, h₁₀₀, h₄₀₀]
    unfold IsLeap
    by_cases h : (year + 1) % 4 = 0
    · by_cases h' : (year + 1) % 100 = 0
      · by_cases h'' : (year + 1) % 400 = 0
        · simp only [h, h', h'', not_true_eq_false, ne_eq, false_or, and_true, if_true]
          omega
        · simp only [h, h', h'', not_true_eq_false, ne_eq, or_false, and_false, if_false, if_true]
          omega
      · have h'' : ¬(year + 1) % 400 = 0 := fun h'' => h' (hera h'')
        simp only [h, h', h'', not_false_eq_true, ne_eq, true_or, and_true, if_false, if_true]
        omega
    · have h' : ¬(year + 1) % 100 = 0 := fun h' => h (hcentury h')
      have h'' : ¬(year + 1) % 400 = 0 := fun h'' => h' (hera h'')
      simp only [h, h', h'', false_and, if_false]
      omega

theorem daysBeforeYear_mono {year year' : ℕ} (h : year ≤ year') :
    daysBeforeYear year ≤ daysBeforeYear year' := by
  induction year', h using Nat.le_induction with
  | base => exact le_rfl
  | succ year' _ ih => exact ih.trans (Nat.le_add_right _ _)

namespace Date

/-- The days before a date. -/
def dayNumber (d : Date) : ℕ := daysBeforeYear d.year + daysBeforeMonth d.year d.month + (d.day - 1)

/-- January is a month. -/
theorem january_range : 1 ≤ 1 ∧ 1 ≤ 12 := by decide

/-- The next day. -/
def dayAfter (d : Date) : Date :=
  if hday : d.day < monthDays d.year d.month then
    { d with day := d.day + 1, day_range := ⟨by omega, hday⟩ }
  else if hmonth : d.month < 12 then
    ⟨d.year, d.month + 1, 1, ⟨by omega, hmonth⟩, ⟨le_rfl, monthDays_pos _ _⟩⟩
  else ⟨d.year + 1, 1, 1, january_range, ⟨le_rfl, monthDays_pos _ _⟩⟩

/-- The date so many days later. -/
def after (d : Date) (days : ℕ) : Date := dayAfter^[days] d

theorem dayNumber_dayAfter (d : Date) : d.dayAfter.dayNumber = d.dayNumber + 1 := by
  obtain ⟨year, month, day, ⟨hmonth, hmonth'⟩, ⟨hday, hday'⟩⟩ := d
  have hnext := daysBeforeMonth_succ year hmonth
  unfold dayAfter
  split
  · simp only [dayNumber]
    omega
  split
  next hlast hmore =>
    simp only [dayNumber] at hlast ⊢
    omega
  next hlast hmore =>
    -- the first of January follows the last of December
    obtain rfl : month = 12 := by simp only at hmore; omega
    rw [daysBeforeMonth_all] at hnext
    simp only [dayNumber, daysBeforeYear, daysBeforeMonth.eq_2] at hlast ⊢
    omega

/-- Days are counted one by one. -/
theorem dayNumber_after (d : Date) (days : ℕ) : (d.after days).dayNumber = d.dayNumber + days := by
  induction days with
  | zero => rfl
  | succ days ih => rw [after, Function.iterate_succ_apply', dayNumber_dayAfter, ← after, ih]; rfl

/-- A date comes before the years after its own. -/
theorem dayNumber_lt (d : Date) : d.dayNumber < daysBeforeYear (d.year + 1) := by
  obtain ⟨year, month, day, ⟨hmonth, hmonth'⟩, ⟨hday, hday'⟩⟩ := d
  have hnext := daysBeforeMonth_succ year hmonth
  have hyear := daysBeforeMonth_mono year (show month + 1 ≤ 13 by omega)
  rw [daysBeforeMonth_all] at hyear
  simp only [dayNumber, daysBeforeYear]
  omega

end Date

end PowerMonitor.Calendar
