import Yomochi.Foundation.DaysBack
import Yomochi.Foundation.IsoCalendar
import Yomochi.Foundation.IsoFormat

/-! Weeks in a row, and their names in the ISO calendar: a week has the year of its Thursday, and
the number of that Thursday among the Thursdays of the year. -/

namespace Yomochi.Foundation

namespace Date

def weekNumber (date : Date) : Nat := (date.ordinal + 6) / 7

def dayOfYear (date : Date) : Nat := date.ordinal - yearStart date.year

theorem weekday_eq (date : Date) : date.weekday + 7 * date.weekNumber = date.ordinal + 6 := by
  unfold weekday weekNumber
  omega

theorem year_start_lt (date : Date) : yearStart date.year < date.ordinal := by
  have day := date.dayBounds.1
  rw [ordinal_eq]
  omega

theorem ordinal_le_year (date : Date) : date.ordinal ≤ yearStart (date.year + 1) := by
  have inMonth := date.ordinal_le
  have inYear := @days_in_months_mono date.year _ _ date.monthBounds.2
  rw [year_start_succ date.yearBounds.1]
  omega

theorem year_start_next {year : Nat} (positive : 1 ≤ year) :
    yearStart year + 365 ≤ yearStart (year + 1) ∧ yearStart (year + 1) ≤ yearStart year + 366 := by
  rw [year_start_succ positive, days_in_year]
  split <;> omega

theorem day_of_year_bounds (date : Date) : 1 ≤ date.dayOfYear ∧ date.dayOfYear ≤ 366 := by
  have after := date.year_start_lt
  have before := date.ordinal_le_year
  have next := (year_start_next date.yearBounds.1).2
  unfold dayOfYear
  omega

/-- The Thursday of a week of the calendar is in the calendar. -/
theorem exists_thursday (date : Date) :
    ∃ thursday : Date, thursday.ordinal + 3 = 7 * date.weekNumber := by
  have low := date.one_le_ordinal
  have high := date.ordinal_le_last
  rw [ordinal_last] at high
  obtain ⟨thursday, number⟩ : ∃ thursday : Date, thursday.ordinal = 7 * date.weekNumber - 3 := by
    apply @exists_of_between first last
    · rw [ordinal_first]
      unfold weekNumber
      omega
    · rw [ordinal_last]
      unfold weekNumber
      omega
  refine ⟨thursday, ?_⟩
  unfold weekNumber at number ⊢
  omega

/-- The first week of a year starts at most three days before or after New Year. -/
theorem iso_week1_monday_spec {year : Nat} (positive : 1 ≤ year) :
    (isoWeek1Monday year - 1) % 7 = 0 ∧ (yearStart year : Int) - 2 ≤ isoWeek1Monday year ∧
      isoWeek1Monday year ≤ yearStart year + 4 := by
  have before : daysBeforeYear year = yearStart year := by
    unfold daysBeforeYear yearStart
    dsimp only
    omega
  unfold isoWeek1Monday
  rw [before]
  dsimp only
  split <;> omega

theorem year_le_of_ordinal {left right : Date} (le : left.ordinal ≤ right.ordinal) :
    left.year ≤ right.year := by
  by_contra later
  have mono := @year_start_mono (right.year + 1) left.year (by omega) (by omega)
  have after := left.year_start_lt
  have before := right.ordinal_le_year
  omega

theorem year_lt_two {left right : Date} (near : right.ordinal ≤ left.ordinal + 3) :
    right.year ≤ left.year + 1 := by
  by_contra later
  have mono := @year_start_mono (left.year + 1 + 1) right.year (by omega) (by omega)
  have after := right.year_start_lt
  have before := left.ordinal_le_year
  have length := @year_start_next (left.year + 1) (by omega)
  omega

/-- A date belongs to the year of the Thursday of its week. -/
theorem isocalendar_eq {date thursday : Date}
    (same : thursday.ordinal + 3 = 7 * date.weekNumber) :
    date.isocalendar =
      ((thursday.year : Int), (((thursday.dayOfYear - 1) / 7 + 1 : Nat) : Int)) := by
  have week := date.weekday_eq
  have weekdays : date.weekday < 7 := Nat.mod_lt _ (by decide)
  have years := thursday.yearBounds
  have own := iso_week1_monday_spec years.1
  have next := @iso_week1_monday_spec (thursday.year + 1) (by omega)
  have length := year_start_next years.1
  have after := thursday.year_start_lt
  have before := thursday.ordinal_le_year
  have dateYears := date.yearBounds
  have dateOwn := iso_week1_monday_spec dateYears.1
  have dateNext := @iso_week1_monday_spec (date.year + 1) (by omega)
  have dateLength := year_start_next dateYears.1
  have dateAfter := date.year_start_lt
  have dateBefore := date.ordinal_le_year
  have late := @year_lt_two date thursday (by omega)
  have early := @year_lt_two thursday date (by omega)
  push_cast at next dateNext
  unfold isocalendar dayOfYear
  dsimp only
  rcases (by omega : date.year = thursday.year ∨ date.year = thursday.year + 1 ∨
      date.year + 1 = thursday.year) with year | year | year
  · rw [year] at *
    rw [if_neg (by omega)]
    have inside : ¬ (52 ≤ ((date.ordinal : Int) - isoWeek1Monday thursday.year) / 7 ∧
        isoWeek1Monday (thursday.year + 1) ≤ date.ordinal) := by
      omega
    rw [if_neg inside]
    apply Prod.ext
    · rfl
    · omega
  · have back : (date.year : Int) - 1 = thursday.year := by omega
    rw [year] at dateOwn
    push_cast at dateOwn
    rw [year]
    push_cast
    rw [if_pos (by omega), show (thursday.year : Int) + 1 - 1 = thursday.year by omega]
    apply Prod.ext
    · rfl
    · omega
  · have forth : (date.year : Int) + 1 = thursday.year := by omega
    rw [forth] at dateNext ⊢
    rw [if_neg (by omega)]
    have outside : 52 ≤ ((date.ordinal : Int) - isoWeek1Monday date.year) / 7 ∧
        isoWeek1Monday thursday.year ≤ date.ordinal := by
      rw [year] at *
      omega
    rw [if_pos outside]
    apply Prod.ext
    · rfl
    · rw [year] at *
      omega

end Date

end Yomochi.Foundation
