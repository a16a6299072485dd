import Yomochi.Foundation.Calendar

/-! The ISO calendar: weeks start on Monday, and the first week of a year is the one that holds
its first Thursday. -/

namespace Yomochi.Foundation

def daysBeforeYear (year : Int) : Int :=
  let before := year - 1
  before * 365 + before / 4 - before / 100 + before / 400

def isoWeek1Monday (year : Int) : Int :=
  let firstDay := daysBeforeYear year + 1
  let firstWeekday := (firstDay + 6) % 7
  if 3 < firstWeekday then firstDay - firstWeekday + 7 else firstDay - firstWeekday

namespace Date

def isocalendar (date : Date) : Int × Int :=
  let today : Int := date.ordinal
  let week := (today - isoWeek1Monday date.year) / 7
  if week < 0 then (date.year - 1, (today - isoWeek1Monday (date.year - 1)) / 7 + 1)
  else if 52 ≤ week ∧ isoWeek1Monday (date.year + 1) ≤ today then (date.year + 1, 1)
  else (date.year, week + 1)

example : isocalendar ⟨2024, 12, 30, by decide, by decide, by decide⟩ = (2025, 1) := by decide

example : isocalendar ⟨2021, 1, 3, by decide, by decide, by decide⟩ = (2020, 53) := by decide

theorem months_before_le (year start n : Nat) : start + 28 * n ≤
    (List.range n).foldl (fun days month => days + daysInMonth year (month + 1)) start := by
  induction n with
  | zero => exact Nat.le_refl _
  | succ n ih =>
      have days := (daysInMonth_bounds year (n + 1)).1
      rw [List.range_succ, List.foldl_append, List.foldl_cons, List.foldl_nil]
      omega

theorem ordinal_ge (date : Date) :
    daysBeforeYear date.year + 28 * (date.month - 1 : Nat) + date.day ≤ date.ordinal := by
  have later := months_before_le date.year ((date.year - 1) * 365 + (date.year - 1) / 4 -
    (date.year - 1) / 100 + (date.year - 1) / 400) (date.month - 1)
  have year := date.yearBounds
  unfold daysBeforeYear ordinal
  dsimp only
  omega

theorem iso_week1_monday_le (year : Int) : isoWeek1Monday year ≤ daysBeforeYear year + 4 := by
  unfold isoWeek1Monday
  dsimp only
  split <;> omega

/-- A week of the date's own year. -/
theorem isocalendar_own_year {date : Date} {week : Int}
    (same : date.isocalendar = ((date.year : Int), week)) :
    week = (date.ordinal - isoWeek1Monday date.year) / 7 + 1 := by
  unfold isocalendar at same
  dsimp only at same
  by_cases before : ((date.ordinal : Int) - isoWeek1Monday date.year) / 7 < 0
  · rw [if_pos before] at same
    have year := congrArg Prod.fst same
    dsimp only at year
    omega
  · rw [if_neg before] at same
    by_cases after : 52 ≤ ((date.ordinal : Int) - isoWeek1Monday date.year) / 7 ∧
        isoWeek1Monday (date.year + 1) ≤ date.ordinal
    · rw [if_pos after] at same
      have year := congrArg Prod.fst same
      dsimp only at year
      omega
    · rw [if_neg after] at same
      exact (congrArg Prod.snd same).symm

/-- The number of a month is the number of an ISO week on some of its days only in January. -/
theorem january_of_same_number {date : Date}
    (same : date.isocalendar = ((date.year : Int), (date.month : Int))) : date.month = 1 := by
  have week := isocalendar_own_year same
  have monday := iso_week1_monday_le date.year
  have ordinal := ordinal_ge date
  have month := date.monthBounds
  have day := date.dayBounds.1
  omega

end Date

end Yomochi.Foundation
