import Mathlib.Order.Defs.Unbundled

/-! Dates of the proleptic Gregorian calendar, for the years 1 to 9999. -/

namespace Yomochi.Foundation

def maxYear : Nat := 9999

def isLeap (year : Nat) : Bool :=
  decide (year % 4 = 0) && (!decide (year % 100 = 0) || decide (year % 400 = 0))

def daysInMonth (year month : Nat) : Nat :=
  if month = 2 then if isLeap year then 29 else 28
  else if month = 4 ∨ month = 6 ∨ month = 9 ∨ month = 11 then 30
  else 31

theorem daysInMonth_bounds (year month : Nat) :
    28 ≤ daysInMonth year month ∧ daysInMonth year month ≤ 31 := by
  unfold daysInMonth
  split
  · split <;> omega
  · split <;> omega

structure Date where
  year : Nat
  month : Nat
  day : Nat
  yearBounds : 1 ≤ year ∧ year ≤ maxYear
  monthBounds : 1 ≤ month ∧ month ≤ 12
  dayBounds : 1 ≤ day ∧ day ≤ daysInMonth year month
  deriving DecidableEq

namespace Date

def ofNumbers (year month day : Int) : Option Date :=
  if valid : (1 ≤ year.toNat ∧ year.toNat ≤ maxYear) ∧ (1 ≤ month.toNat ∧ month.toNat ≤ 12) ∧
      (1 ≤ day.toNat ∧ day.toNat ≤ daysInMonth year.toNat month.toNat) then
    some ⟨year.toNat, month.toNat, day.toNat, valid.1, valid.2.1, valid.2.2⟩
  else none

/-- A number that grows with the date; months count 31 days in it. -/
def stamp (date : Date) : Nat := (date.year * 12 + date.month) * 31 + date.day

instance : LT Date := ⟨fun left right => left.stamp < right.stamp⟩

instance : LE Date := ⟨fun left right => left.stamp ≤ right.stamp⟩

instance (left right : Date) : Decidable (left < right) :=
  inferInstanceAs (Decidable (left.stamp < right.stamp))

instance (left right : Date) : Decidable (left ≤ right) :=
  inferInstanceAs (Decidable (left.stamp ≤ right.stamp))

theorem lt_def {left right : Date} : left < right ↔ left.stamp < right.stamp := Iff.rfl

theorem le_def {left right : Date} : left ≤ right ↔ left.stamp ≤ right.stamp := Iff.rfl

theorem le_refl (date : Date) : date ≤ date := Nat.le_refl _

theorem le_of_lt {left right : Date} (lt : left < right) : left ≤ right := Nat.le_of_lt lt

theorem le_trans {first second third : Date} (one : first ≤ second) (two : second ≤ third) :
    first ≤ third :=
  Nat.le_trans one two

theorem not_lt {left right : Date} : ¬ left < right ↔ right ≤ left := by
  rw [le_def, lt_def]
  omega

theorem not_le {left right : Date} : ¬ left ≤ right ↔ right < left := by
  rw [le_def, lt_def]
  omega

theorem lt_trans {first second third : Date} (one : first < second) (two : second < third) :
    first < third :=
  Nat.lt_trans one two

theorem lt_of_le_of_lt {first second third : Date} (one : first ≤ second) (two : second < third) :
    first < third :=
  Nat.lt_of_le_of_lt one two

theorem day_le (date : Date) : date.day ≤ 31 :=
  Nat.le_trans date.dayBounds.2 (daysInMonth_bounds date.year date.month).2

theorem lt_iff {left right : Date} : left < right ↔ left.year < right.year ∨
    left.year = right.year ∧ (left.month < right.month ∨
      left.month = right.month ∧ left.day < right.day) := by
  have boundsLeft := left.day_le
  have boundsRight := right.day_le
  have daysLeft := left.dayBounds.1
  have daysRight := right.dayBounds.1
  have monthsLeft := left.monthBounds
  have monthsRight := right.monthBounds
  simp only [lt_def, stamp]
  omega

def tomorrow (date : Date) : Option Date :=
  if later : date.day < daysInMonth date.year date.month then
    some { date with day := date.day + 1, dayBounds := ⟨by omega, later⟩ }
  else if date.month < 12 then ofNumbers date.year (date.month + 1) 1
  else ofNumbers (date.year + 1) 1 1

def plusDays (date : Date) : Nat → Option Date
  | 0 => some date
  | days + 1 => date.tomorrow.bind fun next => next.plusDays days

def ordinal (date : Date) : Nat :=
  let before := date.year - 1
  (List.range (date.month - 1)).foldl (fun days month => days + daysInMonth date.year (month + 1))
    (before * 365 + before / 4 - before / 100 + before / 400) + date.day

/-- `date.weekday`: Monday is 0. -/
def weekday (date : Date) : Nat := (date.ordinal + 6) % 7

theorem ofNumbers_eq_some {year month day : Int} {date : Date}
    (made : ofNumbers year month day = some date) :
    (date.year : Int) = year ∧ (date.month : Int) = month ∧ (date.day : Int) = day := by
  unfold ofNumbers at made
  split at made
  · rename_i valid
    cases made
    simp only
    omega
  · cases made

theorem ofNumbers_of_valid {year month day : Int} (years : 1 ≤ year ∧ year ≤ maxYear)
    (months : 1 ≤ month ∧ month ≤ 12)
    (days : 1 ≤ day ∧ day ≤ daysInMonth year.toNat month.toNat) :
    ∃ date, ofNumbers year month day = some date := by
  have valid : (1 ≤ year.toNat ∧ year.toNat ≤ maxYear) ∧ (1 ≤ month.toNat ∧ month.toNat ≤ 12) ∧
      (1 ≤ day.toNat ∧ day.toNat ≤ daysInMonth year.toNat month.toNat) := by
    omega
  unfold ofNumbers
  rw [dif_pos valid]
  exact ⟨_, rfl⟩

theorem lt_tomorrow {date next : Date} (made : date.tomorrow = some next) : date < next := by
  rw [lt_iff]
  unfold tomorrow at made
  split at made
  · cases made
    exact .inr ⟨rfl, .inr ⟨rfl, Nat.lt_succ_self _⟩⟩
  · split at made
    · obtain ⟨year, month, _⟩ := ofNumbers_eq_some made
      omega
    · obtain ⟨year, _, _⟩ := ofNumbers_eq_some made
      omega

theorem lt_plusDays {date next : Date} {days : Nat} (made : date.plusDays (days + 1) = some next) :
    date < next := by
  induction days generalizing date with
  | zero =>
      obtain ⟨day, following, same⟩ := Option.bind_eq_some_iff.mp made
      cases same
      exact lt_tomorrow following
  | succ days ih =>
      obtain ⟨day, following, rest⟩ := Option.bind_eq_some_iff.mp made
      exact lt_trans (lt_tomorrow following) (ih rest)

theorem le_plusDays {date next : Date} {days : Nat} (made : date.plusDays days = some next) :
    date ≤ next := by
  cases days with
  | zero =>
      cases made
      exact le_refl date
  | succ days => exact le_of_lt (lt_plusDays made)

end Date

end Yomochi.Foundation
