import Yomochi.Foundation.Calendar

/-! The months of UTC, counted from January 1970, as intervals of microseconds. -/

namespace Yomochi.Foundation

def microsecondsPerDay : Nat := 86400000000

def monthLength (month : Nat) : Nat :=
  daysInMonth (1970 + month / 12) (month % 12 + 1) * microsecondsPerDay

/-- Midnight of the first day of a month. -/
def monthStart : Nat → Nat
  | 0 => 0
  | month + 1 => monthStart month + monthLength month

def monthFrom : Nat → Nat → Nat → Nat
  | 0, month, _ => month
  | fuel + 1, month, left =>
      if left < monthLength month then month
      else monthFrom fuel (month + 1) (left - monthLength month)

/-- The month of a time. No month is shorter than a day, so that the days are enough fuel. -/
def currentMonth (now : Nat) : Nat := monthFrom (now / microsecondsPerDay) 0 now

def InMonth (month time : Nat) : Prop := monthStart month ≤ time ∧ time < monthStart (month + 1)

instance (month time : Nat) : Decidable (InMonth month time) := inferInstanceAs (Decidable (_ ∧ _))

theorem day_le_monthLength (month : Nat) : microsecondsPerDay ≤ monthLength month := by
  have days := (daysInMonth_bounds (1970 + month / 12) (month % 12 + 1)).1
  apply Nat.le_mul_of_pos_left
  omega

theorem month_from_spec (month : Nat) {fuel left : Nat}
    (enough : left < (fuel + 1) * microsecondsPerDay) :
    InMonth (monthFrom fuel month left) (monthStart month + left) := by
  induction fuel generalizing month left with
  | zero =>
      have short := day_le_monthLength month
      constructor
      · exact Nat.le_add_right _ _
      · change monthStart month + left < monthStart month + monthLength month
        omega
  | succ fuel ih =>
      unfold monthFrom
      split
      · rename_i inside
        constructor
        · exact Nat.le_add_right _ _
        · change monthStart month + left < monthStart month + monthLength month
          omega
      · rename_i outside
        have short := day_le_monthLength month
        have rest : left - monthLength month < (fuel + 1) * microsecondsPerDay := by
          rw [Nat.succ_mul] at enough
          omega
        have same : monthStart (month + 1) + (left - monthLength month) = monthStart month + left := by
          change monthStart month + monthLength month + (left - monthLength month) = _
          omega
        rw [← same]
        exact ih (month + 1) rest

theorem in_current_month (now : Nat) : InMonth (currentMonth now) now := by
  have positive : 0 < microsecondsPerDay := by decide
  have enough : now < (now / microsecondsPerDay + 1) * microsecondsPerDay :=
    Nat.lt_mul_of_div_lt (Nat.lt_succ_self _) positive
  have spec := month_from_spec 0 enough
  rwa [monthStart, Nat.zero_add] at spec

end Yomochi.Foundation
