import Mathlib.Data.Rat.Defs
import Yomochi.Foundation.Calendar
import Yomochi.Values

/-! The `RecurringRule` entity and its schedule. -/

namespace Yomochi.Recurring

open Foundation

structure RecurringRuleId where
  value : Uuid
  deriving DecidableEq, Repr

structure CategoryId where
  value : Uuid
  deriving DecidableEq, Repr

inductive TransactionType
  | INCOME
  | EXPENSE
  deriving DecidableEq, Repr

inductive Recurrence
  | NONE
  | WEEKLY
  | MONTHLY
  | YEARLY
  deriving DecidableEq, Repr

def Recurrence.value : Recurrence → String
  | .NONE => "none"
  | .WEEKLY => "weekly"
  | .MONTHLY => "monthly"
  | .YEARLY => "yearly"

inductive RecurringRuleStatus
  | ACTIVE
  | PAUSED
  deriving DecidableEq, Repr

def RecurringRuleStatus.value : RecurringRuleStatus → String
  | .ACTIVE => "active"
  | .PAUSED => "paused"

structure Money where
  amount : ℚ
  currency : String
  deriving DecidableEq

structure RecurringRule where
  id : RecurringRuleId
  userId : UserId
  amount : Money
  type : TransactionType
  merchant : Option String
  notes : Option String
  categoryId : Option CategoryId
  recurrence : Recurrence
  dayOfMonth : Option Int
  dayOfWeek : Option Int
  month : Option Int
  endDate : Option Date
  status : RecurringRuleStatus
  nextFireDate : Date
  updatedAt : Option Timestamp
  deriving DecidableEq

def RecurringRule.pause (rule : RecurringRule) (now : Timestamp) : RecurringRule :=
  { rule with status := .PAUSED, updatedAt := some now }

/-- `standardLibrary` stands for the errors of `calendar`, `date` and `timedelta`. -/
inductive ScheduleError
  | valueError (error : ValueError)
  | standardLibrary
  deriving DecidableEq, Repr

def dateOf (date : Option Date) : Except ScheduleError Date :=
  match date with
  | some date => .ok date
  | none => .error .standardLibrary

def clampedDate (year month day : Int) : Except ScheduleError Date :=
  dateOf (Date.ofNumbers year month (min day (daysInMonth year.toNat month.toNat)))

def advanceNextFireDate (current : Date) (recurrence : Recurrence)
    (dayOfMonth _dayOfWeek month : Option Int) : Except ScheduleError Date :=
  match recurrence with
  | .WEEKLY => dateOf (current.plusDays 7)
  | .MONTHLY =>
      match dayOfMonth with
      | none => .error (.valueError ⟨"MONTHLY recurrence requires day_of_month"⟩)
      | some day =>
          if current.month + 1 > 12 then clampedDate (current.year + 1) 1 day
          else clampedDate current.year (current.month + 1) day
  | .YEARLY =>
      match dayOfMonth, month with
      | none, _ => .error (.valueError ⟨"YEARLY recurrence requires day_of_month"⟩)
      | some _, none => .error (.valueError ⟨"YEARLY recurrence requires month"⟩)
      | some day, some month => clampedDate (current.year + 1) month day
  | .NONE =>
      .error (.valueError ⟨"Unsupported recurrence for RecurringRule: " ++ recurrence.value⟩)

def RecurringRule.advance (rule : RecurringRule) (current : Date) : Except ScheduleError Date :=
  advanceNextFireDate current rule.recurrence rule.dayOfMonth rule.dayOfWeek rule.month

/-- `while new_next <= today`. Every round moves the date on, so that `fuel` lasts. -/
def catchUp (rule : RecurringRule) (today : Date) : Nat → Date → Except ScheduleError Date
  | 0, next => .ok next
  | fuel + 1, next =>
      if next ≤ today then (rule.advance next).bind (catchUp rule today fuel) else .ok next

/-- The date that `_fire` moves a rule on to: the first one of its schedule after today. -/
def RecurringRule.nextAfter (rule : RecurringRule) (today : Date) : Except ScheduleError Date :=
  (rule.advance rule.nextFireDate).bind fun next =>
    catchUp rule today (today.stamp + 1 - next.stamp) next

theorem next_after_congr {rule other : RecurringRule} (schedule : rule.advance = other.advance)
    (next : rule.nextFireDate = other.nextFireDate) (today : Date) :
    rule.nextAfter today = other.nextAfter today := by
  have loops (fuel : Nat) : catchUp rule today fuel = catchUp other today fuel := by
    induction fuel with
    | zero => rfl
    | succ fuel ih =>
        funext date
        rw [catchUp, catchUp, schedule, ih]
  simp only [RecurringRule.nextAfter, schedule, next, loops]

theorem dateOf_eq_ok {made : Option Date} {date : Date} (ok : dateOf made = .ok date) :
    made = some date := by
  cases made with
  | none => cases ok
  | some made =>
      cases ok
      rfl

theorem clampedDate_eq_ok {year month day : Int} {date : Date}
    (ok : clampedDate year month day = .ok date) :
    (date.year : Int) = year ∧ (date.month : Int) = month := by
  obtain ⟨years, months, _⟩ := Date.ofNumbers_eq_some (dateOf_eq_ok ok)
  exact ⟨years, months⟩

theorem advance_lt {current next : Date} {recurrence : Recurrence}
    {dayOfMonth dayOfWeek month : Option Int}
    (ok : advanceNextFireDate current recurrence dayOfMonth dayOfWeek month = .ok next) :
    current < next := by
  cases recurrence with
  | NONE => cases ok
  | WEEKLY => exact Date.lt_plusDays (dateOf_eq_ok ok)
  | MONTHLY =>
      cases dayOfMonth with
      | none => cases ok
      | some day =>
          rw [Date.lt_iff]
          simp only [advanceNextFireDate] at ok
          split at ok
          · obtain ⟨years, _⟩ := clampedDate_eq_ok ok
            omega
          · obtain ⟨years, months⟩ := clampedDate_eq_ok ok
            omega
  | YEARLY =>
      cases dayOfMonth with
      | none => cases ok
      | some day =>
          cases month with
          | none => cases ok
          | some month =>
              rw [Date.lt_iff]
              obtain ⟨years, _⟩ := clampedDate_eq_ok ok
              omega

/-- The loop ends after today: its fuel is the number of days that are left. -/
theorem catch_up_lt {rule : RecurringRule} {today start next : Date} {fuel : Nat}
    (enough : today.stamp < start.stamp + fuel) (ok : catchUp rule today fuel start = .ok next) :
    today < next := by
  induction fuel generalizing start with
  | zero =>
      cases ok
      exact enough
  | succ fuel ih =>
      unfold catchUp at ok
      split at ok
      · cases moved : rule.advance start with
        | error error =>
            rw [moved] at ok
            cases ok
        | ok later =>
            rw [moved] at ok
            have ahead : start.stamp < later.stamp := advance_lt moved
            exact ih (by omega) ok
      · rename_i past
        cases ok
        exact Date.not_le.mp past

theorem next_after_lt {rule : RecurringRule} {today next : Date}
    (ok : rule.nextAfter today = .ok next) : today < next := by
  unfold RecurringRule.nextAfter at ok
  cases moved : rule.advance rule.nextFireDate with
  | error error =>
      rw [moved] at ok
      cases ok
  | ok later =>
      rw [moved] at ok
      exact catch_up_lt (by omega) ok

end Yomochi.Recurring
