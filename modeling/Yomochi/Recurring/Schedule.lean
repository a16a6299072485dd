import Yomochi.Recurring.Rules

/-! The first date of a schedule, and the schedules that the use cases accept. -/

namespace Yomochi.Recurring

open Foundation

def computeFirstFireDate (startDate : Date) (recurrence : Recurrence)
    (dayOfMonth dayOfWeek month : Option Int) : Except ScheduleError Date :=
  match recurrence with
  | .WEEKLY =>
      match dayOfWeek with
      | none => .error (.valueError ⟨"WEEKLY recurrence requires day_of_week"⟩)
      | some dayOfWeek =>
          let daysAhead := (dayOfWeek - startDate.weekday) % 7
          dateOf (startDate.plusDays daysAhead.toNat)
  | .MONTHLY =>
      match dayOfMonth with
      | none => .error (.valueError ⟨"MONTHLY recurrence requires day_of_month"⟩)
      | some day =>
          match clampedDate startDate.year startDate.month day with
          | .error error => .error error
          | .ok candidate =>
              if candidate < startDate then
                if startDate.month + 1 > 12 then clampedDate (startDate.year + 1) 1 day
                else clampedDate startDate.year (startDate.month + 1) day
              else .ok candidate
  | .YEARLY =>
      match dayOfMonth, month with
      | none, _ => .error (.valueError ⟨"YEARLY recurrence requires day_of_month"⟩)
      | some _, none => .error (.valueError ⟨"YEARLY recurrence requires month"⟩)
      | some day, some month =>
          match clampedDate startDate.year month day with
          | .error error => .error error
          | .ok candidate =>
              if candidate < startDate then clampedDate (startDate.year + 1) month day
              else .ok candidate
  | .NONE =>
      .error (.valueError ⟨"Unsupported recurrence for RecurringRule: " ++ recurrence.value⟩)

structure InvalidRecurrenceScheduleError where
  message : String
  deriving DecidableEq, Repr

def outside (value : Option Int) (low high : Int) : Bool :=
  value.all fun value => !decide (low ≤ value ∧ value ≤ high)

def validateSchedule (recurrence : Recurrence) (dayOfMonth dayOfWeek month : Option Int) :
    Except InvalidRecurrenceScheduleError Unit :=
  match recurrence with
  | .WEEKLY =>
      if outside dayOfWeek 0 6 then .error ⟨"WEEKLY requires day_of_week in 0–6"⟩ else .ok ()
  | .MONTHLY =>
      if outside dayOfMonth 1 28 then .error ⟨"MONTHLY requires day_of_month in 1–28"⟩ else .ok ()
  | .YEARLY =>
      if outside dayOfMonth 1 28 then .error ⟨"YEARLY requires day_of_month in 1–28"⟩
      else if outside month 1 12 then .error ⟨"YEARLY requires month in 1–12"⟩
      else .ok ()
  | .NONE => .error ⟨"Recurrence.NONE is not valid for RecurringRule"⟩

theorem first_le {startDate first : Date} {recurrence : Recurrence}
    {dayOfMonth dayOfWeek month : Option Int}
    (ok : computeFirstFireDate startDate recurrence dayOfMonth dayOfWeek month = .ok first) :
    startDate ≤ first := by
  cases recurrence with
  | NONE => cases ok
  | WEEKLY =>
      cases dayOfWeek with
      | none => cases ok
      | some day => exact Date.le_plusDays (dateOf_eq_ok ok)
  | MONTHLY =>
      cases dayOfMonth with
      | none => cases ok
      | some day =>
          simp only [computeFirstFireDate] at ok
          split at ok
          · cases ok
          · split at ok
            · -- The month after the start is the one that a rule of the start moves on to.
              have moved : advanceNextFireDate startDate .MONTHLY (some day) dayOfWeek month =
                .ok first := ok
              exact Date.le_of_lt (advance_lt moved)
            · rename_i later
              cases ok
              exact Date.not_lt.mp later
  | YEARLY =>
      cases dayOfMonth with
      | none => cases ok
      | some day =>
          cases month with
          | none => cases ok
          | some month =>
              simp only [computeFirstFireDate] at ok
              split at ok
              · cases ok
              · split at ok
                · have moved : advanceNextFireDate startDate .YEARLY (some day) dayOfWeek
                    (some month) = .ok first := ok
                  exact Date.le_of_lt (advance_lt moved)
                · rename_i later
                  cases ok
                  exact Date.not_lt.mp later

end Yomochi.Recurring
