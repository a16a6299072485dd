import Yomochi.Recurring.Firings
import Yomochi.Recurring.ScheduledDates

/-! Where a fired rule is moved to: the first date of its schedule after today. -/

namespace Yomochi.Recurring

open Foundation

namespace RecurringRule

variable (rule : RecurringRule)

def ScheduleValid : Prop :=
  ValidSchedule rule.recurrence rule.dayOfMonth rule.dayOfWeek rule.month

def Fires (date : Date) : Prop :=
  Scheduled rule.recurrence rule.dayOfMonth rule.dayOfWeek rule.month date

def EndsBefore (date : Date) : Prop := ∃ ended, rule.endDate = some ended ∧ ended < date

end RecurringRule

/-- The runs of `while new_next <= today`, from a date to what the loop ends with. -/
inductive CatchesUp (rule : RecurringRule) (today : Date) : Date → Except ScheduleError Date → Prop
  | past {next : Date} : today < next → CatchesUp rule today next (.ok next)
  | due {next later : Date} {ended : Except ScheduleError Date} : next ≤ today →
      rule.advance next = .ok later → CatchesUp rule today later ended →
      CatchesUp rule today next ended
  | raised {next : Date} {error : ScheduleError} : next ≤ today →
      rule.advance next = .error error → CatchesUp rule today next (.error error)

section

variable {rule : RecurringRule} {today : Date}

theorem advance_least (valid : rule.ScheduleValid) {current : Date} (inside : rule.Fires current) :
    LeastOf (fun date => rule.Fires date ∧ current < date) (rule.advance current).toOption :=
  (Schedule.enumerates ⟨rule.recurrence, rule.dayOfMonth, rule.dayOfWeek, rule.month, valid⟩
    current).next current inside

/-- The loop ends: every round moves the date on. -/
theorem catch_up_ends {next : Date} {fuel : Nat} (enough : today.stamp < next.stamp + fuel) :
    CatchesUp rule today next (catchUp rule today fuel next) := by
  induction fuel generalizing next with
  | zero => exact .past enough
  | succ fuel ih =>
      unfold catchUp
      split
      · rename_i due
        cases moved : rule.advance next with
        | error error => exact .raised due moved
        | ok later =>
            have ahead : next.stamp < later.stamp := advance_lt moved
            exact .due due moved (ih (by omega))
      · rename_i past
        exact .past (Date.not_le.mp past)

/-- No date of the schedule is skipped on the way. -/
theorem catches_up_least (valid : rule.ScheduleValid) {next : Date}
    {ended : Except ScheduleError Date} (run : CatchesUp rule today next ended)
    (inside : rule.Fires next) (first : ∀ date, rule.Fires date ∧ today < date → next ≤ date) :
    LeastOf (fun date => rule.Fires date ∧ today < date) ended.toOption := by
  induction run with
  | past after => exact ⟨⟨inside, after⟩, first⟩
  | due due moved _ ih =>
      have least := advance_least valid inside
      rw [moved] at least
      apply ih least.1.1
      rintro date ⟨fires, after⟩
      exact least.2 date ⟨fires, lt_of_le_of_lt due after⟩
  | raised due moved =>
      have least := advance_least valid inside
      rw [moved] at least
      rintro date ⟨fires, after⟩
      exact least date ⟨fires, lt_of_le_of_lt due after⟩

theorem next_after_least (valid : rule.ScheduleValid) (inside : rule.Fires rule.nextFireDate)
    (due : rule.nextFireDate ≤ today) :
    LeastOf (fun date => rule.Fires date ∧ today < date) (rule.nextAfter today).toOption := by
  have least := advance_least valid inside
  unfold RecurringRule.nextAfter
  cases moved : rule.advance rule.nextFireDate with
  | error error =>
      rw [moved] at least
      rintro date ⟨fires, after⟩
      exact least date ⟨fires, lt_of_le_of_lt due after⟩
  | ok next =>
      rw [moved] at least
      apply catches_up_least valid (catch_up_ends (by omega)) least.1.1
      rintro date ⟨fires, after⟩
      exact least.2 date ⟨fires, lt_of_le_of_lt due after⟩

theorem move_to_status (next : Date) (now : Timestamp) : (rule.moveTo next now).status = .PAUSED ↔
    rule.status = .PAUSED ∨ rule.EndsBefore next := by
  have ended : rule.endDate.any (fun ended => decide (ended < next)) = true ↔
      rule.EndsBefore next := by
    rw [Option.any_eq_true]
    exact exists_congr fun _ => and_congr_right fun _ => decide_eq_true_iff
  unfold RecurringRule.moveTo
  dsimp only
  split
  · rename_i beyond
    exact iff_of_true rfl (.inr (ended.mp beyond))
  · rename_i running
    rw [← ended]
    exact (or_iff_left running).symm

end

/-- Once the transaction of a due rule is created, the loop ends. While the schedule has a date
after today, the rule moves on to the first one and is paused when its end is before it; else the
exception ends the run. -/
theorem fire_catches_up {store : Store} {today : Date} {script : FireScript}
    {session added : Session} {rule : RecurringRule} {id : TransactionId}
    (valid : rule.ScheduleValid) (inside : rule.Fires rule.nextFireDate)
    (due : rule.nextFireDate ≤ today)
    (created : createTransaction store script session (fireCommand rule) = (.ok id, added)) :
    (∀ next, rule.advance rule.nextFireDate = .ok next →
      ∃ ended, CatchesUp rule today next ended ∧ rule.nextAfter today = ended) ∧
    ((∃ date, rule.Fires date ∧ today < date) →
      ∃ fired, fireRule store today script session rule = .ok (true, added.save fired) ∧
        (rule.Fires fired.nextFireDate ∧ today < fired.nextFireDate) ∧
        (∀ date, rule.Fires date ∧ today < date → fired.nextFireDate ≤ date) ∧
        (fired.status = .PAUSED ↔
          rule.status = .PAUSED ∨ rule.EndsBefore fired.nextFireDate)) ∧
    ((¬ ∃ date, rule.Fires date ∧ today < date) →
      ∃ error, fireRule store today script session rule = .error (.schedule error)) := by
  have least := next_after_least valid inside due
  refine ⟨?_, ?_, ?_⟩
  · intro next moved
    have enough : today.stamp < next.stamp + (today.stamp + 1 - next.stamp) := by omega
    refine ⟨_, catch_up_ends enough, ?_⟩
    unfold RecurringRule.nextAfter
    rw [moved]
    rfl
  · rintro ⟨date, fires, after⟩
    cases moved : rule.nextAfter today with
    | error error =>
        rw [moved] at least
        exact absurd ⟨fires, after⟩ (least date)
    | ok next =>
        rw [moved] at least
        refine ⟨rule.moveTo next script.pausedAt, ?_, ?_⟩
        · simp only [fireRule, created, moved]
        · rw [moveTo_nextFireDate]
          exact ⟨least.1, least.2, move_to_status next script.pausedAt⟩
  · intro none
    cases moved : rule.nextAfter today with
    | error error =>
        refine ⟨error, ?_⟩
        simp only [fireRule, created, moved]
    | ok next =>
        rw [moved] at least
        exact absurd ⟨next, least.1⟩ none

/-- The salary of May, fired in August. -/
theorem fire_catches_up_salary : ∃ fired added,
    fireRule salaryStore ⟨2026, 8, 15, by decide, by decide, by decide⟩ ⟨none, ⟨9⟩, 0, 0⟩ .start
      salary = .ok (true, added) ∧ added.loaded fired.id = some fired ∧
      salary.Fires fired.nextFireDate := by
  let today : Date := ⟨2026, 8, 15, by decide, by decide, by decide⟩
  let september : Date := ⟨2026, 9, 1, by decide, by decide, by decide⟩
  have inside : salary.Fires salary.nextFireDate := ⟨1, rfl, by decide⟩
  have later : salary.Fires september := ⟨1, rfl, by decide⟩
  obtain ⟨fired, moved, ⟨fires, _⟩, _⟩ := (@fire_catches_up salaryStore today ⟨none, ⟨9⟩, 0, 0⟩
    .start _ salary _ ⟨1, rfl, by decide, by decide⟩ inside (by decide) rfl).2.1
      ⟨september, later, by decide⟩
  exact ⟨fired, _, moved, Function.update_self _ _ _, fires⟩

/-- The salary of the last December that there is. -/
theorem not_fire_catches_up : ¬ ∀ (store : Store) (today : Date) (script : FireScript)
    (session added : Session) (rule : RecurringRule) (id : TransactionId),
    rule.ScheduleValid → rule.Fires rule.nextFireDate → rule.nextFireDate ≤ today →
    createTransaction store script session (fireCommand rule) = (.ok id, added) →
    ∃ fired, fireRule store today script session rule = .ok (true, added.save fired) ∧
      (rule.Fires fired.nextFireDate ∧ today < fired.nextFireDate) ∧
      (∀ date, rule.Fires date ∧ today < date → fired.nextFireDate ≤ date) ∧
      (fired.status = .PAUSED ↔ rule.status = .PAUSED ∨ rule.EndsBefore fired.nextFireDate) := by
  intro claimed
  let december : Date := ⟨9999, 12, 1, by decide, by decide, by decide⟩
  let rule : RecurringRule := { salary with nextFireDate := december }
  have inside : rule.Fires rule.nextFireDate := ⟨1, rfl, by decide⟩
  obtain ⟨fired, moved, _⟩ := claimed salaryStore december ⟨none, ⟨9⟩, 0, 0⟩ .start _ rule _
    ⟨1, rfl, by decide, by decide⟩ inside (by decide) rfl
  have raised : fireRule salaryStore december ⟨none, ⟨9⟩, 0, 0⟩ .start rule =
      .error (.schedule .standardLibrary) := rfl
  rw [raised] at moved
  cases moved

end Yomochi.Recurring
