import Yomochi.Foundation.Statements
import Yomochi.Recurring.CatchUp
import Yomochi.Recurring.UseCases

/-! The statements of `UpdateRecurringRuleUseCase`, on the rule that the session holds. -/

namespace Yomochi.Recurring

open Foundation

/-- The statements of a use case on the rule that it has loaded. -/
abbrev OnRule := Statements CommandError RecurringRule

open Statements

section

variable (command : UpdateRecurringRuleCommand)

/-- `if cmd.status is not None`; the value says whether the rule has changed. -/
def assignStatus : OnRule Bool := do
  match command.status with
  | none => return false
  | some value =>
      match RecurringRuleStatus.ofValue value with
      | none => throw (.invalidStatus value)
      | some status =>
          if status ≠ (← get).status then
            assign fun rule => { rule with status := status }
            return true
          else return false

def assignMerchant : OnRule Bool := do
  match command.merchant with
  | none => return false
  | some merchant =>
      assign fun rule => { rule with merchant := some merchant }
      return true

def assignNotes : OnRule Bool := do
  match command.notes with
  | none => return false
  | some notes =>
      assign fun rule => { rule with notes := some notes }
      return true

/-- `if schedule_changed` -/
def assignSchedule (today : Date) : OnRule Bool := do
  if command.scheduleChanged then
    let rule ← get
    let dayOfMonth := command.dayOfMonth <|> rule.dayOfMonth
    let dayOfWeek := command.dayOfWeek <|> rule.dayOfWeek
    let month := command.month <|> rule.month
    call .invalidSchedule (validateSchedule rule.recurrence dayOfMonth dayOfWeek month)
    assign fun rule => { rule with dayOfMonth := dayOfMonth, dayOfWeek := dayOfWeek, month := month }
    let next ← call .schedule
      (computeFirstFireDate today rule.recurrence dayOfMonth dayOfWeek month)
    assign fun rule => { rule with nextFireDate := next }
    return true
  else return false

def updateStatements (today : Date) (now : Timestamp) : OnRule Unit := do
  let status ← assignStatus command
  let merchant ← assignMerchant command
  let notes ← assignNotes command
  let schedule ← assignSchedule command today
  if status || merchant || notes || schedule then
    assign fun rule => { rule with updatedAt := some now }

variable (rule : RecurringRule) (today : Date) (now : Timestamp)

theorem status_run : (assignStatus command).on rule =
    match command.newStatus rule with
    | .error error => (.error error, rule)
    | .ok status => (.ok (decide (status ≠ rule.status)), { rule with status := status }) := by
  unfold assignStatus UpdateRecurringRuleCommand.newStatus
  cases command.status with
  | none => simp
  | some value =>
      dsimp only
      cases RecurringRuleStatus.ofValue value with
      | none => rfl
      | some status =>
          rw [on_bind_ok (on_get rule)]
          by_cases same : status = rule.status
          · subst same
            simp
          · have different : decide (status ≠ rule.status) = true := decide_eq_true same
            rw [if_pos same, on_bind_ok (on_assign _ _), on_pure]
            dsimp only
            rw [different]

theorem merchant_run : (assignMerchant command).on rule =
    (.ok command.merchant.isSome, { rule with merchant := command.merchant <|> rule.merchant }) := by
  unfold assignMerchant
  cases command.merchant with
  | none => rfl
  | some merchant => rfl

theorem notes_run : (assignNotes command).on rule =
    (.ok command.notes.isSome, { rule with notes := command.notes <|> rule.notes }) := by
  unfold assignNotes
  cases command.notes with
  | none => rfl
  | some notes => rfl

namespace UpdateRecurringRuleCommand

def merged : RecurringRule :=
  { rule with
    dayOfMonth := command.dayOfMonth <|> rule.dayOfMonth
    dayOfWeek := command.dayOfWeek <|> rule.dayOfWeek
    month := command.month <|> rule.month }

def SameTexts : Prop :=
  (∀ value ∈ command.status, value = rule.status.value) ∧
  (∀ merchant ∈ command.merchant, rule.merchant = some merchant) ∧
  ∀ notes ∈ command.notes, rule.notes = some notes

def SameSchedule : Prop :=
  (∀ day ∈ command.dayOfMonth, rule.dayOfMonth = some day) ∧
  (∀ day ∈ command.dayOfWeek, rule.dayOfWeek = some day) ∧
  ∀ month ∈ command.month, rule.month = some month

end UpdateRecurringRuleCommand

def RecurringRule.validateSchedule : Except InvalidRecurrenceScheduleError Unit :=
  Recurring.validateSchedule rule.recurrence rule.dayOfMonth rule.dayOfWeek rule.month

def RecurringRule.firstFireDate : Except ScheduleError Date :=
  computeFirstFireDate today rule.recurrence rule.dayOfMonth rule.dayOfWeek rule.month

/-- The status is refused, or the schedule is not given, or it is valid and has a date from today
on, or what is given by then is what the rule has. -/
def UpdateRecurringRuleCommand.FailsClean : Prop :=
  (∃ value ∈ command.status, RecurringRuleStatus.ofValue value = none) ∨
  command.scheduleChanged = false ∨
  ((command.merged rule).validateSchedule = .ok () ∧
    ∃ date, (command.merged rule).Fires date ∧ today ≤ date) ∨
  (command.SameTexts rule ∧
    ((command.merged rule).validateSchedule ≠ .ok () ∨ command.SameSchedule rule))

theorem schedule_run : (assignSchedule command today).on rule =
    if command.scheduleChanged then
      match (command.merged rule).validateSchedule with
      | .error error => (.error (.invalidSchedule error), rule)
      | .ok () =>
          match (command.merged rule).firstFireDate today with
          | .error error => (.error (.schedule error), command.merged rule)
          | .ok next => (.ok true, { command.merged rule with nextFireDate := next })
    else (.ok false, rule) := by
  unfold assignSchedule
  by_cases changed : command.scheduleChanged
  · rw [if_pos changed, if_pos changed, on_bind_ok (on_get rule)]
    cases valid : (command.merged rule).validateSchedule with
    | error error => exact on_bind_error (on_call_error valid _ _) _
    | ok validated =>
        apply (on_bind_ok (on_call_ok valid _ _) _).trans
        apply (on_bind_ok (on_assign _ _) _).trans
        cases made : (command.merged rule).firstFireDate today with
        | error error => exact on_bind_error (on_call_error made _ _) _
        | ok next => exact on_bind_ok (on_call_ok made _ _) _
  · rw [if_neg changed, if_neg changed]
    rfl

theorem schedule_moves {rule after : RecurringRule} {moved : Bool}
    (done : (assignSchedule command today).on rule = (.ok moved, after)) :
    moved = command.scheduleChanged := by
  rw [schedule_run] at done
  split at done
  · rename_i changed
    rw [changed]
    split at done
    · cases done
    · split at done
      · cases done
      · cases done
        rfl
  · rename_i kept
    cases done
    exact ((Bool.not_eq_true _).mp kept).symm

theorem update_run : (updateStatements command today now).on rule =
    match command.newStatus rule with
    | .error error => (.error error, rule)
    | .ok status =>
        match (assignSchedule command today).on (rule.edit command status) with
        | (.error error, after) => (.error error, after)
        | (.ok _, after) =>
            (.ok (), if command.changed rule status then { after with updatedAt := some now }
              else after) := by
  unfold updateStatements
  have first := status_run command rule
  cases refused : command.newStatus rule with
  | error error =>
      rw [refused] at first
      exact on_bind_error first _
  | ok status =>
      rw [refused] at first
      apply (on_bind_ok first _).trans
      apply (on_bind_ok (merchant_run command _) _).trans
      apply (on_bind_ok (notes_run command _) _).trans
      change Statements.on _ (rule.edit command status) = _
      dsimp only
      cases ran : (assignSchedule command today).on (rule.edit command status) with
      | mk outcome after =>
          cases outcome with
          | error error => exact on_bind_error ran _
          | ok moved =>
              apply (on_bind_ok ran _).trans
              rw [schedule_moves command today ran]
              change Statements.on (if command.changed rule status then _ else _) after = _
              split
              · rfl
              · rfl

/-- The request commits when the error is one that the application answers itself. -/
def Store.afterUpdate (store : Store) : Except CommandError Unit × RecurringRule → Store
  | (.ok (), rule) => store.writeRule rule
  | (.error (.invalidSchedule _), rule) => store.writeRule rule
  | (.error _, _) => store

theorem edit_unchanged {command : UpdateRecurringRuleCommand} {rule : RecurringRule}
    {status : RecurringRuleStatus} (kept : command.changed rule status = false) :
    rule.edit command status = rule ∧ command.scheduleChanged = false := by
  unfold UpdateRecurringRuleCommand.changed at kept
  simp only [Bool.or_eq_false_iff, decide_eq_false_iff_not, not_not, Option.isSome_eq_false_iff,
    Option.isNone_iff_eq_none] at kept
  obtain ⟨⟨⟨status, merchant⟩, notes⟩, schedule⟩ := kept
  refine ⟨?_, schedule⟩
  unfold RecurringRule.edit
  rw [status, merchant, notes]
  rfl

theorem Store.writeRule_self {store : Store} {rule : RecurringRule} {id : RecurringRuleId}
    (loaded : store.rules.get id = some rule) : store.writeRule rule = store := by
  unfold Store.writeRule
  rw [Table.replace_self (Table.mem_of_get loaded)]
  exact ite_self store

theorem reschedule_run : rule.reschedule command today =
    match (assignSchedule command today).on rule with
    | (.error error, _) => .error error
    | (.ok _, after) => .ok after := by
  rw [schedule_run]
  unfold RecurringRule.reschedule
  change (if command.scheduleChanged then
    match (command.merged rule).validateSchedule with
    | .error error => Except.error (CommandError.invalidSchedule error)
    | .ok () =>
        match (command.merged rule).firstFireDate today with
        | .error error => .error (.schedule error)
        | .ok next => .ok { command.merged rule with nextFireDate := next }
    else .ok rule) = _
  by_cases changed : command.scheduleChanged
  · rw [if_pos changed, if_pos changed]
    cases (command.merged rule).validateSchedule with
    | error error => rfl
    | ok validated =>
        dsimp only
        cases (command.merged rule).firstFireDate today with
        | error error => rfl
        | ok next => rfl
  · rw [if_neg changed, if_neg changed]

/-- An invalid schedule is found before any of its fields is assigned. -/
theorem invalid_schedule_keeps {rule after : RecurringRule} {error : InvalidRecurrenceScheduleError}
    (raised : (assignSchedule command today).on rule = (.error (.invalidSchedule error), after)) :
    after = rule := by
  rw [schedule_run] at raised
  split at raised
  · split at raised
    · cases raised
      rfl
    · split at raised
      · cases raised
      · cases raised
  · cases raised

/-- The answer of a request and what it leaves stored are those of the statements. -/
theorem update_request {store : Store} {rule : RecurringRule}
    (loaded : getRule store command.ruleId command.userId = some rule) :
    updateRecurringRule store command today now =
      (((updateStatements command today now).on rule).1,
        store.afterUpdate ((updateStatements command today now).on rule)) := by
  have stored : store.rules.get command.ruleId = some rule := by
    unfold getRule at loaded
    exact (Option.filter_eq_some_iff.mp loaded).1
  unfold updateRecurringRule
  rw [update_run, loaded]
  dsimp only
  cases refused : command.newStatus rule with
  | error error =>
      unfold UpdateRecurringRuleCommand.newStatus at refused
      split at refused
      · cases refused
      · split at refused
        · cases refused
          rfl
        · cases refused
  | ok status =>
      dsimp only
      rw [reschedule_run]
      cases ran : (assignSchedule command today).on (rule.edit command status) with
      | mk outcome after =>
          cases outcome with
          | error error =>
              cases error with
              | invalidSchedule error =>
                  rw [invalid_schedule_keeps command today ran]
                  rfl
              | _ => rfl
          | ok moved =>
              dsimp only
              by_cases changed : command.changed rule status
              · rw [if_pos changed, if_pos changed]
                rfl
              · rw [if_neg changed, if_neg changed]
                obtain ⟨same, kept⟩ := edit_unchanged ((Bool.not_eq_true _).mp changed)
                rw [schedule_run, kept, same] at ran
                cases ran
                exact congrArg _ (Store.writeRule_self stored).symm

theorem ofValue_eq_some {value : String} {status : RecurringRuleStatus} :
    RecurringRuleStatus.ofValue value = some status ↔ value = status.value := by
  constructor
  · intro found
    unfold RecurringRuleStatus.ofValue at found
    have same := List.find?_some found
    exact (by simpa using same : status.value = value).symm
  · rintro rfl
    cases status with
    | ACTIVE => rfl
    | PAUSED => rfl

theorem given_or_same {α : Type} (given loaded : Option α) :
    (given <|> loaded) = loaded ↔ ∀ value ∈ given, loaded = some value := by
  cases given with
  | none => exact iff_of_true rfl nofun
  | some value =>
      constructor
      · rintro same other ⟨⟩
        exact same.symm
      · intro same
        exact (same value rfl).symm

theorem status_same {status : RecurringRuleStatus} (accepted : command.newStatus rule = .ok status) :
    status = rule.status ↔ ∀ value ∈ command.status, value = rule.status.value := by
  unfold UpdateRecurringRuleCommand.newStatus at accepted
  cases given : command.status with
  | none =>
      rw [given] at accepted
      cases accepted
      exact iff_of_true rfl nofun
  | some value =>
      rw [given] at accepted
      dsimp only at accepted
      cases found : RecurringRuleStatus.ofValue value with
      | none =>
          rw [found] at accepted
          cases accepted
      | some other =>
          rw [found] at accepted
          cases accepted
          constructor
          · rintro same other ⟨⟩
            exact ofValue_eq_some.mp (same ▸ found)
          · intro same
            rw [ofValue_eq_some.mpr (same value rfl)] at found
            exact (Option.some.inj found).symm

theorem edit_same {status : RecurringRuleStatus} (accepted : command.newStatus rule = .ok status) :
    rule.edit command status = rule ↔ command.SameTexts rule := by
  unfold UpdateRecurringRuleCommand.SameTexts
  rw [← status_same command rule accepted, ← given_or_same, ← given_or_same]
  constructor
  · intro same
    exact ⟨congrArg RecurringRule.status same, congrArg RecurringRule.merchant same,
      congrArg RecurringRule.notes same⟩
  · rintro ⟨status, merchant, notes⟩
    unfold RecurringRule.edit
    rw [status, merchant, notes]

theorem merged_same : command.merged rule = rule ↔ command.SameSchedule rule := by
  unfold UpdateRecurringRuleCommand.SameSchedule
  rw [← given_or_same, ← given_or_same, ← given_or_same]
  constructor
  · intro same
    exact ⟨congrArg RecurringRule.dayOfMonth same, congrArg RecurringRule.dayOfWeek same,
      congrArg RecurringRule.month same⟩
  · rintro ⟨dayOfMonth, dayOfWeek, month⟩
    unfold UpdateRecurringRuleCommand.merged
    rw [dayOfMonth, dayOfWeek, month]

theorem status_refused : (∃ value ∈ command.status, RecurringRuleStatus.ofValue value = none) ↔
    ∃ error, command.newStatus rule = .error error := by
  unfold UpdateRecurringRuleCommand.newStatus
  cases command.status with
  | none => exact iff_of_false nofun nofun
  | some value =>
      dsimp only
      cases found : RecurringRuleStatus.ofValue value with
      | none => exact iff_of_true ⟨value, rfl, found⟩ ⟨_, rfl⟩
      | some status =>
          apply iff_of_false
          · rintro ⟨other, ⟨⟩, unknown⟩
            rw [found] at unknown
            cases unknown
          · exact nofun

theorem merged_edit_same {status : RecurringRuleStatus}
    (accepted : command.newStatus rule = .ok status) :
    command.merged (rule.edit command status) = rule ↔
      command.SameTexts rule ∧ command.SameSchedule rule := by
  rw [← edit_same command rule accepted, ← merged_same]
  constructor
  · intro same
    constructor
    · calc
        rule.edit command status =
            { command.merged (rule.edit command status) with
              dayOfMonth := rule.dayOfMonth
              dayOfWeek := rule.dayOfWeek
              month := rule.month } := rfl
        _ = rule := by rw [same]
    · calc
        command.merged rule =
            { command.merged (rule.edit command status) with
              status := rule.status
              merchant := rule.merchant
              notes := rule.notes } := rfl
        _ = rule := by rw [same]
  · rintro ⟨texts, schedule⟩
    rw [texts, schedule]

/-- After an error the rule has the fields it was loaded with, and nothing else is stored. -/
def UpdateRecurringRuleCommand.Atomic : Prop :=
  ∀ error, ((updateStatements command today now).on rule).1 = .error error →
    ((updateStatements command today now).on rule).2 = rule ∧
    ∀ store, getRule store command.ruleId command.userId = some rule →
      (updateRecurringRule store command today now).2 = store

theorem outside_eq_false {value : Option Int} {low high : Int}
    (inside : outside value low high = false) : ∃ n, value = some n ∧ low ≤ n ∧ n ≤ high := by
  cases value with
  | none => cases inside
  | some n =>
      refine ⟨n, rfl, ?_⟩
      simpa [outside] using inside

theorem valid_of_validated {rule : RecurringRule} (valid : rule.validateSchedule = .ok ()) :
    rule.ScheduleValid := by
  unfold RecurringRule.validateSchedule Recurring.validateSchedule at valid
  unfold RecurringRule.ScheduleValid ValidSchedule
  cases recurrence : rule.recurrence with
  | NONE =>
      rw [recurrence] at valid
      cases valid
  | WEEKLY =>
      rw [recurrence] at valid
      dsimp only at valid
      split at valid
      · cases valid
      · rename_i inside
        exact outside_eq_false ((Bool.not_eq_true _).mp inside)
  | MONTHLY =>
      rw [recurrence] at valid
      dsimp only at valid
      split at valid
      · cases valid
      · rename_i inside
        obtain ⟨day, given, low, high⟩ := outside_eq_false ((Bool.not_eq_true _).mp inside)
        exact ⟨day, given, low, by omega⟩
  | YEARLY =>
      rw [recurrence] at valid
      dsimp only at valid
      split at valid
      · cases valid
      · rename_i inside
        split at valid
        · cases valid
        · rename_i within
          obtain ⟨day, given, low, high⟩ := outside_eq_false ((Bool.not_eq_true _).mp inside)
          exact ⟨⟨day, given, low, by omega⟩, outside_eq_false ((Bool.not_eq_true _).mp within)⟩

theorem first_fire_least {rule : RecurringRule} (valid : rule.validateSchedule = .ok ()) :
    LeastOf (fun date => rule.Fires date ∧ today ≤ date) (rule.firstFireDate today).toOption :=
  (Schedule.enumerates ⟨rule.recurrence, rule.dayOfMonth, rule.dayOfWeek, rule.month,
    valid_of_validated valid⟩ today).first

section

variable {status : RecurringRuleStatus} (accepted : command.newStatus rule = .ok status)
  (changed : command.scheduleChanged)

include accepted changed

theorem run_invalid {error : InvalidRecurrenceScheduleError}
    (invalid : (command.merged rule).validateSchedule = .error error) :
    (updateStatements command today now).on rule =
      (.error (.invalidSchedule error), rule.edit command status) := by
  have edited : (command.merged (rule.edit command status)).validateSchedule = .error error :=
    invalid
  rw [update_run, accepted]
  dsimp only
  rw [schedule_run, if_pos changed, edited]

variable (valid : (command.merged rule).validateSchedule = .ok ())

include valid

theorem run_unscheduled {error : ScheduleError}
    (unscheduled : (command.merged rule).firstFireDate today = .error error) :
    (updateStatements command today now).on rule =
      (.error (.schedule error), command.merged (rule.edit command status)) := by
  have edited : (command.merged (rule.edit command status)).validateSchedule = .ok () := valid
  have first : (command.merged (rule.edit command status)).firstFireDate today = .error error :=
    unscheduled
  rw [update_run, accepted]
  dsimp only
  rw [schedule_run, if_pos changed, edited]
  dsimp only
  rw [first]

theorem run_scheduled {next : Date}
    (scheduled : (command.merged rule).firstFireDate today = .ok next) :
    ((updateStatements command today now).on rule).1 = .ok () := by
  have edited : (command.merged (rule.edit command status)).validateSchedule = .ok () := valid
  have first : (command.merged (rule.edit command status)).firstFireDate today = .ok next :=
    scheduled
  rw [update_run, accepted]
  dsimp only
  rw [schedule_run, if_pos changed, edited]
  dsimp only
  rw [first]

end

theorem kept_not_stored {store : Store} {rule : RecurringRule} {error : CommandError}
    (loaded : getRule store command.ruleId command.userId = some rule)
    (ran : (updateStatements command today now).on rule = (.error error, rule)) :
    (updateRecurringRule store command today now).2 = store := by
  rw [update_request command today now loaded, ran]
  unfold getRule at loaded
  have stored := (Option.filter_eq_some_iff.mp loaded).1
  cases error with
  | invalidSchedule error => exact Store.writeRule_self stored
  | _ => rfl

theorem atomic_of_ran {error : CommandError} {after : RecurringRule}
    (ran : (updateStatements command today now).on rule = (.error error, after)) :
    command.Atomic rule today now ↔ after = rule := by
  unfold UpdateRecurringRuleCommand.Atomic
  rw [ran]
  constructor
  · intro atomic
    exact (atomic error rfl).1
  · rintro rfl _ _
    exact ⟨rfl, fun store loaded => kept_not_stored command today now loaded ran⟩

theorem atomic_of_done {after : RecurringRule}
    (ran : (updateStatements command today now).on rule = (.ok (), after)) :
    command.Atomic rule today now := by
  intro error raised
  rw [ran] at raised
  cases raised

theorem update_atomic_iff : command.Atomic rule today now ↔ command.FailsClean rule today := by
  unfold UpdateRecurringRuleCommand.FailsClean
  rw [status_refused command rule]
  have ran := update_run command rule today now
  cases accepted : command.newStatus rule with
  | error error =>
      rw [accepted] at ran
      exact iff_of_true ((atomic_of_ran command rule today now ran).mpr rfl) (.inl ⟨error, rfl⟩)
  | ok status =>
      by_cases changed : command.scheduleChanged
      · have scheduled : ¬ command.scheduleChanged = false := Bool.not_eq_false _ ▸ changed
        cases valid : (command.merged rule).validateSchedule with
        | error error =>
            rw [atomic_of_ran command rule today now
              (run_invalid command rule today now accepted changed valid),
              edit_same command rule accepted]
            constructor
            · intro same
              exact .inr (.inr (.inr ⟨same, .inl nofun⟩))
            · rintro (⟨_, ⟨⟩⟩ | unchanged | ⟨⟨⟩, _⟩ | ⟨same, _⟩)
              · exact absurd unchanged scheduled
              · exact same
        | ok validated =>
            have least := first_fire_least today valid
            cases first : (command.merged rule).firstFireDate today with
            | error error =>
                rw [first] at least
                rw [atomic_of_ran command rule today now
                  (run_unscheduled command rule today now accepted changed valid first),
                  merged_edit_same command rule accepted]
                constructor
                · rintro ⟨texts, schedule⟩
                  exact .inr (.inr (.inr ⟨texts, .inr schedule⟩))
                · rintro (⟨_, ⟨⟩⟩ | unchanged | ⟨_, date, fires⟩ | ⟨texts, invalid | schedule⟩)
                  · exact absurd unchanged scheduled
                  · exact absurd fires (least date)
                  · exact absurd rfl invalid
                  · exact ⟨texts, schedule⟩
            | ok next =>
                rw [first] at least
                have done := run_scheduled command rule today now accepted changed valid first
                exact iff_of_true (atomic_of_done command rule today now (Prod.ext done rfl))
                  (.inr (.inr (.inl ⟨rfl, next, least.1⟩)))
      · rw [accepted] at ran
        dsimp only at ran
        rw [schedule_run, if_neg changed] at ran
        exact iff_of_true (atomic_of_done command rule today now ran)
          (.inr (.inl ((Bool.not_eq_true _).mp changed)))

end

/-- Day 31 is refused, and the merchant that comes with it stays. -/
theorem not_update_atomic : ¬ ∀ (command : UpdateRecurringRuleCommand) (rule : RecurringRule)
    (today : Date) (now : Timestamp), command.Atomic rule today now := by
  intro claimed
  let command : UpdateRecurringRuleCommand :=
    ⟨salary.id, salary.userId, none, some 31, none, none, some "Bonus", none⟩
  have kept := (claimed command salary firstOfMay 0
    (.invalidSchedule ⟨"MONTHLY requires day_of_month in 1–28"⟩) rfl).1
  have changed : ((updateStatements command firstOfMay 0).on salary).2.merchant = some "Bonus" := rfl
  rw [kept] at changed
  exact absurd changed (by decide)

end Yomochi.Recurring
