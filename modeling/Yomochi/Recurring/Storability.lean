import Yomochi.Foundation.Uuid
import Yomochi.Recurring.UpdateRule
import Yomochi.Values.Money

/-! The rows that the use cases make of their commands, and the constraints of `recurring_rules`. -/

namespace Yomochi.Recurring.Rows

open Foundation
open Values (Currency MoneyError Denotes plain)

structure RecurringRule where
  id : RecurringRuleId
  userId : UserId
  amount : Values.Money
  type : TransactionType
  merchant : Option Text
  notes : Option Text
  categoryId : Option CategoryId
  recurrence : Recurrence
  dayOfMonth : Option Int
  dayOfWeek : Option Int
  month : Option Int
  startDate : Date
  endDate : Option Date
  status : RecurringRuleStatus
  nextFireDate : Date
  createdAt : Timestamp
  updatedAt : Option Timestamp

structure CreateRecurringRuleCommand where
  userId : UserId
  rawAmount : Text
  currency : Text
  type : Text
  recurrence : Text
  startDate : Date
  dayOfMonth : Option Int
  dayOfWeek : Option Int
  month : Option Int
  merchant : Option Text
  notes : Option Text
  rawCategoryId : Option Text
  endDate : Option Date

inductive CreateError
  | invalidCurrency
  | money (error : MoneyError)
  | invalidSchedule (error : InvalidRecurrenceScheduleError)
  | schedule (error : ScheduleError)
  /-- An enumeration or `UUID` does not know the text. -/
  | valueError (source : Text)

def transactionTypeValue : TransactionType → String
  | .INCOME => "income"
  | .EXPENSE => "expense"

def transactionTypeOf (value : Text) : Option TransactionType :=
  [.INCOME, .EXPENSE].find? fun type => text (transactionTypeValue type) = value

def recurrenceOf (value : Text) : Option Recurrence :=
  [.NONE, .WEEKLY, .MONTHLY, .YEARLY].find? fun recurrence => text recurrence.value = value

def orRaise {α : Type} (error : CreateError) (found : Option α) : Except CreateError α :=
  match found with
  | some a => .ok a
  | none => .error error

/-- `CategoryId(UUID(raw)) if raw else None` -/
def readCategoryId (raw : Option Text) : Except CreateError (Option CategoryId) :=
  match raw with
  | none => .ok none
  | some [] => .ok none
  | some (c :: rest) => (orRaise (.valueError (c :: rest)) (UUID.ofText (c :: rest))).map fun uuid =>
      some ⟨uuid.int⟩

def createRecurringRule (upper : Text → Text) (command : CreateRecurringRuleCommand)
    (id : RecurringRuleId) (now : Timestamp) : Except CreateError RecurringRule := do
  let currency ← orRaise .invalidCurrency (Currency.make upper command.currency)
  let amount ← (Values.Money.fromString command.rawAmount currency).mapError .money
  let recurrence ← orRaise (.valueError command.recurrence) (recurrenceOf command.recurrence)
  (validateSchedule recurrence command.dayOfMonth command.dayOfWeek command.month).mapError
    .invalidSchedule
  let firstFire ← (computeFirstFireDate command.startDate recurrence command.dayOfMonth
    command.dayOfWeek command.month).mapError .schedule
  let categoryId ← readCategoryId command.rawCategoryId
  let type ← orRaise (.valueError command.type) (transactionTypeOf command.type)
  return {
    id := id
    userId := command.userId
    amount := amount
    type := type
    merchant := command.merchant
    notes := command.notes
    categoryId := categoryId
    recurrence := recurrence
    dayOfMonth := command.dayOfMonth
    dayOfWeek := command.dayOfWeek
    month := command.month
    startDate := command.startDate
    endDate := command.endDate
    status := .ACTIVE
    nextFireDate := firstFire
    createdAt := now
    updatedAt := none }

structure UpdateRecurringRuleCommand where
  ruleId : RecurringRuleId
  userId : UserId
  status : Option Text
  dayOfMonth : Option Int
  dayOfWeek : Option Int
  month : Option Int
  merchant : Option Text
  notes : Option Text

def newStatus (rule : RecurringRule) (status : Option Text) :
    Except CommandError RecurringRuleStatus :=
  match status with
  | none => .ok rule.status
  | some value =>
      match RecurringRuleStatus.ofValue (plain value) with
      | none => .error (.invalidStatus (plain value))
      | some status => .ok status

/-- `UpdateRecurringRuleUseCase`: what becomes of the rule that it has loaded. -/
def updateRecurringRule (rule : RecurringRule) (command : UpdateRecurringRuleCommand) (today : Date)
    (now : Timestamp) : Except CommandError RecurringRule := do
  let status ← newStatus rule command.status
  let edited := { rule with
    status := status
    merchant := command.merchant <|> rule.merchant
    notes := command.notes <|> rule.notes }
  if command.dayOfMonth.isSome || command.dayOfWeek.isSome || command.month.isSome then
    let dayOfMonth := command.dayOfMonth <|> rule.dayOfMonth
    let dayOfWeek := command.dayOfWeek <|> rule.dayOfWeek
    let month := command.month <|> rule.month
    (validateSchedule rule.recurrence dayOfMonth dayOfWeek month).mapError .invalidSchedule
    let next ← (computeFirstFireDate today rule.recurrence dayOfMonth dayOfWeek month).mapError
      .schedule
    return { edited with
      dayOfMonth := dayOfMonth
      dayOfWeek := dayOfWeek
      month := month
      nextFireDate := next
      updatedAt := some now }
  else if status ≠ rule.status ∨ command.merchant.isSome ∨ command.notes.isSome then
    return { edited with updatedAt := some now }
  else return rule

/-! The constraints of a row. -/

/-- A `CHECK` of a range, which NULL passes. -/
def Between (low high : Int) (value : Option Int) : Prop :=
  ∀ n ∈ value, low ≤ n ∧ n ≤ high

/-- The database has no text with a NUL, and UTF-8 none with a surrogate. -/
def TextStorable (source : Text) : Prop :=
  ∀ c ∈ source, c ≠ 0 ∧ ¬ (0xD800 ≤ c ∧ c ≤ 0xDFFF)

/-- `String(200)` -/
def MerchantFits (merchant : Option Text) : Prop :=
  ∀ source ∈ merchant, source.length ≤ 200 ∧ TextStorable source

/-- `Text()` -/
def NotesFit (notes : Option Text) : Prop := ∀ source ∈ notes, TextStorable source

/-- `Numeric(precision=19, scale=4)` -/
def AmountFits (q : ℚ) : Prop := |q| < 10 ^ 15 ∧ HasPlaces q 4

namespace RecurringRule

/-- The bounds of the columns and the `CHECK` constraints. -/
structure Storable (rule : RecurringRule) : Prop where
  amount : ∃ q, rule.amount.amount.value = some q ∧ AmountFits q
  currency : rule.amount.currency.code.length ≤ 3
  type : (transactionTypeValue rule.type).length ≤ 10
  merchant : MerchantFits rule.merchant
  notes : NotesFit rule.notes
  recurrence : rule.recurrence.value.length ≤ 20
  dayOfMonth : Between 1 28 rule.dayOfMonth
  dayOfWeek : Between 0 6 rule.dayOfWeek
  month : Between 1 12 rule.month
  status : rule.status.value.length ≤ 20

end RecurringRule

def CreateRecurringRuleCommand.Fits (command : CreateRecurringRuleCommand) : Prop :=
  (∀ q, Denotes command.rawAmount q → AmountFits q) ∧ MerchantFits command.merchant ∧
  NotesFit command.notes ∧ Between 1 28 command.dayOfMonth ∧ Between 0 6 command.dayOfWeek ∧
  Between 1 12 command.month

def UpdateRecurringRuleCommand.Fits (command : UpdateRecurringRuleCommand) : Prop :=
  MerchantFits command.merchant ∧ NotesFit command.notes ∧ Between 1 28 command.dayOfMonth ∧
  Between 0 6 command.dayOfWeek ∧ Between 1 12 command.month

theorem code_length {code : String} {digits : Nat}
    (supported : Values.minorUnitDigits code = some digits) : code.length = 3 :=
  (by decide : ∀ code ∈ _, String.length code = 3) code (Values.supported_mem supported).1

theorem codes_fit (rule : RecurringRule) : rule.amount.currency.code.length ≤ 3 ∧
    (transactionTypeValue rule.type).length ≤ 10 ∧ rule.recurrence.value.length ≤ 20 ∧
    rule.status.value.length ≤ 20 := by
  refine ⟨(code_length rule.amount.currency.supported).le, ?_, ?_, ?_⟩
  · cases rule.type with
    | INCOME => decide
    | EXPENSE => decide
  · cases rule.recurrence with
    | NONE => decide
    | WEEKLY => decide
    | MONTHLY => decide
    | YEARLY => decide
  · cases rule.status with
    | ACTIVE => decide
    | PAUSED => decide

theorem mapError_ok {α ε δ : Type} {raise : ε → δ} {result : Except ε α} {a : α}
    (done : result.mapError raise = .ok a) : result = .ok a := by
  cases result with
  | error error => cases done
  | ok b =>
      cases done
      rfl

theorem bind_ok {α β ε : Type} {first : Except ε α} {rest : α → Except ε β} {b : β}
    (done : first >>= rest = .ok b) : ∃ a, first = .ok a ∧ rest a = .ok b := by
  cases first with
  | error error => cases done
  | ok a => exact ⟨a, rfl, done⟩

theorem create_ok {upper : Text → Text} {command : CreateRecurringRuleCommand}
    {id : RecurringRuleId} {now : Timestamp} {rule : RecurringRule}
    (accepted : createRecurringRule upper command id now = .ok rule) :
    Decimal.ofText command.rawAmount = some rule.amount.amount ∧
    rule.merchant = command.merchant ∧ rule.notes = command.notes ∧
    rule.dayOfMonth = command.dayOfMonth ∧ rule.dayOfWeek = command.dayOfWeek ∧
    rule.month = command.month := by
  unfold createRecurringRule at accepted
  obtain ⟨currency, _, accepted⟩ := bind_ok accepted
  obtain ⟨amount, money, accepted⟩ := bind_ok accepted
  obtain ⟨recurrence, _, accepted⟩ := bind_ok accepted
  obtain ⟨_, _, accepted⟩ := bind_ok accepted
  obtain ⟨firstFire, _, accepted⟩ := bind_ok accepted
  obtain ⟨categoryId, _, accepted⟩ := bind_ok accepted
  obtain ⟨type, _, accepted⟩ := bind_ok accepted
  cases accepted
  exact ⟨Values.Money.from_string_ok (mapError_ok money), rfl, rfl, rfl, rfl, rfl⟩

theorem amount_fits_iff {raw : Text} {money : Values.Money}
    (read : Decimal.ofText raw = some money.amount) :
    (∃ q, money.amount.value = some q ∧ AmountFits q) ↔ ∀ q, Denotes raw q → AmountFits q := by
  obtain ⟨q, value, _⟩ := money.value_nonneg
  constructor
  · rintro ⟨other, same, fits⟩ third denotes
    obtain ⟨amount, again, third⟩ := Values.denotes_iff.mp denotes
    cases read.symm.trans again
    cases same.symm.trans third
    exact fits
  · intro fits
    exact ⟨q, value, fits q (Values.denotes_iff.mpr ⟨money.amount, read, value⟩)⟩

theorem storable_iff (rule : RecurringRule) : rule.Storable ↔
    (∃ q, rule.amount.amount.value = some q ∧ AmountFits q) ∧ MerchantFits rule.merchant ∧
    NotesFit rule.notes ∧ Between 1 28 rule.dayOfMonth ∧ Between 0 6 rule.dayOfWeek ∧
    Between 1 12 rule.month := by
  obtain ⟨currency, type, recurrence, status⟩ := codes_fit rule
  constructor
  · intro storable
    exact ⟨storable.amount, storable.merchant, storable.notes, storable.dayOfMonth,
      storable.dayOfWeek, storable.month⟩
  · rintro ⟨amount, merchant, notes, dayOfMonth, dayOfWeek, month⟩
    exact ⟨amount, currency, type, merchant, notes, recurrence, dayOfMonth, dayOfWeek, month, status⟩

theorem create_storable_iff {upper : Text → Text} {command : CreateRecurringRuleCommand}
    {id : RecurringRuleId} {now : Timestamp} {rule : RecurringRule}
    (accepted : createRecurringRule upper command id now = .ok rule) :
    rule.Storable ↔ command.Fits := by
  obtain ⟨read, merchant, notes, dayOfMonth, dayOfWeek, month⟩ := create_ok accepted
  rw [storable_iff, amount_fits_iff read, merchant, notes, dayOfMonth, dayOfWeek, month]
  rfl

theorem update_ok {rule after : RecurringRule} {command : UpdateRecurringRuleCommand} {today : Date}
    {now : Timestamp} (accepted : updateRecurringRule rule command today now = .ok after) :
    after.amount = rule.amount ∧ after.merchant = (command.merchant <|> rule.merchant) ∧
    after.notes = (command.notes <|> rule.notes) ∧
    after.dayOfMonth = (command.dayOfMonth <|> rule.dayOfMonth) ∧
    after.dayOfWeek = (command.dayOfWeek <|> rule.dayOfWeek) ∧
    after.month = (command.month <|> rule.month) := by
  unfold updateRecurringRule at accepted
  obtain ⟨status, _, accepted⟩ := bind_ok accepted
  dsimp only at accepted
  split at accepted
  · obtain ⟨_, _, accepted⟩ := bind_ok accepted
    obtain ⟨next, _, accepted⟩ := bind_ok accepted
    cases accepted
    exact ⟨rfl, rfl, rfl, rfl, rfl, rfl⟩
  · rename_i unscheduled
    simp only [Bool.or_eq_true, not_or, Option.not_isSome_iff_eq_none] at unscheduled
    obtain ⟨⟨dayOfMonth, dayOfWeek⟩, month⟩ := unscheduled
    rw [dayOfMonth, dayOfWeek, month]
    split at accepted
    · cases accepted
      exact ⟨rfl, rfl, rfl, rfl, rfl, rfl⟩
    · rename_i unchanged
      simp only [not_or, Option.not_isSome_iff_eq_none] at unchanged
      obtain ⟨_, merchant, notes⟩ := unchanged
      rw [merchant, notes]
      cases accepted
      exact ⟨rfl, rfl, rfl, rfl, rfl, rfl⟩

/-- What holds of a value that is stored holds of the one that replaces it if it holds of this. -/
theorem given_fits_iff {α : Type} {Fits : Option α → Prop} {given stored : Option α}
    (none : Fits none) (fits : Fits stored) : Fits (given <|> stored) ↔ Fits given := by
  cases given with
  | none => exact iff_of_true fits none
  | some value => exact Iff.rfl

theorem update_storable_iff {rule after : RecurringRule} {command : UpdateRecurringRuleCommand}
    {today : Date} {now : Timestamp} (stored : rule.Storable)
    (accepted : updateRecurringRule rule command today now = .ok after) :
    after.Storable ↔ command.Fits := by
  obtain ⟨amount, merchant, notes, dayOfMonth, dayOfWeek, month⟩ := update_ok accepted
  rw [storable_iff, amount, merchant, notes, dayOfMonth, dayOfWeek, month,
    given_fits_iff nofun stored.merchant, given_fits_iff nofun stored.notes,
    given_fits_iff nofun stored.dayOfMonth, given_fits_iff nofun stored.dayOfWeek,
    given_fits_iff nofun stored.month]
  exact and_iff_right stored.amount

/-! The rules and the commands of the other modules, which have strings and amounts for the texts
and the money. -/

def RecurringRule.view (rule : RecurringRule) : Recurring.RecurringRule where
  id := rule.id
  userId := rule.userId
  amount := ⟨rule.amount.amount.value.getD 0, rule.amount.currency.code⟩
  type := rule.type
  merchant := rule.merchant.map plain
  notes := rule.notes.map plain
  categoryId := rule.categoryId
  recurrence := rule.recurrence
  dayOfMonth := rule.dayOfMonth
  dayOfWeek := rule.dayOfWeek
  month := rule.month
  endDate := rule.endDate
  status := rule.status
  nextFireDate := rule.nextFireDate
  updatedAt := rule.updatedAt

def UpdateRecurringRuleCommand.view (command : UpdateRecurringRuleCommand) :
    Recurring.UpdateRecurringRuleCommand where
  ruleId := command.ruleId
  userId := command.userId
  status := command.status.map plain
  dayOfMonth := command.dayOfMonth
  dayOfWeek := command.dayOfWeek
  month := command.month
  merchant := command.merchant.map plain
  notes := command.notes.map plain

theorem new_status_view (rule : RecurringRule) (command : UpdateRecurringRuleCommand) :
    command.view.newStatus rule.view = newStatus rule command.status := by
  unfold Recurring.UpdateRecurringRuleCommand.newStatus newStatus UpdateRecurringRuleCommand.view
  cases command.status with
  | none => rfl
  | some value => rfl

theorem map_orElse {α β : Type} (f : α → β) (given stored : Option α) :
    (given.map f <|> stored.map f) = (given <|> stored).map f := by
  cases given with
  | none => rfl
  | some value => rfl

def RecurringRule.edited (rule : RecurringRule) (command : UpdateRecurringRuleCommand)
    (status : RecurringRuleStatus) : RecurringRule :=
  { rule with
    status := status
    merchant := command.merchant <|> rule.merchant
    notes := command.notes <|> rule.notes }

theorem edit_view (rule : RecurringRule) (command : UpdateRecurringRuleCommand)
    (status : RecurringRuleStatus) :
    rule.view.edit command.view status = (rule.edited command status).view := by
  unfold Recurring.RecurringRule.edit RecurringRule.view RecurringRule.edited
    UpdateRecurringRuleCommand.view
  dsimp only
  rw [map_orElse, map_orElse]

theorem schedule_view (rule : RecurringRule) (command : UpdateRecurringRuleCommand)
    (status : RecurringRuleStatus) (today : Date) :
    (assignSchedule command.view today).on (rule.edited command status).view =
      if command.dayOfMonth.isSome || command.dayOfWeek.isSome || command.month.isSome then
        match validateSchedule rule.recurrence (command.dayOfMonth <|> rule.dayOfMonth)
          (command.dayOfWeek <|> rule.dayOfWeek) (command.month <|> rule.month) with
        | .error error => (.error (.invalidSchedule error), (rule.edited command status).view)
        | .ok () =>
            match computeFirstFireDate today rule.recurrence (command.dayOfMonth <|> rule.dayOfMonth)
              (command.dayOfWeek <|> rule.dayOfWeek) (command.month <|> rule.month) with
            | .error error =>
                (.error (.schedule error), command.view.merged (rule.edited command status).view)
            | .ok next => (.ok true,
                { command.view.merged (rule.edited command status).view with nextFireDate := next })
      else (.ok false, (rule.edited command status).view) :=
  schedule_run command.view (rule.edited command status).view today

/-- The outcome of an update is that of the statements on the rule's view. -/
def Agrees (ran : Except CommandError Unit × Recurring.RecurringRule) :
    Except CommandError RecurringRule → Prop
  | .ok after => ran = (.ok (), after.view)
  | .error error => ran.1 = .error error

theorem update_view (rule : RecurringRule) (command : UpdateRecurringRuleCommand) (today : Date)
    (now : Timestamp) :
    Agrees ((updateStatements command.view today now).on rule.view)
      (updateRecurringRule rule command today now) := by
  rw [update_run, new_status_view]
  unfold updateRecurringRule
  cases newStatus rule command.status with
  | error error => rfl
  | ok status =>
      change Agrees _ (if command.dayOfMonth.isSome || command.dayOfWeek.isSome ||
        command.month.isSome then _ else _)
      dsimp only
      rw [edit_view, schedule_view]
      by_cases scheduled : command.dayOfMonth.isSome || command.dayOfWeek.isSome || command.month.isSome
      · have changed : command.view.changed rule.view status = true := by
          unfold Recurring.UpdateRecurringRuleCommand.changed
          exact (Bool.or_eq_true _ _).mpr (.inr scheduled)
        rw [if_pos scheduled, if_pos scheduled, changed]
        cases validateSchedule rule.recurrence (command.dayOfMonth <|> rule.dayOfMonth)
          (command.dayOfWeek <|> rule.dayOfWeek) (command.month <|> rule.month) with
        | error error => rfl
        | ok validated =>
            dsimp only
            cases computeFirstFireDate today rule.recurrence
              (command.dayOfMonth <|> rule.dayOfMonth) (command.dayOfWeek <|> rule.dayOfWeek)
              (command.month <|> rule.month) with
            | error error => rfl
            | ok next => rfl
      · rw [if_neg scheduled, if_neg scheduled]
        dsimp only
        have unscheduled : command.view.scheduleChanged = false := (Bool.not_eq_true _).mp scheduled
        have changedIff : command.view.changed rule.view status = true ↔
            status ≠ rule.status ∨ command.merchant.isSome ∨ command.notes.isSome := by
          unfold Recurring.UpdateRecurringRuleCommand.changed
          rw [unscheduled, Bool.or_false, Bool.or_eq_true, Bool.or_eq_true, decide_eq_true_eq, or_assoc]
          unfold UpdateRecurringRuleCommand.view
          rw [Option.isSome_map, Option.isSome_map]
          rfl
        by_cases changed : status ≠ rule.status ∨ command.merchant.isSome ∨ command.notes.isSome
        · rw [if_pos changed, if_pos (changedIff.mpr changed)]
          rfl
        · have kept := (Bool.not_eq_true _).mp fun given => changed (changedIff.mp given)
          rw [if_neg changed, kept, ← edit_view, (edit_unchanged kept).1]
          rfl

theorem admits_of_storable {store : Store} {rule : RecurringRule} (storable : rule.Storable)
    (known : store.knowsCategory rule.categoryId) : store.admitsRule rule.view := by
  obtain ⟨q, value, bounded, _⟩ := storable.amount
  have merchant : (rule.merchant.map plain).all fun merchant =>
      decide (merchant.length ≤ 200) := by
    cases given : rule.merchant with
    | none => rfl
    | some source =>
        have short := (storable.merchant source given).1
        unfold plain
        simpa using short
  have range {low high : Int} {value : Option Int} (between : Between low high value) :
      value.all fun n => decide (low ≤ n ∧ n ≤ high) := by
    cases value with
    | none => rfl
    | some n => exact decide_eq_true (between n rfl)
  unfold Store.admitsRule fitsColumns RecurringRule.view
  dsimp only
  rw [merchant, known, range storable.dayOfMonth, range storable.dayOfWeek, range storable.month,
    value]
  simpa using (abs_lt.mp bounded).2

inductive Request
  | create (command : CreateRecurringRuleCommand) (id : RecurringRuleId) (now : Timestamp)
  | update (rule : RecurringRule) (stored : rule.Storable) (command : UpdateRecurringRuleCommand)
      (today : Date) (now : Timestamp)

namespace Request

def result (upper : Text → Text) : Request → Except (CreateError ⊕ CommandError) RecurringRule
  | .create command id now => (createRecurringRule upper command id now).mapError .inl
  | .update rule _ command today now => (updateRecurringRule rule command today now).mapError .inr

def Fits : Request → Prop
  | .create command _ _ => command.Fits
  | .update _ _ command _ _ => command.Fits

end Request

theorem accepted_storable_iff {upper : Text → Text} {request : Request} {rule : RecurringRule}
    (accepted : request.result upper = .ok rule) : rule.Storable ↔ request.Fits := by
  cases request with
  | create command id now => exact create_storable_iff (mapError_ok accepted)
  | update loaded stored command today now => exact update_storable_iff stored (mapError_ok accepted)

def weeklyRent (dayOfMonth : Option Int) : CreateRecurringRuleCommand where
  userId := ⟨3⟩
  rawAmount := text "10.00"
  currency := text "USD"
  type := text "expense"
  recurrence := text "weekly"
  startDate := firstOfMay
  dayOfMonth := dayOfMonth
  dayOfWeek := some 0
  month := none
  merchant := some (text "Rent")
  notes := none
  rawCategoryId := none
  endDate := none

theorem exists_ok {ε α : Type} {result : Except ε α} (done : result.toBool = true) :
    ∃ a, result = .ok a := by
  cases result with
  | error error => cases done
  | ok a => exact ⟨a, rfl⟩

theorem weekly_rent_fits : (weeklyRent none).Fits := by
  refine ⟨?_, ?_, nofun, nofun, ?_, nofun⟩
  · intro q denotes
    obtain ⟨amount, read, value⟩ := Values.denotes_iff.mp denotes
    have known : Decimal.ofText (weeklyRent none).rawAmount = some (.finite false 1000 (-2)) := by
      decide +kernel
    cases known.symm.trans read
    cases value
    constructor
    · norm_num [abs_lt]
    · rw [if_neg Bool.false_ne_true, one_mul]
      refine ⟨100000, ?_⟩
      norm_num
  · rintro source ⟨⟩
    constructor
    · decide
    · unfold TextStorable
      decide
  · rintro n ⟨⟩
    decide

def tuesdays : UpdateRecurringRuleCommand :=
  ⟨⟨1⟩, ⟨3⟩, none, none, some 1, none, none, none⟩

theorem accepted_storable_weekly : ∃ rule stored after,
    (Request.create (weeklyRent none) ⟨1⟩ 0).result id = .ok rule ∧
    (Request.update rule stored tuesdays firstOfMay 1).result id = .ok after ∧
    (rule.Storable ↔ (weeklyRent none).Fits) ∧ (after.Storable ↔ tuesdays.Fits) := by
  have both : (match (Request.create (weeklyRent none) ⟨1⟩ 0).result id with
      | .ok rule => (updateRecurringRule rule tuesdays firstOfMay 1).toBool
      | .error _ => false) = true := by
    decide +kernel
  obtain ⟨rule, accepted⟩ := exists_ok
    (show ((Request.create (weeklyRent none) ⟨1⟩ 0).result id).toBool = true by decide +kernel)
  rw [accepted] at both
  obtain ⟨after, updated⟩ := exists_ok both
  have created := accepted_storable_iff accepted
  have stored := created.mpr weekly_rent_fits
  have changed : (Request.update rule stored tuesdays firstOfMay 1).result id = .ok after := by
    change (updateRecurringRule rule tuesdays firstOfMay 1).mapError Sum.inr = .ok after
    rw [updated]
    rfl
  exact ⟨rule, stored, after, accepted, changed, created, accepted_storable_iff changed⟩

/-- The day of the month of a weekly rule, which nothing but the database looks at. -/
theorem not_accepted_storable : ¬ ∀ (upper : Text → Text) (request : Request) (rule : RecurringRule),
    request.result upper = .ok rule → rule.Storable := by
  intro claimed
  obtain ⟨rule, accepted⟩ := exists_ok
    (show ((Request.create (weeklyRent (some 31)) ⟨1⟩ 0).result id).toBool = true by decide +kernel)
  have created : createRecurringRule id (weeklyRent (some 31)) ⟨1⟩ 0 = .ok rule := by
    change (createRecurringRule id (weeklyRent (some 31)) ⟨1⟩ 0).mapError Sum.inl = .ok rule
      at accepted
    exact mapError_ok accepted
  have fits : (weeklyRent (some 31)).Fits :=
    (create_storable_iff created).mp (claimed _ _ _ accepted)
  obtain ⟨_, _, _, dayOfMonth, _⟩ := fits
  exact absurd (dayOfMonth 31 rfl).2 (by decide)

end Yomochi.Recurring.Rows
