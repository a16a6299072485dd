import Yomochi.Recurring.Amounts
import Yomochi.Recurring.Schedule
import Yomochi.Recurring.Session

/-! The requests that write rules and transactions, each with the commit of its session. -/

namespace Yomochi.Recurring

open Foundation

def RecurringRuleStatus.ofValue (value : String) : Option RecurringRuleStatus :=
  [.ACTIVE, .PAUSED].find? fun status => status.value = value

inductive CommandError
  | amount (error : AmountError)
  | invalidStatus (value : String)
  | invalidSchedule (error : InvalidRecurrenceScheduleError)
  | schedule (error : ScheduleError)
  | transactionNotFound
  | transaction (error : CreateError)
  deriving DecidableEq

/-- The columns `merchant` and `amount_value`. -/
def fitsColumns (merchant : Option String) (amount : Money) : Bool :=
  merchant.all (fun merchant => decide (merchant.length ≤ 200)) && decide (amount.amount < 10 ^ 15)

/-- `fk_.._category_id_categories` -/
def Store.knowsCategory (store : Store) (categoryId : Option CategoryId) : Bool :=
  categoryId.all fun id => (store.categories.get id).isSome

def Store.admitsRule (store : Store) (rule : RecurringRule) : Bool :=
  fitsColumns rule.merchant rule.amount && store.knowsCategory rule.categoryId &&
    rule.dayOfMonth.all (fun day => decide (1 ≤ day ∧ day ≤ 28)) &&
    rule.dayOfWeek.all (fun day => decide (0 ≤ day ∧ day ≤ 6)) &&
    rule.month.all fun month => decide (1 ≤ month ∧ month ≤ 12)

/-- The constraints of a row of `transactions`, its key and the unique index apart. -/
def Store.admitsTransaction (store : Store) (transaction : Transaction) : Bool :=
  fitsColumns transaction.merchant transaction.amount &&
    store.knowsCategory transaction.categoryId &&
    transaction.recurringRuleId.all fun id => (store.rules.get id).isSome

/-- The commit of a new rule. A commit that fails changes nothing. -/
def Store.insertRule (store : Store) (rule : RecurringRule) : Store :=
  if store.admitsRule rule then
    match store.rules.insert rule with
    | none => store
    | some rules => { store with rules := rules }
  else store

def Store.writeRule (store : Store) (rule : RecurringRule) : Store :=
  if store.admitsRule rule then { store with rules := store.rules.replace rule } else store

def Store.writeTransaction (store : Store) (transaction : Transaction) : Store :=
  if store.admitsTransaction transaction then
    if unique : (recurringKeys (store.transactions.replace transaction).rows).Nodup then
      { store with
        transactions := store.transactions.replace transaction
        recurringUnique := unique }
    else store
  else store

/-- The commit of the session of a request that has added transactions. -/
def Store.commitAdded (store : Store) (session : Session) : Store :=
  if session.added.all store.admitsTransaction then
    match session.commit store with
    | .error _ => store
    | .ok after => after
  else store

structure CreateRecurringRuleCommand where
  userId : UserId
  rawAmount : String
  currency : String
  type : TransactionType
  recurrence : Recurrence
  startDate : Date
  dayOfMonth : Option Int
  dayOfWeek : Option Int
  month : Option Int
  merchant : Option String
  notes : Option String
  categoryId : Option CategoryId
  endDate : Option Date
  deriving DecidableEq

def newRule (command : CreateRecurringRuleCommand) (id : RecurringRuleId) (amount : Money)
    (firstFire : Date) : RecurringRule where
  id := id
  userId := command.userId
  amount := amount
  type := command.type
  merchant := command.merchant
  notes := command.notes
  categoryId := command.categoryId
  recurrence := command.recurrence
  dayOfMonth := command.dayOfMonth
  dayOfWeek := command.dayOfWeek
  month := command.month
  endDate := command.endDate
  status := .ACTIVE
  nextFireDate := firstFire
  updatedAt := none

/-- `Money.from_string(raw, Currency(code))` -/
def amountOf (rawAmount code : String) : Except AmountError Money :=
  match currencyOf code with
  | .error error => .error error
  | .ok currency => Money.fromString rawAmount currency

/-- `CreateRecurringRuleUseCase`: its answer, and what its request leaves stored. -/
def createRecurringRule (store : Store) (command : CreateRecurringRuleCommand)
    (id : RecurringRuleId) : Except CommandError RecurringRuleId × Store :=
  match amountOf command.rawAmount command.currency with
  | .error error => (.error (.amount error), store)
  | .ok amount =>
      match validateSchedule command.recurrence command.dayOfMonth command.dayOfWeek command.month with
      | .error error => (.error (.invalidSchedule error), store)
      | .ok () =>
          match computeFirstFireDate command.startDate command.recurrence command.dayOfMonth
            command.dayOfWeek command.month with
          | .error error => (.error (.schedule error), store)
          | .ok firstFire => (.ok id, store.insertRule (newRule command id amount firstFire))

structure UpdateRecurringRuleCommand where
  ruleId : RecurringRuleId
  userId : UserId
  status : Option String
  dayOfMonth : Option Int
  dayOfWeek : Option Int
  month : Option Int
  merchant : Option String
  notes : Option String
  deriving DecidableEq

namespace UpdateRecurringRuleCommand

def scheduleChanged (command : UpdateRecurringRuleCommand) : Bool :=
  command.dayOfMonth.isSome || command.dayOfWeek.isSome || command.month.isSome

def newStatus (command : UpdateRecurringRuleCommand) (rule : RecurringRule) :
    Except CommandError RecurringRuleStatus :=
  match command.status with
  | none => .ok rule.status
  | some value =>
      match RecurringRuleStatus.ofValue value with
      | none => .error (.invalidStatus value)
      | some status => .ok status

def changed (command : UpdateRecurringRuleCommand) (rule : RecurringRule)
    (status : RecurringRuleStatus) : Bool :=
  decide (status ≠ rule.status) || command.merchant.isSome || command.notes.isSome ||
    command.scheduleChanged

end UpdateRecurringRuleCommand

def RecurringRule.edit (rule : RecurringRule) (command : UpdateRecurringRuleCommand)
    (status : RecurringRuleStatus) : RecurringRule :=
  { rule with
    status := status
    merchant := command.merchant <|> rule.merchant
    notes := command.notes <|> rule.notes }

/-- The schedule of an update, and the next date that follows from it today. -/
def RecurringRule.reschedule (rule : RecurringRule) (command : UpdateRecurringRuleCommand)
    (today : Date) : Except CommandError RecurringRule :=
  if command.scheduleChanged then
    let dayOfMonth := command.dayOfMonth <|> rule.dayOfMonth
    let dayOfWeek := command.dayOfWeek <|> rule.dayOfWeek
    let month := command.month <|> rule.month
    match validateSchedule rule.recurrence dayOfMonth dayOfWeek month with
    | .error error => .error (.invalidSchedule error)
    | .ok () =>
        match computeFirstFireDate today rule.recurrence dayOfMonth dayOfWeek month with
        | .error error => .error (.schedule error)
        | .ok next => .ok { rule with
            dayOfMonth := dayOfMonth
            dayOfWeek := dayOfWeek
            month := month
            nextFireDate := next }
  else .ok rule

def getRule (store : Store) (id : RecurringRuleId) (userId : UserId) : Option RecurringRule :=
  (store.rules.get id).filter fun rule => rule.userId = userId

/-- `UpdateRecurringRuleUseCase`: its answer, and what its request leaves stored. -/
def updateRecurringRule (store : Store) (command : UpdateRecurringRuleCommand) (today : Date)
    (now : Timestamp) : Except CommandError Unit × Store :=
  match getRule store command.ruleId command.userId with
  | none => (.ok (), store)
  | some rule =>
      match command.newStatus rule with
      | .error error => (.error error, store)
      | .ok status =>
          match (rule.edit command status).reschedule command today with
          | .error (.invalidSchedule error) =>
              -- A response is made of this error, so that the session commits what is changed.
              (.error (.invalidSchedule error), store.writeRule (rule.edit command status))
          | .error error => (.error error, store)
          | .ok moved =>
              if command.changed rule status then
                (.ok (), store.writeRule { moved with updatedAt := some now })
              else (.ok (), store)

inductive Field
  | amount
  | currency
  | date
  | type
  | merchant
  | notes
  | categoryId
  deriving DecidableEq, Repr

structure UpdateTransactionCommand where
  userId : UserId
  transactionId : TransactionId
  fieldsToUpdate : List Field
  rawAmount : Option String
  currency : Option String
  date : Option Date
  type : Option TransactionType
  merchant : Option String
  notes : Option String
  categoryId : Option CategoryId
  deriving DecidableEq

def Transaction.applyUpdate (transaction : Transaction) (amount : Option Money) (date : Option Date)
    (type : Option TransactionType) (merchant notes : Option (Option String))
    (categoryId : Option (Option CategoryId)) : Transaction :=
  { transaction with
    amount := amount.getD transaction.amount
    date := date.getD transaction.date
    type := type.getD transaction.type
    merchant := merchant.getD transaction.merchant
    notes := notes.getD transaction.notes
    categoryId := categoryId.getD transaction.categoryId }

namespace UpdateTransactionCommand

def given {α : Type} (command : UpdateTransactionCommand) (field : Field) (value : α) : Option α :=
  if field ∈ command.fieldsToUpdate then some value else none

/-- An empty text counts as none. -/
def newAmount (command : UpdateTransactionCommand) (transaction : Transaction) :
    Except AmountError (Option Money) :=
  if .amount ∈ command.fieldsToUpdate ∨ .currency ∈ command.fieldsToUpdate then
    let code := (command.currency.filter (· ≠ "")).getD transaction.amount.currency
    match currencyOf code with
    | .error error => .error error
    | .ok currency =>
        match command.rawAmount.filter (· ≠ "") with
        | some rawAmount => (Money.fromString rawAmount currency).map some
        | none => (Money.of (readAmount transaction.amount.amount) currency).map some
  else .ok none

end UpdateTransactionCommand

def updatedTransaction (store : Store) (command : UpdateTransactionCommand)
    (transaction : Transaction) : Except CommandError Transaction :=
  match validateCategory store command.userId
    ((command.given .categoryId command.categoryId).getD none) with
  | .error error => .error (.transaction error)
  | .ok () =>
      match command.newAmount transaction with
      | .error error => .error (.amount error)
      | .ok amount => .ok (transaction.applyUpdate amount
          ((command.given .date command.date).getD none)
          ((command.given .type command.type).getD none)
          (command.given .merchant command.merchant) (command.given .notes command.notes)
          (command.given .categoryId command.categoryId))

def getTransaction (store : Store) (id : TransactionId) (userId : UserId) : Option Transaction :=
  (store.transactions.get id).filter fun transaction => transaction.userId = userId

/-- `UpdateTransactionUseCase`: its answer, and what its request leaves stored. -/
def updateTransaction (store : Store) (command : UpdateTransactionCommand) :
    Except CommandError Unit × Store :=
  if command.fieldsToUpdate.isEmpty then (.ok (), store)
  else
    match getTransaction store command.transactionId command.userId with
    | none => (.error .transactionNotFound, store)
    | some transaction =>
        match moneyFactory transaction.amount with
        | .error error => (.error (.amount error), store)
        | .ok _ =>
            match updatedTransaction store command transaction with
            | .error error => (.error error, store)
            | .ok updated => (.ok (), store.writeTransaction updated)

/-- `CreateTransactionUseCase` in a request of its own, once the quota lets it pass. -/
def createTransactionRequest (store : Store) (script : FireScript)
    (command : CreateTransactionCommand) : Except CommandError TransactionId × Store :=
  match createTransaction store script .start command with
  | (.error error, _) => (.error (.transaction error), store)
  | (.ok id, session) => (.ok id, store.commitAdded session)

end Yomochi.Recurring
