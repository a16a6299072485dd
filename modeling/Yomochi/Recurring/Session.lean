import Mathlib.Logic.Function.Basic
import Yomochi.Foundation.Selection
import Yomochi.Foundation.Table
import Yomochi.Recurring.Rules

/-! The database session of one scheduler job: `autoflush=False`, so that its queries see the
rows as they are stored while the objects they return carry the changes made since. -/

namespace Yomochi.Recurring

open Foundation

structure TransactionId where
  value : Uuid
  deriving DecidableEq, Repr

structure Transaction where
  id : TransactionId
  userId : UserId
  amount : Money
  date : Date
  type : TransactionType
  merchant : Option String
  notes : Option String
  categoryId : Option CategoryId
  createdAt : Timestamp
  recurringRuleId : Option RecurringRuleId
  deriving DecidableEq

structure Category where
  id : CategoryId
  isSystem : Bool
  userId : Option UserId
  parentId : Option CategoryId
  deriving DecidableEq

def recurringKeys (rows : List Transaction) : List (RecurringRuleId × Date) :=
  rows.filterMap fun row => row.recurringRuleId.map (·, row.date)

theorem recurring_keys_nil : (recurringKeys []).Nodup := List.nodup_nil

structure Store where
  rules : Table RecurringRule.id
  transactions : Table Transaction.id
  categories : Table Category.id
  recurringUnique : (recurringKeys transactions.rows).Nodup

/-- `loaded` holds the rules that have been changed since they were loaded, `added` the new
transactions. After a failed statement the database refuses every other one. -/
structure Session where
  loaded : RecurringRuleId → Option RecurringRule
  locked : List RecurringRuleId
  added : List Transaction
  aborted : Bool

def Session.start : Session := ⟨fun _ => none, [], [], false⟩

inductive JobError
  | schedule (error : ScheduleError)
  | storageError
  | integrityError
  | invalidRequest
  deriving DecidableEq, Repr

namespace Session

/-- The object that the identity map has for a row. -/
def object (session : Session) (row : RecurringRule) : RecurringRule :=
  (session.loaded row.id).getD row

/-- `merge` of a rule that the session has loaded. -/
def save (session : Session) (rule : RecurringRule) : Session :=
  { session with loaded := Function.update session.loaded rule.id (some rule) }

/-- `merge` of a new transaction. -/
def add (session : Session) (transaction : Transaction) : Session :=
  { session with added := session.added ++ [transaction] }

def abort (session : Session) : Session := { session with aborted := true }

def lock (session : Session) (rows : List RecurringRule) : Session :=
  { session with locked := rows.map RecurringRule.id ++ session.locked }

def flushRule (session : Session) (row : RecurringRule) : RecurringRule :=
  { row with
    nextFireDate := (session.object row).nextFireDate
    status := (session.object row).status
    updatedAt := (session.object row).updatedAt }

@[simp] theorem flushRule_id (session : Session) (row : RecurringRule) :
    (session.flushRule row).id = row.id := rfl

def flush (store : Store) (session : Session) : Except JobError Store :=
  match store.transactions.insertAll session.added with
  | none => .error .integrityError
  | some transactions =>
      if unique : (recurringKeys transactions.rows).Nodup then
        .ok ⟨store.rules.update session.flushRule session.flushRule_id, transactions,
          store.categories, unique⟩
      else .error .integrityError

/-- The unit of work sorts the changed objects of a class by their keys, and `RecurringRuleId` has
no order: with more than one of them it raises. -/
def unsortable (store : Store) (session : Session) : Bool :=
  decide (1 < (store.rules.rows.filter fun row => (session.loaded row.id).isSome).length)

/-- The commit flushes first; a failure rolls everything back. -/
def commit (store : Store) (session : Session) : Except JobError Store :=
  if session.aborted then .error .storageError
  else if session.unsortable store then .error .invalidRequest
  else session.flush store

end Session

/-- What a query compares the status of a rule with. -/
inductive StatusOperand
  | member (status : RecurringRuleStatus)
  | str (value : String)
  deriving DecidableEq, Repr

def bindStatus : StatusOperand → Option String
  | .member status => some status.value
  | .str _ => none

/-- `fetch_due_for_update` compares the column with a text, which is bound as NULL. -/
def dueStatus : StatusOperand := .str "active"

/-- The WHERE clause of `fetch_due_for_update`, without the rows that another transaction has
locked. -/
def fetchable (operand : StatusOperand) (session : Session)
    (heldElsewhere : RecurringRuleId → Bool) (asOf : Date) (row : RecurringRule) : Bool :=
  decide (row.nextFireDate ≤ asOf) &&
    keeps (sqlEq (some row.status.value) (bindStatus operand)) &&
    (session.locked.contains row.id || !heldElsewhere row.id)

/-- `answer` may be what `fetch_due_for_update` selects, were it to compare with `operand`. -/
def FetchesDue (operand : StatusOperand) (store : Store) (session : Session)
    (heldElsewhere : RecurringRuleId → Bool) (asOf : Date) (limit : Nat)
    (answer : List RecurringRule) : Prop :=
  Selects store.rules.rows (fetchable operand session heldElsewhere asOf) (fun _ _ => true)
    (some limit) answer

instance (operand : StatusOperand) (store : Store) (session : Session)
    (heldElsewhere : RecurringRuleId → Bool) (asOf : Date) (limit : Nat)
    (answer : List RecurringRule) :
    Decidable (FetchesDue operand store session heldElsewhere asOf limit answer) :=
  inferInstanceAs (Decidable (Selects _ _ _ _ _))

theorem fetchable_due_status (session : Session) (heldElsewhere : RecurringRuleId → Bool)
    (asOf : Date) (row : RecurringRule) :
    fetchable dueStatus session heldElsewhere asOf row = false := by
  rw [Bool.eq_false_iff]
  intro found
  simp only [fetchable, Bool.and_eq_true, keeps_sql_eq] at found
  cases found.1.2

theorem fetches_due_nil {store : Store} {session : Session}
    {heldElsewhere : RecurringRuleId → Bool} {asOf : Date} {limit : Nat}
    {answer : List RecurringRule}
    (fetched : FetchesDue dueStatus store session heldElsewhere asOf limit answer) :
    answer = [] := by
  apply List.eq_nil_iff_forall_not_mem.mpr
  intro row member
  have found := (selects_mem fetched member).2
  rw [fetchable_due_status] at found
  cases found

def getByIdForUser (store : Store) (id : CategoryId) (userId : UserId) : Option Category :=
  (store.categories.get id).filter fun category =>
    category.isSystem || decide (category.userId = some userId)

structure CreateTransactionCommand where
  userId : UserId
  amount : Money
  date : Date
  type : TransactionType
  merchant : Option String
  notes : Option String
  categoryId : Option CategoryId
  recurringRuleId : Option RecurringRuleId
  deriving DecidableEq

inductive CreateError
  | storageError
  | categoryIsGroup (id : CategoryId)
  deriving DecidableEq, Repr

/-- `validate_assignable`: a category without a parent is a group. -/
def validateCategory (store : Store) (userId : UserId) :
    Option CategoryId → Except CreateError Unit
  | none => .ok ()
  | some id =>
      match getByIdForUser store id userId with
      | none => .ok ()
      | some category => if category.parentId = none then .error (.categoryIsGroup id) else .ok ()

/-- Which statement of a call fails, if one does: a read in front of the save, or the INSERT of
the audit event behind it. -/
inductive Fault
  | lookup
  | audit
  deriving DecidableEq, Repr

/-- What one call of `_fire` meets besides the store. -/
structure FireScript where
  fault : Option Fault
  transactionId : TransactionId
  createdAt : Timestamp
  pausedAt : Timestamp

def newTransaction (command : CreateTransactionCommand) (script : FireScript) : Transaction where
  id := script.transactionId
  userId := command.userId
  amount := command.amount
  date := command.date
  type := command.type
  merchant := command.merchant
  notes := command.notes
  categoryId := command.categoryId
  createdAt := script.createdAt
  recurringRuleId := command.recurringRuleId

/-- `CreateTransactionUseCase` with the session it shares with the rules, and no quota. -/
def createTransaction (store : Store) (script : FireScript) (session : Session)
    (command : CreateTransactionCommand) : Except CreateError TransactionId × Session :=
  if session.aborted then (.error .storageError, session)
  else if script.fault = some .lookup then (.error .storageError, session.abort)
  else
    match validateCategory store command.userId command.categoryId with
    | .error error => (.error error, session)
    | .ok () =>
        let added := session.add (newTransaction command script)
        if script.fault = some .audit then (.error .storageError, added.abort)
        else (.ok script.transactionId, added)

end Yomochi.Recurring
