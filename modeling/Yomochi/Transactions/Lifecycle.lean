import Mathlib.Data.List.Perm.Basic
import Yomochi.Foundation.Runs
import Yomochi.Listing.Timelines
import Yomochi.Recurring.Effects

/-! The requests that create, change and delete transactions, beside one another: each reads its
row in one step and commits in a later one. -/

namespace Yomochi.Transactions

open Foundation Recurring
open Listing (AuditEventType)

abbrev RequestId := Nat

/-! What the statements do. -/

def loads (transaction : Transaction) : Bool := (moneyFactory transaction.amount).toBool

def load (store : Store) (id : TransactionId) (userId : UserId) : Option Transaction :=
  (getTransaction store id userId).filter loads

/-- The flush of a column: it is written when it is no longer as it was loaded. -/
def flushColumn {α : Type} [DecidableEq α] (loaded current stored : α) : α :=
  if current = loaded then stored else current

def flush (loaded current row : Transaction) : Transaction :=
  { row with
    amount := ⟨flushColumn loaded.amount.amount current.amount.amount row.amount.amount,
      flushColumn loaded.amount.currency current.amount.currency row.amount.currency⟩
    date := flushColumn loaded.date current.date row.date
    type := flushColumn loaded.type current.type row.type
    merchant := flushColumn loaded.merchant current.merchant row.merchant
    notes := flushColumn loaded.notes current.notes row.notes
    categoryId := flushColumn loaded.categoryId current.categoryId row.categoryId }

/-- `changed` of `apply_update`: the update that sets `updated_at`. -/
def touches (command : UpdateTransactionCommand) : Bool :=
  decide (.amount ∈ command.fieldsToUpdate ∨ .currency ∈ command.fieldsToUpdate) ||
    (decide (.date ∈ command.fieldsToUpdate) && command.date.isSome) ||
    (decide (.type ∈ command.fieldsToUpdate) && command.type.isSome) ||
    decide (.merchant ∈ command.fieldsToUpdate) || decide (.notes ∈ command.fieldsToUpdate) ||
    decide (.categoryId ∈ command.fieldsToUpdate)

theorem remove_keys (transactions : Table Transaction.id) (p : Transaction → Bool)
    (unique : (recurringKeys transactions.rows).Nodup) :
    (recurringKeys (transactions.delete p).rows).Nodup :=
  unique.sublist ((List.filter_sublist).filterMap _)

def addresses (id : TransactionId) (userId : UserId) (row : Transaction) : Bool :=
  decide (row.id = id) && decide (row.userId = userId)

def removeTransaction (store : Store) (id : TransactionId) (userId : UserId) : Store :=
  { store with
    transactions := store.transactions.delete (addresses id userId)
    recurringUnique := remove_keys store.transactions (addresses id userId)
      store.recurringUnique }

/-- ON DELETE SET NULL -/
def forget (row : Transaction) : Transaction := { row with recurringRuleId := none }

def firedBy (id : RecurringRuleId) (row : Transaction) : Bool :=
  decide (row.recurringRuleId = some id)

theorem forget_id (row : Transaction) : (forget row).id = row.id := rfl

theorem forget_keys (transactions : Table Transaction.id) (p : Transaction → Bool)
    (unique : (recurringKeys transactions.rows).Nodup) :
    (recurringKeys (transactions.updateWhere p forget forget_id).rows).Nodup := by
  have part (rows : List Transaction) :
      (recurringKeys (rows.map fun row => if p row then forget row else row)).Sublist
        (recurringKeys rows) := by
    induction rows with
    | nil => exact List.Sublist.slnil
    | cons row rows ih =>
        unfold recurringKeys at ih ⊢
        rw [List.map_cons, List.filterMap_cons, List.filterMap_cons]
        by_cases met : p row = true
        · rw [if_pos met]
          cases row.recurringRuleId with
          | none => exact ih
          | some id => exact ih.cons _
        · rw [if_neg met]
          cases row.recurringRuleId with
          | none => exact ih
          | some id => exact ih.cons_cons _
  exact unique.sublist (part transactions.rows)

def removeRule (store : Store) (id : RecurringRuleId) (userId : UserId) : Store :=
  match getRule store id userId with
  | none => store
  | some _ =>
      { store with
        rules := store.rules.delete fun rule => rule.id = id
        transactions := store.transactions.updateWhere (firedBy id) forget forget_id
        recurringUnique := forget_keys store.transactions (firedBy id) store.recurringUnique }

/-! The requests. -/

/-- How far a request has come. `adding` is the session of a creation, or of a scheduler job that
goes on after a rule that failed; `removed` has committed a deletion. -/
inductive Phase
  | arrived
  | adding (session : Session)
  | loaded (command : UpdateTransactionCommand) (read : Transaction)
  | changed (command : UpdateTransactionCommand) (read current : Transaction)
  | removing (id : TransactionId) (userId : UserId)
  | removed (id : TransactionId)
  | done

inductive Commit
  | created (session : Session)
  | updated (command : UpdateTransactionCommand)
  | removed (id : TransactionId) (userId : UserId)
  | category (category : Category)
  | rule (rule : RecurringRule)
  | ruleRemoved (id : RecurringRuleId) (userId : UserId)

abbrev Owned := TransactionId × UserId

def owned (transaction : Transaction) : Owned := (transaction.id, transaction.userId)

/-- `generated` holds the ids that the generator has given, `inserted` and `deleted` the rows that
came and went, `audit` the audit events. -/
structure State where
  store : Store
  requests : RequestId → Phase
  generated : List TransactionId
  inserted : List Owned
  deleted : List Owned
  audit : List (AuditEventType × UserId)
  committed : List Commit

def State.start (store : Store) : State :=
  ⟨store, fun _ => .arrived, store.transactions.rows.map Transaction.id, [], [], [], []⟩

inductive Action
  | create (request : RequestId) (command : CreateTransactionCommand) (script : FireScript)
  | commitCreated (request : RequestId)
  | load (request : RequestId) (command : UpdateTransactionCommand)
  | change (request : RequestId)
  | commitChanged (request : RequestId)
  | find (request : RequestId) (id : TransactionId) (userId : UserId)
  | commitRemoved (request : RequestId)
  | rollback (request : RequestId)
  | createCategory (category : Category)
  | createRule (rule : RecurringRule)
  | deleteRule (id : RecurringRuleId) (userId : UserId)

def Action.request : Action → Option RequestId
  | .create request _ _ | .commitCreated request | .load request _ | .change request
  | .commitChanged request | .find request _ _ | .commitRemoved request | .rollback request =>
      some request
  | _ => none

namespace State

def setPhase (s : State) (request : RequestId) (phase : Phase) : State :=
  { s with requests := Function.update s.requests request phase }

/-- `CreateTransactionUseCase` within a session: the `Money` is made first, and the generator gives
no id twice. -/
def add (s : State) (request : RequestId) (session : Session)
    (command : CreateTransactionCommand) (script : FireScript) : Option State :=
  if script.transactionId ∈ s.generated then none
  else if loads (newTransaction command script) then
    some { s.setPhase request (.adding (createTransaction s.store script session command).2) with
      generated := s.generated ++ [script.transactionId] }
  else some (s.setPhase request (.adding session))

def commitCreated (s : State) (request : RequestId) (session : Session) : State :=
  if session.added.all s.store.admitsTransaction then
    match session.commit s.store with
    | .error _ => s.setPhase request .done
    | .ok store =>
        { s.setPhase request .done with
          store := store
          inserted := s.inserted ++ session.added.map owned
          audit := s.audit ++ session.added.map fun row => (.TRANSACTION_CREATED, row.userId)
          committed := s.committed ++ [.created session] }
  else s.setPhase request .done

/-- The commit of an update: with the audit event, the UPDATE if there is one. An UPDATE that finds
no row raises. -/
def commitChanged (s : State) (request : RequestId) (command : UpdateTransactionCommand)
    (read current : Transaction) : State :=
  let recorded := { s.setPhase request .done with
    audit := s.audit ++ [(.TRANSACTION_UPDATED, read.userId)]
    committed := s.committed ++ [.updated command] }
  if touches command then
    match s.store.transactions.get read.id with
    | none => s.setPhase request .done
    | some row =>
        if s.store.admitsTransaction (flush read current row) = true ∧
            (recurringKeys (s.store.transactions.replace (flush read current row)).rows).Nodup then
          { recorded with store := s.store.writeTransaction (flush read current row) }
        else s.setPhase request .done
  else recorded

/-- The commit of a deletion: the use case does not look at how many rows have gone. -/
def commitRemoved (s : State) (request : RequestId) (id : TransactionId) (userId : UserId) :
    State :=
  { s.setPhase request (.removed id) with
    store := removeTransaction s.store id userId
    deleted := s.deleted ++ (s.store.transactions.rows.filter (addresses id userId)).map owned
    audit := s.audit ++ [(.TRANSACTION_DELETED, userId)]
    committed := s.committed ++ [.removed id userId] }

end State

def step (s : State) : Action → Option State
  | .create request command script =>
      match s.requests request with
      | .arrived => s.add request .start command script
      | .adding session => s.add request session command script
      | _ => none
  | .commitCreated request =>
      match s.requests request with
      | .adding session => some (s.commitCreated request session)
      | _ => none
  | .load request command =>
      match s.requests request with
      | .arrived =>
          if command.fieldsToUpdate.isEmpty then some (s.setPhase request .done)
          else
            match Transactions.load s.store command.transactionId command.userId with
            | none => some (s.setPhase request .done)
            | some read => some (s.setPhase request (.loaded command read))
      | _ => none
  | .change request =>
      match s.requests request with
      | .loaded command read =>
          match updatedTransaction s.store command read with
          | .error _ => some (s.setPhase request .done)
          | .ok current => some (s.setPhase request (.changed command read current))
      | _ => none
  | .commitChanged request =>
      match s.requests request with
      | .changed command read current => some (s.commitChanged request command read current)
      | _ => none
  | .find request id userId =>
      match s.requests request with
      | .arrived =>
          match Transactions.load s.store id userId with
          | none => some (s.setPhase request .done)
          | some _ => some (s.setPhase request (.removing id userId))
      | _ => none
  | .commitRemoved request =>
      match s.requests request with
      | .removing id userId => some (s.commitRemoved request id userId)
      | _ => none
  | .rollback request =>
      match s.requests request with
      | .removed _ | .done => none
      | _ => some (s.setPhase request .done)
  | .createCategory category =>
      (s.store.categories.insert category).map fun categories =>
        { s with
          store := { s.store with categories := categories }
          committed := s.committed ++ [.category category] }
  | .createRule rule =>
      some { s with
        store := s.store.insertRule rule
        committed := s.committed ++ [.rule rule] }
  | .deleteRule id userId =>
      some { s with
        store := removeRule s.store id userId
        committed := s.committed ++ [.ruleRemoved id userId] }

/-! What a step can do. -/

inductive Turns (s : State) (request : RequestId) : Phase → Prop
  | done : Turns s request .done
  | loaded {command : UpdateTransactionCommand} {read : Transaction}
      (found : load s.store command.transactionId command.userId = some read) :
      Turns s request (.loaded command read)
  | changed {command : UpdateTransactionCommand} {read current : Transaction}
      (was : s.requests request = .loaded command read)
      (made : updatedTransaction s.store command read = .ok current) :
      Turns s request (.changed command read current)
  | removing {id : TransactionId} {userId : UserId} {row : Transaction}
      (found : load s.store id userId = some row) : Turns s request (.removing id userId)
  | adding {session : Session}
      (was : s.requests request = .arrived ∧ session = .start ∨
        s.requests request = .adding session) : Turns s request (.adding session)

inductive Outcome (s : State) : Action → State → Prop
  | turned {action : Action} {request : RequestId} {phase : Phase}
      (own : action.request = some request) (turns : Turns s request phase) :
      Outcome s action (s.setPhase request phase)
  | added {request : RequestId} {session : Session} {command : CreateTransactionCommand}
      {script : FireScript}
      (was : s.requests request = .arrived ∧ session = .start ∨
        s.requests request = .adding session)
      (unused : script.transactionId ∉ s.generated)
      (priced : loads (newTransaction command script) = true) :
      Outcome s (.create request command script)
        { s.setPhase request
            (.adding (createTransaction s.store script session command).2) with
          generated := s.generated ++ [script.transactionId] }
  | inserted {request : RequestId} {session : Session} {store : Store}
      (was : s.requests request = .adding session)
      (admitted : session.added.all s.store.admitsTransaction = true)
      (commits : session.commit s.store = .ok store) :
      Outcome s (.commitCreated request)
        { s.setPhase request .done with
          store := store
          inserted := s.inserted ++ session.added.map owned
          audit := s.audit ++ session.added.map fun row => (.TRANSACTION_CREATED, row.userId)
          committed := s.committed ++ [.created session] }
  | untouched {request : RequestId} {command : UpdateTransactionCommand}
      {read current : Transaction}
      (was : s.requests request = .changed command read current)
      (quiet : touches command = false) :
      Outcome s (.commitChanged request)
        { s.setPhase request .done with
          audit := s.audit ++ [(.TRANSACTION_UPDATED, read.userId)]
          committed := s.committed ++ [.updated command] }
  | written {request : RequestId} {command : UpdateTransactionCommand}
      {read current row : Transaction}
      (was : s.requests request = .changed command read current)
      (touched : touches command = true)
      (stored : s.store.transactions.get read.id = some row)
      (admitted : s.store.admitsTransaction (flush read current row) = true)
      (unique : (recurringKeys
        (s.store.transactions.replace (flush read current row)).rows).Nodup) :
      Outcome s (.commitChanged request)
        { s.setPhase request .done with
          store := s.store.writeTransaction (flush read current row)
          audit := s.audit ++ [(.TRANSACTION_UPDATED, read.userId)]
          committed := s.committed ++ [.updated command] }
  | removed {request : RequestId} {id : TransactionId} {userId : UserId}
      (was : s.requests request = .removing id userId) :
      Outcome s (.commitRemoved request) (s.commitRemoved request id userId)
  | category {category : Category} {categories : Table Category.id}
      (stored : s.store.categories.insert category = some categories) :
      Outcome s (.createCategory category)
        { s with
          store := { s.store with categories := categories }
          committed := s.committed ++ [.category category] }
  | rule {rule : RecurringRule} :
      Outcome s (.createRule rule)
        { s with
          store := s.store.insertRule rule
          committed := s.committed ++ [.rule rule] }
  | ruleRemoved {id : RecurringRuleId} {userId : UserId} :
      Outcome s (.deleteRule id userId)
        { s with
          store := removeRule s.store id userId
          committed := s.committed ++ [.ruleRemoved id userId] }

section Outcomes

variable {s t : State}

theorem add_outcome {request : RequestId} {session : Session} {command : CreateTransactionCommand}
    {script : FireScript}
    (was : s.requests request = .arrived ∧ session = .start ∨
      s.requests request = .adding session)
    (taken : s.add request session command script = some t) :
    Outcome s (.create request command script) t := by
  unfold State.add at taken
  split at taken
  · cases taken
  · rename_i unused
    split at taken
    · rename_i priced
      cases taken
      exact .added was unused priced
    · cases taken
      exact .turned rfl (.adding was)

theorem commit_created_outcome {request : RequestId} {session : Session}
    (was : s.requests request = .adding session) :
    Outcome s (.commitCreated request) (s.commitCreated request session) := by
  unfold State.commitCreated
  split
  · rename_i admitted
    split
    · exact .turned rfl .done
    · rename_i store commits
      exact .inserted was admitted commits
  · exact .turned rfl .done

theorem commit_changed_outcome {request : RequestId} {command : UpdateTransactionCommand}
    {read current : Transaction} (was : s.requests request = .changed command read current) :
    Outcome s (.commitChanged request) (s.commitChanged request command read current) := by
  unfold State.commitChanged
  dsimp only
  split
  · rename_i touched
    split
    · exact .turned rfl .done
    · rename_i row stored
      split
      · rename_i allowed
        exact .written was touched stored allowed.1 allowed.2
      · exact .turned rfl .done
  · rename_i quiet
    exact .untouched was (Bool.eq_false_iff.mpr quiet)

theorem step_outcome {action : Action} (taken : step s action = some t) : Outcome s action t := by
  cases action with
  | create request command script =>
      simp only [step] at taken
      split at taken
      · rename_i was
        exact add_outcome (.inl ⟨was, rfl⟩) taken
      · rename_i session was
        exact add_outcome (.inr was) taken
      · cases taken
  | commitCreated request =>
      simp only [step] at taken
      split at taken
      · rename_i session was
        cases taken
        exact commit_created_outcome was
      · cases taken
  | load request command =>
      simp only [step] at taken
      split at taken
      · split at taken
        · cases taken
          exact .turned rfl .done
        · split at taken
          · cases taken
            exact .turned rfl .done
          · rename_i read found
            cases taken
            exact .turned rfl (.loaded found)
      · cases taken
  | change request =>
      simp only [step] at taken
      split at taken
      · rename_i command read was
        split at taken
        · cases taken
          exact .turned rfl .done
        · rename_i current made
          cases taken
          exact .turned rfl (.changed was made)
      · cases taken
  | commitChanged request =>
      simp only [step] at taken
      split at taken
      · rename_i command read current was
        cases taken
        exact commit_changed_outcome was
      · cases taken
  | find request id userId =>
      simp only [step] at taken
      split at taken
      · split at taken
        · cases taken
          exact .turned rfl .done
        · rename_i row found
          cases taken
          exact .turned rfl (.removing found)
      · cases taken
  | commitRemoved request =>
      simp only [step] at taken
      split at taken
      · rename_i id userId was
        cases taken
        exact .removed was
      · cases taken
  | rollback request =>
      simp only [step] at taken
      split at taken
      · cases taken
      · cases taken
      · cases taken
        exact .turned rfl .done
  | createCategory category =>
      simp only [step] at taken
      obtain ⟨categories, stored, rfl⟩ := Option.map_eq_some_iff.mp taken
      exact .category stored
  | createRule rule =>
      cases taken
      exact .rule
  | deleteRule id userId =>
      cases taken
      exact .ruleRemoved

end Outcomes

end Yomochi.Transactions
