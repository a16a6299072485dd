import Yomochi.Recurring.FireRuns
import Yomochi.Recurring.UseCases

/-! What a request may change: the store stays as it is, or one row of it is written. -/

namespace Yomochi.Recurring

open Foundation

def UpdateRecurringRuleCommand.nextDate (command : UpdateRecurringRuleCommand) (rule : RecurringRule)
    (today : Date) : Option Date :=
  match rule.reschedule command today with
  | .ok moved => some moved.nextFireDate
  | .error (.invalidSchedule _) => some rule.nextFireDate
  | .error _ => none

def UpdateTransactionCommand.newDate (command : UpdateTransactionCommand)
    (transaction : Transaction) : Date :=
  ((command.given .date command.date).getD none).getD transaction.date

def UpdateTransactionCommand.newCategory (command : UpdateTransactionCommand)
    (transaction : Transaction) : Option CategoryId :=
  (command.given .categoryId command.categoryId).getD transaction.categoryId

structure Updated (command : UpdateRecurringRuleCommand) (today : Date) (row rule : RecurringRule) :
    Prop where
  id : rule.id = row.id
  userId : rule.userId = row.userId
  categoryId : rule.categoryId = row.categoryId
  endDate : rule.endDate = row.endDate
  status : command.newStatus row = .ok rule.status
  next : command.nextDate row today = some rule.nextFireDate

structure Rewrites (store : Store) (rule : RecurringRule) (after : Store) : Prop where
  rules : after.rules = store.rules.replace rule
  transactions : after.transactions = store.transactions
  categories : after.categories = store.categories

structure Revised (store : Store) (command : UpdateTransactionCommand) (row updated : Transaction) :
    Prop where
  valid : validateCategory store command.userId
    ((command.given .categoryId command.categoryId).getD none) = .ok ()
  id : updated.id = row.id
  userId : updated.userId = row.userId
  recurringRuleId : updated.recurringRuleId = row.recurringRuleId
  date : updated.date = command.newDate row
  categoryId : updated.categoryId = command.newCategory row

section

variable {store : Store} {today : Date} {now : Timestamp}

theorem insert_rule_cases (store : Store) (rule : RecurringRule) :
    store.insertRule rule = store ∨ ∃ rules, store.admitsRule rule = true ∧
      store.rules.insert rule = some rules ∧
      store.insertRule rule = { store with rules := rules } := by
  unfold Store.insertRule
  split
  · rename_i admitted
    split
    · exact .inl rfl
    · rename_i rules inserted
      exact .inr ⟨rules, admitted, inserted, rfl⟩
  · exact .inl rfl

theorem create_rule_cases (store : Store) (command : CreateRecurringRuleCommand)
    (id : RecurringRuleId) :
    (createRecurringRule store command id).2 = store ∨ ∃ amount firstFire rules,
      computeFirstFireDate command.startDate command.recurrence command.dayOfMonth
        command.dayOfWeek command.month = .ok firstFire ∧
      store.admitsRule (newRule command id amount firstFire) = true ∧
      store.rules.insert (newRule command id amount firstFire) = some rules ∧
      (createRecurringRule store command id).2 = { store with rules := rules } := by
  unfold createRecurringRule
  split
  · exact .inl rfl
  · rename_i amount valued
    split
    · exact .inl rfl
    · split
      · exact .inl rfl
      · rename_i firstFire first
        obtain same | ⟨rules, admitted, inserted, after⟩ :=
          insert_rule_cases store (newRule command id amount firstFire)
        · exact .inl same
        · exact .inr ⟨amount, firstFire, rules, first, admitted, inserted, after⟩

theorem write_rule_cases (store : Store) (rule : RecurringRule) :
    store.writeRule rule = store ∨ Rewrites store rule (store.writeRule rule) := by
  unfold Store.writeRule
  split
  · exact .inr ⟨rfl, rfl, rfl⟩
  · exact .inl rfl

theorem reschedule_edit (row : RecurringRule) (command : UpdateRecurringRuleCommand)
    (status : RecurringRuleStatus) (today : Date) :
    (row.edit command status).reschedule command today =
      (row.reschedule command today).map fun moved => moved.edit command status := by
  unfold RecurringRule.reschedule
  split
  · dsimp only [RecurringRule.edit]
    split
    · rfl
    · split <;> rfl
  · rfl

theorem reschedule_same {row moved : RecurringRule} {command : UpdateRecurringRuleCommand}
    (ok : row.reschedule command today = .ok moved) :
    SameRule moved row ∧ moved.endDate = row.endDate := by
  unfold RecurringRule.reschedule at ok
  split at ok
  · dsimp only at ok
    split at ok
    · cases ok
    · split at ok
      · cases ok
      · cases ok
        exact ⟨⟨rfl, rfl, rfl⟩, rfl⟩
  · cases ok
    exact ⟨⟨rfl, rfl, rfl⟩, rfl⟩

theorem update_rule_cases (store : Store) (command : UpdateRecurringRuleCommand) (today : Date)
    (now : Timestamp) :
    (updateRecurringRule store command today now).2 = store ∨ ∃ row rule,
      getRule store command.ruleId command.userId = some row ∧ Updated command today row rule ∧
      Rewrites store rule (updateRecurringRule store command today now).2 := by
  unfold updateRecurringRule
  split
  · exact .inl rfl
  · rename_i row found
    split
    · exact .inl rfl
    · rename_i status given
      rw [reschedule_edit]
      cases planned : row.reschedule command today with
      | error error =>
          cases error with
          | invalidSchedule error =>
              obtain same | rewrites := write_rule_cases store (row.edit command status)
              · exact .inl same
              · refine .inr ⟨row, row.edit command status, found, ⟨rfl, rfl, rfl, rfl, given, ?_⟩,
                rewrites⟩
                rw [UpdateRecurringRuleCommand.nextDate, planned]
                rfl
          | _ => exact .inl rfl
      | ok moved =>
          obtain ⟨same, ends⟩ := reschedule_same planned
          dsimp only [Except.map]
          split
          · obtain unwritten | rewrites := write_rule_cases store
              { moved.edit command status with updatedAt := some now }
            · exact .inl unwritten
            · refine .inr ⟨row, { moved.edit command status with updatedAt := some now }, found,
                ⟨same.id, same.userId, same.categoryId, ends, given, ?_⟩, rewrites⟩
              rw [UpdateRecurringRuleCommand.nextDate, planned]
              rfl
          · exact .inl rfl

theorem write_transaction_cases (store : Store) (transaction : Transaction) :
    store.writeTransaction transaction = store ∨
      store.admitsTransaction transaction = true ∧
        (store.writeTransaction transaction).rules = store.rules ∧
        (store.writeTransaction transaction).categories = store.categories ∧
        (store.writeTransaction transaction).transactions =
          store.transactions.replace transaction := by
  unfold Store.writeTransaction
  split
  · rename_i admitted
    split
    · exact .inr ⟨admitted, rfl, rfl, rfl⟩
    · exact .inl rfl
  · exact .inl rfl

theorem updated_transaction_eq_ok {command : UpdateTransactionCommand} {row updated : Transaction}
    (ok : updatedTransaction store command row = .ok updated) : Revised store command row updated := by
  unfold updatedTransaction at ok
  split at ok
  · cases ok
  · rename_i valid
    split at ok
    · cases ok
    · cases ok
      exact ⟨valid, rfl, rfl, rfl, rfl, rfl⟩

theorem update_transaction_cases (store : Store) (command : UpdateTransactionCommand) :
    (updateTransaction store command).2 = store ∨ ∃ row updated,
      getTransaction store command.transactionId command.userId = some row ∧
      Revised store command row updated ∧ store.admitsTransaction updated = true ∧
      (updateTransaction store command).2.rules = store.rules ∧
      (updateTransaction store command).2.categories = store.categories ∧
      (updateTransaction store command).2.transactions = store.transactions.replace updated := by
  unfold updateTransaction
  split
  · exact .inl rfl
  · split
    · exact .inl rfl
    · rename_i row found
      split
      · exact .inl rfl
      · split
        · exact .inl rfl
        · rename_i updated made
          obtain same | ⟨admitted, written⟩ := write_transaction_cases store updated
          · exact .inl same
          · exact .inr ⟨row, updated, found, updated_transaction_eq_ok made, admitted, written⟩

theorem commit_added_cases (store : Store) (session : Session) :
    store.commitAdded session = store ∨
      session.added.all store.admitsTransaction = true ∧
        Commits store session (store.commitAdded session) := by
  unfold Store.commitAdded
  split
  · rename_i admitted
    split
    · exact .inl rfl
    · rename_i after closed
      exact .inr ⟨admitted, commit_eq_ok closed⟩
  · exact .inl rfl

theorem update_start (store : Store) (entry : Transaction) :
    store.rules.update (Session.start.add entry).flushRule (Session.start.add entry).flushRule_id =
      store.rules := by
  have same : (Session.start.add entry).flushRule = id := rfl
  unfold Table.update
  congr 1
  exact (congrArg (store.rules.rows.map ·) same).trans (List.map_id _)

theorem create_transaction_cases (store : Store) (script : FireScript)
    (command : CreateTransactionCommand) :
    (createTransactionRequest store script command).2 = store ∨
      validateCategory store command.userId command.categoryId = .ok () ∧
      store.admitsTransaction (newTransaction command script) = true ∧
      (createTransactionRequest store script command).2.rules = store.rules ∧
      (createTransactionRequest store script command).2.transactions.rows =
        store.transactions.rows ++ [newTransaction command script] := by
  unfold createTransactionRequest
  split
  · exact .inl rfl
  · rename_i id session created
    obtain same | ⟨admitted, commits⟩ := commit_added_cases store session
    · exact .inl same
    · obtain ⟨_, ⟨_, other, _⟩ | ⟨_, _, added, valid⟩⟩ :=
        create_transaction_sound created commits.sound
      · cases other
      · subst added
        have all : store.admitsTransaction (newTransaction command script) = true := by
          simpa [Session.add, Session.start] using admitted
        exact .inr ⟨valid, all, commits.rules.trans (update_start store _), commits.appended⟩

end

end Yomochi.Recurring
