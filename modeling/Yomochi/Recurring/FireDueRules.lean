import Yomochi.Recurring.Session

/-! `FireDueRulesUseCase` in one session of the scheduler worker. -/

namespace Yomochi.Recurring

open Foundation

def batchLimit : Nat := 50

def maxBatches : Nat := 100

def fireCommand (rule : RecurringRule) : CreateTransactionCommand where
  userId := rule.userId
  amount := rule.amount
  date := rule.nextFireDate
  type := rule.type
  merchant := rule.merchant
  notes := rule.notes
  categoryId := rule.categoryId
  recurringRuleId := some rule.id

/-- A fired rule moves on, and pauses when its end is behind its next date. -/
def RecurringRule.moveTo (rule : RecurringRule) (next : Date) (now : Timestamp) : RecurringRule :=
  let moved := { rule with nextFireDate := next }
  if moved.endDate.any fun ended => decide (ended < next) then moved.pause now else moved

/-- `_fire`. Only what `create_transaction` raises is caught. -/
def fireRule (store : Store) (today : Date) (script : FireScript) (session : Session)
    (rule : RecurringRule) : Except JobError (Bool × Session) :=
  match createTransaction store script session (fireCommand rule) with
  | (.error _, session) => .ok (false, session)
  | (.ok _, session) =>
      match rule.nextAfter today with
      | .error error => .error (.schedule error)
      | .ok next => .ok (true, session.save (rule.moveTo next script.pausedAt))

/-- What one batch meets: the rows that its query selects, the rows that others hold, and the
calls of `_fire`. -/
structure BatchScript where
  answer : List RecurringRule
  heldElsewhere : RecurringRuleId → Bool
  calls : RecurringRuleId → FireScript

def fireAll (store : Store) (today : Date) (script : BatchScript) :
    List RecurringRule → List RecurringRuleId × Session →
      Except JobError (List RecurringRuleId × Session)
  | [], progress => .ok progress
  | rule :: rules, (failed, session) =>
      match fireRule store today (script.calls rule.id) session rule with
      | .error error => .error error
      | .ok (fired, session) =>
          fireAll store today script rules (if fired then failed else rule.id :: failed, session)

/-- The batch loop, on a script for exactly the batches that it runs. -/
def fireBatches (operand : StatusOperand) (store : Store) (today : Date) :
    Nat → List BatchScript → List RecurringRuleId × Session → Option (Except JobError Session)
  | 0, [], (_, session) => some (.ok session)
  | 0, _ :: _, _ => none
  | _ + 1, [], _ => none
  | batches + 1, script :: scripts, (failed, session) =>
      if session.aborted then if scripts.isEmpty then some (.error .storageError) else none
      else if ¬ FetchesDue operand store session script.heldElsewhere today batchLimit
        script.answer then none
      else
        let pending := (script.answer.map session.object).filter fun rule => rule.id ∉ failed
        -- An empty batch leaves nothing pending either.
        if pending.isEmpty then
          if scripts.isEmpty then some (.ok (session.lock script.answer)) else none
        else
          match fireAll store today script pending (failed, session.lock script.answer) with
          | .error error => if scripts.isEmpty then some (.error error) else none
          | .ok progress => fireBatches operand store today batches scripts progress

/-- `FireDueRulesUseCase.__call__` and the end of the session of its job, over a query for the
rules of any status. -/
def fireRulesOf (operand : StatusOperand) (store : Store) (today : Date)
    (scripts : List BatchScript) : Option (Except JobError Store) :=
  (fireBatches operand store today maxBatches scripts ([], .start)).map fun ended =>
    ended.bind (Session.commit store)

def fireDueRules (store : Store) (today : Date) (scripts : List BatchScript) :
    Option (Except JobError Store) :=
  fireRulesOf dueStatus store today scripts

end Yomochi.Recurring
