import Yomochi.Foundation.Table
import Yomochi.Values

/-! Rows of the `outbox_events` table and what the statements of the relay write to one row. -/

namespace Yomochi.Outbox

open Foundation

structure OutboxEvent (Payload : Type) where
  eventType : String
  aggregateId : String
  payload : Payload
  occurredAt : Timestamp
  userId : Option Uuid
  deriving DecidableEq

structure OutboxRow (Payload : Type) where
  id : Uuid
  eventType : String
  aggregateId : String
  payload : Payload
  status : OutboxStatus
  occurredAt : Timestamp
  createdAt : Timestamp
  userId : Option Uuid
  retryCount : Nat
  lastError : Option String
  failedAt : Option Timestamp
  deriving DecidableEq

abbrev OutboxEvents (Payload : Type) := Table (@OutboxRow.id Payload)

structure Message (Payload : Type) where
  eventId : Uuid
  eventType : String
  aggregateId : String
  userId : Option Uuid
  payload : Payload
  occurredAt : Timestamp
  deriving DecidableEq

structure Published (Payload : Type) where
  message : Message Payload
  topic : String
  key : Option Uuid
  deriving DecidableEq

variable {Payload : Type}

def newRow (event : OutboxEvent Payload) (id : Uuid) (createdAt : Timestamp) :
    OutboxRow Payload where
  id := id
  eventType := event.eventType
  aggregateId := event.aggregateId
  payload := event.payload
  status := .PENDING
  occurredAt := event.occurredAt
  createdAt := createdAt
  userId := event.userId
  retryCount := 0
  lastError := none
  failedAt := none

def buildMessage (row : OutboxRow Payload) : Message Payload where
  eventId := row.id
  eventType := row.eventType
  aggregateId := row.aggregateId
  userId := row.userId
  payload := row.payload
  occurredAt := row.occurredAt

def publication (topic : String) (row : OutboxRow Payload) : Published Payload :=
  ⟨buildMessage row, topic, row.userId⟩

/-- `error[:1000]` -/
def clip (error : String) : String := String.ofList (error.toList.take 1000)

def setSent (row : OutboxRow Payload) : OutboxRow Payload := { row with status := .SENT }

/-- `_mark_failed`: without a `count` the stored retry count stays. -/
def markFailed (error : String) (now : Timestamp) (count : Option Nat)
    (row : OutboxRow Payload) : OutboxRow Payload :=
  { row with
    status := .FAILED
    lastError := some (clip error)
    failedAt := some now
    retryCount := count.getD row.retryCount }

/-- The UPDATE of `_record_failure`. It is addressed by the id alone. -/
def recordFailure (maxRetries : Nat) (error : String) (now : Timestamp)
    (row : OutboxRow Payload) : OutboxRow Payload :=
  if row.retryCount + 1 ≥ maxRetries then markFailed error now (some (row.retryCount + 1)) row
  else { row with retryCount := row.retryCount + 1, lastError := some (clip error) }

def requeue (row : OutboxRow Payload) : OutboxRow Payload :=
  { row with status := .PENDING, retryCount := 0, lastError := none, failedAt := none }

structure Progress where
  status : OutboxStatus
  retryCount : Nat
  lastError : Option String
  failedAt : Option Timestamp
  deriving DecidableEq

def OutboxRow.progress (row : OutboxRow Payload) : Progress :=
  ⟨row.status, row.retryCount, row.lastError, row.failedAt⟩

@[simp] theorem newRow_id (event : OutboxEvent Payload) (id : Uuid) (createdAt : Timestamp) :
    (newRow event id createdAt).id = id := rfl

@[simp] theorem newRow_status (event : OutboxEvent Payload) (id : Uuid) (createdAt : Timestamp) :
    (newRow event id createdAt).status = .PENDING := rfl

@[simp] theorem publication_eventId (topic : String) (row : OutboxRow Payload) :
    (publication topic row).message.eventId = row.id := rfl

@[simp] theorem setSent_id (row : OutboxRow Payload) : (setSent row).id = row.id := rfl

@[simp] theorem markFailed_id (error : String) (now : Timestamp) (count : Option Nat)
    (row : OutboxRow Payload) : (markFailed error now count row).id = row.id := rfl

@[simp] theorem recordFailure_id (maxRetries : Nat) (error : String) (now : Timestamp)
    (row : OutboxRow Payload) : (recordFailure maxRetries error now row).id = row.id := by
  unfold recordFailure
  split <;> rfl

@[simp] theorem recordFailure_eventType (maxRetries : Nat) (error : String) (now : Timestamp)
    (row : OutboxRow Payload) :
    (recordFailure maxRetries error now row).eventType = row.eventType := by
  unfold recordFailure
  split <;> rfl

@[simp] theorem recordFailure_retryCount (maxRetries : Nat) (error : String) (now : Timestamp)
    (row : OutboxRow Payload) :
    (recordFailure maxRetries error now row).retryCount = row.retryCount + 1 := by
  unfold recordFailure
  split <;> rfl

/-- Recording a failure quarantines the row at the limit and otherwise keeps its status. -/
theorem recordFailure_status (maxRetries : Nat) (error : String) (now : Timestamp)
    (row : OutboxRow Payload) :
    (recordFailure maxRetries error now row).status =
      if row.retryCount + 1 ≥ maxRetries then .FAILED else row.status := by
  unfold recordFailure
  split <;> rfl

@[simp] theorem requeue_id (row : OutboxRow Payload) : (requeue row).id = row.id := rfl

end Yomochi.Outbox
