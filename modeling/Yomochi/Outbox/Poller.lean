import Mathlib.Logic.Function.Basic
import Yomochi.Foundation.Runs
import Yomochi.Foundation.Selection
import Yomochi.Outbox.Rows

/-! Any number of `OutboxPoller` runs, operator replays and purges on one outbox table. A
step is one statement of a poller's row transaction, its COMMIT, or a whole transaction of
another writer. -/

namespace Yomochi.Outbox

open Foundation

abbrev PollerId := Nat

structure PollerConfig where
  topicMap : String → Option String
  batchSize : Nat
  maxRetries : Nat

/-- How far the transaction of `_process_one` is, once it has locked its row. -/
inductive Stage
  | locked
  | relayed
  | quarantined (error : String) (now : Timestamp)
  deriving DecidableEq

/-- Where a poller is between two statements. `ids` are the rows of the batch still ahead. -/
inductive Phase (Payload : Type)
  | idle
  | between (ids : List Uuid)
  | inside (row : OutboxRow Payload) (stage : Stage) (ids : List Uuid)
  | failing (id : Uuid) (error : String) (ids : List Uuid)

/-- The row that the poller's open transaction has locked. -/
def Phase.holds {Payload : Type} : Phase Payload → Option Uuid
  | .inside row _ _ => some row.id
  | _ => none

structure State (Payload : Type) where
  rows : OutboxEvents Payload
  locks : Uuid → Option PollerId
  pollers : PollerId → Phase Payload
  published : List (Published Payload)
  /-- Every id that an append has committed, purged ones included. -/
  appended : List Uuid

def State.start {Payload : Type} : State Payload where
  rows := .empty
  locks := fun _ => none
  pollers := fun _ => .idle
  published := []
  appended := []

/-- What the producer answers. A raised publish may still have reached the broker. -/
inductive PublishOutcome
  | returned
  | raised (delivered : Bool) (error : String)
  deriving DecidableEq

structure RequeueFailed where
  ids : Option (List Uuid)
  eventType : Option String
  failedBefore : Option Timestamp
  limit : Option Nat
  dryRun : Bool

inductive Action (Payload : Type)
  | append (event : OutboxEvent Payload) (id : Uuid) (createdAt : Timestamp)
  | snapshotPendingIds (poller : PollerId) (answer : List (OutboxRow Payload))
  | lockRow (poller : PollerId) (contended : Bool)
  | lockRowError (poller : PollerId) (error : String)
  | publish (poller : PollerId) (outcome : PublishOutcome) (now : Timestamp)
  | commit (poller : PollerId) (outcome : CommitOutcome)
  | recordFailure (poller : PollerId) (now : Timestamp)
  | recordFailureError (poller : PollerId)
  | finish (poller : PollerId)
  | crash (poller : PollerId)
  | requeueFailed (request : RequeueFailed) (answer : List (OutboxRow Payload))
  | purgeSent (now : Timestamp) (answer : List (OutboxRow Payload))

section

variable {Payload : Type}

namespace State

def setPoller (s : State Payload) (poller : PollerId) (phase : Phase Payload) : State Payload :=
  { s with pollers := Function.update s.pollers poller phase }

def lock (s : State Payload) (id : Uuid) (poller : PollerId) : State Payload :=
  { s with locks := Function.update s.locks id (some poller) }

def unlock (s : State Payload) (id : Uuid) : State Payload :=
  { s with locks := Function.update s.locks id none }

def send (s : State Payload) (publication : Published Payload) : State Payload :=
  { s with published := s.published ++ [publication] }

def write (s : State Payload) (id : Uuid) (f : OutboxRow Payload → OutboxRow Payload)
    (keeps : ∀ row, (f row).id = row.id) : State Payload :=
  { s with rows := s.rows.updateAt id f keeps }

def WasPublished (s : State Payload) (id : Uuid) : Prop :=
  ∃ publication ∈ s.published, publication.message.eventId = id

end State

/-- `ORDER BY created_at` -/
def createdBefore (left right : OutboxRow Payload) : Bool :=
  decide (left.createdAt ≤ right.createdAt)

/-- `ORDER BY failed_at ASC NULLS LAST` -/
def failedBefore (left right : OutboxRow Payload) : Bool :=
  match left.failedAt, right.failedAt with
  | _, none => true
  | none, some _ => false
  | some l, some r => decide (l ≤ r)

def RequeueFailed.selects (request : RequeueFailed) (row : OutboxRow Payload) : Bool :=
  decide (row.status = .FAILED) &&
    (request.ids.all fun ids => ids.contains row.id) &&
    (request.eventType.all fun eventType => row.eventType == eventType) &&
    (request.failedBefore.all fun limit => row.failedAt.any fun at_ => decide (at_ < limit))

def outboxPurgeAfterDays : Nat := 7

def outboxPurgeBatchSize : Nat := 5000

def microsecondsPerDay : Nat := 24 * 60 * 60 * 1000000

def purgeable (now : Timestamp) (row : OutboxRow Payload) : Bool :=
  decide (row.status = .SENT) &&
    decide (row.occurredAt + outboxPurgeAfterDays * microsecondsPerDay < now)

/-- `SqlaOutboxRepository.append`, committed with the transaction of its aggregate. The id is
a new uuid7. -/
def append (s : State Payload) (event : OutboxEvent Payload) (id : Uuid)
    (createdAt : Timestamp) : Option (State Payload) :=
  if id ∈ s.appended then none
  else (s.rows.insert (newRow event id createdAt)).map fun rows =>
    { s with rows := rows, appended := id :: s.appended }

def snapshotPendingIds [DecidableEq Payload] (config : PollerConfig) (s : State Payload)
    (poller : PollerId) (answer : List (OutboxRow Payload)) : Option (State Payload) :=
  match s.pollers poller with
  | .idle =>
      if Selects s.rows.rows (fun row => row.status = .PENDING) createdBefore
          (some config.batchSize) answer then
        some (s.setPoller poller (.between (answer.map (·.id))))
      else none
  | _ => none

/-- `_lock_row`: FOR UPDATE SKIP LOCKED of the row if it is still PENDING. `contended` says
that a short transaction of another writer has the row locked just now. -/
def lockRow (s : State Payload) (poller : PollerId) (contended : Bool) :
    Option (State Payload) :=
  match s.pollers poller with
  | .between (id :: ids) =>
      if contended || (s.locks id).isSome then some (s.setPoller poller (.between ids))
      else
        match (s.rows.get id).filter fun row => row.status = .PENDING with
        | none => some (s.setPoller poller (.between ids))
        | some row => some ((s.lock row.id poller).setPoller poller (.inside row .locked ids))
  | _ => none

def lockRowError (s : State Payload) (poller : PollerId) (error : String) :
    Option (State Payload) :=
  match s.pollers poller with
  | .between (id :: ids) => some (s.setPoller poller (.failing id error ids))
  | _ => none

/-- The body of `_process_one` between the lock and the end of the transaction. -/
def publish (config : PollerConfig) (s : State Payload) (poller : PollerId)
    (outcome : PublishOutcome) (now : Timestamp) : Option (State Payload) :=
  match s.pollers poller with
  | .inside row .locked ids =>
      match config.topicMap row.eventType with
      | none =>
          some (s.setPoller poller
            (.inside row (.quarantined ("no topic for " ++ row.eventType) now) ids))
      | some topic =>
          match outcome with
          | .returned =>
              some ((s.send (publication topic row)).setPoller poller (.inside row .relayed ids))
          | .raised true error =>
              some (((s.send (publication topic row)).unlock row.id).setPoller poller
                (.failing row.id error ids))
          | .raised false error =>
              some ((s.unlock row.id).setPoller poller (.failing row.id error ids))
  | _ => none

def endTransaction (s : State Payload) (poller : PollerId) (id : Uuid)
    (f : OutboxRow Payload → OutboxRow Payload) (keeps : ∀ row, (f row).id = row.id)
    (ids : List Uuid) : CommitOutcome → State Payload
  | .committed => ((s.write id f keeps).unlock id).setPoller poller (.between ids)
  | .raised true error => ((s.write id f keeps).unlock id).setPoller poller (.failing id error ids)
  | .raised false error => (s.unlock id).setPoller poller (.failing id error ids)

def commit (s : State Payload) (poller : PollerId) (outcome : CommitOutcome) :
    Option (State Payload) :=
  match s.pollers poller with
  | .inside row .relayed ids =>
      some (endTransaction s poller row.id setSent setSent_id ids outcome)
  | .inside row (.quarantined error now) ids =>
      some (endTransaction s poller row.id (markFailed error now none)
        (markFailed_id error now none) ids outcome)
  | _ => none

/-- `_record_failure`: its FOR UPDATE waits for a locked row. -/
def recordFailureOf (config : PollerConfig) (s : State Payload) (poller : PollerId)
    (now : Timestamp) : Option (State Payload) :=
  match s.pollers poller with
  | .failing id error ids =>
      if (s.locks id).isSome then none
      else
        some ((s.write id (recordFailure config.maxRetries error now)
          (recordFailure_id config.maxRetries error now)).setPoller poller (.between ids))
  | _ => none

/-- `_record_failure` swallows its own errors. -/
def recordFailureError (s : State Payload) (poller : PollerId) : Option (State Payload) :=
  match s.pollers poller with
  | .failing _ _ ids => some (s.setPoller poller (.between ids))
  | _ => none

def finish (s : State Payload) (poller : PollerId) : Option (State Payload) :=
  match s.pollers poller with
  | .between [] => some (s.setPoller poller .idle)
  | _ => none

/-- The process dies; the database rolls its open transaction back. -/
def crash (s : State Payload) (poller : PollerId) : State Payload :=
  match (s.pollers poller).holds with
  | some id => (s.unlock id).setPoller poller .idle
  | none => s.setPoller poller .idle

/-- `requeue_failed`: one transaction that selects with SKIP LOCKED and then updates. -/
def requeueFailed [DecidableEq Payload] (s : State Payload) (request : RequeueFailed)
    (answer : List (OutboxRow Payload)) : Option (State Payload) :=
  if Selects s.rows.rows (fun row => request.selects row && (s.locks row.id).isNone)
      failedBefore request.limit answer then
    if request.dryRun then some s
    else
      some { s with
        rows := s.rows.updateWhere (fun row => (answer.map (·.id)).contains row.id) requeue
          requeue_id }
  else none

def purgeSent [DecidableEq Payload] (s : State Payload) (now : Timestamp)
    (answer : List (OutboxRow Payload)) : Option (State Payload) :=
  if Selects s.rows.rows (purgeable now) (fun _ _ => true) (some outboxPurgeBatchSize) answer then
    some { s with rows := s.rows.delete fun row => (answer.map (·.id)).contains row.id }
  else none

def step [DecidableEq Payload] (config : PollerConfig) (s : State Payload) :
    Action Payload → Option (State Payload)
  | .append event id createdAt => append s event id createdAt
  | .snapshotPendingIds poller answer => snapshotPendingIds config s poller answer
  | .lockRow poller contended => lockRow s poller contended
  | .lockRowError poller error => lockRowError s poller error
  | .publish poller outcome now => publish config s poller outcome now
  | .commit poller outcome => commit s poller outcome
  | .recordFailure poller now => recordFailureOf config s poller now
  | .recordFailureError poller => recordFailureError s poller
  | .finish poller => finish s poller
  | .crash poller => some (crash s poller)
  | .requeueFailed request answer => requeueFailed s request answer
  | .purgeSent now answer => purgeSent s now answer

end

end Yomochi.Outbox
