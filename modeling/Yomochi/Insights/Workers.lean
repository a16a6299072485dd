import Mathlib.Logic.Function.Basic
import Yomochi.Foundation.Runs
import Yomochi.Insights.Repository

/-! Any number of `ProcessInsightUseCase` workers, the reaper and new requests on one table
of insights. A step is one transaction, or one half of a transaction that reads a row without
a lock and writes it at its commit. -/

namespace Yomochi.Insights

open Foundation

abbrev WorkerId := Nat

structure WorkerConfig where
  table : List InsightColumn
  statusMapped : .status ∈ table
  maxRetries : Nat
  leaseMinutes : Nat

def microsecondsPerMinute : Nat := 60 * 1000000

def WorkerConfig.deadline (config : WorkerConfig) (now : Timestamp) : Timestamp :=
  now + config.leaseMinutes * microsecondsPerMinute

structure ProcessInsightCommand where
  insightId : InsightId
  userId : UserId
  deriving DecidableEq, Repr

structure ProcessInsightResult where
  contextQuality : ContextQuality
  terminalSkip : Bool := false
  deriving DecidableEq, Repr

inductive ProcessInsightError
  | insightNotFound (id : InsightId)
  | raised (message : String)
  deriving DecidableEq, Repr

/-- `str(exc)` -/
def ProcessInsightError.message : ProcessInsightError → String
  | .insightNotFound id => toString id.value
  | .raised message => message

inductive Afterwards
  | returns (result : ProcessInsightResult)
  | raises (error : ProcessInsightError)
  deriving DecidableEq, Repr

/-- Where a worker is in `__call__`. `completing` and `recording` are the transactions of
`complete_insight` and `record_failure` between their read and their commit. -/
inductive Phase
  | idle
  | called (command : ProcessInsightCommand)
  | claimed (command : ProcessInsightCommand)
  | assembled (command : ProcessInsightCommand) (quality : ContextQuality)
  | answered (command : ProcessInsightCommand) (quality : ContextQuality)
      (response : InsightResponse)
  | completing (command : ProcessInsightCommand) (quality : ContextQuality)
      (loaded modified : Insight)
  | failing (command : ProcessInsightCommand) (error : String) (afterwards : Afterwards)
  | recording (command : ProcessInsightCommand) (loaded modified : Insight)
      (afterwards : Afterwards)
  | returned (result : ProcessInsightResult)
  | raised (error : ProcessInsightError)
  deriving DecidableEq

def Afterwards.phase : Afterwards → Phase
  | .returns result => .returned result
  | .raises error => .raised error

/-- The insight that the worker has claimed and is still at work on. -/
def Phase.claimant : Phase → Option InsightId
  | .claimed command | .assembled command _ | .answered command _ _
  | .completing command _ _ _ | .failing command _ _ | .recording command _ _ _ =>
      some command.insightId
  | .idle | .called _ | .returned _ | .raised _ => none

def Phase.command : Phase → Option ProcessInsightCommand
  | .called command => some command
  | _ => none

/-- The claim has been made, or has found that there is nothing to claim. -/
def Phase.claimOver : Phase → Bool
  | .idle | .called _ | .raised (.raised _) => false
  | _ => true

structure Pending where
  insightId : InsightId
  loaded : Insight
  modified : Insight

def Phase.pending : Phase → Option Pending
  | .completing command _ loaded modified => some ⟨command.insightId, loaded, modified⟩
  | .recording command loaded modified _ => some ⟨command.insightId, loaded, modified⟩
  | _ => none

/-- The insight that the worker may still call the AI client for. -/
def Phase.mayGenerate : Phase → Option InsightId
  | .claimed command | .assembled command _ => some command.insightId
  | _ => none

/-- `holder`, `lease`, `claims` and `generated` are kept for the proofs: who claimed an insight
last and until when, how often it was claimed, and how often the AI client was called for it. -/
structure State where
  rows : InsightRows
  workers : WorkerId → Phase
  holder : InsightId → Option WorkerId
  lease : InsightId → Option Timestamp
  claims : InsightId → Nat
  generated : InsightId → Nat

def State.start : State where
  rows := .empty
  workers := fun _ => .idle
  holder := fun _ => none
  lease := fun _ => none
  claims := fun _ => 0
  generated := fun _ => 0

structure RequestInsightCommand where
  userId : UserId
  period : Period
  periodYear : Int
  periodMonth : Int
  deriving DecidableEq, Repr

inductive Action
  | request (id : InsightId) (command : RequestInsightCommand) (now : Timestamp)
  | call (worker : WorkerId) (command : ProcessInsightCommand)
  | claim (worker : WorkerId) (now : Timestamp) (outcome : CommitOutcome)
  | buildContext (worker : WorkerId) (outcome : Except String ContextQuality)
  | generate (worker : WorkerId) (outcome : Except String InsightResponse)
  | completeRead (worker : WorkerId)
      (outcome : Except String (Timestamp × Option BudgetSummarySnapshot))
  | completeCommit (worker : WorkerId) (outcome : CommitOutcome)
  | failureRead (worker : WorkerId) (readable : Bool)
  | failureCommit (worker : WorkerId) (outcome : CommitOutcome)
  | finish (worker : WorkerId)
  | crash (worker : WorkerId)
  | requeueExpired (now : Timestamp)
  | failExhausted (now : Timestamp)

namespace State

def setPhase (s : State) (worker : WorkerId) (phase : Phase) : State :=
  { s with workers := Function.update s.workers worker phase }

def write (s : State) (id : InsightId) (f : InsightRow → InsightRow)
    (keeps : ∀ row, (f row).id = row.id) : State :=
  { s with rows := s.rows.updateAt id f keeps }

def granted (s : State) (worker : WorkerId) (id : InsightId) (deadline : Timestamp) : State :=
  { s with
    holder := Function.update s.holder id (some worker)
    lease := Function.update s.lease id (some deadline)
    claims := Function.update s.claims id (s.claims id + 1) }

def countGenerate (s : State) (id : InsightId) : State :=
  { s with generated := Function.update s.generated id (s.generated id + 1) }

end State

def newInsight (id : InsightId) (command : RequestInsightCommand) (now : Timestamp) : Insight where
  id := id
  userId := command.userId
  period := command.period
  periodYear := command.periodYear
  periodMonth := command.periodMonth
  status := .PENDING
  contextQuality := none
  title := none
  description := none
  impactScore := none
  generatedAt := none
  errorMessage := none
  createdAt := now

def requestedRow (table : List InsightColumn) (id : InsightId) (command : RequestInsightCommand)
    (now : Timestamp) : Except ValueError InsightRow :=
  (newInsight id command now).markQueued.map (mapped table)

def request (config : WorkerConfig) (s : State) (id : InsightId)
    (command : RequestInsightCommand) (now : Timestamp) : Option State :=
  match requestedRow config.table id command now with
  | .error _ => none
  | .ok row => (s.rows.insert row).map fun rows => { s with rows := rows }

def call (s : State) (worker : WorkerId) (command : ProcessInsightCommand) : Option State :=
  match s.workers worker with
  | .idle => some (s.setPhase worker (.called command))
  | _ => none

def claimErrorPhase (command : ProcessInsightCommand) : ClaimError → Phase
  | .insightNotFound => .raised (.insightNotFound command.insightId)
  | .insightAlreadyTerminal status =>
      .returned ⟨if status = .FAILED then .NONE else .FULL, true⟩
  | .valueError error => .raised (.raised error.message)

def grant (config : WorkerConfig) (s : State) (worker : WorkerId) (id : InsightId)
    (now : Timestamp) : State :=
  (s.write id (claimedRow config.table (config.deadline now))
    (claimedRow_id config.table (config.deadline now))).granted worker id (config.deadline now)

/-- The whole transaction of `claim_insight`: its row lock is held to the commit. -/
def claim (config : WorkerConfig) (s : State) (worker : WorkerId) (now : Timestamp)
    (outcome : CommitOutcome) : Option State :=
  match s.workers worker with
  | .called command =>
      match claimForProcessing config.table
          (selectInsight s.rows command.insightId command.userId) (config.deadline now) with
      | .error error =>
          match outcome with
          | .committed => some (s.setPhase worker (claimErrorPhase command error))
          | .raised _ message => some (s.setPhase worker (.raised (.raised message)))
      | .ok _ =>
          match outcome with
          | .committed =>
              some ((grant config s worker command.insightId now).setPhase worker
                (.claimed command))
          | .raised true message =>
              some ((grant config s worker command.insightId now).setPhase worker
                (.raised (.raised message)))
          | .raised false message => some (s.setPhase worker (.raised (.raised message)))
  | _ => none

def buildContext (s : State) (worker : WorkerId) (outcome : Except String ContextQuality) :
    Option State :=
  match s.workers worker with
  | .claimed command =>
      match outcome with
      | .error message =>
          some (s.setPhase worker (.failing command message (.raises (.raised message))))
      | .ok .NONE =>
          some (s.setPhase worker (.failing command "No transaction data found for this period"
            (.returns ⟨.NONE, false⟩)))
      | .ok quality => some (s.setPhase worker (.assembled command quality))
  | _ => none

def generate (s : State) (worker : WorkerId) (outcome : Except String InsightResponse) :
    Option State :=
  match s.workers worker with
  | .assembled command quality =>
      match outcome with
      | .error message =>
          some ((s.countGenerate command.insightId).setPhase worker
            (.failing command message (.raises (.raised message))))
      | .ok response =>
          some ((s.countGenerate command.insightId).setPhase worker
            (.answered command quality response))
  | _ => none

def completeRead (config : WorkerConfig) (s : State) (worker : WorkerId)
    (outcome : Except String (Timestamp × Option BudgetSummarySnapshot)) : Option State :=
  match s.workers worker with
  | .answered command quality response =>
      match outcome with
      | .error message =>
          some (s.setPhase worker (.failing command message (.raises (.raised message))))
      | .ok (now, budget) =>
          match getById config.table s.rows command.insightId command.userId with
          | none =>
              let error := ProcessInsightError.insightNotFound command.insightId
              some (s.setPhase worker (.failing command error.message (.raises error)))
          | some fresh =>
              match fresh.markCompleted response.title response.description
                  response.impactScore quality now budget with
              | .error error =>
                  some (s.setPhase worker
                    (.failing command error.message (.raises (.raised error.message))))
              | .ok completed => some (s.setPhase worker (.completing command quality fresh completed))
  | _ => none

def completeCommit (config : WorkerConfig) (s : State) (worker : WorkerId)
    (outcome : CommitOutcome) : Option State :=
  match s.workers worker with
  | .completing command quality loaded modified =>
      match outcome with
      | .committed =>
          some ((s.write command.insightId (flush config.table loaded modified)
            (flush_id config.table loaded modified)).setPhase worker (.returned ⟨quality, false⟩))
      | .raised true message =>
          some ((s.write command.insightId (flush config.table loaded modified)
            (flush_id config.table loaded modified)).setPhase worker
              (.failing command message (.raises (.raised message))))
      | .raised false message =>
          some (s.setPhase worker (.failing command message (.raises (.raised message))))
  | _ => none

/-- The read of `record_failure`. Every error from here on is swallowed. -/
def failureRead (config : WorkerConfig) (s : State) (worker : WorkerId) (readable : Bool) :
    Option State :=
  match s.workers worker with
  | .failing command error afterwards =>
      match readable, getById config.table s.rows command.insightId command.userId with
      | false, _ => some (s.setPhase worker afterwards.phase)
      | true, none => some (s.setPhase worker afterwards.phase)
      | true, some fresh =>
          match fresh.markFailed error with
          | .error _ => some (s.setPhase worker afterwards.phase)
          | .ok failed => some (s.setPhase worker (.recording command fresh failed afterwards))
  | _ => none

def failureCommit (config : WorkerConfig) (s : State) (worker : WorkerId)
    (outcome : CommitOutcome) : Option State :=
  match s.workers worker with
  | .recording command loaded modified afterwards =>
      match outcome with
      | .raised false _ => some (s.setPhase worker afterwards.phase)
      | _ =>
          some ((s.write command.insightId (flush config.table loaded modified)
            (flush_id config.table loaded modified)).setPhase worker afterwards.phase)
  | _ => none

def finish (s : State) (worker : WorkerId) : Option State :=
  match s.workers worker with
  | .returned _ | .raised _ => some (s.setPhase worker .idle)
  | _ => none

/-- One UPDATE of the reaper, which has checked its `max_retries`. -/
def reap (config : WorkerConfig) (s : State) (update : Nat → InsightRows → InsightRows) :
    Option State :=
  match checkMaxRetries config.maxRetries with
  | .error _ => none
  | .ok () => some { s with rows := update config.maxRetries s.rows }

def step (config : WorkerConfig) (s : State) : Action → Option State
  | .request id command now => request config s id command now
  | .call worker command => call s worker command
  | .claim worker now outcome => claim config s worker now outcome
  | .buildContext worker outcome => buildContext s worker outcome
  | .generate worker outcome => generate s worker outcome
  | .completeRead worker outcome => completeRead config s worker outcome
  | .completeCommit worker outcome => completeCommit config s worker outcome
  | .failureRead worker readable => failureRead config s worker readable
  | .failureCommit worker outcome => failureCommit config s worker outcome
  | .finish worker => finish s worker
  | .crash worker => some (s.setPhase worker .idle)
  | .requeueExpired now => reap config s fun maxRetries => requeueExpired maxRetries now
  | .failExhausted now => reap config s fun maxRetries => failExhausted maxRetries now

/-- The worker whose claim is committed by this step, if it finds a QUEUED insight. -/
def Action.claims : Action → Option WorkerId
  | .claim worker _ outcome => if outcome.applied then some worker else none
  | _ => none

/-- The worker that reads, without a lock, the row that it is going to write last. -/
def Action.reads : Action → Option WorkerId
  | .completeRead worker _ | .failureRead worker _ => some worker
  | _ => none

def Action.commits : Action → Option WorkerId
  | .completeCommit worker outcome | .failureCommit worker outcome =>
      if outcome.applied then some worker else none
  | _ => none

def Action.inside : Action → Option WorkerId
  | .claim worker _ _ | .buildContext worker _ | .generate worker _ | .completeRead worker _
  | .completeCommit worker _ | .failureRead worker _ | .failureCommit worker _ => some worker
  | _ => none

def Action.worker : Action → Option WorkerId
  | .call worker _ | .claim worker _ _ | .buildContext worker _ | .generate worker _
  | .completeRead worker _ | .completeCommit worker _ | .failureRead worker _
  | .failureCommit worker _ | .finish worker | .crash worker => some worker
  | .request .. | .requeueExpired _ | .failExhausted _ => none

end Yomochi.Insights
