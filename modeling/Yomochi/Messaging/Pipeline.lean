import Yomochi.Insights.Effects
import Yomochi.Outbox.Contents

/-! The whole way of an insight: requests and reaper ticks append their events with the rows
they write, the relay publishes them, and any number of consumers handle what the broker
delivers, in any order and any number of times. -/

namespace Yomochi.Messaging

open Foundation Insights Outbox

structure InsightPayload where
  insightId : InsightId
  userId : UserId
  period : Period
  periodYear : Int
  periodMonth : Int
  deriving DecidableEq

abbrev Body := Message InsightPayload

/-- The event of `RequestInsightUseCase` and of `_reaper_tick` for an insight. -/
def insightRequested (insight : Insight) (now : Timestamp) : OutboxEvent InsightPayload where
  eventType := "InsightRequested"
  aggregateId := toString insight.id.value
  payload := ⟨insight.id, insight.userId, insight.period, insight.periodYear, insight.periodMonth⟩
  occurredAt := now
  userId := some insight.userId.value

def processCommand (body : Body) : ProcessInsightCommand :=
  ⟨body.payload.insightId, body.payload.userId⟩

structure PipelineConfig where
  worker : WorkerConfig
  poller : PollerConfig
  consumerMaxRetries : Nat

/-- Where a consumer is in `handle_insight_event`. While it is `running`, the worker of the
same number is inside `process_insight`. -/
inductive HandlerPhase
  | idle
  | received (body : Body)
  | running (body : Body)
  | settled (body : Body)
  | failed (body : Body) (error : String)
  | exhausted (body : Body) (error : String)
  | parked (body : Body)

def HandlerPhase.body : HandlerPhase → Option Body
  | .idle => none
  | .received body | .running body | .settled body | .failed body _ | .exhausted body _
  | .parked body => some body

/-- `{**body, "x_error": str(exc)}` -/
structure DeadLetter where
  body : Body
  xError : String

structure State where
  insights : Insights.State
  outbox : Outbox.State InsightPayload
  processed : List Uuid
  failures : Uuid → Nat
  deadLetters : List DeadLetter
  handlers : WorkerId → HandlerPhase

def State.start : State where
  insights := .start
  outbox := .start
  processed := []
  failures := fun _ => 0
  deadLetters := []
  handlers := fun _ => .idle

inductive Action
  | request (id : InsightId) (command : RequestInsightCommand) (now : Timestamp) (eventId : Uuid)
      (createdAt : Timestamp)
  | reaperTick (now occurredAt createdAt : Timestamp) (eventIds : List Uuid)
  | relay (action : Outbox.Action InsightPayload)
  | deliver (consumer : WorkerId) (published : Published InsightPayload)
  | isProcessed (consumer : WorkerId) (answered : Bool)
  | work (consumer : WorkerId) (action : Insights.Action)
  | settle (consumer : WorkerId) (metricsError : Option String)
  | markProcessed (consumer : WorkerId) (outcome : CommitOutcome)
  | incrementFailures (consumer : WorkerId) (outcome : CommitOutcome)
  | publishDeadLetter (consumer : WorkerId) (outcome : PublishOutcome)
  | crash (consumer : WorkerId)
  | expireProcessed (eventId : Uuid)
  | expireFailures (eventId : Uuid)

namespace State

def setHandler (s : State) (consumer : WorkerId) (phase : HandlerPhase) : State :=
  { s with handlers := Function.update s.handlers consumer phase }

def mark (s : State) (eventId : Uuid) : State := { s with processed := eventId :: s.processed }

def bury (s : State) (letter : DeadLetter) : State :=
  { s with deadLetters := s.deadLetters ++ [letter] }

def count (s : State) (eventId : Uuid) : State :=
  { s with failures := Function.update s.failures eventId (s.failures eventId + 1) }

end State

/-- The appends of events under the ids that the database gets to see them by. -/
def appends (createdAt : Timestamp) (events : List (OutboxEvent InsightPayload × Uuid)) :
    List (Outbox.Action InsightPayload) :=
  events.map fun event => .append event.1 event.2 createdAt

def request (config : PipelineConfig) (s : State) (id : InsightId)
    (command : RequestInsightCommand) (now : Timestamp) (eventId : Uuid) (createdAt : Timestamp) :
    Option State :=
  match Insights.step config.worker s.insights (.request id command now),
    run (Outbox.step config.poller) s.outbox
      (appends createdAt [(insightRequested (newInsight id command now) now, eventId)]) with
  | some insights, some outbox => some { s with insights := insights, outbox := outbox }
  | _, _ => none

def requeuedRows (config : PipelineConfig) (s : State) (now : Timestamp) : List InsightRow :=
  s.insights.rows.rows.filter (requeueable config.worker.maxRetries now)

/-- `_reaper_tick`: both UPDATEs and the events of the requeued rows in one transaction. -/
def reaperTick (config : PipelineConfig) (s : State) (now occurredAt createdAt : Timestamp)
    (eventIds : List Uuid) : Option State :=
  let events := (requeuedRows config s now).map fun row => insightRequested row occurredAt
  if eventIds.length ≠ events.length then none
  else
    match run (Insights.step config.worker) s.insights [.requeueExpired now, .failExhausted now],
      run (Outbox.step config.poller) s.outbox (appends createdAt (events.zip eventIds)) with
    | some insights, some outbox => some { s with insights := insights, outbox := outbox }
    | _, _ => none

def foreign : Outbox.Action InsightPayload → Bool
  | .append event _ _ => event.eventType ≠ "InsightRequested"
  | _ => true

/-- A step of the relay, its operators or the purge, or another use case that appends an event
of its own type. -/
def relay (config : PipelineConfig) (s : State) (action : Outbox.Action InsightPayload) :
    Option State :=
  if foreign action then
    (Outbox.step config.poller s.outbox action).map fun outbox => { s with outbox := outbox }
  else none

def deliver (s : State) (consumer : WorkerId) (published : Published InsightPayload) :
    Option State :=
  match s.handlers consumer with
  | .idle =>
      if published ∈ s.outbox.published then
        some (s.setHandler consumer (.received published.message))
      else none
  | _ => none

/-- The duplicate test, and what `handle_insight_event` turns to when the event is new. -/
def isProcessed (s : State) (consumer : WorkerId) (answered : Bool) : Option State :=
  match s.handlers consumer with
  | .received body =>
      if !answered || s.processed.contains body.eventId then some (s.setHandler consumer .idle)
      else if body.eventType = "InsightRequested" then
        (Insights.call s.insights consumer (processCommand body)).map fun insights =>
          ({ s with insights := insights } : State).setHandler consumer (.running body)
      else some (s.setHandler consumer (.settled body))
  | _ => none

def work (config : PipelineConfig) (s : State) (consumer : WorkerId) (action : Insights.Action) :
    Option State :=
  match s.handlers consumer with
  | .running _ =>
      if action.inside = some consumer then
        (Insights.step config.worker s.insights action).map fun insights =>
          { s with insights := insights }
      else none
  | _ => none

/-- The end of `process_insight`: a missing insight counts as handled, and recording the
metrics may fail. -/
def settle (s : State) (consumer : WorkerId) (metricsError : Option String) : Option State :=
  match s.handlers consumer with
  | .running body =>
      (Insights.finish s.insights consumer).bind fun insights =>
        let left := ({ s with insights := insights } : State)
        match s.insights.workers consumer with
        | .raised (.insightNotFound _) => some (left.setHandler consumer (.settled body))
        | .raised (.raised message) => some (left.setHandler consumer (.failed body message))
        | _ =>
            match metricsError with
            | some error => some (left.setHandler consumer (.failed body error))
            | none => some (left.setHandler consumer (.settled body))
  | _ => none

/-- Both calls of `mark_processed`. The first one is inside the `try`. -/
def markProcessed (s : State) (consumer : WorkerId) (outcome : CommitOutcome) : Option State :=
  match s.handlers consumer, outcome with
  | .settled body, .committed => some ((s.mark body.eventId).setHandler consumer .idle)
  | .settled body, .raised true error =>
      some ((s.mark body.eventId).setHandler consumer (.failed body error))
  | .settled body, .raised false error => some (s.setHandler consumer (.failed body error))
  | .parked _, .raised false _ => some (s.setHandler consumer .idle)
  | .parked body, _ => some ((s.mark body.eventId).setHandler consumer .idle)
  | _, _ => none

/-- `increment_failures`: below the limit the exception is raised again. -/
def incrementFailures (config : PipelineConfig) (s : State) (consumer : WorkerId)
    (outcome : CommitOutcome) : Option State :=
  match s.handlers consumer with
  | .failed body error =>
      match outcome with
      | .committed =>
          if s.failures body.eventId + 1 ≥ config.consumerMaxRetries then
            some ((s.count body.eventId).setHandler consumer (.exhausted body error))
          else some ((s.count body.eventId).setHandler consumer .idle)
      | .raised true _ => some ((s.count body.eventId).setHandler consumer .idle)
      | .raised false _ => some (s.setHandler consumer .idle)
  | _ => none

def publishDeadLetter (s : State) (consumer : WorkerId) (outcome : PublishOutcome) :
    Option State :=
  match s.handlers consumer with
  | .exhausted body error =>
      match outcome with
      | .returned => some ((s.bury ⟨body, error⟩).setHandler consumer (.parked body))
      | .raised true _ => some ((s.bury ⟨body, error⟩).setHandler consumer .idle)
      | .raised false _ => some (s.setHandler consumer .idle)
  | _ => none

def crash (s : State) (consumer : WorkerId) : State :=
  ({ s with insights := s.insights.setPhase consumer .idle } : State).setHandler consumer .idle

def step (config : PipelineConfig) (s : State) : Action → Option State
  | .request id command now eventId createdAt =>
      request config s id command now eventId createdAt
  | .reaperTick now occurredAt createdAt eventIds =>
      reaperTick config s now occurredAt createdAt eventIds
  | .relay action => relay config s action
  | .deliver consumer published => deliver s consumer published
  | .isProcessed consumer answered => isProcessed s consumer answered
  | .work consumer action => work config s consumer action
  | .settle consumer metricsError => settle s consumer metricsError
  | .markProcessed consumer outcome => markProcessed s consumer outcome
  | .incrementFailures consumer outcome => incrementFailures config s consumer outcome
  | .publishDeadLetter consumer outcome => publishDeadLetter s consumer outcome
  | .crash consumer => some (crash s consumer)
  | .expireProcessed eventId =>
      some { s with processed := s.processed.filter fun marked => marked ≠ eventId }
  | .expireFailures eventId => some { s with failures := Function.update s.failures eventId 0 }

end Yomochi.Messaging
