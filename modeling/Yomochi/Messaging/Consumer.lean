import Yomochi.Insights.Lease
import Yomochi.Insights.UseCase
import Yomochi.Messaging.Pipeline

/-! The deliveries of one event, one after the other: `handle_insight_event` with the use case
as its handler. -/

namespace Yomochi.Messaging

open Foundation Insights Outbox

structure Delivery where
  isProcessedError : Option String
  process : ProcessScript
  metricsError : Option String
  markProcessed : CommitOutcome
  incrementFailures : CommitOutcome
  publish : PublishOutcome
  markParked : CommitOutcome

/-- What happened to the event. An attempt whose claim is committed runs the pipeline. -/
inductive Entry
  | ranToEnd
  | failed (claimed : Bool)
  | deadLettered
  | marked
  deriving DecidableEq, Repr

/-- `log` is history, the latest entry first. -/
structure EventState where
  rows : InsightRows
  processed : Bool
  failures : Nat
  deadLetters : List DeadLetter
  log : List Entry

namespace EventState

def unseen (rows : InsightRows) : EventState := ⟨rows, false, 0, [], []⟩

def note (s : EventState) (entry : Entry) : EventState := { s with log := entry :: s.log }

def mark (s : EventState) : EventState := { s with processed := true }.note .marked

def count (s : EventState) : EventState := { s with failures := s.failures + 1 }

def bury (s : EventState) (letter : DeadLetter) : EventState :=
  { s with deadLetters := s.deadLetters ++ [letter] }.note .deadLettered

end EventState

abbrev Handled := Except String Unit × EventState

def markEvent (outcome : CommitOutcome) (s : EventState) : Handled :=
  match outcome with
  | .committed => (.ok (), s.mark)
  | .raised true error => (.error error, s.mark)
  | .raised false error => (.error error, s)

/-- The error that `process_insight` or the metrics behind it raise in the handler. An insight
that is missing counts as handled. -/
def raisedBy (metricsError : Option String) : ProcessOutcome → Option String
  | .ok _ => metricsError
  | .error (.insightNotFound _) => none
  | .error (.raised message) => some message

/-- The entry of an attempt; one that finds nothing to do has none. -/
def attemptEntry (claimed : Bool) : ProcessOutcome → Option Entry
  | .ok result => if result.terminalSkip then none else some .ranToEnd
  | .error (.insightNotFound _) => none
  | .error (.raised _) => some (.failed claimed)

section

variable (config : PipelineConfig) (body : Body) (d : Delivery) (s : EventState)

def insightRow (rows : InsightRows) : Option InsightRow :=
  selectInsight rows (processCommand body).insightId (processCommand body).userId

def claims : Bool :=
  decide (d.process.claim = .committed) &&
    (insightRow body s.rows).any fun row => decide (row.status = .QUEUED)

def process : ProcessOutcome × InsightRows :=
  processInsight config.worker d.process (processCommand body) s.rows

def attempted : EventState :=
  { s with
    rows := (process config body d s).2
    log := (attemptEntry (claims body d s) (process config body d s).1).toList ++ s.log }

def attempt : Handled :=
  if body.eventType = "InsightRequested" then
    match raisedBy d.metricsError (process config body d s).1 with
    | some error => (.error error, attempted config body d s)
    | none => markEvent d.markProcessed (attempted config body d s)
  else markEvent d.markProcessed s

/-- The `except` block: below the limit the exception is raised again. -/
def handleFailure (error : String) : Handled :=
  match d.incrementFailures with
  | .raised applied failed => (.error failed, if applied then s.count else s)
  | .committed =>
      if s.count.failures ≥ config.consumerMaxRetries then
        match d.publish with
        | .returned => markEvent d.markParked (s.count.bury ⟨body, error⟩)
        | .raised published failed =>
            (.error failed, if published then s.count.bury ⟨body, error⟩ else s.count)
      else (.error error, s.count)

def caught : Handled → Handled
  | (.ok (), t) => (.ok (), t)
  | (.error error, t) => handleFailure config body d t error

def handleInsightEvent : Handled :=
  match d.isProcessedError with
  | some error => (.error error, s)
  | none => if s.processed then (.ok (), s) else caught config body d (attempt config body d s)

end

/-- The broker may deliver the event any number of times. -/
def receive (config : PipelineConfig) (body : Body) (s : EventState) (d : Delivery) :
    Option EventState :=
  some (handleInsightEvent config body d s).2

/-- There has been a failed attempt, and neither a later one that ran the pipeline to its end
nor a dead letter. -/
def owed : List Entry → Bool
  | [] => false
  | .failed _ :: _ => true
  | .ranToEnd :: _ | .deadLettered :: _ => false
  | .marked :: older => owed older

/-- The event has been marked only when no failed attempt was owed. -/
def MarkedSettled : List Entry → Prop
  | [] => True
  | .marked :: older => owed older = false ∧ MarkedSettled older
  | .ranToEnd :: older | .failed _ :: older | .deadLettered :: older => MarkedSettled older

def pipelineRuns (log : List Entry) : Nat := log.count .ranToEnd + log.count (.failed true)

/-- Everything succeeds but the pipeline, which fails whenever the claim has been made. -/
def FailsAfterClaim (config : PipelineConfig) (body : Body) (s : EventState) (d : Delivery) :
    Prop :=
  d.isProcessedError = none ∧ d.process.claim = .committed ∧ d.metricsError = none ∧
    d.markProcessed = .committed ∧ d.incrementFailures = .committed ∧ d.publish = .returned ∧
    d.markParked = .committed ∧
    (claims body d s = true → ∃ message rows,
      runPipeline config.worker d.process (processCommand body)
        (claimRows config.worker d.process (processCommand body) s.rows) =
          (.error (.raised message), rows))

/-- The pipeline has run on as many deliveries as may fail, and the event is a dead letter. -/
def Parked (config : PipelineConfig) (body : Body) (s : EventState) : Prop :=
  pipelineRuns s.log = config.consumerMaxRetries ∧ s.processed = true ∧
    ∃ error, s.deadLetters = [⟨body, error⟩]

/-- An event whose insight is QUEUED and whose pipeline fails on every attempt ends as a dead
letter; and no event is marked while a failed attempt is owed. -/
def RetryContract (config : PipelineConfig) (body : Body) (rows : InsightRows)
    (deliveries : List Delivery) : Prop :=
  ((∃ row, insightRow body rows = some row ∧ row.status = .QUEUED) →
    1 ≤ config.consumerMaxRetries → config.consumerMaxRetries ≤ deliveries.length →
    Along (receive config body) (FailsAfterClaim config body) (.unseen rows) deliveries →
      ∃ s, run (receive config body) (.unseen rows) deliveries = some s ∧ Parked config body s) ∧
  Visits (receive config body) (fun s => MarkedSettled s.log) (.unseen rows) deliveries

/-- The delivery finds a failed attempt owed and an insight that it cannot claim any more, and
marks the event as if it had been handled. -/
def MarksOwed (body : Body) (s : EventState) (d : Delivery) : Prop :=
  d.isProcessedError = none ∧ s.processed = false ∧ owed s.log = true ∧
    d.process.claim = .committed ∧ d.markProcessed.applied = true ∧
    ∀ row ∈ insightRow body s.rows, row.status ≠ .QUEUED ∧ d.metricsError = none

instance (body : Body) (s : EventState) (d : Delivery) : Decidable (MarksOwed body s d) :=
  inferInstanceAs (Decidable (_ ∧ _ ∧ _ ∧ _ ∧ _ ∧ _))

section

variable {config : PipelineConfig} {body : Body} {s : EventState} {d : Delivery}

theorem attempt_entry_ran {outcome : ProcessOutcome} {claimed : Bool} {entry : Entry}
    (silent : raisedBy d.metricsError outcome = none)
    (noted : attemptEntry claimed outcome = some entry) : entry = .ranToEnd := by
  cases outcome with
  | ok result =>
      simp only [attemptEntry] at noted
      split at noted
      · cases noted
      · cases noted
        rfl
  | error error =>
      cases error with
      | insightNotFound id => cases noted
      | raised message => cases silent

theorem attempt_entry_unmarked (claimed : Bool) (outcome : ProcessOutcome) :
    attemptEntry claimed outcome ≠ some .marked := by
  cases outcome with
  | ok result =>
      simp only [attemptEntry]
      split <;> simp
  | error error => cases error <;> simp [attemptEntry]

/-- The attempt raises nothing and does nothing exactly when the claim is turned down. -/
theorem passes_iff (config : PipelineConfig) (body : Body) (s : EventState) (d : Delivery)
    (claimed : Bool) :
    (raisedBy d.metricsError (process config body d s).1 = none ∧
      attemptEntry claimed (process config body d s).1 = none) ↔
    d.process.claim = .committed ∧
      ∀ row ∈ insightRow body s.rows, row.status ≠ .QUEUED ∧ d.metricsError = none := by
  cases committed : d.process.claim with
  | raised applied message =>
      simp [process, process_claim_raised committed, raisedBy]
  | committed =>
      cases selected : insightRow body s.rows with
      | none =>
          simp [process, process_missing committed selected, raisedBy, attemptEntry]
      | some row =>
          by_cases queued : row.status = .QUEUED
          · have ended := run_claimed_end config.worker d.process selected queued
            simp only [process, process_queued committed selected queued]
            simp only [Option.mem_some_iff, forall_eq', queued, ne_eq, not_true, false_and,
              and_false, iff_false]
            rintro ⟨silent, unnoted⟩
            generalize runClaimed config.worker d.process (processCommand body) _ = result
              at ended silent unnoted
            obtain ⟨outcome, rows⟩ := result
            cases outcome with
            | ok result => simp [attemptEntry, ended.ran result rfl] at unnoted
            | error error =>
                cases error with
                | insightNotFound id => exact ended.found id rfl
                | raised message => cases silent
          · simp [process, process_terminal committed selected queued, raisedBy, attemptEntry, queued]

theorem settled_attempted :
    MarkedSettled (attempted config body d s).log ↔ MarkedSettled s.log := by
  unfold attempted
  cases noted : attemptEntry (claims body d s) (process config body d s).1 with
  | none => rfl
  | some entry =>
      cases entry with
      | marked => exact absurd noted (attempt_entry_unmarked _ _)
      | _ => rfl

theorem settled_mark (outcome : CommitOutcome) : MarkedSettled (markEvent outcome s).2.log ↔
    MarkedSettled s.log ∧ (outcome.applied = true → owed s.log = false) := by
  cases outcome with
  | committed => simp [markEvent, EventState.mark, EventState.note, MarkedSettled, and_comm,
      CommitOutcome.applied]
  | raised applied error =>
      cases applied <;> simp [markEvent, EventState.mark, EventState.note, MarkedSettled, and_comm,
        CommitOutcome.applied]

theorem settled_failure (error : String) :
    MarkedSettled (handleFailure config body d s error).2.log ↔ MarkedSettled s.log := by
  unfold handleFailure
  split
  · split <;> rfl
  · split
    · split
      · rw [settled_mark]
        exact ⟨fun both => both.1, fun settled => ⟨settled, fun _ => rfl⟩⟩
      · split <;> rfl
    · rfl

theorem settled_attempt (requested : body.eventType = "InsightRequested") :
    MarkedSettled (attempt config body d s).2.log ↔ MarkedSettled s.log ∧
      ¬ (owed s.log = true ∧ d.process.claim = .committed ∧ d.markProcessed.applied = true ∧
        ∀ row ∈ insightRow body s.rows, row.status ≠ .QUEUED ∧ d.metricsError = none) := by
  have passes := passes_iff config body s d (claims body d s)
  unfold attempt
  rw [if_pos requested]
  cases silent : raisedBy d.metricsError (process config body d s).1 with
  | some error =>
      rw [settled_attempted]
      simp only [silent, reduceCtorEq, false_and, false_iff] at passes
      exact ⟨fun settled => ⟨settled, fun marks => passes ⟨marks.2.1, marks.2.2.2⟩⟩,
        fun both => both.1⟩
  | none =>
      rw [settled_mark, settled_attempted]
      cases noted : attemptEntry (claims body d s) (process config body d s).1 with
      | none =>
          have turnedDown := passes.mp ⟨silent, noted⟩
          have same : (attempted config body d s).log = s.log := by simp [attempted, noted]
          rw [same]
          refine and_congr_right fun _ => ?_
          constructor
          · intro unowed marks
            rw [unowed marks.2.2.1] at marks
            cases marks.1
          · intro allowed applied
            refine Bool.eq_false_iff.mpr fun owing => ?_
            exact allowed ⟨owing, turnedDown.1, applied, turnedDown.2⟩
      | some entry =>
          have ran := attempt_entry_ran silent noted
          have unowed : owed (attempted config body d s).log = false := by
            simp [attempted, noted, ran, owed]
          refine and_congr_right fun _ => ⟨fun _ marks => ?_, fun _ _ => unowed⟩
          have unnoted := (passes.mpr ⟨marks.2.1, marks.2.2.2⟩).2
          rw [noted] at unnoted
          cases unnoted

theorem settled_caught (handled : Handled) :
    MarkedSettled (caught config body d handled).2.log ↔ MarkedSettled handled.2.log := by
  obtain ⟨result, t⟩ := handled
  cases result with
  | ok ended => rfl
  | error error => exact settled_failure error

/-- A delivery keeps the marks settled exactly when it does not mark an owed event. -/
theorem settled_handle (requested : body.eventType = "InsightRequested") :
    MarkedSettled (handleInsightEvent config body d s).2.log ↔
      MarkedSettled s.log ∧ ¬ MarksOwed body s d := by
  unfold handleInsightEvent MarksOwed
  cases asked : d.isProcessedError with
  | some error => simp
  | none =>
      cases seen : s.processed with
      | true => simp
      | false =>
          simp only [Bool.false_eq_true, if_false]
          rw [settled_caught, settled_attempt requested]
          simp

theorem first_failure (requested : body.eventType = "InsightRequested") {rows : InsightRows}
    (claimable : ∃ row, insightRow body rows = some row ∧ row.status = .QUEUED)
    (fails : FailsAfterClaim config body (.unseen rows) d) :
    ∃ message after, Unqueued (processCommand body) after ∧
      (handleInsightEvent config body d (.unseen rows)).2 =
        if 1 ≥ config.consumerMaxRetries then
          ⟨after, true, 1, [⟨body, message⟩], [.marked, .deadLettered, .failed true]⟩
        else ⟨after, false, 1, [], [.failed true]⟩ := by
  obtain ⟨answered, committed, -, -, counted, published, parked, raises⟩ := fails
  obtain ⟨row, selected, queued⟩ := claimable
  have claimed : claims body d (.unseen rows) = true := by
    simp [claims, committed, EventState.unseen, selected, queued]
  obtain ⟨message, raisedRows, raised⟩ := raises claimed
  have ended := run_claimed_end config.worker d.process selected queued
  have ran : process config body d (.unseen rows) = (.error (.raised message),
      recordFailure config.worker d.process (processCommand body) message raisedRows) := by
    rw [process, EventState.unseen, process_queued committed selected queued, runClaimed]
    exact congrArg (recordRaised config.worker d.process (processCommand body)) raised
  refine ⟨message, (process config body d (.unseen rows)).2, ?_, ?_⟩
  · rw [process, EventState.unseen, process_queued committed selected queued]
    exact ended.unqueued
  · have attempted : attempt config body d (.unseen rows) = (.error message,
        ⟨(process config body d (.unseen rows)).2, false, 0, [], [.failed true]⟩) := by
      simp only [attempt, requested, if_true, attempted, ran, raisedBy, attemptEntry, claimed]
      rfl
    simp only [handleInsightEvent, answered, attempted, caught, handleFailure, counted, published,
      parked]
    by_cases last : 1 ≥ config.consumerMaxRetries
    · have spent : EventState.failures (EventState.count
          ⟨(process config body d (.unseen rows)).2, false, 0, [], [.failed true]⟩) ≥
          config.consumerMaxRetries := last
      rw [if_pos spent, if_pos last]
      rfl
    · have left : ¬ EventState.failures (EventState.count
          ⟨(process config body d (.unseen rows)).2, false, 0, [], [.failed true]⟩) ≥
          config.consumerMaxRetries := last
      rw [if_neg left, if_neg last]
      rfl

theorem handle_processed (answered : d.isProcessedError = none) (seen : s.processed = true) :
    (handleInsightEvent config body d s).2 = s := by
  simp [handleInsightEvent, answered, seen]

theorem run_processed (seen : s.processed = true) {deliveries : List Delivery}
    (along : Along (receive config body) (FailsAfterClaim config body) s deliveries) :
    run (receive config body) s deliveries = some s := by
  induction deliveries with
  | nil => rfl
  | cons d deliveries ih =>
      have same : receive config body s d = some s :=
        congrArg some (handle_processed along.1.1 seen)
      exact run_cons_eq_some.mpr ⟨s, same, ih (along.2 s same)⟩

end

theorem receives (config : PipelineConfig) (body : Body) (s : EventState)
    (deliveries : List Delivery) : ∃ t, run (receive config body) s deliveries = some t := by
  induction deliveries generalizing s with
  | nil => exact ⟨s, rfl⟩
  | cons d deliveries ih =>
      obtain ⟨t, reached⟩ := ih (handleInsightEvent config body d s).2
      exact ⟨t, run_cons_eq_some.mpr ⟨_, rfl, reached⟩⟩

/-- The retry contract holds of a script of deliveries exactly when none of them marks the
event while a failed attempt is owed. -/
theorem retry_contract_iff (config : PipelineConfig) (body : Body) (rows : InsightRows)
    (deliveries : List Delivery) (requested : body.eventType = "InsightRequested") :
    RetryContract config body rows deliveries ↔
      Along (receive config body) (fun s d => ¬ MarksOwed body s d) (.unseen rows)
        deliveries := by
  obtain ⟨t, reached⟩ := receives config body (.unseen rows) deliveries
  have marks : Visits (receive config body) (fun s => MarkedSettled s.log) (.unseen rows)
      deliveries ↔
      Along (receive config body) (fun s d => ¬ MarksOwed body s d) (.unseen rows) deliveries := by
    refine visits_iff_along (I := fun _ => True) (fun _ _ _ _ _ => trivial) ?_ reached trivial trivial
    rintro s d _ ⟨⟩ - settled
    rw [settled_handle requested]
    exact and_iff_right settled
  refine ⟨fun contract => marks.mp contract.2, fun along => ⟨?_, marks.mpr along⟩⟩
  intro claimable limited enough fails
  cases deliveries with
  | nil => exact absurd (Nat.le_trans limited enough) (by simp)
  | cons first later =>
      obtain ⟨message, after, unqueued, handled⟩ := first_failure requested claimable fails.1
      by_cases last : 1 ≥ config.consumerMaxRetries
      · rw [if_pos last] at handled
        have taken : receive config body (.unseen rows) first = some _ := congrArg some handled
        refine ⟨_, run_cons_eq_some.mpr ⟨_, taken, run_processed rfl (fails.2 _ taken)⟩, ?_⟩
        have limit : config.consumerMaxRetries = 1 := by omega
        exact ⟨limit.symm, rfl, message, rfl⟩
      · rw [if_neg last] at handled
        have taken : receive config body (.unseen rows) first = some _ := congrArg some handled
        -- The second delivery is a terminal skip.
        cases later with
        | nil => exact absurd enough (by simpa using last)
        | cons second rest =>
            obtain ⟨answered, committed, measured, marked, -⟩ := (fails.2 _ taken).1
            obtain ⟨row, selected, other⟩ := unqueued
            refine absurd ?_ (along.2 _ taken).1
            refine ⟨answered, rfl, rfl, committed, by rw [marked]; rfl, ?_⟩
            intro found member
            cases selected.symm.trans member
            exact ⟨other, measured⟩

def retrying : PipelineConfig := ⟨insightWorker 3 15, workerConfig, 3⟩

def monthRows : InsightRows :=
  ⟨[{ newInsight ⟨7⟩ requestedMonth 0 with status := .QUEUED }], by decide⟩

def monthBody : Body :=
  buildMessage (newRow (insightRequested (newInsight ⟨7⟩ requestedMonth 0) 0) 1 0)

def contextFails : Delivery where
  isProcessedError := none
  process := ⟨10, .committed, .error "chunk mapping", .error "", .error "", .committed, true,
    .committed⟩
  metricsError := none
  markProcessed := .committed
  incrementFailures := .committed
  publish := .returned
  markParked := .committed

/-- The claim cannot be committed the first time; the second attempt finds no transactions. -/
def retriedClaim : List Delivery :=
  [{ contextFails with process := { contextFails.process with claim := .raised false "timeout" } },
    { contextFails with process := { contextFails.process with buildContext := .ok .NONE } }]

theorem retry_contract_retried_claim :
    RetryContract retrying monthBody monthRows retriedClaim :=
  (retry_contract_iff retrying monthBody monthRows retriedClaim rfl).mpr (by decide +kernel)

/-- The second delivery of three marks the event, and nothing is published. -/
theorem retry_contract_fails :
    ¬ ∀ (config : PipelineConfig) (body : Body) (rows : InsightRows) (deliveries : List Delivery),
      body.eventType = "InsightRequested" → RetryContract config body rows deliveries := by
  intro contract
  have skipped : (run (receive retrying monthBody) (.unseen monthRows)
      [contextFails, contextFails, contextFails]).map (fun s => (s.deadLetters.length, s.log)) =
      some (0, [.marked, .failed true]) := by
    decide +kernel
  obtain ⟨s, reached, ended⟩ := Option.map_eq_some_iff.mp skipped
  have visits := (contract retrying monthBody monthRows
    [contextFails, contextFails, contextFails] rfl).2
  have settled := visits_end visits reached
  rw [show s.log = _ from congrArg Prod.snd ended] at settled
  cases settled.1

end Yomochi.Messaging
