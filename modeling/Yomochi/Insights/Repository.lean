import Yomochi.Foundation.Table
import Yomochi.Insights.Insight

/-! `SqlaInsightRepository`: what its statements read and write, through the columns that the
entity is mapped to. -/

namespace Yomochi.Insights

open Foundation

inductive InsightColumn
  | id | userId | period | periodYear | periodMonth | status | contextQuality | title
  | description | impactScore | generatedAt | errorMessage | createdAt | updatedAt
  | budgetSummary | processingDeadline | retryCount
  deriving DecidableEq

/-- The columns of the `Table` that `map_insight` maps the entity to. -/
def insights : List InsightColumn :=
  [.id, .userId, .period, .periodYear, .periodMonth, .status, .contextQuality, .title,
    .description, .impactScore, .generatedAt, .errorMessage, .createdAt, .updatedAt,
    .budgetSummary]

/-- The mapping that the reaper takes for granted. -/
def insightsWithLease : List InsightColumn := insights ++ [.processingDeadline]

/-- A row of the database table, which has a column for every attribute of the entity. -/
abbrev InsightRow := Insight

abbrev InsightRows := Table Insight.id

/-- What passes the mapping on a load and on an INSERT. Without a column an attribute keeps
its class default, and the database column its server default; the two agree. -/
def mapped (table : List InsightColumn) (insight : Insight) : Insight :=
  { insight with
    processingDeadline :=
      if .processingDeadline ∈ table then insight.processingDeadline else none
    retryCount := if .retryCount ∈ table then insight.retryCount else 0 }

/-- A column takes the new value of a mapped attribute that has changed since the load. -/
def stored {Value : Type} [DecidableEq Value] (table : List InsightColumn)
    (column : InsightColumn) (loaded modified cell : Value) : Value :=
  if column ∈ table ∧ modified ≠ loaded then modified else cell

/-- The UPDATE by primary key that a commit sends for an object loaded and then modified. -/
def flush (table : List InsightColumn) (loaded modified : Insight) (row : InsightRow) :
    InsightRow where
  id := row.id
  userId := stored table .userId loaded.userId modified.userId row.userId
  period := stored table .period loaded.period modified.period row.period
  periodYear := stored table .periodYear loaded.periodYear modified.periodYear row.periodYear
  periodMonth := stored table .periodMonth loaded.periodMonth modified.periodMonth row.periodMonth
  status := stored table .status loaded.status modified.status row.status
  contextQuality :=
    stored table .contextQuality loaded.contextQuality modified.contextQuality row.contextQuality
  title := stored table .title loaded.title modified.title row.title
  description := stored table .description loaded.description modified.description row.description
  impactScore := stored table .impactScore loaded.impactScore modified.impactScore row.impactScore
  generatedAt := stored table .generatedAt loaded.generatedAt modified.generatedAt row.generatedAt
  errorMessage :=
    stored table .errorMessage loaded.errorMessage modified.errorMessage row.errorMessage
  createdAt := stored table .createdAt loaded.createdAt modified.createdAt row.createdAt
  updatedAt := stored table .updatedAt loaded.updatedAt modified.updatedAt row.updatedAt
  budgetSummary :=
    stored table .budgetSummary loaded.budgetSummary modified.budgetSummary row.budgetSummary
  processingDeadline :=
    stored table .processingDeadline loaded.processingDeadline modified.processingDeadline
      row.processingDeadline
  retryCount := stored table .retryCount loaded.retryCount modified.retryCount row.retryCount

@[simp] theorem flush_id (table : List InsightColumn) (loaded modified : Insight)
    (row : InsightRow) : (flush table loaded modified row).id = row.id := rfl

def selectInsight (rows : InsightRows) (id : InsightId) (userId : UserId) : Option InsightRow :=
  (rows.get id).filter fun row => row.userId = userId

def getById (table : List InsightColumn) (rows : InsightRows) (id : InsightId)
    (userId : UserId) : Option Insight :=
  (selectInsight rows id userId).map (mapped table)

inductive ClaimError
  | insightNotFound
  | insightAlreadyTerminal (status : InsightStatus)
  | valueError (error : ValueError)
  deriving DecidableEq, Repr

def claimEntity (insight : Insight) (deadline : Timestamp) : Except ClaimError Insight :=
  if insight.status ≠ .QUEUED then .error (.insightAlreadyTerminal insight.status)
  else
    match insight.markProcessing with
    | .error error => .error (.valueError error)
    | .ok processing => .ok { processing with processingDeadline := some deadline }

/-- `claim_for_processing` on the row that its SELECT .. FOR UPDATE has locked: the row as its
commit writes it. -/
def claimForProcessing (table : List InsightColumn) (found : Option InsightRow)
    (deadline : Timestamp) : Except ClaimError InsightRow :=
  match found with
  | none => .error .insightNotFound
  | some row =>
      match claimEntity (mapped table row) deadline with
      | .error error => .error error
      | .ok claimed => .ok (flush table (mapped table row) claimed row)

def maxRetriesExceededError : String := "max retries exceeded"

def expired (now : Timestamp) (row : InsightRow) : Bool :=
  decide (row.status = .PROCESSING) &&
    row.processingDeadline.any fun deadline => decide (deadline < now)

def requeueRow (now : Timestamp) (row : InsightRow) : InsightRow :=
  { row with
    status := .QUEUED
    retryCount := row.retryCount + 1
    processingDeadline := none
    updatedAt := some now }

@[simp] theorem requeueRow_id (now : Timestamp) (row : InsightRow) :
    (requeueRow now row).id = row.id := rfl

def exhaustRow (now : Timestamp) (row : InsightRow) : InsightRow :=
  { row with
    status := .FAILED
    errorMessage := some maxRetriesExceededError
    updatedAt := some now }

@[simp] theorem exhaustRow_id (now : Timestamp) (row : InsightRow) :
    (exhaustRow now row).id = row.id := rfl

def requeueable (maxRetries : Nat) (now : Timestamp) (row : InsightRow) : Bool :=
  expired now row && decide (row.retryCount < maxRetries)

def exhaustable (maxRetries : Nat) (now : Timestamp) (row : InsightRow) : Bool :=
  expired now row && decide (maxRetries ≤ row.retryCount)

def requeueExpired (maxRetries : Nat) (now : Timestamp) (rows : InsightRows) : InsightRows :=
  rows.updateWhere (requeueable maxRetries now) (requeueRow now) (requeueRow_id now)

def failExhausted (maxRetries : Nat) (now : Timestamp) (rows : InsightRows) : InsightRows :=
  rows.updateWhere (exhaustable maxRetries now) (exhaustRow now) (exhaustRow_id now)

def checkMaxRetries (maxRetries : Nat) : Except ValueError Unit :=
  if maxRetries < 1 then .error ⟨"max_retries must be >= 1, got " ++ toString maxRetries⟩
  else .ok ()

def reapExpiredProcessing (maxRetries : Nat) (now : Timestamp) (rows : InsightRows) :
    Except ValueError InsightRows :=
  (checkMaxRetries maxRetries).map fun _ =>
    failExhausted maxRetries now (requeueExpired maxRetries now rows)

@[simp] theorem mapped_id (table : List InsightColumn) (insight : Insight) :
    (mapped table insight).id = insight.id := rfl

@[simp] theorem mapped_status (table : List InsightColumn) (insight : Insight) :
    (mapped table insight).status = insight.status := rfl

@[simp] theorem stored_same {Value : Type} [DecidableEq Value] (table : List InsightColumn)
    (column : InsightColumn) (value cell : Value) : stored table column value value cell = cell := by
  simp [stored]

theorem status_mapped_insights : InsightColumn.status ∈ insights := by decide

theorem expired_processing {now : Timestamp} {row : InsightRow} (due : expired now row = true) :
    row.status = .PROCESSING := by
  simp only [expired, Bool.and_eq_true, decide_eq_true_eq] at due
  exact due.1

theorem selectInsight_eq_some {rows : InsightRows} {id : InsightId} {userId : UserId}
    {row : InsightRow} (selected : selectInsight rows id userId = some row) :
    rows.get id = some row ∧ row.userId = userId := by
  obtain ⟨found, owned⟩ := Option.filter_eq_some_iff.mp selected
  exact ⟨found, of_decide_eq_true owned⟩

theorem claim_entity_queued {insight : Insight} (deadline : Timestamp)
    (queued : insight.status = .QUEUED) :
    claimEntity insight deadline =
      .ok { insight with status := .PROCESSING, processingDeadline := some deadline } := by
  simp [claimEntity, Insight.markProcessing, queued]

theorem claim_entity_other {insight : Insight} (deadline : Timestamp)
    (other : insight.status ≠ .QUEUED) :
    claimEntity insight deadline = .error (.insightAlreadyTerminal insight.status) := by
  simp [claimEntity, other]

def claimedRow (table : List InsightColumn) (deadline : Timestamp) (row : InsightRow) :
    InsightRow :=
  flush table (mapped table row)
    { mapped table row with status := .PROCESSING, processingDeadline := some deadline } row

@[simp] theorem claimedRow_id (table : List InsightColumn) (deadline : Timestamp)
    (row : InsightRow) : (claimedRow table deadline row).id = row.id := rfl

theorem claim_eq_ok {table : List InsightColumn} {found : Option InsightRow}
    {deadline : Timestamp} {claimed : InsightRow} :
    claimForProcessing table found deadline = .ok claimed ↔
      ∃ row, found = some row ∧ row.status = .QUEUED ∧ claimed = claimedRow table deadline row := by
  cases found with
  | none => simp [claimForProcessing]
  | some row =>
      by_cases queued : row.status = .QUEUED
      · simp only [claimForProcessing, claim_entity_queued deadline
          (show (mapped table row).status = .QUEUED from queued)]
        simp [queued, claimedRow, eq_comm]
      · simp only [claimForProcessing, claim_entity_other deadline
          (show (mapped table row).status ≠ .QUEUED from queued)]
        simp [queued]

end Yomochi.Insights
