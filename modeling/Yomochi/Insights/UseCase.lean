import Yomochi.Insights.Effects

/-! One call of `ProcessInsightUseCase` from its beginning to its end, while nobody else writes
to its insight. -/

namespace Yomochi.Insights

open Foundation

structure ProcessScript where
  now : Timestamp
  claim : CommitOutcome
  buildContext : Except String ContextQuality
  generate : Except String InsightResponse
  completeRead : Except String (Timestamp × Option BudgetSummarySnapshot)
  completeCommit : CommitOutcome
  failureReadable : Bool
  failureCommit : CommitOutcome

abbrev ProcessOutcome := Except ProcessInsightError ProcessInsightResult

def saveRows (table : List InsightColumn) (id : InsightId) (loaded modified : Insight)
    (rows : InsightRows) : InsightRows :=
  rows.updateAt id (flush table loaded modified) (flush_id table loaded modified)

section

variable (config : WorkerConfig) (script : ProcessScript) (command : ProcessInsightCommand)

def claimRows (rows : InsightRows) : InsightRows :=
  rows.updateAt command.insightId (claimedRow config.table (config.deadline script.now))
    (claimedRow_id config.table (config.deadline script.now))

def committedRows (outcome : CommitOutcome) (loaded modified : Insight) (rows : InsightRows) :
    InsightRows :=
  if outcome.applied then saveRows config.table command.insightId loaded modified rows else rows

def recordFailure (error : String) (rows : InsightRows) : InsightRows :=
  match script.failureReadable,
    getById config.table rows command.insightId command.userId with
  | true, some fresh =>
      match fresh.markFailed error with
      | .error _ => rows
      | .ok failed =>
          committedRows config command script.failureCommit fresh failed rows
  | _, _ => rows

def commitCompleted (quality : ContextQuality) (loaded modified : Insight) (rows : InsightRows) :
    ProcessOutcome × InsightRows :=
  (match script.completeCommit with
    | .committed => .ok ⟨quality, false⟩
    | .raised _ message => .error (.raised message),
    committedRows config command script.completeCommit loaded modified rows)

def completeInsight (quality : ContextQuality) (response : InsightResponse)
    (rows : InsightRows) : ProcessOutcome × InsightRows :=
  match script.completeRead with
  | .error message => (.error (.raised message), rows)
  | .ok (now, budget) =>
      match getById config.table rows command.insightId command.userId with
      | none => (.error (.insightNotFound command.insightId), rows)
      | some fresh =>
          match fresh.markCompleted response.title response.description response.impactScore
              quality now budget with
          | .error error => (.error (.raised error.message), rows)
          | .ok completed => commitCompleted config script command quality fresh completed rows

def generateAndComplete (quality : ContextQuality) (rows : InsightRows) :
    ProcessOutcome × InsightRows :=
  match script.generate with
  | .error message => (.error (.raised message), rows)
  | .ok response => completeInsight config script command quality response rows

def runPipeline (rows : InsightRows) : ProcessOutcome × InsightRows :=
  match script.buildContext with
  | .error message => (.error (.raised message), rows)
  | .ok .NONE =>
      (.ok ⟨.NONE, false⟩, recordFailure config script command
        "No transaction data found for this period" rows)
  | .ok quality => generateAndComplete config script command quality rows

/-- The `except` block of `__call__`: the failure is recorded and raised again. -/
def recordRaised : ProcessOutcome × InsightRows → ProcessOutcome × InsightRows
  | (.ok result, rows) => (.ok result, rows)
  | (.error error, rows) =>
      (.error error, recordFailure config script command error.message rows)

def runClaimed (rows : InsightRows) : ProcessOutcome × InsightRows :=
  recordRaised config script command (runPipeline config script command rows)

def claimErrorOutcome : ClaimError → ProcessOutcome
  | .insightNotFound => .error (.insightNotFound command.insightId)
  | .insightAlreadyTerminal status => .ok ⟨if status = .FAILED then .NONE else .FULL, true⟩
  | .valueError error => .error (.raised error.message)

def processInsight (rows : InsightRows) : ProcessOutcome × InsightRows :=
  match claimForProcessing config.table (selectInsight rows command.insightId command.userId)
      (config.deadline script.now) with
  | .error error =>
      match script.claim with
      | .committed => (claimErrorOutcome command error, rows)
      | .raised _ message => (.error (.raised message), rows)
  | .ok _ =>
      match script.claim with
      | .committed =>
          runClaimed config script command (claimRows config script command rows)
      | .raised true message =>
          (.error (.raised message), claimRows config script command rows)
      | .raised false message => (.error (.raised message), rows)

end

/-- The worker gets to `phase`, and the table to `rows`, by steps inside `__call__`. -/
def Reaches (config : WorkerConfig) (worker : WorkerId) (s : State) (phase : Phase)
    (rows : InsightRows) : Prop :=
  ∃ actions t, (∀ a ∈ actions, a.inside = some worker) ∧
    run (step config) s actions = some t ∧ t.workers worker = phase ∧ t.rows = rows

section

variable {config : WorkerConfig} {script : ProcessScript} {command : ProcessInsightCommand}
  {worker : WorkerId} {s t : State} {phase : Phase} {rows : InsightRows}

theorem reaches_refl : Reaches config worker s (s.workers worker) s.rows :=
  ⟨[], s, by simp, rfl, rfl, rfl⟩

theorem reaches_step {a : Action} (inside : a.inside = some worker)
    (taken : step config s a = some t) (rest : Reaches config worker t phase rows) :
    Reaches config worker s phase rows := by
  obtain ⟨actions, u, all, reached, ended⟩ := rest
  refine ⟨a :: actions, u, ?_, run_cons_eq_some.mpr ⟨t, taken, reached⟩, ended⟩
  intro b member
  rcases List.mem_cons.mp member with rfl | later
  · exact inside
  · exact all b later

@[simp] theorem set_phase_worker : (s.setPhase worker phase).workers worker = phase := by
  simp [State.setPhase]

theorem reaches_last {a : Action} (inside : a.inside = some worker)
    (taken : step config s a = some (t.setPhase worker phase)) :
    Reaches config worker s phase t.rows := by
  have here : Reaches config worker (t.setPhase worker phase)
      ((t.setPhase worker phase).workers worker) t.rows := reaches_refl
  rw [set_phase_worker] at here
  exact reaches_step inside taken here

theorem recording_reaches (outcome : CommitOutcome) {loaded modified : Insight}
    {afterwards : Afterwards}
    (recording : s.workers worker = .recording command loaded modified afterwards) :
    Reaches config worker s afterwards.phase
      (committedRows config command outcome loaded modified s.rows) := by
  have written : step config s (.failureCommit worker outcome) =
      failureCommit config s worker outcome := rfl
  simp only [failureCommit, recording] at written
  cases outcome with
  | committed => exact reaches_last rfl written
  | raised applied message =>
      cases applied with
      | true => exact reaches_last rfl written
      | false => exact reaches_last rfl written

theorem failure_reaches (script : ProcessScript) {error : String} {afterwards : Afterwards}
    (failing : s.workers worker = .failing command error afterwards) :
    Reaches config worker s afterwards.phase (recordFailure config script command error s.rows) := by
  -- Without a change there is no commit.
  have unchanged (skipped : step config s (.failureRead worker script.failureReadable) =
      some (s.setPhase worker afterwards.phase)) :
      Reaches config worker s afterwards.phase s.rows := reaches_last rfl skipped
  unfold recordFailure
  simp only [step, failureRead, failing] at unchanged
  cases readable : script.failureReadable with
  | false =>
      rw [readable] at unchanged
      exact unchanged rfl
  | true =>
      rw [readable] at unchanged
      cases got : getById config.table s.rows command.insightId command.userId with
      | none =>
          rw [got] at unchanged
          exact unchanged rfl
      | some fresh =>
          cases marked : fresh.markFailed error with
          | error refused =>
              rw [got] at unchanged
              simp only [marked] at unchanged
              simpa [marked] using unchanged
          | ok failed =>
              have read : step config s (.failureRead worker true) =
                  some (s.setPhase worker (.recording command fresh failed afterwards)) := by
                simp [step, failureRead, failing, got, marked]
              simp only [marked]
              exact reaches_step rfl read (recording_reaches script.failureCommit set_phase_worker)

theorem failed_reaches {a : Action} (script : ProcessScript) {error : String}
    {afterwards : Afterwards} (inside : a.inside = some worker)
    (taken : step config s a = some (t.setPhase worker (.failing command error afterwards))) :
    Reaches config worker s afterwards.phase (recordFailure config script command error t.rows) :=
  reaches_step inside taken (failure_reaches script set_phase_worker)

def outcomePhase : ProcessOutcome → Phase
  | .ok result => .returned result
  | .error error => .raised error

def Ends (config : WorkerConfig) (worker : WorkerId) (s : State)
    (ended : ProcessOutcome × InsightRows) : Prop :=
  Reaches config worker s (outcomePhase ended.1) ended.2

theorem completing_reaches (script : ProcessScript) {quality : ContextQuality}
    {loaded modified : Insight}
    (completing : s.workers worker = .completing command quality loaded modified) :
    Ends config worker s (recordRaised config script command
      (commitCompleted config script command quality loaded modified s.rows)) := by
  have written : step config s (.completeCommit worker script.completeCommit) =
      completeCommit config s worker script.completeCommit := rfl
  simp only [completeCommit, completing] at written
  unfold commitCompleted
  cases outcome : script.completeCommit with
  | committed =>
      rw [outcome] at written
      exact reaches_last rfl written
  | raised applied message =>
      rw [outcome] at written
      cases applied with
      | true => exact failed_reaches script rfl written
      | false => exact failed_reaches script rfl written

theorem complete_reaches (script : ProcessScript) {quality : ContextQuality}
    {response : InsightResponse}
    (answered : s.workers worker = .answered command quality response) :
    Ends config worker s (recordRaised config script command
      (completeInsight config script command quality response s.rows)) := by
  have read : step config s (.completeRead worker script.completeRead) =
      completeRead config s worker script.completeRead := rfl
  simp only [completeRead, answered] at read
  unfold completeInsight
  cases asked : script.completeRead with
  | error message =>
      rw [asked] at read
      exact failed_reaches script rfl read
  | ok answer =>
      obtain ⟨now, budget⟩ := answer
      rw [asked] at read
      cases got : getById config.table s.rows command.insightId command.userId with
      | none =>
          simp only [got] at read ⊢
          exact failed_reaches script rfl read
      | some fresh =>
          simp only [got] at read ⊢
          cases marked : fresh.markCompleted response.title response.description
              response.impactScore quality now budget with
          | error refused =>
              simp only [marked] at read ⊢
              exact failed_reaches script rfl read
          | ok completed =>
              simp only [marked] at read ⊢
              apply reaches_step rfl read
              exact completing_reaches script set_phase_worker

theorem assembled_reaches (script : ProcessScript) {quality : ContextQuality}
    (assembled : s.workers worker = .assembled command quality) :
    Ends config worker s (recordRaised config script command
      (generateAndComplete config script command quality s.rows)) := by
  have asked : step config s (.generate worker script.generate) =
      generate s worker script.generate := rfl
  simp only [generate, assembled] at asked
  unfold generateAndComplete
  cases answer : script.generate with
  | error message =>
      rw [answer] at asked
      exact failed_reaches script rfl asked
  | ok response =>
      rw [answer] at asked
      exact reaches_step rfl asked (complete_reaches script set_phase_worker)

theorem claimed_reaches (script : ProcessScript) (claimed : s.workers worker = .claimed command) :
    Ends config worker s (runClaimed config script command s.rows) := by
  have built : step config s (.buildContext worker script.buildContext) =
      buildContext s worker script.buildContext := rfl
  simp only [buildContext, claimed] at built
  unfold runClaimed runPipeline
  cases context : script.buildContext with
  | error message =>
      rw [context] at built
      exact failed_reaches script rfl built
  | ok quality =>
      rw [context] at built
      cases quality with
      | NONE => exact failed_reaches script rfl built
      | PARTIAL => exact reaches_step rfl built (assembled_reaches script set_phase_worker)
      | FULL => exact reaches_step rfl built (assembled_reaches script set_phase_worker)

/-- Alone with its insight, a worker that has been called does what `processInsight` says. -/
theorem process_insight_reaches (config : WorkerConfig) (script : ProcessScript)
    (called : s.workers worker = .called command) :
    Ends config worker s (processInsight config script command s.rows) := by
  have claimed : step config s (.claim worker script.now script.claim) =
      claim config s worker script.now script.claim := rfl
  simp only [claim, called] at claimed
  unfold processInsight
  cases found : claimForProcessing config.table
      (selectInsight s.rows command.insightId command.userId) (config.deadline script.now) with
  | error refused =>
      rw [found] at claimed
      cases outcome : script.claim with
      | committed =>
          rw [outcome] at claimed
          have phase : claimErrorPhase command refused =
              outcomePhase (claimErrorOutcome command refused) := by
            cases refused <;> rfl
          simp only [phase] at claimed
          exact reaches_last rfl claimed
      | raised applied message =>
          rw [outcome] at claimed
          exact reaches_last rfl claimed
  | ok row =>
      rw [found] at claimed
      cases outcome : script.claim with
      | committed =>
          rw [outcome] at claimed
          exact reaches_step rfl claimed (claimed_reaches script set_phase_worker)
      | raised applied message =>
          rw [outcome] at claimed
          cases applied with
          | true => exact reaches_last rfl claimed
          | false => exact reaches_last rfl claimed

end

section

variable {config : WorkerConfig} {command : ProcessInsightCommand} {rows : InsightRows}

theorem select_updateAt {f : InsightRow → InsightRow} (keeps : ∀ row, (f row).id = row.id)
    (owner : ∀ row, (f row).userId = row.userId) (id : InsightId) (userId : UserId) :
    selectInsight (rows.updateAt id f keeps) id userId = (selectInsight rows id userId).map f := by
  simp only [selectInsight, Table.get_updateAt, if_pos, Option.filter_map]
  congr 2
  funext row
  simp [owner]

def Unqueued (command : ProcessInsightCommand) (rows : InsightRows) : Prop :=
  ∃ row, selectInsight rows command.insightId command.userId = some row ∧ row.status ≠ .QUEUED

theorem committed_unqueued (outcome : CommitOutcome) {loaded modified : Insight}
    (finishes : Finishes loaded modified) (held : Unqueued command rows) :
    Unqueued command (committedRows config command outcome loaded modified rows) := by
  unfold committedRows
  split
  · obtain ⟨row, selected, _⟩ := held
    refine ⟨flush config.table loaded modified row, ?_, ?_⟩
    · rw [saveRows, select_updateAt _ (flush_userId finishes), selected, Option.map_some]
    · rw [flush_status config.statusMapped finishes]
      exact terminal_not_queued finishes.terminal
  · exact held

theorem record_failure_unqueued (script : ProcessScript) (error : String)
    (held : Unqueued command rows) :
    Unqueued command (recordFailure config script command error rows) := by
  unfold recordFailure
  split
  · split
    · exact held
    · rename_i marked
      exact committed_unqueued _ (mark_failed_finishes marked) held
  · exact held

/-- What a pipeline run on a claimed insight may end in. -/
structure PipelineEnd (command : ProcessInsightCommand) (ended : ProcessOutcome × InsightRows) :
    Prop where
  unqueued : Unqueued command ended.2
  found : ∀ id, ended.1 ≠ .error (.insightNotFound id)
  ran : ∀ result, ended.1 = .ok result → result.terminalSkip = false

theorem complete_insight_end (script : ProcessScript) (quality : ContextQuality)
    (response : InsightResponse) (held : Unqueued command rows) :
    PipelineEnd command (completeInsight config script command quality response rows) := by
  have raises (message : String) {after : InsightRows} (unqueued : Unqueued command after) :
      PipelineEnd command (.error (.raised message), after) :=
    ⟨unqueued, by simp, by simp⟩
  unfold completeInsight
  split
  · exact raises _ held
  · split
    · rename_i missing
      obtain ⟨row, selected, _⟩ := held
      simp [getById, selected] at missing
    · split
      · exact raises _ held
      · rename_i marked
        have after : Unqueued command
            (committedRows config command script.completeCommit _ _ rows) :=
          committed_unqueued script.completeCommit (mark_completed_finishes marked) held
        unfold commitCompleted
        cases outcome : script.completeCommit with
        | committed =>
            rw [outcome] at after
            exact ⟨after, by simp, by simp⟩
        | raised applied message =>
            rw [outcome] at after
            exact raises message after

theorem run_pipeline_end (script : ProcessScript) (held : Unqueued command rows) :
    PipelineEnd command (runPipeline config script command rows) := by
  unfold runPipeline
  split
  · exact ⟨held, by simp, by simp⟩
  · exact ⟨record_failure_unqueued script _ held, by simp, by simp⟩
  · unfold generateAndComplete
    split
    · exact ⟨held, by simp, by simp⟩
    · exact complete_insight_end script _ _ held

theorem record_raised_end (script : ProcessScript) {ended : ProcessOutcome × InsightRows}
    (before : PipelineEnd command ended) :
    PipelineEnd command (recordRaised config script command ended) := by
  obtain ⟨outcome, after⟩ := ended
  cases outcome with
  | ok result => exact before
  | error error => exact ⟨record_failure_unqueued script _ before.unqueued, before.found, before.ran⟩

theorem claim_rows_unqueued (script : ProcessScript) {row : InsightRow}
    (selected : selectInsight rows command.insightId command.userId = some row)
    (queued : row.status = .QUEUED) : Unqueued command (claimRows config script command rows) := by
  refine ⟨claimedRow config.table (config.deadline script.now) row, ?_, ?_⟩
  · rw [claimRows, select_updateAt _ (claimedRow_userId _), selected, Option.map_some]
  · rw [claimedRow_status config.statusMapped _ queued]
    decide

/-- A claimed insight stays so until the end of the call. -/
theorem run_claimed_end (config : WorkerConfig) (script : ProcessScript) {row : InsightRow}
    (selected : selectInsight rows command.insightId command.userId = some row)
    (queued : row.status = .QUEUED) :
    PipelineEnd command
      (runClaimed config script command (claimRows config script command rows)) :=
  record_raised_end script (run_pipeline_end script (claim_rows_unqueued script selected queued))

theorem process_missing {script : ProcessScript} (committed : script.claim = .committed)
    (missing : selectInsight rows command.insightId command.userId = none) :
    processInsight config script command rows =
      (.error (.insightNotFound command.insightId), rows) := by
  simp [processInsight, claimForProcessing, missing, committed, claimErrorOutcome]

theorem process_terminal {script : ProcessScript} {row : InsightRow}
    (committed : script.claim = .committed)
    (selected : selectInsight rows command.insightId command.userId = some row)
    (other : row.status ≠ .QUEUED) :
    processInsight config script command rows =
      (.ok ⟨if row.status = .FAILED then .NONE else .FULL, true⟩, rows) := by
  have refused : claimEntity (mapped config.table row) (config.deadline script.now) = _ :=
    claim_entity_other (config.deadline script.now) other
  simp [processInsight, claimForProcessing, selected, refused, committed, claimErrorOutcome]

theorem process_queued {script : ProcessScript} {row : InsightRow}
    (committed : script.claim = .committed)
    (selected : selectInsight rows command.insightId command.userId = some row)
    (queued : row.status = .QUEUED) :
    processInsight config script command rows =
      runClaimed config script command (claimRows config script command rows) := by
  have claimed : claimForProcessing config.table
      (selectInsight rows command.insightId command.userId) (config.deadline script.now) =
        .ok (claimedRow config.table (config.deadline script.now) row) :=
    claim_eq_ok.mpr ⟨row, selected, queued, rfl⟩
  simp only [processInsight, claimed, committed]

theorem process_claim_raised {script : ProcessScript} {applied : Bool} {message : String}
    (raised : script.claim = .raised applied message) :
    (processInsight config script command rows).1 = .error (.raised message) := by
  unfold processInsight
  rw [raised]
  split
  · rfl
  · cases applied <;> rfl

end

end Yomochi.Insights
