import Yomochi.Insights.Effects

/-! Crash recovery of claimed insights: the reaper finds a claim that was given up by the
deadline stored with it. -/

namespace Yomochi.Insights

open Foundation

def insightWorker (maxRetries leaseMinutes : Nat) : WorkerConfig :=
  ⟨insights, status_mapped_insights, maxRetries, leaseMinutes⟩

/-- A PROCESSING row carries the deadline that its claim set. -/
def LeaseStored (s : State) : Prop :=
  ∀ id row, s.rows.get id = some row → row.status = .PROCESSING →
    row.processingDeadline ≠ none ∧ row.processingDeadline = s.lease id

/-- One run of the reaper after all leases ends every claim. -/
def Recovers (maxRetries : Nat) (s : State) : Prop :=
  ∀ now rows, (∀ id deadline, s.lease id = some deadline → deadline < now) →
    reapExpiredProcessing maxRetries now s.rows = .ok rows →
    ∀ id row', rows.get id = some row' → row'.status ≠ .PROCESSING ∧
      ∀ row, s.rows.get id = some row → row.status = .PROCESSING →
        row'.status = .FAILED ∨ row'.status = .QUEUED ∧ row'.retryCount = row.retryCount + 1

def CrashRecovery (maxRetries : Nat) (s : State) : Prop := LeaseStored s ∧ Recovers maxRetries s

def NoClaim (s : State) (a : Action) : Prop :=
  ∀ worker ∈ a.claims, ∀ command ∈ (s.workers worker).command,
    ∀ row ∈ selectInsight s.rows command.insightId command.userId, row.status ≠ .QUEUED

/-- Over the mapped columns no statement ever stores a deadline. -/
structure NoDeadline (s : State) : Prop where
  finishes : PendingFinishes s
  null : ∀ id row, s.rows.get id = some row → row.processingDeadline = none

def NoProcessing (s : State) : Prop :=
  ∀ id row, s.rows.get id = some row → row.status ≠ .PROCESSING

theorem no_deadline_start : NoDeadline .start where
  finishes := pending_finishes_start
  null := by
    intro id row found
    cases found

theorem claimedRow_deadline (deadline : Timestamp) (row : InsightRow) :
    (claimedRow insights deadline row).processingDeadline = row.processingDeadline := by
  have unmapped : .processingDeadline ∉ insights := by decide
  simp [claimedRow, flush, stored, unmapped]

section

variable {maxRetries leaseMinutes : Nat} {s t : State} {a : Action}

theorem no_deadline_step (before : NoDeadline s)
    (effect : Effect (insightWorker maxRetries leaseMinutes) s a t) : NoDeadline t where
  finishes := pending_finishes_step before.finishes effect
  null := by
    intro id row found
    have change := row_change effect id
    rw [found] at change
    generalize stored : s.rows.get id = old at change
    cases change with
    | same => exact before.null id row stored
    | requested requests fresh => exact fresh.deadline
    | claimed claims called addressed owned queued =>
        exact (claimedRow_deadline _ _).trans (before.null id _ stored)
    | committed update commits open_ addressed =>
        exact (flush_deadline (before.finishes _ update open_) _).trans (before.null id _ stored)
    | requeued reaps due => rfl
    | @exhausted now old reaps due => exact before.null id old stored

theorem no_processing_step (before : NoDeadline s) (none_ : NoProcessing s)
    (guarded : NoClaim s a)
    (effect : Effect (insightWorker maxRetries leaseMinutes) s a t) : NoProcessing t := by
  intro id row found
  have change := row_change effect id
  rw [found] at change
  generalize stored : s.rows.get id = old at change
  cases change with
  | same => exact none_ id row stored
  | requested requests fresh => simp [fresh.queued]
  | @claimed worker now command old claims called addressed owned queued =>
      subst addressed
      have selected : selectInsight s.rows command.insightId command.userId = some old := by
        simp [selectInsight, stored, Option.filter, owned]
      exact absurd queued (guarded worker claims command called old selected)
  | committed update commits open_ addressed =>
      have finishes := before.finishes _ update open_
      rw [flush_status (insightWorker maxRetries leaseMinutes).statusMapped finishes]
      exact terminal_not_processing finishes.terminal
  | requeued => simp [requeueRow]
  | exhausted => simp [exhaustRow]

theorem no_processing_of_stored (before : NoDeadline s) (lease : LeaseStored s) :
    NoProcessing s :=
  fun id row found processing => (lease id row found processing).1 (before.null id row found)

theorem reap_eq_ok {now : Timestamp} {rows reaped : InsightRows}
    (ok : reapExpiredProcessing maxRetries now rows = .ok reaped) :
    reaped = failExhausted maxRetries now (requeueExpired maxRetries now rows) := by
  unfold reapExpiredProcessing at ok
  cases check : checkMaxRetries maxRetries with
  | error error => simp [check, Except.map] at ok
  | ok _ =>
      simp only [check, Except.map, Except.ok.injEq] at ok
      exact ok.symm

theorem reap_other {now : Timestamp} {row : InsightRow} (other : row.status ≠ .PROCESSING) :
    expired now row = false := by
  simp [expired, other]

theorem recovers_of_no_processing (none_ : NoProcessing s) : CrashRecovery maxRetries s := by
  refine ⟨fun id row found processing => absurd processing (none_ id row found), ?_⟩
  intro now rows later ok id row' found
  have unchanged : rows.get id = s.rows.get id := by
    rw [reap_eq_ok ok, failExhausted, requeueExpired, Table.get_updateWhere,
      Table.get_updateWhere]
    cases stored : s.rows.get id with
    | none => rfl
    | some row =>
        have live : expired now row = false := reap_other (none_ id row stored)
        simp [requeueable, exhaustable, live]
  rw [unchanged] at found
  exact ⟨none_ id row' found, fun row stored processing =>
    absurd processing (none_ id row stored)⟩

/-- A claim stores PROCESSING and no deadline. -/
theorem no_claim_of_stored (before : NoDeadline s)
    (taken : step (insightWorker maxRetries leaseMinutes) s a = some t) (after : LeaseStored t) :
    NoClaim s a := by
  intro worker claims command called row selected queued
  obtain ⟨now, outcome, rfl, applied⟩ := claims_eq_some claims
  obtain ⟨found, owned⟩ := selectInsight_eq_some selected
  have claimed := claim_grants taken applied (command_eq_some.mp called) selected queued
  have lease := (after command.insightId _ claimed
    (claimedRow_status status_mapped_insights _ queued)).1
  exact lease ((claimedRow_deadline _ row).trans (before.null command.insightId row found))

end

/-- Crash recovery holds throughout a run exactly when the run claims nothing: a claim over
the mapped columns stores no deadline for the reaper to find. -/
theorem crash_recovery_iff (maxRetries leaseMinutes : Nat) (actions : List Action) (s : State)
    (reached : run (step (insightWorker maxRetries leaseMinutes)) .start actions = some s) :
    Visits (step (insightWorker maxRetries leaseMinutes)) (CrashRecovery maxRetries) .start
        actions ↔
      Along (step (insightWorker maxRetries leaseMinutes)) NoClaim .start actions := by
  have none_at_start : NoProcessing .start := by
    intro id row found
    cases found
  refine visits_iff_along (fun _ _ _ taken before => no_deadline_step before (step_effect taken))
    ?_ reached no_deadline_start (recovers_of_no_processing none_at_start)
  intro s a t taken before recovery
  constructor
  · exact fun after => no_claim_of_stored before taken after.1
  · intro guarded
    have none_ := no_processing_of_stored before recovery.1
    exact recovers_of_no_processing (no_processing_step before none_ guarded (step_effect taken))

def requestedMonth : RequestInsightCommand := ⟨⟨3⟩, .MONTHLY, 2026, 5⟩

def claimRun : List Action :=
  [.request ⟨7⟩ requestedMonth 0, .call 0 ⟨⟨7⟩, ⟨3⟩⟩, .claim 0 10 .committed]

theorem claim_run_stores : (run (step (insightWorker 3 15)) .start claimRun).any (fun s =>
    (s.rows.get ⟨7⟩).any fun row =>
      row.status = .PROCESSING ∧ row.processingDeadline = none) = true := by
  decide +kernel

theorem crash_recovery_iff_claim_run :
    Visits (step (insightWorker 3 15)) (CrashRecovery 3) .start claimRun ↔
      Along (step (insightWorker 3 15)) NoClaim .start claimRun := by
  obtain ⟨s, reached, _⟩ := (Option.any_eq_true _ _).mp claim_run_stores
  exact crash_recovery_iff 3 15 claimRun s reached

/-- The claimed row of `claimRun` has no deadline. -/
theorem claim_not_recovered :
    ¬ ∀ (maxRetries leaseMinutes : Nat) (actions : List Action) (s : State),
      run (step (insightWorker maxRetries leaseMinutes)) .start actions = some s →
        CrashRecovery maxRetries s := by
  intro recovers
  obtain ⟨s, reached, held⟩ := (Option.any_eq_true _ _).mp claim_run_stores
  obtain ⟨row, found, facts⟩ := (Option.any_eq_true _ _).mp held
  obtain ⟨processing, null⟩ := of_decide_eq_true facts
  exact ((recovers 3 15 claimRun s reached).1 ⟨7⟩ row found processing).1 null

end Yomochi.Insights
