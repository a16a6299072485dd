import Yomochi.Insights.Workers

/-! What one step of the workers can do to the table, said once. -/

namespace Yomochi.Insights

open Foundation

/-- The only change that a worker makes to an entity it has loaded for its last write. -/
structure Finishes (loaded modified : Insight) : Prop where
  processing : loaded.status = .PROCESSING
  terminal : Terminal modified.status
  userId : modified.userId = loaded.userId
  deadline : modified.processingDeadline = loaded.processingDeadline
  retryCount : modified.retryCount = loaded.retryCount

theorem mark_completed_finishes {loaded modified : Insight} {title description : String}
    {impactScore : Int} {quality : ContextQuality} {generatedAt : Timestamp}
    {budget : Option BudgetSummarySnapshot}
    (marked : loaded.markCompleted title description impactScore quality generatedAt budget =
      .ok modified) : Finishes loaded modified := by
  obtain ⟨processing, _, _, rfl⟩ := mark_completed_eq_ok marked
  exact ⟨processing, .inl rfl, rfl, rfl, rfl⟩

theorem mark_failed_finishes {loaded modified : Insight} {error : String}
    (marked : loaded.markFailed error = .ok modified) : Finishes loaded modified := by
  obtain ⟨processing, rfl⟩ := mark_failed_eq_ok marked
  exact ⟨processing, .inr rfl, rfl, rfl, rfl⟩

theorem terminal_not_queued {status : InsightStatus} (terminal : Terminal status) :
    status ≠ .QUEUED := by
  rintro rfl
  rcases terminal with bad | bad <;> cases bad

theorem terminal_not_processing {status : InsightStatus} (terminal : Terminal status) :
    status ≠ .PROCESSING := by
  rintro rfl
  rcases terminal with bad | bad <;> cases bad

section

variable {table : List InsightColumn} {loaded modified : Insight}

/-- A last write stores the terminal status over whatever the row holds by then. -/
theorem flush_status (mapped : .status ∈ table) (finishes : Finishes loaded modified)
    (row : InsightRow) : (flush table loaded modified row).status = modified.status := by
  have changed : modified.status ≠ loaded.status := by
    rw [finishes.processing]
    exact terminal_not_processing finishes.terminal
  exact if_pos ⟨mapped, changed⟩

theorem flush_retryCount (finishes : Finishes loaded modified) (row : InsightRow) :
    (flush table loaded modified row).retryCount = row.retryCount := by
  simp [flush, finishes.retryCount]

theorem flush_deadline (finishes : Finishes loaded modified) (row : InsightRow) :
    (flush table loaded modified row).processingDeadline = row.processingDeadline := by
  simp [flush, finishes.deadline]

theorem flush_userId (finishes : Finishes loaded modified) (row : InsightRow) :
    (flush table loaded modified row).userId = row.userId := by
  simp [flush, finishes.userId]

theorem claimedRow_status (mapped_ : .status ∈ table) (deadline : Timestamp) {row : InsightRow}
    (queued : row.status = .QUEUED) : (claimedRow table deadline row).status = .PROCESSING := by
  simp [claimedRow, flush, stored, mapped_, queued]

theorem claimedRow_retryCount (deadline : Timestamp) (row : InsightRow) :
    (claimedRow table deadline row).retryCount = row.retryCount := by
  simp [claimedRow, flush]

theorem claimedRow_userId (deadline : Timestamp) (row : InsightRow) :
    (claimedRow table deadline row).userId = row.userId := by
  simp [claimedRow, flush]

end

structure Fresh (row : InsightRow) : Prop where
  queued : row.status = .QUEUED
  deadline : row.processingDeadline = none
  retryCount : row.retryCount = 0

inductive Effect (config : WorkerConfig) (s : State) : Action → State → Prop
  | requested {a} {row : InsightRow} {rows : InsightRows} (requests : a.worker = none)
      (fresh : Fresh row) (inserted : s.rows.insert row = some rows) : Effect config s a { s with rows := rows }
  | moved {a} {worker : WorkerId} {phase : Phase}
      (claimant : phase.claimant = none ∨ phase.claimant = (s.workers worker).claimant)
      (mayGenerate : phase.mayGenerate = none ∨
        phase.mayGenerate = (s.workers worker).mayGenerate)
      (pending : phase.pending = none) : Effect config s a (s.setPhase worker phase)
  | granted {a} {worker : WorkerId} {now : Timestamp} {command : ProcessInsightCommand}
      {row : InsightRow} {phase : Phase} (claims : a.claims = some worker)
      (called : (s.workers worker).command = some command)
      (selected : selectInsight s.rows command.insightId command.userId = some row)
      (queued : row.status = .QUEUED)
      (claimant : phase.claimant = none ∨ phase.claimant = some command.insightId)
      (mayGenerate : phase.mayGenerate = none ∨ phase.mayGenerate = some command.insightId)
      (pending : phase.pending = none) :
      Effect config s a
        ((grant config s worker command.insightId now).setPhase worker phase)
  | generated {a} {worker : WorkerId} {id : InsightId} {phase : Phase}
      (may : (s.workers worker).mayGenerate = some id)
      (claimant : phase.claimant = (s.workers worker).claimant)
      (mayGenerate : phase.mayGenerate = none) (pending : phase.pending = none) :
      Effect config s a ((s.countGenerate id).setPhase worker phase)
  | read {a} {worker : WorkerId} (update : Pending) {row : InsightRow} {phase : Phase}
      (reads : a.reads = some worker)
      (working : (s.workers worker).claimant = some update.insightId)
      (found : s.rows.get update.insightId = some row) (loads : update.loaded = mapped config.table row)
      (finishes : Finishes update.loaded update.modified)
      (claimant : phase.claimant = some update.insightId) (mayGenerate : phase.mayGenerate = none)
      (pending : phase.pending = some update) : Effect config s a (s.setPhase worker phase)
  | committed {a} {worker : WorkerId} (update : Pending) {phase : Phase}
      (commits : a.commits = some worker)
      (open_ : (s.workers worker).pending = some update)
      (claimant : phase.claimant = none ∨ phase.claimant = some update.insightId)
      (mayGenerate : phase.mayGenerate = none) (pending : phase.pending = none) :
      Effect config s a ((s.write update.insightId
        (flush config.table update.loaded update.modified)
        (flush_id config.table update.loaded update.modified)).setPhase worker phase)
  | requeued {now : Timestamp} (allowed : 1 ≤ config.maxRetries) :
      Effect config s (.requeueExpired now)
        { s with rows := requeueExpired config.maxRetries now s.rows }
  | exhausted {now : Timestamp} (allowed : 1 ≤ config.maxRetries) :
      Effect config s (.failExhausted now)
        { s with rows := failExhausted config.maxRetries now s.rows }

theorem afterwards_claimant (afterwards : Afterwards) : afterwards.phase.claimant = none := by
  cases afterwards <;> rfl

theorem afterwards_mayGenerate (afterwards : Afterwards) :
    afterwards.phase.mayGenerate = none := by
  cases afterwards <;> rfl

theorem afterwards_pending (afterwards : Afterwards) : afterwards.phase.pending = none := by
  cases afterwards <;> rfl

theorem requested_fresh {table : List InsightColumn} {id : InsightId}
    {command : RequestInsightCommand} {now : Timestamp} {row : InsightRow}
    (requested : requestedRow table id command now = .ok row) : Fresh row := by
  unfold requestedRow Insight.markQueued at requested
  cases requested
  refine ⟨rfl, ?_, ?_⟩ <;> simp [mapped, newInsight]

theorem getById_eq_some {table : List InsightColumn} {rows : InsightRows} {id : InsightId}
    {userId : UserId} {insight : Insight} (got : getById table rows id userId = some insight) :
    ∃ row, rows.get id = some row ∧ row.userId = userId ∧ insight = mapped table row := by
  obtain ⟨row, selected, rfl⟩ := Option.map_eq_some_iff.mp got
  obtain ⟨found, owned⟩ := selectInsight_eq_some selected
  exact ⟨row, found, owned, rfl⟩

section

variable {config : WorkerConfig} {s t : State}

theorem request_effect {id : InsightId} {command : RequestInsightCommand}
    {now : Timestamp} (taken : request config s id command now = some t) :
    Effect config s (.request id command now) t := by
  unfold request at taken
  split at taken
  · cases taken
  · rename_i row requested
    obtain ⟨rows, inserted, rfl⟩ := Option.map_eq_some_iff.mp taken
    exact .requested rfl (requested_fresh requested) inserted

theorem call_effect {a : Action} {worker : WorkerId} {command : ProcessInsightCommand}
    (taken : call s worker command = some t) : Effect config s a t := by
  unfold call at taken
  split at taken
  · cases taken
    exact .moved (.inl rfl) (.inl rfl) rfl
  · cases taken

theorem claim_effect {worker : WorkerId} {now : Timestamp} {outcome : CommitOutcome}
    (taken : claim config s worker now outcome = some t) :
    Effect config s (.claim worker now outcome) t := by
  unfold claim at taken
  split at taken
  · rename_i command called
    split at taken
    · rename_i error _
      have settled : (claimErrorPhase command error).claimant = none ∧
          (claimErrorPhase command error).mayGenerate = none ∧
            (claimErrorPhase command error).pending = none := by
        cases error <;> exact ⟨rfl, rfl, rfl⟩
      split at taken <;> cases taken
      · exact .moved (.inl settled.1) (.inl settled.2.1) settled.2.2
      · exact .moved (.inl rfl) (.inl rfl) rfl
    · rename_i claimed ok
      obtain ⟨row, selected, queued, _⟩ := claim_eq_ok.mp ok
      split at taken <;> cases taken
      · exact .granted rfl (by rw [called]; rfl) selected queued (.inr rfl) (.inr rfl) rfl
      · exact .granted rfl (by rw [called]; rfl) selected queued (.inl rfl) (.inl rfl) rfl
      · exact .moved (.inl rfl) (.inl rfl) rfl
  · cases taken

theorem build_context_effect {a : Action} {worker : WorkerId}
    {outcome : Except String ContextQuality} (taken : buildContext s worker outcome = some t) :
    Effect config s a t := by
  unfold buildContext at taken
  split at taken
  · rename_i command claimed
    split at taken <;> cases taken
    · exact .moved (.inr (by rw [claimed]; rfl)) (.inl rfl) rfl
    · exact .moved (.inr (by rw [claimed]; rfl)) (.inl rfl) rfl
    · exact .moved (.inr (by rw [claimed]; rfl)) (.inr (by rw [claimed]; rfl)) rfl
  · cases taken

theorem generate_effect {a : Action} {worker : WorkerId}
    {outcome : Except String InsightResponse} (taken : generate s worker outcome = some t) :
    Effect config s a t := by
  unfold generate at taken
  split at taken
  · rename_i command quality assembled
    split at taken <;> cases taken
    · exact .generated (by rw [assembled]; rfl) (by rw [assembled]; rfl) rfl rfl
    · exact .generated (by rw [assembled]; rfl) (by rw [assembled]; rfl) rfl rfl
  · cases taken

theorem complete_read_effect {worker : WorkerId}
    {outcome : Except String (Timestamp × Option BudgetSummarySnapshot)}
    (taken : completeRead config s worker outcome = some t) :
    Effect config s (.completeRead worker outcome) t := by
  unfold completeRead at taken
  split at taken
  · rename_i command quality response answered
    split at taken
    · cases taken
      exact .moved (.inr (by rw [answered]; rfl)) (.inl rfl) rfl
    · split at taken
      · cases taken
        exact .moved (.inr (by rw [answered]; rfl)) (.inl rfl) rfl
      · rename_i fresh got
        split at taken
        · cases taken
          exact .moved (.inr (by rw [answered]; rfl)) (.inl rfl) rfl
        · rename_i completed marked
          cases taken
          obtain ⟨row, found, _, rfl⟩ := getById_eq_some got
          exact .read ⟨command.insightId, _, completed⟩ rfl
            (by rw [answered]; rfl) found rfl (mark_completed_finishes marked) rfl rfl rfl
  · cases taken

theorem complete_commit_effect {worker : WorkerId} {outcome : CommitOutcome}
    (taken : completeCommit config s worker outcome = some t) :
    Effect config s (.completeCommit worker outcome) t := by
  unfold completeCommit at taken
  split at taken
  · rename_i command quality loaded modified completing
    have open_ : (s.workers worker).pending = some ⟨command.insightId, loaded, modified⟩ := by
      rw [completing]
      rfl
    split at taken <;> cases taken
    · exact .committed _ rfl open_ (.inl rfl) rfl rfl
    · exact .committed _ rfl open_ (.inr rfl) rfl rfl
    · exact .moved (.inr (by rw [completing]; rfl)) (.inl rfl) rfl
  · cases taken

theorem failure_read_effect {worker : WorkerId} {readable : Bool}
    (taken : failureRead config s worker readable = some t) :
    Effect config s (.failureRead worker readable) t := by
  unfold failureRead at taken
  split at taken
  · rename_i command error afterwards failing
    have leaves : Effect config s (.failureRead worker readable)
        (s.setPhase worker afterwards.phase) :=
      .moved (.inl (afterwards_claimant afterwards)) (.inl (afterwards_mayGenerate afterwards))
        (afterwards_pending afterwards)
    split at taken
    · cases taken
      exact leaves
    · cases taken
      exact leaves
    · rename_i fresh got
      split at taken
      · cases taken
        exact leaves
      · rename_i failed marked
        cases taken
        obtain ⟨row, found, _, rfl⟩ := getById_eq_some got
        exact .read ⟨command.insightId, _, failed⟩ rfl
          (by rw [failing]; rfl) found rfl (mark_failed_finishes marked) rfl rfl rfl
  · cases taken

theorem failure_commit_effect {worker : WorkerId} {outcome : CommitOutcome}
    (taken : failureCommit config s worker outcome = some t) :
    Effect config s (.failureCommit worker outcome) t := by
  unfold failureCommit at taken
  split at taken
  · rename_i command loaded modified afterwards recording
    split at taken
    · cases taken
      exact .moved (.inl (afterwards_claimant afterwards))
        (.inl (afterwards_mayGenerate afterwards)) (afterwards_pending afterwards)
    · rename_i applied
      cases taken
      have commits : Action.commits (.failureCommit worker outcome) = some worker := by
        rcases outcome with _ | ⟨_ | _, message⟩
        · rfl
        · exact absurd rfl (applied message)
        · rfl
      exact .committed ⟨command.insightId, loaded, modified⟩ commits (by rw [recording]; rfl)
        (.inl (afterwards_claimant afterwards)) (afterwards_mayGenerate afterwards)
        (afterwards_pending afterwards)
  · cases taken

theorem finish_effect {a : Action} {worker : WorkerId} (taken : finish s worker = some t) :
    Effect config s a t := by
  unfold finish at taken
  split at taken <;> cases taken
  all_goals exact .moved (.inl rfl) (.inl rfl) rfl

theorem reap_eq_some {update : Nat → InsightRows → InsightRows}
    (taken : reap config s update = some t) :
    1 ≤ config.maxRetries ∧ t = { s with rows := update config.maxRetries s.rows } := by
  unfold reap checkMaxRetries at taken
  by_cases few : config.maxRetries < 1
  · simp [few] at taken
  · simp only [few, if_false, Option.some.injEq] at taken
    exact ⟨Nat.le_of_not_lt few, taken.symm⟩

/-- The inversion of `step`. -/
theorem step_effect {a : Action} (taken : step config s a = some t) : Effect config s a t := by
  cases a with
  | request id command now => exact request_effect taken
  | call worker command => exact call_effect taken
  | claim worker now outcome => exact claim_effect taken
  | buildContext worker outcome => exact build_context_effect taken
  | generate worker outcome => exact generate_effect taken
  | completeRead worker outcome => exact complete_read_effect taken
  | completeCommit worker outcome => exact complete_commit_effect taken
  | failureRead worker readable => exact failure_read_effect taken
  | failureCommit worker outcome => exact failure_commit_effect taken
  | finish worker => exact finish_effect taken
  | crash worker =>
      cases taken
      exact .moved (.inl rfl) (.inl rfl) rfl
  | requeueExpired now =>
      simp only [step] at taken
      obtain ⟨allowed, rfl⟩ := reap_eq_some taken
      exact .requeued allowed
  | failExhausted now =>
      simp only [step] at taken
      obtain ⟨allowed, rfl⟩ := reap_eq_some taken
      exact .exhausted allowed

end

structure ClaimKept (s t : State) (id : InsightId) : Prop where
  holder : t.holder id = s.holder id
  lease : t.lease id = s.lease id
  claims : t.claims id = s.claims id

inductive RowChange (config : WorkerConfig) (s : State) (a : Action) (t : State)
    (id : InsightId) : Option InsightRow → Option InsightRow → Prop
  | same {old} (kept : ClaimKept s t id) : RowChange config s a t id old old
  | requested {row : InsightRow} (requests : a.worker = none) (fresh : Fresh row)
      (kept : ClaimKept s t id) :
      RowChange config s a t id none (some row)
  | claimed {worker : WorkerId} {now : Timestamp} {command : ProcessInsightCommand}
      {row : InsightRow} (claims : a.claims = some worker)
      (called : (s.workers worker).command = some command) (addressed : command.insightId = id)
      (owned : row.userId = command.userId) (queued : row.status = .QUEUED)
      (held : t.holder id = some worker) (leased : t.lease id = some (config.deadline now))
      (counted : t.claims id = s.claims id + 1) :
      RowChange config s a t id (some row)
        (some (claimedRow config.table (config.deadline now) row))
  | committed {worker : WorkerId} {row : InsightRow} (update : Pending)
      (commits : a.commits = some worker) (open_ : (s.workers worker).pending = some update)
      (addressed : update.insightId = id) (kept : ClaimKept s t id) :
      RowChange config s a t id (some row)
        (some (flush config.table update.loaded update.modified row))
  | requeued {now : Timestamp} {row : InsightRow} (reaps : a = .requeueExpired now)
      (due : requeueable config.maxRetries now row = true) (kept : ClaimKept s t id) :
      RowChange config s a t id (some row) (some (requeueRow now row))
  | exhausted {now : Timestamp} {row : InsightRow} (reaps : a = .failExhausted now)
      (due : exhaustable config.maxRetries now row = true) (kept : ClaimKept s t id) :
      RowChange config s a t id (some row) (some (exhaustRow now row))

theorem row_change {config : WorkerConfig} {s t : State} {a : Action}
    (effect : Effect config s a t) (id : InsightId) :
    RowChange config s a t id (s.rows.get id) (t.rows.get id) := by
  cases effect with
  | @requested _ row rows requests fresh inserted =>
      rw [Table.get_insert inserted]
      by_cases same : row.id = id
      · subst same
        rw [if_pos rfl, (Table.insert_eq_some inserted).1]
        exact .requested requests fresh ⟨rfl, rfl, rfl⟩
      · rw [if_neg same]
        exact .same ⟨rfl, rfl, rfl⟩
  | moved => exact .same ⟨rfl, rfl, rfl⟩
  | @granted _ worker now command row phase claims called selected queued claimant may pending =>
      obtain ⟨found, owned⟩ := selectInsight_eq_some selected
      change RowChange config s _ _ id _
        ((s.rows.updateAt command.insightId (claimedRow config.table (config.deadline now))
          (claimedRow_id config.table (config.deadline now))).get id)
      rw [Table.get_updateAt]
      by_cases same : id = command.insightId
      · subst same
        rw [if_pos rfl, found]
        refine .claimed claims called rfl owned queued ?_ ?_ ?_
        · exact Function.update_self ..
        · exact Function.update_self ..
        · exact Function.update_self ..
      · rw [if_neg same]
        refine .same ⟨?_, ?_, ?_⟩
        · exact Function.update_of_ne same ..
        · exact Function.update_of_ne same ..
        · exact Function.update_of_ne same ..
  | generated => exact .same ⟨rfl, rfl, rfl⟩
  | read => exact .same ⟨rfl, rfl, rfl⟩
  | @committed _ worker update phase commits open_ claimant may pending =>
      change RowChange config s _ _ id _
        ((s.rows.updateAt update.insightId (flush config.table update.loaded update.modified)
          (flush_id config.table update.loaded update.modified)).get id)
      rw [Table.get_updateAt]
      by_cases same : id = update.insightId
      · subst same
        rw [if_pos rfl]
        cases s.rows.get update.insightId with
        | none => exact .same ⟨rfl, rfl, rfl⟩
        | some row => exact .committed update commits open_ rfl ⟨rfl, rfl, rfl⟩
      · rw [if_neg same]
        exact .same ⟨rfl, rfl, rfl⟩
  | @requeued now allowed =>
      rw [requeueExpired, Table.get_updateWhere]
      cases s.rows.get id with
      | none => exact .same ⟨rfl, rfl, rfl⟩
      | some row =>
          rw [Option.map_some]
          split
          · rename_i due
            exact .requeued rfl due ⟨rfl, rfl, rfl⟩
          · exact .same ⟨rfl, rfl, rfl⟩
  | @exhausted now allowed =>
      rw [failExhausted, Table.get_updateWhere]
      cases s.rows.get id with
      | none => exact .same ⟨rfl, rfl, rfl⟩
      | some row =>
          rw [Option.map_some]
          split
          · rename_i due
            exact .exhausted rfl due ⟨rfl, rfl, rfl⟩
          · exact .same ⟨rfl, rfl, rfl⟩

theorem claim_grants {config : WorkerConfig} {s t : State} {worker : WorkerId} {now : Timestamp}
    {outcome : CommitOutcome} {command : ProcessInsightCommand} {row : InsightRow}
    (taken : claim config s worker now outcome = some t) (applied : outcome.applied = true)
    (called : s.workers worker = .called command)
    (selected : selectInsight s.rows command.insightId command.userId = some row)
    (queued : row.status = .QUEUED) :
    t.rows.get command.insightId = some (claimedRow config.table (config.deadline now) row) := by
  have written : (grant config s worker command.insightId now).rows.get command.insightId =
      some (claimedRow config.table (config.deadline now) row) := by
    change (s.rows.updateAt command.insightId _
      (claimedRow_id config.table (config.deadline now))).get command.insightId = _
    rw [Table.get_updateAt, if_pos rfl, (selectInsight_eq_some selected).1, Option.map_some]
  have ok : claimForProcessing config.table
      (selectInsight s.rows command.insightId command.userId) (config.deadline now) =
        .ok (claimedRow config.table (config.deadline now) row) :=
    claim_eq_ok.mpr ⟨row, selected, queued, rfl⟩
  unfold claim at taken
  simp only [called, ok] at taken
  split at taken
  · cases taken
    exact written
  · cases taken
    exact written
  · cases applied

theorem command_eq_some {phase : Phase} {command : ProcessInsightCommand} :
    phase.command = some command ↔ phase = .called command := by
  cases phase <;> simp [Phase.command]

theorem claims_eq_some {a : Action} {worker : WorkerId} (claims : a.claims = some worker) :
    ∃ now outcome, a = .claim worker now outcome ∧ outcome.applied = true := by
  cases a with
  | claim other now outcome =>
      simp only [Action.claims, Option.ite_none_right_eq_some, Option.some.injEq] at claims
      obtain ⟨applied, rfl⟩ := claims
      exact ⟨now, outcome, rfl, applied⟩
  | _ => cases claims

theorem workers_setPhase (s : State) (worker other : WorkerId) (phase : Phase) :
    (s.setPhase worker phase).workers other = if other = worker then phase else s.workers other :=
  Function.update_apply s.workers worker phase other

theorem pending_of_setPhase {s : State} {worker other : WorkerId} {phase : Phase}
    {update : Pending} (settled : phase.pending = none)
    (after : ((s.setPhase worker phase).workers other).pending = some update) :
    other ≠ worker ∧ (s.workers other).pending = some update := by
  rw [workers_setPhase] at after
  split at after
  · rw [settled] at after
    cases after
  · rename_i different
    exact ⟨different, after⟩

/-- An UPDATE is pending from the step that reads its row. -/
theorem pending_step {config : WorkerConfig} {s t : State} {a : Action}
    (effect : Effect config s a t) {worker : WorkerId} {update : Pending}
    (after : (t.workers worker).pending = some update) :
    (s.workers worker).pending = some update ∨
      ∃ row, a.reads = some worker ∧ (s.workers worker).claimant = some update.insightId ∧
        s.rows.get update.insightId = some row ∧ update.loaded = mapped config.table row ∧
          Finishes update.loaded update.modified := by
  cases effect with
  | requested => exact .inl after
  | moved claimant may settled => exact .inl (pending_of_setPhase settled after).2
  | granted claims called selected queued claimant may settled =>
      exact .inl (pending_of_setPhase settled after).2
  | generated may claimant may' settled => exact .inl (pending_of_setPhase settled after).2
  | @read _ reader own row phase reads working found loads finishes claimant may pending =>
      rw [workers_setPhase] at after
      split at after
      · rename_i same
        subst same
        rw [pending] at after
        cases after
        exact .inr ⟨row, reads, working, found, loads, finishes⟩
      · exact .inl after
  | committed own commits open_ claimant may settled =>
      exact .inl (pending_of_setPhase settled after).2
  | requeued => exact .inl after
  | exhausted => exact .inl after

/-- What a worker is about to write finishes the insight as it was loaded. -/
def PendingFinishes (s : State) : Prop :=
  ∀ worker update, (s.workers worker).pending = some update →
    Finishes update.loaded update.modified

theorem pending_finishes_start : PendingFinishes .start := by
  intro worker update pending
  cases pending

theorem pending_finishes_step {config : WorkerConfig} {s t : State} {a : Action}
    (finishes : PendingFinishes s) (effect : Effect config s a t) : PendingFinishes t := by
  intro worker update after
  rcases pending_step effect after with before | ⟨row, _, _, _, _, done⟩
  · exact finishes worker update before
  · exact done

theorem afterwards_command (afterwards : Afterwards) : afterwards.phase.command = none := by
  cases afterwards <;> rfl

/-- A claim that is over leaves its insight not QUEUED. -/
theorem claim_over {config : WorkerConfig} {s t : State} {worker : WorkerId} {now : Timestamp}
    {outcome : CommitOutcome} (taken : claim config s worker now outcome = some t) :
    ∃ command phase, s.workers worker = .called command ∧
      t.workers = Function.update s.workers worker phase ∧ phase.command = none ∧
        (phase.claimOver = true → ∀ row,
          selectInsight t.rows command.insightId command.userId = some row →
            row.status ≠ .QUEUED) := by
  have grants := taken
  unfold claim at taken
  split at taken
  · rename_i command called
    split at taken
    · rename_i error refused
      have nothing : ∀ row, selectInsight s.rows command.insightId command.userId = some row →
          row.status ≠ .QUEUED := by
        intro row selected queued
        rw [claim_eq_ok.mpr ⟨row, selected, queued, rfl⟩] at refused
        cases refused
      split at taken <;> cases taken
      · refine ⟨command, _, called, rfl, ?_, fun _ => nothing⟩
        cases error <;> rfl
      · exact ⟨command, _, called, rfl, rfl, fun _ => nothing⟩
    · rename_i claimed ok
      obtain ⟨row, selected, queued, _⟩ := claim_eq_ok.mp ok
      have granted (applied : outcome.applied = true) : ∀ found,
          selectInsight t.rows command.insightId command.userId = some found →
            found.status ≠ .QUEUED := by
        intro found again still
        have written := claim_grants grants applied called selected queued
        rw [(selectInsight_eq_some again).1] at written
        rw [Option.some.inj written,
          claimedRow_status config.statusMapped (config.deadline now) queued] at still
        cases still
      split at taken <;> cases taken
      · exact ⟨command, _, called, rfl, rfl, fun _ => granted rfl⟩
      · exact ⟨command, _, called, rfl, rfl, fun _ => granted rfl⟩
      · exact ⟨command, _, called, rfl, rfl, fun ended => by cases ended⟩
  · cases taken

theorem inside_step {config : WorkerConfig} {s t : State} {a : Action} {worker : WorkerId}
    (taken : step config s a = some t) (inside : a.inside = some worker) :
    ∃ phase, t.workers = Function.update s.workers worker phase ∧ phase.command = none ∧
      ((s.workers worker).claimOver = true ∨
        ∃ command, s.workers worker = .called command ∧ (phase.claimOver = true →
          ∀ row, selectInsight t.rows command.insightId command.userId = some row →
            row.status ≠ .QUEUED)) := by
  cases a with
  | claim other now outcome =>
      cases inside
      obtain ⟨command, phase, called, moved, settled, ended⟩ := claim_over taken
      exact ⟨phase, moved, settled, .inr ⟨command, called, ended⟩⟩
  | buildContext other outcome =>
      cases inside
      simp only [step, buildContext] at taken
      split at taken
      · rename_i phase
        split at taken <;> cases taken
        all_goals exact ⟨_, rfl, rfl, .inl (by rw [phase]; rfl)⟩
      · cases taken
  | generate other outcome =>
      cases inside
      simp only [step, generate] at taken
      split at taken
      · rename_i phase
        split at taken <;> cases taken
        all_goals exact ⟨_, rfl, rfl, .inl (by rw [phase]; rfl)⟩
      · cases taken
  | completeRead other outcome =>
      cases inside
      simp only [step, completeRead] at taken
      split at taken
      · rename_i phase
        repeat' split at taken
        all_goals cases taken
        all_goals exact ⟨_, rfl, rfl, .inl (by rw [phase]; rfl)⟩
      · cases taken
  | completeCommit other outcome =>
      cases inside
      simp only [step, completeCommit] at taken
      split at taken
      · rename_i phase
        split at taken <;> cases taken
        all_goals exact ⟨_, rfl, rfl, .inl (by rw [phase]; rfl)⟩
      · cases taken
  | failureRead other readable =>
      cases inside
      simp only [step, failureRead] at taken
      split at taken
      · rename_i command error afterwards phase
        have settled := afterwards_command afterwards
        repeat' split at taken
        all_goals cases taken
        · exact ⟨_, rfl, settled, .inl (by rw [phase]; rfl)⟩
        · exact ⟨_, rfl, settled, .inl (by rw [phase]; rfl)⟩
        · exact ⟨_, rfl, settled, .inl (by rw [phase]; rfl)⟩
        · exact ⟨_, rfl, rfl, .inl (by rw [phase]; rfl)⟩
      · cases taken
  | failureCommit other outcome =>
      cases inside
      simp only [step, failureCommit] at taken
      split at taken
      · rename_i command loaded modified afterwards phase
        have settled := afterwards_command afterwards
        split at taken <;> cases taken
        all_goals exact ⟨_, rfl, settled, .inl (by rw [phase]; rfl)⟩
      · cases taken
  | _ => cases inside

/-- No worker makes an insight QUEUED. -/
theorem inside_queued {config : WorkerConfig} {s t : State} {a : Action} {worker : WorkerId}
    (finishes : PendingFinishes s) (taken : step config s a = some t)
    (acts : a.worker = some worker) {id : InsightId} {row : InsightRow}
    (found : t.rows.get id = some row) (queued : row.status = .QUEUED) :
    s.rows.get id = some row := by
  have change := row_change (step_effect taken) id
  rw [found] at change
  generalize s.rows.get id = old at change ⊢
  cases change with
  | same => rfl
  | requested requests fresh kept =>
      rw [acts] at requests
      cases requests
  | claimed claims called addressed owned before =>
      rw [claimedRow_status config.statusMapped _ before] at queued
      cases queued
  | committed update commits open_ =>
      have done := finishes _ update open_
      rw [flush_status config.statusMapped done] at queued
      exact absurd queued (terminal_not_queued done.terminal)
  | requeued reaps =>
      subst reaps
      cases acts
  | exhausted => cases queued

end Yomochi.Insights
