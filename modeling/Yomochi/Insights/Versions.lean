import Yomochi.Insights.Terminal

/-! What the versions of one insight have in common: until it is finished only its status and its
lease change. -/

namespace Yomochi.Insights

open Foundation

structure SameInsight (row later : InsightRow) : Prop where
  id : later.id = row.id
  userId : later.userId = row.userId
  period : later.period = row.period
  periodYear : later.periodYear = row.periodYear
  periodMonth : later.periodMonth = row.periodMonth
  createdAt : later.createdAt = row.createdAt

/-- No result is stored but that of a completed insight, and no error but that of a failed one. -/
structure Shaped (row : Insight) : Prop where
  contextQuality : row.status ≠ .COMPLETED → row.contextQuality = none
  title : row.status ≠ .COMPLETED → row.title = none
  description : row.status ≠ .COMPLETED → row.description = none
  impactScore : row.status ≠ .COMPLETED → row.impactScore = none
  generatedAt : row.status ≠ .COMPLETED → row.generatedAt = none
  budgetSummary : row.status ≠ .COMPLETED → row.budgetSummary = none
  errorMessage : ¬ Terminal row.status → row.errorMessage = none

/-- What a worker is about to write is a mark on the insight as it was loaded. -/
inductive Marks (loaded : Insight) : Insight → Prop
  | completed {modified : Insight} {title description : String} {impactScore : Int}
      {quality : ContextQuality} {generatedAt : Timestamp} {budget : Option BudgetSummarySnapshot}
      (marked : loaded.markCompleted title description impactScore quality generatedAt budget =
        .ok modified) : Marks loaded modified
  | failed {modified : Insight} {error : String} (marked : loaded.markFailed error = .ok modified) :
      Marks loaded modified

def PendingMarks (s : State) : Prop :=
  ∀ worker update, (s.workers worker).pending = some update → Marks update.loaded update.modified

section Steps

variable {config : WorkerConfig} {s t : State} {a : Action}

theorem pending_marks_read {worker : WorkerId} {update : Pending}
    (taken : step config s a = some t) (reads : a.reads = some worker)
    (after : (t.workers worker).pending = some update) : Marks update.loaded update.modified := by
  cases a with
  | completeRead other outcome =>
      cases reads
      simp only [step, completeRead] at taken
      split at taken
      · split at taken
        · cases taken
          rw [workers_setPhase, if_pos rfl] at after
          cases after
        · split at taken
          · cases taken
            rw [workers_setPhase, if_pos rfl] at after
            cases after
          · split at taken
            · cases taken
              rw [workers_setPhase, if_pos rfl] at after
              cases after
            · rename_i marked
              cases taken
              rw [workers_setPhase, if_pos rfl] at after
              cases after
              exact .completed marked
      · cases taken
  | failureRead other readable =>
      cases reads
      have none (afterwards : Afterwards) :
          ((s.setPhase worker afterwards.phase).workers worker).pending ≠ some update := by
        rw [workers_setPhase, if_pos rfl, afterwards_pending]
        intro same
        cases same
      simp only [step, failureRead] at taken
      split at taken
      · split at taken
        · cases taken
          exact absurd after (none _)
        · cases taken
          exact absurd after (none _)
        · split at taken
          · cases taken
            exact absurd after (none _)
          · rename_i marked
            cases taken
            rw [workers_setPhase, if_pos rfl] at after
            cases after
            exact .failed marked
      · cases taken
  | _ => cases reads

theorem pending_marks_step (marks : PendingMarks s) (taken : step config s a = some t) :
    PendingMarks t := by
  intro worker update after
  rcases pending_step (step_effect taken) after with before | ⟨_, reads, _⟩
  · exact marks worker update before
  · exact pending_marks_read taken reads after

theorem same_insight_refl (row : InsightRow) : SameInsight row row := ⟨rfl, rfl, rfl, rfl, rfl, rfl⟩

theorem same_insight_trans {first second third : InsightRow} (one : SameInsight first second)
    (two : SameInsight second third) : SameInsight first third where
  id := two.id.trans one.id
  userId := two.userId.trans one.userId
  period := two.period.trans one.period
  periodYear := two.periodYear.trans one.periodYear
  periodMonth := two.periodMonth.trans one.periodMonth
  createdAt := two.createdAt.trans one.createdAt

theorem claimed_same (deadline : Timestamp) (row : InsightRow) :
    SameInsight row (claimedRow config.table deadline row) := by
  constructor <;> simp [claimedRow, flush, mapped]

theorem flush_same {loaded modified : Insight} (marks : Marks loaded modified) (row : InsightRow) :
    SameInsight row (flush config.table loaded modified row) := by
  cases marks with
  | completed marked =>
      obtain ⟨_, _, _, rfl⟩ := mark_completed_eq_ok marked
      constructor <;> simp [flush]
  | failed marked =>
      obtain ⟨_, rfl⟩ := mark_failed_eq_ok marked
      constructor <;> simp [flush]

theorem claimed_shaped {deadline : Timestamp} {row : InsightRow} (shaped : Shaped row)
    (queued : row.status = .QUEUED) : Shaped (claimedRow config.table deadline row) := by
  have open_ : row.status ≠ .COMPLETED := by
    rw [queued]
    nofun
  have live : ¬ Terminal row.status := fun terminal => terminal_not_queued terminal queued
  constructor
  all_goals
    intro _
    simp only [claimedRow, flush, mapped, stored_same]
  · exact shaped.contextQuality open_
  · exact shaped.title open_
  · exact shaped.description open_
  · exact shaped.impactScore open_
  · exact shaped.generatedAt open_
  · exact shaped.budgetSummary open_
  · exact shaped.errorMessage live

/-- A mark that is written over an unfinished row leaves a completed row, or one that has failed and
has no result. -/
theorem flush_shaped {loaded modified : Insight} {row : InsightRow} (marks : Marks loaded modified)
    (shaped : Shaped row) (live : ¬ Terminal row.status) :
    Shaped (flush config.table loaded modified row) := by
  have open_ : row.status ≠ .COMPLETED := fun completed => live (.inl completed)
  cases marks with
  | completed marked =>
      have finishes := mark_completed_finishes marked
      obtain ⟨_, _, _, rfl⟩ := mark_completed_eq_ok marked
      have status := flush_status config.statusMapped finishes row
      have done : ∀ {P : Prop}, (flush config.table loaded _ row).status ≠ .COMPLETED → P :=
        fun other => absurd status other
      exact ⟨done, done, done, done, done, done, fun unfinished => absurd (.inl status) unfinished⟩
  | failed marked =>
      have finishes := mark_failed_finishes marked
      obtain ⟨_, rfl⟩ := mark_failed_eq_ok marked
      have status := flush_status config.statusMapped finishes row
      constructor
      · intro _
        simpa [flush] using shaped.contextQuality open_
      · intro _
        simpa [flush] using shaped.title open_
      · intro _
        simpa [flush] using shaped.description open_
      · intro _
        simpa [flush] using shaped.impactScore open_
      · intro _
        simpa [flush] using shaped.generatedAt open_
      · intro _
        simpa [flush] using shaped.budgetSummary open_
      · intro unfinished
        exact absurd (.inr status) unfinished

theorem requeued_shaped {now : Timestamp} {row : InsightRow} (shaped : Shaped row)
    (processing : row.status = .PROCESSING) : Shaped (requeueRow now row) := by
  have open_ : row.status ≠ .COMPLETED := by
    rw [processing]
    nofun
  have live : ¬ Terminal row.status := fun terminal => terminal_not_processing terminal processing
  exact ⟨fun _ => shaped.contextQuality open_, fun _ => shaped.title open_,
    fun _ => shaped.description open_, fun _ => shaped.impactScore open_,
    fun _ => shaped.generatedAt open_, fun _ => shaped.budgetSummary open_,
    fun _ => shaped.errorMessage live⟩

theorem exhausted_shaped {now : Timestamp} {row : InsightRow} (shaped : Shaped row)
    (processing : row.status = .PROCESSING) : Shaped (exhaustRow now row) := by
  have open_ : row.status ≠ .COMPLETED := by
    rw [processing]
    nofun
  exact ⟨fun _ => shaped.contextQuality open_, fun _ => shaped.title open_,
    fun _ => shaped.description open_, fun _ => shaped.impactScore open_,
    fun _ => shaped.generatedAt open_, fun _ => shaped.budgetSummary open_,
    fun live => absurd (.inr rfl) live⟩

/-- Only a request adds a row, and it has no result yet. -/
theorem inserted_shaped {id : InsightId} {row : InsightRow} (taken : step config s a = some t)
    (absent : s.rows.get id = none) (there : t.rows.get id = some row) : Shaped row := by
  have change := row_change (step_effect taken) id
  rw [absent, there] at change
  cases change with
  | requested requests _ _ =>
      cases a with
      | request other command now =>
          simp only [step, request, requestedRow, newInsight, Insight.markQueued] at taken
          obtain ⟨rows, inserted, rfl⟩ := Option.map_eq_some_iff.mp taken
          rw [Table.get_insert inserted, absent] at there
          split at there
          · cases there
            constructor <;> intro _ <;> rfl
          · cases there
      | requeueExpired now =>
          simp only [step] at taken
          obtain ⟨_, rfl⟩ := reap_eq_some taken
          rw [requeueExpired, Table.get_updateWhere, absent] at there
          cases there
      | failExhausted now =>
          simp only [step] at taken
          obtain ⟨_, rfl⟩ := reap_eq_some taken
          rw [failExhausted, Table.get_updateWhere, absent] at there
          cases there
      | _ => cases requests

/-! Runs. -/

/-- The rows and what the workers are about to write to them. -/
structure Versioned (s : State) : Prop where
  shaped : ∀ id row, s.rows.get id = some row → Shaped row
  marks : PendingMarks s

def Continues (s t : State) : Prop :=
  ∀ id row, s.rows.get id = some row →
    ∃ later, t.rows.get id = some later ∧ SameInsight row later

theorem versioned_start : Versioned .start where
  shaped := by
    intro id row found
    cases found
  marks := by
    intro worker update pending
    cases pending

theorem row_versioned {id : InsightId} {row : InsightRow} (versioned : Versioned s)
    (live : CommitsLive s a) (taken : step config s a = some t)
    (found : s.rows.get id = some row) :
    ∃ later, t.rows.get id = some later ∧ SameInsight row later ∧ Shaped later := by
  have change := row_change (step_effect taken) id
  have shaped := versioned.shaped id row found
  rw [found] at change
  generalize t.rows.get id = new at change ⊢
  cases change with
  | same => exact ⟨row, rfl, same_insight_refl row, shaped⟩
  | claimed claims called addressed owned queued =>
      exact ⟨_, rfl, claimed_same _ row, claimed_shaped shaped queued⟩
  | committed update commits open_ addressed =>
      subst addressed
      have marks := versioned.marks _ update open_
      exact ⟨_, rfl, flush_same marks row,
        flush_shaped marks shaped (live _ commits update open_ row found)⟩
  | requeued reaps due =>
      simp only [requeueable, Bool.and_eq_true] at due
      exact ⟨_, rfl, ⟨rfl, rfl, rfl, rfl, rfl, rfl⟩,
        requeued_shaped shaped (expired_processing due.1)⟩
  | exhausted reaps due =>
      simp only [exhaustable, Bool.and_eq_true] at due
      exact ⟨_, rfl, ⟨rfl, rfl, rfl, rfl, rfl, rfl⟩,
        exhausted_shaped shaped (expired_processing due.1)⟩

theorem versioned_step (versioned : Versioned s) (live : CommitsLive s a)
    (taken : step config s a = some t) : Versioned t where
  shaped := by
    intro id row found
    cases before : s.rows.get id with
    | none => exact inserted_shaped taken before found
    | some old =>
        obtain ⟨later, there, _, shaped⟩ := row_versioned versioned live taken before
        rw [found] at there
        cases there
        exact shaped
  marks := pending_marks_step versioned.marks taken

theorem continues_refl (s : State) : Continues s s :=
  fun _ row found => ⟨row, found, same_insight_refl row⟩

theorem continues_trans (s t u : State) (first : Continues s t) (second : Continues t u) :
    Continues s u := by
  intro id row found
  obtain ⟨middle, there, one⟩ := first id row found
  obtain ⟨later, last, two⟩ := second id middle there
  exact ⟨later, last, same_insight_trans one two⟩

theorem continues_step (versioned : Versioned s) (live : CommitsLive s a)
    (taken : step config s a = some t) : Continues s t := by
  intro id row found
  obtain ⟨later, there, same, _⟩ := row_versioned versioned live taken found
  exact ⟨later, there, same⟩

end Steps

/-- A run between two states in which no last write of a worker finds its insight finished. -/
def Later (config : WorkerConfig) (s t : State) : Prop :=
  ∃ actions, Along (step config) CommitsLive s actions ∧ run (step config) s actions = some t

section Later

variable {config : WorkerConfig} {s t : State}

theorem later_versioned (versioned : Versioned s) (later : Later config s t) : Versioned t := by
  obtain ⟨actions, along, reached⟩ := later
  exact run_invariant (fun _ _ _ live taken versioned => versioned_step versioned live taken)
    along reached versioned

theorem later_continues (versioned : Versioned s) (later : Later config s t) : Continues s t := by
  obtain ⟨actions, along, reached⟩ := later
  exact run_related (fun s _ => continues_refl s) continues_trans
    (fun _ _ _ live taken versioned => versioned_step versioned live taken)
    (fun _ _ _ live taken versioned => continues_step versioned live taken) along reached versioned

end Later

end Yomochi.Insights
