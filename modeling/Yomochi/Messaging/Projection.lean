import Yomochi.Insights.Budget
import Yomochi.Messaging.Supply

/-! A run of the pipeline is a run of the workers and the reaper on the one hand and of the
relay on the other, so what holds of all of their runs holds here. -/

namespace Yomochi.Messaging

open Foundation Insights Outbox

section

variable {config : PipelineConfig} {s t : State}

/-- A pipeline step is a run of the workers and the reaper and a run of the relay. -/
theorem component_runs {a : Action} (taken : step config s a = some t) :
    (∃ actions, run (Insights.step config.worker) s.insights actions = some t.insights) ∧
      ∃ actions, run (Outbox.step config.poller) s.outbox actions = some t.outbox := by
  cases a with
  | request id command now eventId createdAt =>
      simp only [step, request] at taken
      split at taken
      · rename_i insights outbox requested reached
        cases taken
        exact ⟨⟨[.request id command now], run_cons_eq_some.mpr ⟨insights, requested, rfl⟩⟩,
          ⟨_, reached⟩⟩
      · cases taken
  | reaperTick now occurredAt createdAt eventIds =>
      simp only [step, reaperTick] at taken
      split at taken
      · cases taken
      · split at taken
        · rename_i insights outbox reaped reached
          cases taken
          exact ⟨⟨_, reaped⟩, ⟨_, reached⟩⟩
        · cases taken
  | relay action =>
      simp only [step, relay] at taken
      split at taken
      · obtain ⟨outbox, moved, rfl⟩ := Option.map_eq_some_iff.mp taken
        exact ⟨⟨[], rfl⟩, ⟨[action], run_cons_eq_some.mpr ⟨outbox, moved, rfl⟩⟩⟩
      · cases taken
  | deliver consumer published =>
      simp only [step, deliver] at taken
      repeat' split at taken
      all_goals cases taken
      exact ⟨⟨[], rfl⟩, ⟨[], rfl⟩⟩
  | isProcessed consumer answered =>
      simp only [step, isProcessed] at taken
      split at taken
      · rename_i body received
        split at taken
        · cases taken
          exact ⟨⟨[], rfl⟩, ⟨[], rfl⟩⟩
        · split at taken
          · obtain ⟨insights, called, rfl⟩ := Option.map_eq_some_iff.mp taken
            exact ⟨⟨[.call consumer (processCommand body)],
              run_cons_eq_some.mpr ⟨insights, called, rfl⟩⟩, ⟨[], rfl⟩⟩
          · cases taken
            exact ⟨⟨[], rfl⟩, ⟨[], rfl⟩⟩
      · cases taken
  | work consumer action =>
      simp only [step, work] at taken
      split at taken
      · split at taken
        · obtain ⟨insights, moved, rfl⟩ := Option.map_eq_some_iff.mp taken
          exact ⟨⟨[action], run_cons_eq_some.mpr ⟨insights, moved, rfl⟩⟩, ⟨[], rfl⟩⟩
        · cases taken
      · cases taken
  | settle consumer metricsError =>
      simp only [step, settle] at taken
      split at taken
      · obtain ⟨insights, finished, rest⟩ := Option.bind_eq_some_iff.mp taken
        have same : t.insights = insights ∧ t.outbox = s.outbox := by
          repeat' split at rest
          all_goals cases rest
          all_goals exact ⟨rfl, rfl⟩
        rw [same.1, same.2]
        exact ⟨⟨[.finish consumer], run_cons_eq_some.mpr ⟨insights, finished, rfl⟩⟩, ⟨[], rfl⟩⟩
      · cases taken
  | markProcessed consumer outcome =>
      simp only [step, markProcessed] at taken
      split at taken
      all_goals cases taken
      all_goals exact ⟨⟨[], rfl⟩, ⟨[], rfl⟩⟩
  | incrementFailures consumer outcome =>
      simp only [step, incrementFailures] at taken
      repeat' split at taken
      all_goals cases taken
      all_goals exact ⟨⟨[], rfl⟩, ⟨[], rfl⟩⟩
  | publishDeadLetter consumer outcome =>
      simp only [step, publishDeadLetter] at taken
      repeat' split at taken
      all_goals cases taken
      all_goals exact ⟨⟨[], rfl⟩, ⟨[], rfl⟩⟩
  | crash consumer =>
      cases taken
      exact ⟨⟨[.crash consumer], rfl⟩, ⟨[], rfl⟩⟩
  | expireProcessed eventId =>
      cases taken
      exact ⟨⟨[], rfl⟩, ⟨[], rfl⟩⟩
  | expireFailures eventId =>
      cases taken
      exact ⟨⟨[], rfl⟩, ⟨[], rfl⟩⟩

end

theorem insights_reached {config : PipelineConfig} {actions : List Action} {s : State}
    (reached : run (step config) .start actions = some s) :
    ∃ moves, run (Insights.step config.worker) .start moves = some s.insights :=
  run_project (fun _ _ _ taken => (component_runs taken).1) reached

theorem events_accounted {config : PipelineConfig} {actions : List Action} {s : State}
    (reached : run (step config) .start actions = some s) : Accounted config.poller s.outbox := by
  obtain ⟨moves, inner⟩ := run_project (fun _ _ _ taken => (component_runs taken).2) reached
  exact run_preserves (fun _ _ _ taken before => accounted_step before (Outbox.step_effect taken))
    inner (accounted_start config.poller)

/-- The retries of an insight and the calls of the AI client for it, in every run: the events
of the insight may be delivered and its consumers may die any number of times. -/
theorem ai_work_bounded (config : PipelineConfig) (actions : List Action) (s : State)
    (reached : run (step config) .start actions = some s) (id : InsightId) :
    (∀ row, s.insights.rows.get id = some row → row.retryCount ≤ config.worker.maxRetries) ∧
      s.insights.generated id ≤ config.worker.maxRetries + 1 := by
  obtain ⟨moves, inner⟩ := insights_reached reached
  have budget := within_budget_run inner
  exact ⟨budget.retries id, generated_le budget id⟩

theorem ai_work_bounded_requeued_run :
    ∃ s, run (step pipelineConfig) .start requeuedRun = some s ∧
      (∀ row, s.insights.rows.get ⟨7⟩ = some row → row.retryCount ≤ 3) ∧
      s.insights.generated ⟨7⟩ ≤ 3 + 1 := by
  obtain ⟨s, reached, _⟩ := (Option.any_eq_true _ _).mp requeued_run_reaches
  exact ⟨s, reached, ai_work_bounded pipelineConfig requeuedRun s reached ⟨7⟩⟩

end Yomochi.Messaging
