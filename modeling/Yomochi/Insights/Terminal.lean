import Yomochi.Insights.Lease

/-! When the result of a finished insight stays as it is. The last write of a worker tests the
status in memory only, so what it finds stored at its commit decides. -/

namespace Yomochi.Insights

open Foundation

/-- The worker over a mapping that stores the deadline, as the reaper assumes. -/
def leasedWorker (maxRetries leaseMinutes : Nat) : WorkerConfig :=
  ⟨insightsWithLease, by decide, maxRetries, leaseMinutes⟩

/-- An insight that is finished at the first of two states has the same result at the second. -/
def TerminalStays (s t : State) : Prop :=
  ∀ id row, s.rows.get id = some row → Terminal row.status →
    ∃ row', t.rows.get id = some row' ∧ row'.outcome = row.outcome

/-- A worker whose last write is committed by this step finds its insight unfinished. -/
def CommitsLive (s : State) (a : Action) : Prop :=
  ∀ worker ∈ a.commits, ∀ update ∈ (s.workers worker).pending,
    ∀ row ∈ s.rows.get update.insightId, ¬Terminal row.status

instance (s : State) (a : Action) : Decidable (CommitsLive s a) :=
  inferInstanceAs (Decidable (∀ worker ∈ a.commits, _))

theorem status_of_outcome {row row' : Insight} (same : row'.outcome = row.outcome) :
    row'.status = row.status :=
  congrArg Insight.Outcome.status same

theorem terminal_stays_refl (s : State) : TerminalStays s s :=
  fun _ row found _ => ⟨row, found, rfl⟩

theorem terminal_stays_trans (s t u : State) (first : TerminalStays s t)
    (second : TerminalStays t u) : TerminalStays s u := by
  intro id row found terminal
  obtain ⟨row', found', same⟩ := first id row found terminal
  have still : Terminal row'.status := by rwa [status_of_outcome same]
  obtain ⟨row'', found'', same'⟩ := second id row' found' still
  exact ⟨row'', found'', same'.trans same⟩

theorem terminal_stays_step {config : WorkerConfig} {s t : State} {a : Action}
    (guarded : CommitsLive s a) (effect : Effect config s a t) : TerminalStays s t := by
  intro id row found terminal
  have change := row_change effect id
  rw [found] at change
  generalize t.rows.get id = new at change ⊢
  cases change with
  | same => exact ⟨row, rfl, rfl⟩
  | claimed claims called addressed owned queued =>
      exact absurd queued (terminal_not_queued terminal)
  | committed update commits open_ addressed =>
      subst addressed
      exact absurd terminal (guarded _ commits update open_ row found)
  | requeued reaps due =>
      simp only [requeueable, Bool.and_eq_true] at due
      exact absurd (expired_processing due.1) (terminal_not_processing terminal)
  | exhausted reaps due =>
      simp only [exhaustable, Bool.and_eq_true] at due
      exact absurd (expired_processing due.1) (terminal_not_processing terminal)

/-- COMPLETED and FAILED are absorbing in a run in which no last write of a worker finds its
insight finished by somebody else. -/
theorem terminal_absorbing_of_live (config : WorkerConfig) (actions : List Action)
    (along : Along (step config) CommitsLive .start actions) :
    Throughout (step config) TerminalStays .start actions :=
  throughout_of_along (I := fun _ => True) (fun s _ => terminal_stays_refl s)
    terminal_stays_trans (fun _ _ _ _ _ _ => trivial)
    (fun _ _ _ guarded taken _ => terminal_stays_step guarded (step_effect taken)) along trivial

def response : InsightResponse := ⟨"Spending is up", "Groceries grew by a third.", 6⟩

def processMonth : ProcessInsightCommand := ⟨⟨7⟩, ⟨3⟩⟩

def minute : Timestamp := microsecondsPerMinute

def completeRun : List Action :=
  [.request ⟨7⟩ requestedMonth 0, .call 0 processMonth, .claim 0 0 .committed,
    .buildContext 0 (.ok .FULL), .generate 0 (.ok response), .completeRead 0 (.ok (minute, none)),
    .completeCommit 0 .committed]

theorem terminal_absorbing_complete_run :
    Throughout (step (leasedWorker 3 15)) TerminalStays .start completeRun :=
  terminal_absorbing_of_live (leasedWorker 3 15) completeRun (by decide +kernel)

/-- The first claim is given up and requeued. The second worker has read its claimed insight
when its lease runs out too, and the reaper fails the insight. -/
def exhaustedRun : List Action :=
  [.request ⟨7⟩ requestedMonth 0, .call 0 processMonth, .claim 0 0 .committed, .crash 0,
    .requeueExpired (20 * minute), .call 1 processMonth, .claim 1 (20 * minute) .committed,
    .buildContext 1 (.ok .FULL), .generate 1 (.ok response),
    .completeRead 1 (.ok (21 * minute, none)), .failExhausted (40 * minute)]

/-- The commit of the second worker turns the FAILED insight of `exhaustedRun` into a
COMPLETED one. -/
theorem terminal_not_absorbing :
    ¬ ∀ (config : WorkerConfig) (actions : List Action) (s : State),
      run (step config) .start actions = some s →
        Throughout (step config) TerminalStays .start actions := by
  intro absorbing
  have revived : ((run (step (leasedWorker 1 15)) .start exhaustedRun).bind fun s =>
      (step (leasedWorker 1 15) s (.completeCommit 1 .committed)).bind fun t =>
        (s.rows.get ⟨7⟩).bind fun row => (t.rows.get ⟨7⟩).map fun row' =>
          (row.status, row'.status)) = some (.FAILED, .COMPLETED) := by
    decide +kernel
  simp only [Option.bind_eq_some_iff, Option.map_eq_some_iff, Prod.mk.injEq] at revived
  obtain ⟨s, reached, t, taken, row, found, row', found', failed, completed⟩ := revived
  have segment : run (step (leasedWorker 1 15)) s [.completeCommit 1 .committed] = some t :=
    run_cons_eq_some.mpr ⟨t, taken, rfl⟩
  have whole : run (step (leasedWorker 1 15)) .start
      (exhaustedRun ++ [.completeCommit 1 .committed]) = some t :=
    run_append_eq_some.mpr ⟨s, reached, segment⟩
  obtain ⟨kept, found'', same⟩ := absorbing (leasedWorker 1 15) _ t whole exhaustedRun
    [.completeCommit 1 .committed] [] s t (by simp) reached segment ⟨7⟩ row found (.inr failed)
  rw [found'] at found''
  cases found''
  have status := status_of_outcome same
  rw [failed, completed] at status
  cases status

end Yomochi.Insights
