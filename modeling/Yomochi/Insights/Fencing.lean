import Yomochi.Insights.Terminal

/-! When a worker whose lease was reaped cannot write over the next claim. Nothing in the last
write names the claim it belongs to; what keeps a stale worker out is only what it reads. -/

namespace Yomochi.Insights

open Foundation

/-- A row that a worker changes in this step is afterwards held by that worker's claim. -/
def Fenced (s : State) (a : Action) (t : State) : Prop :=
  ∀ worker ∈ a.worker, ∀ id row row', s.rows.get id = some row → t.rows.get id = some row' →
    row' ≠ row → t.holder id = some worker

def LeaseFenced (config : WorkerConfig) (actions : List Action) : Prop :=
  Along (step config) (fun s a => ∀ t, step config s a = some t → Fenced s a t) .start actions

/-- A worker that reads its insight as PROCESSING for its last write is the one that claimed
it last. -/
def ReadsOwn (s : State) (a : Action) : Prop :=
  ∀ worker ∈ a.reads, ∀ id ∈ (s.workers worker).claimant, ∀ row ∈ s.rows.get id,
    row.status = .PROCESSING → s.holder id = some worker

/-- A claim that succeeds does not come between the read and the commit of the last claimant's
last write. -/
def ClaimsApart (s : State) (a : Action) : Prop :=
  ∀ worker ∈ a.claims, ∀ command ∈ (s.workers worker).command,
    ∀ row ∈ selectInsight s.rows command.insightId command.userId, row.status = .QUEUED →
      ∀ holder ∈ s.holder command.insightId, ∀ update ∈ (s.workers holder).pending,
        update.insightId ≠ command.insightId

instance (s : State) (a : Action) : Decidable (ReadsOwn s a) :=
  inferInstanceAs (Decidable (∀ worker ∈ a.reads, _))

instance (s : State) (a : Action) : Decidable (ClaimsApart s a) :=
  inferInstanceAs (Decidable (∀ worker ∈ a.claims, _))

def PendingHeld (s : State) : Prop :=
  ∀ worker update, (s.workers worker).pending = some update →
    s.holder update.insightId = some worker

theorem pending_held_start : PendingHeld .start := by
  intro worker update pending
  cases pending

theorem reads_no_claim {a : Action} {worker : WorkerId} (reads : a.reads = some worker) :
    a.claims = none := by
  cases a <;> first | rfl | cases reads

theorem commits_no_claim {a : Action} {worker : WorkerId} (commits : a.commits = some worker) :
    a.claims = none := by
  cases a <;> first | rfl | cases commits

theorem claims_worker {a : Action} {worker : WorkerId} (claims : a.claims = some worker) :
    a.worker = some worker := by
  obtain ⟨now, outcome, rfl, _⟩ := claims_eq_some claims
  rfl

theorem commits_worker {a : Action} {worker : WorkerId} (commits : a.commits = some worker) :
    a.worker = some worker := by
  cases a with
  | completeCommit other outcome =>
      simp only [Action.commits, Option.ite_none_right_eq_some] at commits
      exact commits.2
  | failureCommit other outcome =>
      simp only [Action.commits, Option.ite_none_right_eq_some] at commits
      exact commits.2
  | _ => cases commits

section

variable {config : WorkerConfig} {s t : State} {a : Action}

/-- Only a successful claim changes who holds an insight. -/
theorem holder_step (effect : Effect config s a t) (id : InsightId) :
    t.holder id = s.holder id ∨
      ∃ worker command row, a.claims = some worker ∧ command.insightId = id ∧
        (s.workers worker).command = some command ∧
        selectInsight s.rows command.insightId command.userId = some row ∧
        row.status = .QUEUED := by
  have change := row_change effect id
  generalize found : s.rows.get id = old at change
  generalize t.rows.get id = new at change
  cases change with
  | same kept => exact .inl kept.holder
  | requested requests fresh kept => exact .inl kept.holder
  | @claimed worker now command row claims called addressed owned queued =>
      subst addressed
      refine .inr ⟨worker, command, row, claims, rfl, called, ?_, queued⟩
      simp [selectInsight, found, Option.filter, owned]
  | committed update commits open_ addressed kept => exact .inl kept.holder
  | requeued reaps due kept => exact .inl kept.holder
  | exhausted reaps due kept => exact .inl kept.holder

theorem holder_kept (effect : Effect config s a t) (none_ : a.claims = none) (id : InsightId) :
    t.holder id = s.holder id := by
  rcases holder_step effect id with kept | ⟨worker, _, _, claims, _⟩
  · exact kept
  · rw [none_] at claims
    cases claims

theorem pending_held_step (held : PendingHeld s) (own : ReadsOwn s a) (apart : ClaimsApart s a)
    (effect : Effect config s a t) : PendingHeld t := by
  intro worker update after
  rcases pending_step effect after with before | ⟨row, reads, working, found, loads, finishes⟩
  · have holds := held worker update before
    rcases holder_step effect update.insightId with kept |
        ⟨claimer, command, row, claims, same, called, selected, queued⟩
    · rw [kept, holds]
    · rw [← same] at holds
      exact absurd same.symm
        (apart claimer claims command called row selected queued worker holds update before)
  · have processing : row.status = .PROCESSING := by
      have status := finishes.processing
      rwa [loads, mapped_status] at status
    rw [holder_kept effect (reads_no_claim reads)]
    exact own worker reads update.insightId working row found processing

theorem fenced_step (held : PendingHeld s) (effect : Effect config s a t) : Fenced s a t := by
  intro worker acts id row row' found found' changed
  have change := row_change effect id
  rw [found, found'] at change
  cases change with
  | same => exact absurd rfl changed
  | @claimed claimer _ _ _ claims called addressed owned queued holds leased =>
      have same := Option.some.inj ((claims_worker claims).symm.trans acts)
      exact same ▸ holds
  | @committed committer _ update commits open_ addressed =>
      subst addressed
      have same := Option.some.inj ((commits_worker commits).symm.trans acts)
      subst same
      rw [holder_kept effect (commits_no_claim commits)]
      exact held committer update open_
  | requeued reaps due =>
      subst reaps
      cases acts
  | exhausted reaps due =>
      subst reaps
      cases acts

end

/-- The leases of a run are fenced when every claimant that finds its insight PROCESSING for
its last write is the latest one, and no claim comes between that read and the commit. -/
theorem lease_fenced_of_latest (config : WorkerConfig) (actions : List Action)
    (along : Along (step config) (fun s a => ReadsOwn s a ∧ ClaimsApart s a) .start actions) :
    LeaseFenced config actions :=
  along_derive
    (fun _ _ _ guarded taken held =>
      pending_held_step held guarded.1 guarded.2 (step_effect taken))
    (fun _ _ _ held _ taken => fenced_step held (step_effect taken)) along pending_held_start

theorem lease_fenced_complete_run : LeaseFenced (leasedWorker 3 15) completeRun :=
  lease_fenced_of_latest (leasedWorker 3 15) completeRun (by decide +kernel)

/-- The lease of worker 0 is reaped and worker 1 claims the insight; worker 0 is still at work,
reads the row as PROCESSING and commits. -/
def staleRun : List Action :=
  [.request ⟨7⟩ requestedMonth 0, .call 0 processMonth, .claim 0 0 .committed,
    .requeueExpired (20 * minute), .call 1 processMonth, .claim 1 (20 * minute) .committed,
    .buildContext 0 (.ok .FULL), .generate 0 (.ok response),
    .completeRead 0 (.ok (21 * minute, none))]

theorem lease_not_fenced :
    ¬ ∀ (config : WorkerConfig) (actions : List Action) (s : State),
      run (step config) .start actions = some s → LeaseFenced config actions := by
  intro fenced
  have stale : ((run (step (leasedWorker 3 15)) .start staleRun).bind fun s =>
      (step (leasedWorker 3 15) s (.completeCommit 0 .committed)).bind fun t =>
        (s.rows.get ⟨7⟩).bind fun row => (t.rows.get ⟨7⟩).map fun row' =>
          (row.status, row'.status, t.holder ⟨7⟩)) = some (.PROCESSING, .COMPLETED, some 1) := by
    decide +kernel
  simp only [Option.bind_eq_some_iff, Option.map_eq_some_iff, Prod.mk.injEq] at stale
  obtain ⟨s, reached, t, taken, row, found, row', found', processing, completed, holder⟩ := stale
  have whole : run (step (leasedWorker 3 15)) .start
      (staleRun ++ [.completeCommit 0 .committed]) = some t :=
    run_append_eq_some.mpr ⟨s, reached, run_cons_eq_some.mpr ⟨t, taken, rfl⟩⟩
  have last := (along_append (fenced (leasedWorker 3 15) _ t whole)).2 s reached
  have changed : row' ≠ row := by
    rintro rfl
    rw [processing] at completed
    cases completed
  have holds := last.1 t taken 0 rfl ⟨7⟩ row row' found found' changed
  rw [holder] at holds
  cases holds

end Yomochi.Insights
