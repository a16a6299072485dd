import Yomochi.Outbox.Delivery

/-! When the progress of a SENT row stays as it is. -/

namespace Yomochi.Outbox

open Foundation

variable {Payload : Type}

/-- A row that is SENT at the first of two states keeps its progress, if it is still there. -/
def SentStays (s t : State Payload) : Prop :=
  ∀ id row row', s.rows.get id = some row → row.status = .SENT →
    t.rows.get id = some row' → row'.progress = row.progress

/-- A failure is recorded only of a row that nobody has marked SENT in the meantime. -/
def RecordsUnsent (s : State Payload) (a : Action Payload) : Prop :=
  ∀ poller now, a = .recordFailure poller now → ∀ id error ids row,
    s.pollers poller = .failing id error ids → s.rows.get id = some row → row.status ≠ .SENT

/-- `SentStays` with what makes it compose: an id is not used again. -/
def SentKept (s t : State Payload) : Prop :=
  ∀ id, (id ∈ s.appended → id ∈ t.appended ∧ (s.rows.get id = none → t.rows.get id = none)) ∧
    ∀ row, s.rows.get id = some row → row.status = .SENT → id ∈ t.appended ∧
      (t.rows.get id = none ∨ ∃ row', t.rows.get id = some row' ∧ row'.progress = row.progress)

theorem sent_stays_of_kept (s t : State Payload) (kept : SentKept s t) : SentStays s t := by
  intro id row row' stored sent found
  rcases ((kept id).2 row stored sent).2 with absent | ⟨other, same, progress⟩
  · rw [absent] at found
    cases found
  · rw [same] at found
    cases found
    exact progress

theorem sent_kept_refl (config : PollerConfig) (s : State Payload)
    (accounted : Accounted config s) : SentKept s s :=
  fun id => ⟨fun member => ⟨member, fun absent => absent⟩, fun row stored _ =>
    ⟨accounted.history id row stored, .inr ⟨row, stored, rfl⟩⟩⟩

theorem status_of_progress {row row' : OutboxRow Payload}
    (same : row'.progress = row.progress) : row'.status = row.status :=
  congrArg Progress.status same

theorem sent_kept_trans (s t u : State Payload) (first : SentKept s t) (second : SentKept t u) :
    SentKept s u := by
  intro id
  constructor
  · intro member
    obtain ⟨known, gone⟩ := (first id).1 member
    obtain ⟨known', gone'⟩ := (second id).1 known
    exact ⟨known', fun absent => gone' (gone absent)⟩
  · intro row stored sent
    obtain ⟨known, kept⟩ := (first id).2 row stored sent
    obtain ⟨known', gone⟩ := (second id).1 known
    refine ⟨known', ?_⟩
    rcases kept with absent | ⟨row', found, same⟩
    · exact .inl (gone absent)
    · have still : row'.status = .SENT := (status_of_progress same).trans sent
      rcases ((second id).2 row' found still).2 with absent | ⟨row'', found', same'⟩
      · exact .inl absent
      · exact .inr ⟨row'', found', same'.trans same⟩

theorem sent_kept_step {config : PollerConfig} {s t : State Payload} {a : Action Payload}
    (guarded : RecordsUnsent s a) (effect : Effect config s a t) (accounted : Accounted config s) :
    SentKept s t := by
  intro id
  have change := row_change accounted.locking effect id
  have stays : id ∈ s.appended → id ∈ t.appended := appended_mono effect
  constructor
  · intro member
    refine ⟨stays member, fun absent => ?_⟩
    rw [absent] at change
    generalize t.rows.get id = new at change ⊢
    cases change with
    | same => rfl
    | appended fresh _ => exact absurd member fresh
  · intro row stored sent
    refine ⟨stays (accounted.history id row stored), ?_⟩
    rw [stored] at change
    generalize t.rows.get id = new at change ⊢
    cases change with
    | same => exact .inr ⟨row, rfl, rfl⟩
    | committed inside writes addressed =>
        have pending := (accounted.locking.current _ _ _ _ inside).2
        rw [sent] at pending
        cases pending
    | failureRecorded recorded failing unlocked =>
        exact absurd sent (guarded _ _ recorded _ _ _ row failing stored)
    | requeued failed unlocked =>
        rw [sent] at failed
        cases failed
    | purged _ => exact .inl rfl

variable [DecidableEq Payload]

/-- Recording a failure on a SENT row counts one more retry. -/
theorem records_unsent_of_stays {config : PollerConfig} {s t : State Payload} {a : Action Payload}
    (stays : ∀ u, step config s a = some u → SentStays s u) (taken : step config s a = some t) :
    RecordsUnsent s a := by
  rintro poller now rfl id error ids row failing stored sent
  have later := stays t taken
  simp only [step, recordFailureOf, failing] at taken
  split at taken
  · cases taken
  · cases taken
    have written : ((s.write id (recordFailure config.maxRetries error now)
        (recordFailure_id config.maxRetries error now)).setPoller poller (.between ids)).rows.get id =
          some (recordFailure config.maxRetries error now row) := by
      change (s.rows.updateAt id _ (recordFailure_id config.maxRetries error now)).get id = _
      rw [Table.get_updateAt, if_pos rfl, stored, Option.map_some]
    have same := congrArg Progress.retryCount (later id row _ stored sent written)
    simp [OutboxRow.progress] at same

/-- SENT is absorbing in a run exactly when the run never records a failure on a row that is
SENT by then. -/
theorem sent_absorbing_iff (config : PollerConfig) (actions : List (Action Payload))
    (s : State Payload) (reached : run (step config) .start actions = some s) :
    Throughout (step config) SentStays .start actions ↔
      Along (step config) RecordsUnsent .start actions := by
  constructor
  · intro throughout
    refine along_mono ?_ (along_and (along_of_throughout throughout) (along_enabled reached))
    rintro t a ⟨stays, u, taken⟩
    exact records_unsent_of_stays stays taken
  · intro along
    refine throughout_mono sent_stays_of_kept
      (throughout_of_along (I := Accounted config) (sent_kept_refl config) sent_kept_trans
        ?_ ?_ along (accounted_start config))
    · exact fun _ _ _ _ taken accounted => accounted_step accounted (step_effect taken)
    · exact fun _ _ _ guarded taken accounted =>
        sent_kept_step guarded (step_effect taken) accounted

theorem sent_absorbing_iff_late_failure :
    Throughout (step workerConfig) SentStays .start lateFailure ↔
      Along (step workerConfig) RecordsUnsent .start lateFailure := by
  obtain ⟨s, reached⟩ := Option.isSome_iff_exists.mp late_failure_runs
  exact sent_absorbing_iff workerConfig lateFailure s reached

/-- After `lateFailure` the first poller records its failure on the SENT row. -/
theorem sent_not_absorbing :
    ¬ ∀ (config : PollerConfig) (actions : List (Action Unit)) (s : State Unit),
      run (step config) .start actions = some s →
        Throughout (step config) SentStays .start actions := by
  intro absorbing
  have counted : ((run (step workerConfig) .start lateFailure).bind fun s =>
      (step workerConfig s (.recordFailure 0 30)).bind fun t =>
        (s.rows.get 1).bind fun row => (t.rows.get 1).map fun row' =>
          (row.status, row.retryCount, row'.retryCount)) = some (.SENT, 0, 1) := by
    decide +kernel
  simp only [Option.bind_eq_some_iff, Option.map_eq_some_iff, Prod.mk.injEq] at counted
  obtain ⟨s, reached, t, taken, row, stored, row', found, sent, before, after⟩ := counted
  have segment : run (step workerConfig) s [.recordFailure 0 30] = some t :=
    run_cons_eq_some.mpr ⟨t, taken, rfl⟩
  have whole : run (step workerConfig) .start (lateFailure ++ [.recordFailure 0 30]) = some t :=
    run_append_eq_some.mpr ⟨s, reached, segment⟩
  have same := absorbing workerConfig _ t whole lateFailure [.recordFailure 0 30] [] s t
    (by simp) reached segment 1 row row' stored sent found
  have counts := congrArg Progress.retryCount same
  simp [OutboxRow.progress, before, after] at counts

end Yomochi.Outbox
