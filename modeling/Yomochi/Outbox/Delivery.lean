import Yomochi.Outbox.Locking

/-! An appended event is not lost: wherever it is stored, it is still to be relayed, is
quarantined, or has been published. -/

namespace Yomochi.Outbox

open Foundation

variable {Payload : Type}

/-- What may be stored for an appended event, by whether the broker has had it. -/
def AccountedRow (config : PollerConfig) (wasPublished : Prop) :
    Option (OutboxRow Payload) → Prop
  | none => wasPublished
  | some row =>
      match row.status with
      | .PENDING => True
      | .SENT => wasPublished
      | .FAILED => config.maxRetries ≤ row.retryCount ∨ config.topicMap row.eventType = none

def RowAccounted (config : PollerConfig) (s : State Payload) (id : Uuid) : Prop :=
  AccountedRow config (s.WasPublished id) (s.rows.get id)

def LeavesQueue (s t : State Payload) (id : Uuid) : Prop :=
  ∃ row, s.rows.get id = some row ∧
    (t.rows.get id = none ∨
      ∃ row', t.rows.get id = some row' ∧ row'.status = .SENT ∧ row.status ≠ .SENT)

def Phase.current : Phase Payload → Option Uuid
  | .idle => none
  | .between ids => ids.head?
  | .inside row _ _ => some row.id
  | .failing id _ _ => some id

def Action.poller : Action Payload → Option PollerId
  | .snapshotPendingIds poller _ | .lockRow poller _ | .lockRowError poller _
  | .publish poller _ _ | .commit poller _ | .recordFailure poller _
  | .recordFailureError poller | .finish poller | .crash poller => some poller
  | .append .. | .requeueFailed .. | .purgeSent .. => none

structure Accounted (config : PollerConfig) (s : State Payload) : Prop where
  locking : Locking s
  history : ∀ id row, s.rows.get id = some row → id ∈ s.appended
  known : ∀ published ∈ s.published, published.message.eventId ∈ s.appended
  relayed : ∀ poller row ids, s.pollers poller = .inside row .relayed ids → s.WasPublished row.id
  unmapped : ∀ poller row error now ids,
    s.pollers poller = .inside row (.quarantined error now) ids →
      config.topicMap row.eventType = none
  accounted : ∀ id ∈ s.appended, RowAccounted config s id

theorem accounted_start (config : PollerConfig) :
    Accounted config (.start : State Payload) where
  locking := locking_start
  history := by
    intro id row found
    cases found
  known := by
    intro published member
    cases member
  relayed := by
    intro poller row ids inside
    simp [State.start] at inside
  unmapped := by
    intro poller row error now ids inside
    simp [State.start] at inside
  accounted := by
    intro id member
    cases member

section

variable {config : PollerConfig} {s t : State Payload} {a : Action Payload}

theorem appended_mono (effect : Effect config s a t) {id : Uuid} (member : id ∈ s.appended) :
    id ∈ t.appended := by
  cases effect with
  | appended => exact List.mem_cons_of_mem _ member
  | _ => exact member

theorem published_mono (effect : Effect config s a t) {id : Uuid} (was : s.WasPublished id) :
    t.WasPublished id := by
  obtain ⟨publication, member, same⟩ := was
  cases effect with
  | relayed => exact ⟨publication, List.mem_append_left _ member, same⟩
  | aborted => exact ⟨publication, List.mem_append_left _ member, same⟩
  | _ => exact ⟨publication, member, same⟩

theorem history_step (accounted : Accounted config s) (effect : Effect config s a t) {id : Uuid}
    {row : OutboxRow Payload} (found : t.rows.get id = some row) : id ∈ t.appended := by
  have change := row_change accounted.locking effect id
  rw [found] at change
  generalize stored : s.rows.get id = old at change
  cases change with
  | same => exact appended_mono effect (accounted.history id row stored)
  | appended fresh logged => exact logged
  | committed inside writes addressed =>
      exact appended_mono effect (accounted.history id _ stored)
  | requeued failed unlocked => exact appended_mono effect (accounted.history id _ stored)
  | failureRecorded recorded failing unlocked =>
      exact appended_mono effect (accounted.history id _ stored)

theorem known_step (accounted : Accounted config s) (effect : Effect config s a t)
    {published : Published Payload} (member : published ∈ t.published) :
    published.message.eventId ∈ t.appended := by
  have read {poller : PollerId} {row : OutboxRow Payload} {stage : Stage} {ids : List Uuid}
      (inside : s.pollers poller = .inside row stage ids) : row.id ∈ s.appended :=
    accounted.history row.id row (accounted.locking.current poller row stage ids inside).1
  apply appended_mono effect
  cases effect with
  | relayed locked =>
      rcases List.mem_append.mp member with old | new
      · exact accounted.known published old
      · rw [List.mem_singleton.mp new, publication_eventId]
        exact read locked
  | aborted sent own inside leaves =>
      rcases List.mem_append.mp member with old | new
      · exact accounted.known published old
      · obtain ⟨topic, rfl⟩ := own published new
        exact read inside
  | _ => exact accounted.known published member

theorem relayed_step (accounted : Accounted config s) (effect : Effect config s a t)
    {other : PollerId} {row : OutboxRow Payload} {ids : List Uuid}
    (after : t.pollers other = .inside row .relayed ids) : t.WasPublished row.id := by
  have before (inside : s.pollers other = .inside row .relayed ids) : t.WasPublished row.id :=
    published_mono effect (accounted.relayed other row ids inside)
  cases effect with
  | appended => exact before after
  | moved outside leaves => exact before (inside_of_setPoller leaves after).2
  | entered =>
      rw [pollers_setPoller] at after
      split at after
      · cases after
      · exact before after
  | @relayed _ poller row' ids' topic locked =>
      rw [pollers_setPoller] at after
      split at after
      · cases after
        exact ⟨publication topic row, List.mem_append_right _ List.mem_cons_self, rfl⟩
      · exact before after
  | quarantined =>
      rw [pollers_setPoller] at after
      split at after
      · cases after
      · exact before after
  | aborted sent own inside leaves => exact before (inside_of_setPoller leaves after).2
  | committed inside writes leaves => exact before (inside_of_setPoller leaves after).2
  | failureRecorded => exact before (inside_of_setPoller (holds_between _) after).2
  | requeued => exact before after
  | purged => exact before after
  | unchanged => exact before after

theorem unmapped_step (accounted : Accounted config s) (effect : Effect config s a t)
    {other : PollerId} {row : OutboxRow Payload} {error : String} {now : Timestamp}
    {ids : List Uuid} (after : t.pollers other = .inside row (.quarantined error now) ids) :
    config.topicMap row.eventType = none := by
  have before := accounted.unmapped other row error now ids
  cases effect with
  | appended => exact before after
  | moved outside leaves => exact before (inside_of_setPoller leaves after).2
  | entered =>
      rw [pollers_setPoller] at after
      split at after
      · cases after
      · exact before after
  | relayed =>
      rw [pollers_setPoller] at after
      split at after
      · cases after
      · exact before after
  | quarantined locked unmapped =>
      rw [pollers_setPoller] at after
      split at after
      · cases after
        exact unmapped
      · exact before after
  | aborted sent own inside leaves => exact before (inside_of_setPoller leaves after).2
  | committed inside writes leaves => exact before (inside_of_setPoller leaves after).2
  | failureRecorded => exact before (inside_of_setPoller (holds_between _) after).2
  | requeued => exact before after
  | purged => exact before after
  | unchanged => exact before after

/-- A failure that is recorded, also late, leaves the row accounted for. -/
theorem accounted_record_failure {wasPublished : Prop} {row : OutboxRow Payload} {error : String}
    {now : Timestamp} (before : AccountedRow config wasPublished (some row)) :
    AccountedRow config wasPublished (some (recordFailure config.maxRetries error now row)) := by
  simp only [AccountedRow, recordFailure_status, recordFailure_retryCount,
    recordFailure_eventType] at before ⊢
  by_cases limit : row.retryCount + 1 ≥ config.maxRetries
  · simp only [if_pos limit]
    exact .inl limit
  · simp only [if_neg limit]
    cases status : row.status with
    | PENDING => trivial
    | SENT => simpa only [status] using before
    | FAILED =>
        simp only [status] at before
        rcases before with exhausted | unmapped
        · omega
        · exact .inr unmapped

theorem accounted_mono {before after : Prop} (stays : before → after)
    {row : Option (OutboxRow Payload)} (accounted : AccountedRow config before row) :
    AccountedRow config after row := by
  cases row with
  | none => exact stays accounted
  | some row =>
      simp only [AccountedRow] at accounted ⊢
      cases status : row.status with
      | PENDING => trivial
      | SENT =>
          rw [status] at accounted
          exact stays accounted
      | FAILED =>
          rw [status] at accounted
          exact accounted

theorem logged_pending (effect : Effect config s a t) {id : Uuid} (new : id ∉ s.appended)
    (logged : id ∈ t.appended) : ∃ row, t.rows.get id = some row ∧ row.status = .PENDING := by
  cases effect with
  | @appended _ event newId createdAt rows fresh inserted =>
      rcases List.mem_cons.mp logged with same | old
      · subst same
        refine ⟨newRow event id createdAt, ?_, newRow_status ..⟩
        change Table.get rows id = _
        rw [Table.get_insert inserted, newRow_id, if_pos rfl]
      · exact absurd old new
  | _ => exact absurd logged new

theorem row_accounted_step (accounted : Accounted config s) (effect : Effect config s a t)
    {id : Uuid} (logged : id ∈ t.appended) : RowAccounted config t id := by
  by_cases known : id ∈ s.appended
  · have before := accounted_mono (published_mono effect) (accounted.accounted id known)
    have change := row_change accounted.locking effect id
    unfold RowAccounted
    generalize s.rows.get id = old at before change
    generalize t.rows.get id = new at change ⊢
    cases change with
    | same => exact before
    | appended fresh _ => exact absurd known fresh
    | @committed poller row stage ids f inside writes addressed =>
        subst addressed
        cases writes with
        | sent => exact published_mono effect (accounted.relayed poller row ids inside)
        | failed error now => exact .inr (accounted.unmapped poller row error now ids inside)
    | failureRecorded => exact accounted_record_failure before
    | requeued => trivial
    | purged sent =>
        rw [AccountedRow, sent] at before
        exact before
  · obtain ⟨row, found, pending⟩ := logged_pending effect known logged
    rw [RowAccounted, found, AccountedRow, pending]
    trivial

theorem accounted_step (accounted : Accounted config s) (effect : Effect config s a t) :
    Accounted config t where
  locking := locking_step accounted.locking effect
  history := fun _ _ found => history_step accounted effect found
  known := fun _ member => known_step accounted effect member
  relayed := fun _ _ _ after => relayed_step accounted effect after
  unmapped := fun _ _ _ _ _ after => unmapped_step accounted effect after
  accounted := fun _ logged => row_accounted_step accounted effect logged

/-- Whatever takes a row out of the queue comes after its publication. -/
theorem leaves_after_publish (accounted : Accounted config s) (effect : Effect config s a t)
    {id : Uuid} (leaves : LeavesQueue s t id) : s.WasPublished id := by
  obtain ⟨row, stored, gone⟩ := leaves
  have before := accounted.accounted id (accounted.history id row stored)
  have change := row_change accounted.locking effect id
  rw [RowAccounted, stored] at before
  rw [stored] at change
  rcases gone with absent | ⟨row', found, sent, unsent⟩
  · rw [absent] at change
    cases change with
    | purged status =>
        rw [AccountedRow, status] at before
        exact before
  · rw [found] at change
    cases change with
    | same => exact absurd sent unsent
    | @committed poller _ stage ids f inside writes addressed =>
        subst addressed
        cases writes with
        | sent => exact accounted.relayed poller row ids inside
        | failed error now => cases sent
    | failureRecorded =>
        rw [recordFailure_status] at sent
        split at sent
        · cases sent
        · exact absurd sent unsent
    | requeued => cases sent

theorem end_transaction_frame (s : State Payload) (poller : PollerId) {id other : Uuid}
    (f : OutboxRow Payload → OutboxRow Payload) (keeps : ∀ row, (f row).id = row.id)
    (ids : List Uuid) (outcome : CommitOutcome) (different : other ≠ id) :
    (endTransaction s poller id f keeps ids outcome).rows.get other = s.rows.get other := by
  have written : (s.rows.updateAt id f keeps).get other = s.rows.get other := by
    rw [Table.get_updateAt, if_neg different]
  rcases outcome with _ | ⟨_ | _, error⟩
  · exact written
  · rfl
  · exact written

theorem commit_frame {poller : PollerId} {outcome : CommitOutcome}
    (taken : commit s poller outcome = some t) {id : Uuid}
    (other : (s.pollers poller).current ≠ some id) : t.rows.get id = s.rows.get id := by
  unfold commit at taken
  split at taken
  · rename_i row ids phase
    cases taken
    apply end_transaction_frame s poller setSent setSent_id ids outcome
    rintro rfl
    exact other (by rw [phase]; rfl)
  · rename_i row error now ids phase
    cases taken
    refine end_transaction_frame s poller (markFailed error now none)
      (markFailed_id error now none) ids outcome ?_
    rintro rfl
    exact other (by rw [phase]; rfl)
  · cases taken

theorem record_failure_frame {poller : PollerId} {now : Timestamp}
    (taken : recordFailureOf config s poller now = some t) {id : Uuid}
    (other : (s.pollers poller).current ≠ some id) : t.rows.get id = s.rows.get id := by
  unfold recordFailureOf at taken
  split at taken
  · rename_i failed error ids phase
    split at taken
    · cases taken
    · cases taken
      change (s.rows.updateAt failed _ (recordFailure_id config.maxRetries error now)).get id = _
      rw [Table.get_updateAt, if_neg]
      rintro rfl
      exact other (by rw [phase]; rfl)
  · cases taken

theorem crash_rows (s : State Payload) (poller : PollerId) : (crash s poller).rows = s.rows := by
  unfold crash
  split <;> rfl

/-- A poller writes the row it is working on and no other. -/
theorem poller_frame [DecidableEq Payload] (taken : step config s a = some t)
    {poller : PollerId} (acts : a.poller = some poller) {id : Uuid}
    (other : (s.pollers poller).current ≠ some id) : t.rows.get id = s.rows.get id := by
  cases a with
  | append event newId createdAt => cases acts
  | snapshotPendingIds =>
      simp only [step, snapshotPendingIds] at taken
      repeat' split at taken
      all_goals cases taken
      rfl
  | lockRow =>
      simp only [step, lockRow] at taken
      repeat' split at taken
      all_goals cases taken
      all_goals rfl
  | lockRowError =>
      simp only [step, lockRowError] at taken
      split at taken
      all_goals cases taken
      rfl
  | publish =>
      simp only [step, publish] at taken
      repeat' split at taken
      all_goals cases taken
      all_goals rfl
  | commit =>
      cases acts
      exact commit_frame taken other
  | recordFailure =>
      cases acts
      exact record_failure_frame taken other
  | recordFailureError =>
      simp only [step, recordFailureError] at taken
      split at taken
      all_goals cases taken
      rfl
  | finish =>
      simp only [step, finish] at taken
      split at taken
      all_goals cases taken
      rfl
  | crash dead =>
      cases taken
      rw [crash_rows]
  | requeueFailed => cases acts
  | purgeSent => cases acts

end

variable [DecidableEq Payload]

/-- At-least-once delivery, in every state that a run of the relay, its operators and the
appending use cases reaches. -/
theorem outbox_at_least_once (config : PollerConfig) (actions : List (Action Payload))
    (s : State Payload) (reached : run (step config) .start actions = some s) :
    (∀ id ∈ s.appended, RowAccounted config s id) ∧
    ∀ a t, step config s a = some t →
      (∀ id, LeavesQueue s t id → s.WasPublished id) ∧
      ∀ poller, a.poller = some poller → ∀ id, (s.pollers poller).current ≠ some id →
        t.rows.get id = s.rows.get id := by
  have accounted : Accounted config s :=
    run_preserves (fun _ _ _ taken holds => accounted_step holds (step_effect taken)) reached
      (accounted_start config)
  refine ⟨accounted.accounted, fun a t taken => ⟨fun id leaves => ?_, fun poller acts id other => ?_⟩⟩
  · exact leaves_after_publish accounted (step_effect taken) leaves
  · exact poller_frame taken acts other

def workerConfig : PollerConfig where
  topicMap := fun eventType =>
    if eventType = "InsightRequested" ∨ eventType = "InsightCompleted" then
      some "yomochi.insights.v1"
    else none
  batchSize := 100
  maxRetries := 5

def requestedEvent : OutboxEvent Unit where
  eventType := "InsightRequested"
  aggregateId := "7"
  payload := ()
  occurredAt := 0
  userId := some 3

/-- Two pollers have the event in their batch. The publish of the first raises; the second
publishes and commits before the first records its failure. -/
def lateFailure : List (Action Unit) :=
  [.append requestedEvent 1 10, .snapshotPendingIds 0 [newRow requestedEvent 1 10],
    .snapshotPendingIds 1 [newRow requestedEvent 1 10], .lockRow 0 false,
    .publish 0 (.raised false "timeout") 20, .lockRow 1 false, .publish 1 .returned 21,
    .commit 1 .committed]

theorem late_failure_runs : (run (step workerConfig) .start lateFailure).isSome = true := by
  decide +kernel

theorem outbox_at_least_once_late_failure :
    ∃ s, run (step workerConfig) .start lateFailure = some s ∧
      (∀ id ∈ s.appended, RowAccounted workerConfig s id) ∧
      ∀ a t, step workerConfig s a = some t →
        (∀ id, LeavesQueue s t id → s.WasPublished id) ∧
        ∀ poller, a.poller = some poller → ∀ id, (s.pollers poller).current ≠ some id →
          t.rows.get id = s.rows.get id := by
  obtain ⟨s, reached⟩ := Option.isSome_iff_exists.mp late_failure_runs
  exact ⟨s, reached, outbox_at_least_once workerConfig lateFailure s reached⟩

end Yomochi.Outbox
