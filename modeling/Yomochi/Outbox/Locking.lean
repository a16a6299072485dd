import Yomochi.Outbox.Poller

/-! What one step can do, said once, and the row locks: a poller inside its row transaction
holds the lock, and the stored row is still the PENDING row that it read. -/

namespace Yomochi.Outbox

open Foundation

variable {Payload : Type}

@[simp] theorem holds_idle : (.idle : Phase Payload).holds = none := rfl

@[simp] theorem holds_between (ids : List Uuid) :
    (.between ids : Phase Payload).holds = none := rfl

@[simp] theorem holds_failing (id : Uuid) (error : String) (ids : List Uuid) :
    (.failing id error ids : Phase Payload).holds = none := rfl

@[simp] theorem holds_inside (row : OutboxRow Payload) (stage : Stage) (ids : List Uuid) :
    (Phase.inside row stage ids).holds = some row.id := rfl

theorem holds_eq_some {phase : Phase Payload} {id : Uuid} :
    phase.holds = some id ↔ ∃ row stage ids, phase = .inside row stage ids ∧ row.id = id := by
  cases phase <;> simp [Phase.holds]

/-- The UPDATE that the row transaction has executed when it reaches its end. -/
inductive Stage.Writes : Stage → (OutboxRow Payload → OutboxRow Payload) → Prop
  | sent : Stage.Writes .relayed setSent
  | failed (error : String) (now : Timestamp) :
      Stage.Writes (.quarantined error now) (markFailed error now none)

inductive Effect (config : PollerConfig) (s : State Payload) :
    Action Payload → State Payload → Prop
  | appended {a} {event : OutboxEvent Payload} {id : Uuid} {createdAt : Timestamp}
      {rows : OutboxEvents Payload} (fresh : id ∉ s.appended)
      (inserted : s.rows.insert (newRow event id createdAt) = some rows) :
      Effect config s a { s with rows := rows, appended := id :: s.appended }
  | moved {a} {poller : PollerId} {phase : Phase Payload}
      (outside : (s.pollers poller).holds = none) (leaves : phase.holds = none) :
      Effect config s a (s.setPoller poller phase)
  | entered {a} {poller : PollerId} {row : OutboxRow Payload} {ids : List Uuid}
      (outside : (s.pollers poller).holds = none) (unlocked : s.locks row.id = none)
      (stored : s.rows.get row.id = some row) (pending : row.status = .PENDING) :
      Effect config s a ((s.lock row.id poller).setPoller poller (.inside row .locked ids))
  | relayed {a} {poller : PollerId} {row : OutboxRow Payload} {ids : List Uuid} {topic : String}
      (locked : s.pollers poller = .inside row .locked ids) :
      Effect config s a
        ((s.send (publication topic row)).setPoller poller (.inside row .relayed ids))
  | quarantined {a} {poller : PollerId} {row : OutboxRow Payload} {ids : List Uuid}
      {error : String} {now : Timestamp} (locked : s.pollers poller = .inside row .locked ids)
      (unmapped : config.topicMap row.eventType = none) :
      Effect config s a (s.setPoller poller (.inside row (.quarantined error now) ids))
  | aborted {a} {poller : PollerId} {row : OutboxRow Payload} {stage : Stage} {ids : List Uuid}
      {phase : Phase Payload} (sent : List (Published Payload))
      (own : ∀ published ∈ sent, ∃ topic, published = publication topic row)
      (inside : s.pollers poller = .inside row stage ids) (leaves : phase.holds = none) :
      Effect config s a
        ((({ s with published := s.published ++ sent } : State Payload).unlock row.id).setPoller
          poller phase)
  | committed {a} {poller : PollerId} {row : OutboxRow Payload} {stage : Stage}
      {ids : List Uuid} {phase : Phase Payload} {f : OutboxRow Payload → OutboxRow Payload}
      {keeps : ∀ row, (f row).id = row.id} (inside : s.pollers poller = .inside row stage ids)
      (writes : stage.Writes f) (leaves : phase.holds = none) :
      Effect config s a (((s.write row.id f keeps).unlock row.id).setPoller poller phase)
  | failureRecorded {poller : PollerId} {id : Uuid} {error : String} {ids : List Uuid}
      {now : Timestamp} (failing : s.pollers poller = .failing id error ids)
      (unlocked : s.locks id = none) :
      Effect config s (.recordFailure poller now)
        ((s.write id (recordFailure config.maxRetries error now)
          (recordFailure_id config.maxRetries error now)).setPoller poller (.between ids))
  | requeued {a} {picked : OutboxRow Payload → Bool}
      (failed : ∀ row ∈ s.rows.rows, picked row = true →
        row.status = .FAILED ∧ s.locks row.id = none) :
      Effect config s a { s with rows := s.rows.updateWhere picked requeue requeue_id }
  | purged {a} {picked : OutboxRow Payload → Bool}
      (sent : ∀ row ∈ s.rows.rows, picked row = true → row.status = .SENT) :
      Effect config s a { s with rows := s.rows.delete picked }
  | unchanged {a} : Effect config s a s

theorem answered_of_id {rows : OutboxEvents Payload} {answer : List (OutboxRow Payload)}
    {P : OutboxRow Payload → Prop} (answered : ∀ row ∈ answer, row ∈ rows.rows ∧ P row)
    {row : OutboxRow Payload} (member : row ∈ rows.rows)
    (picked : (answer.map (·.id)).contains row.id = true) : P row := by
  rw [List.contains_iff_mem] at picked
  obtain ⟨other, inside, same⟩ := List.mem_map.mp picked
  obtain ⟨stored, holds⟩ := answered other inside
  have equal := List.inj_on_of_nodup_map rows.unique stored member same
  exact equal ▸ holds

section

variable {config : PollerConfig} {s t : State Payload}

theorem append_effect {a : Action Payload} {event : OutboxEvent Payload} {id : Uuid}
    {createdAt : Timestamp} (taken : append s event id createdAt = some t) :
    Effect config s a t := by
  unfold append at taken
  split at taken
  · cases taken
  · rename_i fresh
    obtain ⟨rows, inserted, rfl⟩ := Option.map_eq_some_iff.mp taken
    exact .appended fresh inserted

theorem lock_row_effect {a : Action Payload} {poller : PollerId} {contended : Bool}
    (taken : lockRow s poller contended = some t) : Effect config s a t := by
  unfold lockRow at taken
  split at taken
  · rename_i id ids phase
    have outside : (s.pollers poller).holds = none := by rw [phase, holds_between]
    split at taken
    · cases taken
      exact .moved outside (holds_between ids)
    · rename_i free
      split at taken
      · cases taken
        exact .moved outside (holds_between ids)
      · rename_i row found
        cases taken
        obtain ⟨stored, pending⟩ := Option.filter_eq_some_iff.mp found
        have same := Table.key_of_get stored
        subst same
        have unlocked : s.locks row.id = none := by
          simp only [Bool.or_eq_true, Option.isSome_iff_ne_none, ne_eq, not_or, not_not] at free
          exact free.2
        exact .entered outside unlocked stored (of_decide_eq_true pending)
  · cases taken

theorem publish_effect {a : Action Payload} {poller : PollerId} {outcome : PublishOutcome}
    {now : Timestamp} (taken : publish config s poller outcome now = some t) :
    Effect config s a t := by
  unfold publish at taken
  split at taken
  · rename_i row ids phase
    split at taken
    · rename_i unmapped
      cases taken
      exact .quarantined phase unmapped
    · rename_i topic mapped
      split at taken
      · cases taken
        exact .relayed phase
      · cases taken
        have own : ∀ published ∈ [publication topic row],
            ∃ topic, published = publication topic row :=
          fun published member => ⟨topic, List.mem_singleton.mp member⟩
        exact .aborted [publication topic row] own phase (holds_failing ..)
      · rename_i error
        cases taken
        have effect : Effect config s a _ := .aborted [] (by simp) phase
          (holds_failing row.id error ids)
        simpa only [List.append_nil] using effect
  · cases taken

theorem end_transaction_effect {a : Action Payload} {poller : PollerId}
    {row : OutboxRow Payload} {stage : Stage} {ids : List Uuid}
    {f : OutboxRow Payload → OutboxRow Payload} {keeps : ∀ row, (f row).id = row.id}
    (inside : s.pollers poller = .inside row stage ids) (writes : stage.Writes f)
    (outcome : CommitOutcome) :
    Effect config s a (endTransaction s poller row.id f keeps ids outcome) := by
  cases outcome with
  | committed => exact .committed inside writes (holds_between ids)
  | raised applied error =>
      cases applied with
      | true => exact .committed inside writes (holds_failing row.id error ids)
      | false =>
          have effect : Effect config s a _ :=
            .aborted [] (by simp) inside (holds_failing row.id error ids)
          simpa only [List.append_nil, endTransaction] using effect

theorem commit_effect {a : Action Payload} {poller : PollerId} {outcome : CommitOutcome}
    (taken : commit s poller outcome = some t) : Effect config s a t := by
  unfold commit at taken
  split at taken
  · rename_i row ids phase
    cases taken
    exact end_transaction_effect phase .sent outcome
  · rename_i row error now ids phase
    cases taken
    exact end_transaction_effect phase (.failed error now) outcome
  · cases taken

theorem record_failure_effect {poller : PollerId} {now : Timestamp}
    (taken : recordFailureOf config s poller now = some t) :
    Effect config s (.recordFailure poller now) t := by
  unfold recordFailureOf at taken
  split at taken
  · rename_i id error ids phase
    split at taken
    · cases taken
    · rename_i free
      cases taken
      exact .failureRecorded phase (by simpa using free)
  · cases taken

theorem crash_effect (a : Action Payload) (poller : PollerId) :
    Effect config s a (crash s poller) := by
  unfold crash
  split
  · rename_i id held
    obtain ⟨row, stage, ids, phase, same⟩ := holds_eq_some.mp held
    subst same
    have effect : Effect config s a _ := .aborted [] (by simp) phase holds_idle
    simpa only [List.append_nil] using effect
  · rename_i outside
    exact .moved outside holds_idle

variable [DecidableEq Payload]

theorem requeue_failed_effect {a : Action Payload} {request : RequeueFailed}
    {answer : List (OutboxRow Payload)} (taken : requeueFailed s request answer = some t) :
    Effect config s a t := by
  unfold requeueFailed at taken
  split at taken
  · rename_i selects
    split at taken
    · cases taken
      exact .unchanged
    · cases taken
      refine .requeued fun row member picked => ?_
      refine answered_of_id (P := fun row => row.status = .FAILED ∧ s.locks row.id = none)
        (fun other inside => ?_) member picked
      have answered := selects_mem selects inside
      simp only [RequeueFailed.selects, Bool.and_eq_true, decide_eq_true_eq,
        Option.isNone_iff_eq_none] at answered
      exact ⟨answered.1, answered.2.1.1.1.1, answered.2.2⟩
  · cases taken

theorem purge_sent_effect {a : Action Payload} {now : Timestamp}
    {answer : List (OutboxRow Payload)} (taken : purgeSent s now answer = some t) :
    Effect config s a t := by
  unfold purgeSent at taken
  split at taken
  · rename_i selects
    cases taken
    refine .purged fun row member picked => ?_
    refine answered_of_id (P := fun row => row.status = .SENT) (fun other inside => ?_)
      member picked
    have answered := selects_mem selects inside
    simp only [purgeable, Bool.and_eq_true, decide_eq_true_eq] at answered
    exact ⟨answered.1, answered.2.1⟩
  · cases taken

theorem step_effect {a : Action Payload} (taken : step config s a = some t) :
    Effect config s a t := by
  cases a with
  | append event id createdAt => exact append_effect taken
  | snapshotPendingIds poller answer =>
      simp only [step, snapshotPendingIds] at taken
      split at taken
      · rename_i phase
        split at taken
        · cases taken
          exact .moved (by rw [phase, holds_idle]) (holds_between _)
        · cases taken
      · cases taken
  | lockRow poller contended => exact lock_row_effect taken
  | lockRowError poller error =>
      simp only [step, lockRowError] at taken
      split at taken
      · rename_i phase
        cases taken
        exact .moved (by rw [phase, holds_between]) (holds_failing ..)
      · cases taken
  | publish poller outcome now => exact publish_effect taken
  | commit poller outcome => exact commit_effect taken
  | recordFailure poller now => exact record_failure_effect taken
  | recordFailureError poller =>
      simp only [step, recordFailureError] at taken
      split at taken
      · rename_i phase
        cases taken
        exact .moved (by rw [phase, holds_failing]) (holds_between _)
      · cases taken
  | finish poller =>
      simp only [step, finish] at taken
      split at taken
      · rename_i phase
        cases taken
        exact .moved (by rw [phase, holds_between]) holds_idle
      · cases taken
  | crash poller =>
      cases taken
      exact crash_effect _ poller
  | requeueFailed request answer => exact requeue_failed_effect taken
  | purgeSent now answer => exact purge_sent_effect taken

end

/-- The lock table is what the open row transactions hold, and a locked row is stored as its
poller read it. -/
structure Locking (s : State Payload) : Prop where
  lock_iff : ∀ poller id, s.locks id = some poller ↔ (s.pollers poller).holds = some id
  current : ∀ poller row stage ids, s.pollers poller = .inside row stage ids →
    s.rows.get row.id = some row ∧ row.status = .PENDING

theorem locking_start : Locking (.start : State Payload) where
  lock_iff := by
    intro poller id
    simp [State.start]
  current := by
    intro poller row stage ids inside
    simp [State.start] at inside

inductive RowChange (config : PollerConfig) (s : State Payload) (a : Action Payload)
    (t : State Payload) (id : Uuid) :
    Option (OutboxRow Payload) → Option (OutboxRow Payload) → Prop
  | same {old} : RowChange config s a t id old old
  | appended {event : OutboxEvent Payload} {createdAt : Timestamp} (fresh : id ∉ s.appended)
      (logged : id ∈ t.appended) :
      RowChange config s a t id none (some (newRow event id createdAt))
  | committed {poller : PollerId} {row : OutboxRow Payload} {stage : Stage} {ids : List Uuid}
      {f : OutboxRow Payload → OutboxRow Payload} (inside : s.pollers poller = .inside row stage ids)
      (writes : stage.Writes f) (addressed : row.id = id) :
      RowChange config s a t id (some row) (some (f row))
  | failureRecorded {row : OutboxRow Payload} {poller : PollerId} {error : String}
      {ids : List Uuid} {now : Timestamp} (recorded : a = .recordFailure poller now)
      (failing : s.pollers poller = .failing id error ids) (unlocked : s.locks id = none) :
      RowChange config s a t id (some row) (some (recordFailure config.maxRetries error now row))
  | requeued {row : OutboxRow Payload} (failed : row.status = .FAILED)
      (unlocked : s.locks id = none) :
      RowChange config s a t id (some row) (some (requeue row))
  | purged {row : OutboxRow Payload} (sent : row.status = .SENT) :
      RowChange config s a t id (some row) none

section

variable {config : PollerConfig} {s t : State Payload} {a : Action Payload}

theorem row_change (locking : Locking s) (effect : Effect config s a t) (id : Uuid) :
    RowChange config s a t id (s.rows.get id) (t.rows.get id) := by
  cases effect with
  | @appended _ event newId createdAt rows fresh inserted =>
      rw [Table.get_insert inserted, newRow_id]
      by_cases same : newId = id
      · subst same
        have absent := (Table.insert_eq_some inserted).1
        rw [newRow_id] at absent
        rw [if_pos rfl, absent]
        exact .appended fresh List.mem_cons_self
      · rw [if_neg same]
        exact .same
  | moved => exact .same
  | entered => exact .same
  | relayed => exact .same
  | quarantined => exact .same
  | aborted => exact .same
  | @committed _ poller row stage ids phase f keeps inside writes leaves =>
      change RowChange config s a _ id _ ((s.rows.updateAt row.id f keeps).get id)
      rw [Table.get_updateAt]
      by_cases same : id = row.id
      · rw [if_pos same, same, (locking.current poller row stage ids inside).1]
        exact .committed inside writes rfl
      · rw [if_neg same]
        exact .same
  | @failureRecorded poller failed error ids now failing unlocked =>
      change RowChange config s _ _ id _ ((s.rows.updateAt failed _
        (recordFailure_id config.maxRetries error now)).get id)
      rw [Table.get_updateAt]
      by_cases same : id = failed
      · subst same
        rw [if_pos rfl]
        cases s.rows.get id with
        | none => exact .same
        | some row => exact .failureRecorded rfl failing unlocked
      · rw [if_neg same]
        exact .same
  | @requeued _ picked failed =>
      rw [Table.get_updateWhere]
      cases found : s.rows.get id with
      | none => exact .same
      | some row =>
          have member := Table.mem_of_get found
          have same := Table.key_of_get found
          subst same
          rw [Option.map_some]
          split
          · rename_i chosen
            obtain ⟨status, unlocked⟩ := failed row member chosen
            exact .requeued status unlocked
          · exact .same
  | @purged _ picked sent =>
      rw [Table.get_delete]
      cases found : s.rows.get id with
      | none => exact .same
      | some row =>
          by_cases chosen : picked row = true
          · simp only [Option.filter, chosen, Bool.not_true, Bool.false_eq_true, if_false]
            exact .purged (sent row (Table.mem_of_get found) chosen)
          · simp only [Option.filter, chosen, Bool.not_false, if_true]
            exact .same
  | unchanged => exact .same

theorem pollers_setPoller (s : State Payload) (poller other : PollerId) (phase : Phase Payload) :
    (s.setPoller poller phase).pollers other =
      if other = poller then phase else s.pollers other :=
  Function.update_apply s.pollers poller phase other

theorem inside_of_setPoller {poller other : PollerId} {phase : Phase Payload}
    {row : OutboxRow Payload} {stage : Stage} {ids : List Uuid} (leaves : phase.holds = none)
    (inside : (s.setPoller poller phase).pollers other = .inside row stage ids) :
    other ≠ poller ∧ s.pollers other = .inside row stage ids := by
  rw [pollers_setPoller] at inside
  split at inside
  · rw [inside, holds_inside] at leaves
    cases leaves
  · rename_i different
    exact ⟨different, inside⟩

theorem inside_of_restage {poller other : PollerId} {row row' : OutboxRow Payload}
    {stage stage' stage'' : Stage} {ids ids' : List Uuid}
    (inside : s.pollers poller = .inside row' stage' ids')
    (after : (s.setPoller poller (.inside row' stage'' ids')).pollers other =
      .inside row stage ids) :
    ∃ stage ids, s.pollers other = .inside row stage ids := by
  rw [pollers_setPoller] at after
  split at after
  · rename_i same
    rw [same]
    cases after
    exact ⟨_, _, inside⟩
  · exact ⟨stage, ids, after⟩

theorem lock_iff_keep (locking : Locking s) {poller : PollerId} {phase : Phase Payload}
    (keeps : phase.holds = (s.pollers poller).holds) (other : PollerId) (id : Uuid) :
    s.locks id = some other ↔ ((s.setPoller poller phase).pollers other).holds = some id := by
  rw [pollers_setPoller]
  split
  · rename_i same
    rw [keeps, ← same]
    exact locking.lock_iff other id
  · exact locking.lock_iff other id

/-- Two open row transactions have different rows. -/
theorem lock_exclusive (locking : Locking s) {poller other : PollerId}
    {row row' : OutboxRow Payload} {stage stage' : Stage} {ids ids' : List Uuid}
    (first : s.pollers poller = .inside row stage ids)
    (second : s.pollers other = .inside row' stage' ids') (different : other ≠ poller) :
    row'.id ≠ row.id := by
  intro same
  have held := (locking.lock_iff poller row.id).mpr (by rw [first, holds_inside])
  have also := (locking.lock_iff other row'.id).mpr (by rw [second, holds_inside])
  rw [same, held] at also
  exact different (Option.some.inj also).symm

theorem lock_iff_leave (locking : Locking s) {poller : PollerId} {row : OutboxRow Payload}
    {stage : Stage} {ids : List Uuid} {phase : Phase Payload}
    (inside : s.pollers poller = .inside row stage ids) (leaves : phase.holds = none)
    (other : PollerId) (id : Uuid) :
    Function.update s.locks row.id none id = some other ↔
      (Function.update s.pollers poller phase other).holds = some id := by
  rw [Function.update_apply, Function.update_apply]
  have own := locking.lock_iff poller
  have theirs := locking.lock_iff other id
  rw [inside, holds_inside] at own
  by_cases same : other = poller
  · subst same
    by_cases addressed : id = row.id
    · simp [addressed, leaves]
    · simp only [if_neg addressed, if_true, leaves, own id, Option.some.injEq]
      simp [Ne.symm addressed]
  · by_cases addressed : id = row.id
    · subst addressed
      have held := (own row.id).mpr rfl
      rw [if_pos rfl, if_neg same, ← theirs, held]
      simp [Ne.symm same]
    · rw [if_neg addressed, if_neg same]
      exact theirs

theorem lock_iff_step (locking : Locking s) (effect : Effect config s a t) (other : PollerId)
    (id : Uuid) : t.locks id = some other ↔ (t.pollers other).holds = some id := by
  have before := locking.lock_iff other id
  cases effect with
  | appended => exact before
  | moved outside leaves => exact lock_iff_keep locking (leaves.trans outside.symm) other id
  | @entered _ poller row ids outside unlocked stored pending =>
      change Function.update s.locks row.id (some poller) id = some other ↔
        (Function.update s.pollers poller (.inside row .locked ids) other).holds = some id
      rw [Function.update_apply, Function.update_apply]
      by_cases same : other = poller
      · subst same
        by_cases addressed : id = row.id
        · simp [addressed]
        · simp only [if_neg addressed, if_true, holds_inside, before, outside]
          simp [Ne.symm addressed]
      · by_cases addressed : id = row.id
        · subst addressed
          rw [if_pos rfl, if_neg same, ← before, unlocked]
          simp [Ne.symm same]
        · rw [if_neg addressed, if_neg same]
          exact before
  | relayed locked =>
      exact lock_iff_keep locking (by rw [locked, holds_inside, holds_inside]) other id
  | quarantined locked unmapped =>
      exact lock_iff_keep locking (by rw [locked, holds_inside, holds_inside]) other id
  | aborted sent own inside leaves => exact lock_iff_leave locking inside leaves other id
  | committed inside writes leaves => exact lock_iff_leave locking inside leaves other id
  | failureRecorded failing unlocked =>
      exact lock_iff_keep locking (by rw [failing, holds_failing, holds_between]) other id
  | requeued => exact before
  | purged => exact before
  | unchanged => exact before

theorem current_step (locking : Locking s) (effect : Effect config s a t) {other : PollerId}
    {row : OutboxRow Payload} {stage : Stage} {ids : List Uuid}
    (after : t.pollers other = .inside row stage ids) :
    t.rows.get row.id = some row ∧ row.status = .PENDING := by
  have before := locking.current other row
  cases effect with
  | appended fresh inserted =>
      obtain ⟨stored, pending⟩ := before stage ids after
      have absent := (Table.insert_eq_some inserted).1
      refine ⟨?_, pending⟩
      rw [Table.get_insert inserted, newRow_id]
      rw [newRow_id] at absent
      split
      · rename_i same
        rw [same, stored] at absent
        cases absent
      · exact stored
  | moved outside leaves => exact before stage ids (inside_of_setPoller leaves after).2
  | @entered _ poller row' ids' outside unlocked stored pending =>
      rw [pollers_setPoller] at after
      split at after
      · cases after
        exact ⟨stored, pending⟩
      · exact before stage ids after
  | relayed locked =>
      obtain ⟨stage, ids, inside⟩ := inside_of_restage locked after
      exact before stage ids inside
  | quarantined locked unmapped =>
      obtain ⟨stage, ids, inside⟩ := inside_of_restage locked after
      exact before stage ids inside
  | aborted sent own inside leaves => exact before stage ids (inside_of_setPoller leaves after).2
  | @committed _ poller row' stage' ids' phase f keeps inside writes leaves =>
      obtain ⟨different, kept⟩ := inside_of_setPoller leaves after
      obtain ⟨stored, pending⟩ := before stage ids kept
      refine ⟨?_, pending⟩
      change (s.rows.updateAt row'.id f keeps).get row.id = some row
      rw [Table.get_updateAt, if_neg (lock_exclusive locking inside kept different)]
      exact stored
  | @failureRecorded poller failed error ids' now failing unlocked =>
      obtain ⟨different, kept⟩ := inside_of_setPoller (holds_between ids') after
      obtain ⟨stored, pending⟩ := before stage ids kept
      refine ⟨?_, pending⟩
      have held := (locking.lock_iff other row.id).mpr (by
        change s.pollers other = _ at kept
        rw [kept, holds_inside])
      change (s.rows.updateAt failed _
        (recordFailure_id config.maxRetries error now)).get row.id = some row
      rw [Table.get_updateAt, if_neg]
      · exact stored
      · rintro rfl
        rw [held] at unlocked
        cases unlocked
  | @requeued _ picked failed =>
      obtain ⟨stored, pending⟩ := before stage ids after
      refine ⟨?_, pending⟩
      rw [Table.get_updateWhere, stored, Option.map_some]
      split
      · rename_i chosen
        have status := (failed row (Table.mem_of_get stored) chosen).1
        rw [pending] at status
        cases status
      · rfl
  | @purged _ picked sent =>
      obtain ⟨stored, pending⟩ := before stage ids after
      refine ⟨?_, pending⟩
      have kept : picked row ≠ true := by
        intro chosen
        have status := sent row (Table.mem_of_get stored) chosen
        rw [pending] at status
        cases status
      rw [Table.get_delete, stored]
      simp [Option.filter, kept]
  | unchanged => exact before stage ids after

theorem locking_step (locking : Locking s) (effect : Effect config s a t) : Locking t where
  lock_iff := lock_iff_step locking effect
  current := fun _ _ _ _ after => current_step locking effect after

end

end Yomochi.Outbox
