import Yomochi.Outbox.Delivery

/-! What an event says does not change on its way from the table to the broker. -/

namespace Yomochi.Outbox

open Foundation

variable {Payload : Type}

/-- What is stored or published at the second of two states under an id that the first one
knows says what the first one has stored or published. -/
structure Carries (s t : State Payload) : Prop where
  appended : ∀ id ∈ s.appended, id ∈ t.appended
  stored : ∀ id ∈ s.appended, ∀ row', t.rows.get id = some row' →
    ∃ row, s.rows.get id = some row ∧ buildMessage row' = buildMessage row
  sent : ∀ published ∈ t.published, published.message.eventId ∈ s.appended →
    published ∈ s.published ∨
      ∃ row, s.rows.get published.message.eventId = some row ∧
        published.message = buildMessage row
  kept : ∀ published ∈ s.published, published ∈ t.published

theorem carries_refl (s : State Payload) : Carries s s where
  appended := fun _ member => member
  stored := fun _ _ row found => ⟨row, found, rfl⟩
  sent := fun _ member _ => .inl member
  kept := fun _ member => member

theorem carries_trans (s t u : State Payload) (first : Carries s t) (second : Carries t u) :
    Carries s u where
  appended := fun id member => second.appended id (first.appended id member)
  stored := by
    intro id member row'' found''
    obtain ⟨row', found', same'⟩ := second.stored id (first.appended id member) row'' found''
    obtain ⟨row, found, same⟩ := first.stored id member row' found'
    exact ⟨row, found, same'.trans same⟩
  sent := by
    intro published member known
    rcases second.sent published member (first.appended _ known) with old | ⟨row', found', same'⟩
    · exact first.sent published old known
    · obtain ⟨row, found, same⟩ := first.stored _ known row' found'
      exact .inr ⟨row, found, same'.trans same⟩
  kept := fun published member => second.kept published (first.kept published member)

theorem writes_message {stage : Stage} {f : OutboxRow Payload → OutboxRow Payload}
    (writes : stage.Writes f) (row : OutboxRow Payload) : buildMessage (f row) = buildMessage row := by
  cases writes <;> rfl

theorem recordFailure_message (maxRetries : Nat) (error : String) (now : Timestamp)
    (row : OutboxRow Payload) :
    buildMessage (recordFailure maxRetries error now row) = buildMessage row := by
  unfold recordFailure
  split <;> rfl

section

variable {config : PollerConfig} {s t : State Payload} {a : Action Payload}

theorem stored_step (locking : Locking s) (effect : Effect config s a t) {id : Uuid}
    (member : id ∈ s.appended) {row' : OutboxRow Payload} (found : t.rows.get id = some row') :
    ∃ row, s.rows.get id = some row ∧ buildMessage row' = buildMessage row := by
  have change := row_change locking effect id
  rw [found] at change
  generalize s.rows.get id = old at change
  cases change with
  | same => exact ⟨row', rfl, rfl⟩
  | appended fresh _ => exact absurd member fresh
  | committed inside writes _ => exact ⟨_, rfl, writes_message writes _⟩
  | failureRecorded => exact ⟨_, rfl, recordFailure_message ..⟩
  | requeued => exact ⟨_, rfl, rfl⟩

theorem carries_step (accounted : Accounted config s) (effect : Effect config s a t) :
    Carries s t where
  appended := fun _ member => appended_mono effect member
  stored := fun _ member _ found => stored_step accounted.locking effect member found
  sent := by
    intro published member _
    have current {poller : PollerId} {row : OutboxRow Payload} {stage : Stage} {ids : List Uuid}
        (inside : s.pollers poller = .inside row stage ids) : s.rows.get row.id = some row :=
      (accounted.locking.current poller row stage ids inside).1
    cases effect with
    | @relayed _ poller row ids topic locked =>
        rcases List.mem_append.mp member with old | new
        · exact .inl old
        · rw [List.mem_singleton.mp new]
          exact .inr ⟨row, current locked, rfl⟩
    | @aborted _ poller row stage ids phase sent own inside leaves =>
        rcases List.mem_append.mp member with old | new
        · exact .inl old
        · obtain ⟨topic, rfl⟩ := own published new
          exact .inr ⟨row, current inside, rfl⟩
    | _ => exact .inl member
  kept := by
    intro published member
    cases effect with
    | relayed => exact List.mem_append_left _ member
    | aborted => exact List.mem_append_left _ member
    | _ => exact member

end

theorem run_carries [DecidableEq Payload] {config : PollerConfig} {s t : State Payload}
    {actions : List (Action Payload)} (reached : run (step config) s actions = some t)
    (accounted : Accounted config s) : Carries s t := by
  have along : Along (step config) (fun _ _ => True) s actions :=
    along_always (fun _ _ => trivial) s actions
  exact run_related (fun s _ => carries_refl s) carries_trans
    (fun _ _ _ _ taken accounted => accounted_step accounted (step_effect taken))
    (fun _ _ _ _ taken accounted => carries_step accounted (step_effect taken))
    along reached accounted

end Yomochi.Outbox
