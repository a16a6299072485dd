import Yomochi.Insights.Terminal
import Yomochi.Messaging.Pipeline

/-! No queued insight is stranded. Whoever makes an insight QUEUED appends an event for it in
the same transaction, and a consumer that marks that event processed has either taken the
insight out of QUEUED or parked the event. -/

namespace Yomochi.Messaging

open Foundation Insights Outbox

def Requests (body : Body) (insight : Insight) : Prop :=
  body.eventType = "InsightRequested" ∧ processCommand body = ⟨insight.id, insight.userId⟩

/-- Some event of the insight can still start work. -/
def CanStart (s : State) (insight : Insight) : Prop :=
  (∃ eventId row, s.outbox.rows.get eventId = some row ∧ row.status ≠ .SENT ∧
    Requests (buildMessage row) insight) ∨
  (∃ published ∈ s.outbox.published, published.message.eventId ∉ s.processed ∧
    Requests published.message insight) ∨
  ∃ letter ∈ s.deadLetters, Requests letter.body insight

/-- The consumer is past its claim and on its way to mark the event as handled. -/
def State.Settling (s : State) (consumer : WorkerId) (body : Body) : Prop :=
  s.handlers consumer = .settled body ∨
    s.handlers consumer = .running body ∧ (s.insights.workers consumer).claimOver = true

/-- The event keeps the insight supplied: all that is known of it asks for this insight, a mark
came with a dead letter, and nobody is about to mark it otherwise. -/
structure Backed (s : State) (insight : Insight) (eventId : Uuid) : Prop where
  appended : eventId ∈ s.outbox.appended
  stored : ∀ row, s.outbox.rows.get eventId = some row → Requests (buildMessage row) insight
  sent : ∀ published ∈ s.outbox.published, published.message.eventId = eventId →
    Requests published.message insight
  marked : eventId ∈ s.processed →
    ∃ letter ∈ s.deadLetters, Requests letter.body insight
  unsettled : ∀ consumer body, body.eventId = eventId → ¬s.Settling consumer body

structure Supplied (config : PipelineConfig) (s : State) : Prop where
  finishes : PendingFinishes s.insights
  accounted : Accounted config.poller s.outbox
  known : ∀ eventId ∈ s.processed, eventId ∈ s.outbox.appended
  carried : ∀ consumer body, (s.handlers consumer).body = some body →
    ∃ published ∈ s.outbox.published, published.message = body
  linked : ∀ consumer body command, s.handlers consumer = .running body →
    (s.insights.workers consumer).command = some command → command = processCommand body
  parked : ∀ consumer body, s.handlers consumer = .parked body →
    ∃ letter ∈ s.deadLetters, letter.body = body
  backed : ∀ id row, s.insights.rows.get id = some row → row.status = .QUEUED →
    ∃ eventId, Backed s row eventId

theorem supplied_start (config : PipelineConfig) : Supplied config .start where
  finishes := pending_finishes_start
  accounted := accounted_start config.poller
  known := by
    intro eventId member
    cases member
  carried := by
    intro consumer body carries
    cases carries
  linked := by
    intro consumer body command running
    cases running
  parked := by
    intro consumer body parked
    cases parked
  backed := by
    intro id row found
    cases found

theorem inside_worker {a : Insights.Action} {worker : WorkerId}
    (inside : a.inside = some worker) : a.worker = some worker := by
  cases a <;> first | exact inside | cases inside

section

variable {config : PipelineConfig} {s t : State}

theorem can_start_of_supplied (supplied : Supplied config s) {insight : Insight}
    {eventId : Uuid} (backed : Backed s insight eventId) : CanStart s insight := by
  have accounted := supplied.accounted.accounted eventId backed.appended
  have sent (was : s.outbox.WasPublished eventId) : CanStart s insight := by
    obtain ⟨published, member, same⟩ := was
    by_cases marked : eventId ∈ s.processed
    · exact .inr (.inr (backed.marked marked))
    · exact .inr (.inl ⟨published, member, same ▸ marked, backed.sent published member same⟩)
  unfold RowAccounted at accounted
  cases found : s.outbox.rows.get eventId with
  | none =>
      rw [found] at accounted
      exact sent accounted
  | some row =>
      by_cases done : row.status = .SENT
      · rw [found, AccountedRow, done] at accounted
        exact sent accounted
      · exact .inl ⟨eventId, row, found, done, backed.stored row found⟩

/-- What the step of one consumer, with the worker of its number, may do. -/
structure ConsumerStep (s t : State) (consumer : WorkerId) (phase : HandlerPhase) : Prop where
  outbox : t.outbox = s.outbox
  handlers : t.handlers = Function.update s.handlers consumer phase
  workers : ∀ other, other ≠ consumer → t.insights.workers other = s.insights.workers other
  finishes : PendingFinishes t.insights
  queued : ∀ id row, t.insights.rows.get id = some row → row.status = .QUEUED →
    s.insights.rows.get id = some row
  letters : ∀ letter ∈ s.deadLetters, letter ∈ t.deadLetters
  marks : ∀ eventId ∈ t.processed, eventId ∈ s.processed ∨
    ∃ body, body.eventId = eventId ∧
      (s.handlers consumer = .settled body ∨ s.handlers consumer = .parked body)
  carried : ∀ body, phase.body = some body →
    ∃ published ∈ s.outbox.published, published.message = body
  linked : ∀ body command, phase = .running body →
    (t.insights.workers consumer).command = some command → command = processCommand body
  parked : ∀ body, phase = .parked body → ∃ letter ∈ t.deadLetters, letter.body = body
  settling : ∀ body, t.Settling consumer body → s.Settling consumer body ∨
    ∀ id row, t.insights.rows.get id = some row → row.status = .QUEUED → ¬Requests body row

theorem handler_of_step {consumer : WorkerId} {phase : HandlerPhase}
    (taken : ConsumerStep s t consumer phase) (other : WorkerId) :
    t.handlers other = if other = consumer then phase else s.handlers other := by
  rw [taken.handlers]
  exact Function.update_apply ..

/-- A mark of this step on the event of a QUEUED insight comes with a dead letter. -/
theorem backed_marked (supplied : Supplied config s) {consumer : WorkerId}
    {phase : HandlerPhase} (taken : ConsumerStep s t consumer phase) {insight : Insight}
    {eventId : Uuid} (backed : Backed s insight eventId) (marked : eventId ∈ t.processed) :
    ∃ letter ∈ t.deadLetters, Requests letter.body insight := by
  rcases taken.marks eventId marked with before | ⟨body, same, settled | parked⟩
  · obtain ⟨letter, member, requests⟩ := backed.marked before
    exact ⟨letter, taken.letters letter member, requests⟩
  · exact absurd (.inl settled) (backed.unsettled consumer body same)
  · obtain ⟨letter, member, carries⟩ := supplied.parked consumer body parked
    obtain ⟨published, sent, message⟩ := supplied.carried consumer body (by rw [parked]; rfl)
    refine ⟨letter, taken.letters letter member, ?_⟩
    rw [carries, ← message]
    exact backed.sent published sent (by rw [message, same])

theorem backed_consumer (supplied : Supplied config s) {consumer : WorkerId}
    {phase : HandlerPhase} (taken : ConsumerStep s t consumer phase) {id : InsightId}
    {row : InsightRow} (found : t.insights.rows.get id = some row) (queued : row.status = .QUEUED)
    {eventId : Uuid} (backed : Backed s row eventId) : Backed t row eventId where
  appended := by rw [taken.outbox]; exact backed.appended
  stored := by rw [taken.outbox]; exact backed.stored
  sent := by rw [taken.outbox]; exact backed.sent
  marked := backed_marked supplied taken backed
  unsettled := by
    intro other body same settling
    by_cases own : other = consumer
    · subst own
      rcases taken.settling body settling with before | requests
      · exact backed.unsettled other body same before
      · have carries : phase.body = some body := by
          have here := handler_of_step taken other
          rw [if_pos rfl] at here
          rcases settling with settled | ⟨running, _⟩
          · rw [← here, settled]; rfl
          · rw [← here, running]; rfl
        obtain ⟨published, sent, message⟩ := taken.carried body carries
        apply requests id row found queued
        rw [← message]
        exact backed.sent published sent (by rw [message, same])
    · have here := handler_of_step taken other
      rw [if_neg own] at here
      apply backed.unsettled other body same
      unfold State.Settling at settling ⊢
      rwa [here, taken.workers other own] at settling

/-- Every step of a consumer keeps the queued insights supplied. -/
theorem supplied_consumer (supplied : Supplied config s) {consumer : WorkerId}
    {phase : HandlerPhase} (taken : ConsumerStep s t consumer phase) : Supplied config t where
  finishes := taken.finishes
  accounted := by rw [taken.outbox]; exact supplied.accounted
  known := by
    intro eventId marked
    rw [taken.outbox]
    rcases taken.marks eventId marked with before | ⟨body, same, held⟩
    · exact supplied.known eventId before
    · obtain ⟨published, sent, message⟩ := supplied.carried consumer body (by
        rcases held with settled | parked
        · rw [settled]; rfl
        · rw [parked]; rfl)
      have known := supplied.accounted.known published sent
      rwa [message, same] at known
  carried := by
    intro other body carries
    rw [taken.outbox]
    rw [handler_of_step taken other] at carries
    split at carries
    · exact taken.carried body carries
    · exact supplied.carried other body carries
  linked := by
    intro other body command running called
    rw [handler_of_step taken other] at running
    split at running
    · rename_i same
      subst same
      exact taken.linked body command running called
    · rename_i different
      rw [taken.workers other different] at called
      exact supplied.linked other body command running called
  parked := by
    intro other body parked
    rw [handler_of_step taken other] at parked
    split at parked
    · exact taken.parked body parked
    · obtain ⟨letter, member, same⟩ := supplied.parked other body parked
      exact ⟨letter, taken.letters letter member, same⟩
  backed := by
    intro id row found queued
    obtain ⟨eventId, backed⟩ := supplied.backed id row (taken.queued id row found queued) queued
    exact ⟨eventId, backed_consumer supplied taken found queued backed⟩

theorem still_step (supplied : Supplied config s) {consumer : WorkerId} {phase : HandlerPhase}
    (outbox : t.outbox = s.outbox) (insights : t.insights = s.insights)
    (handlers : t.handlers = Function.update s.handlers consumer phase)
    (letters : ∀ letter ∈ s.deadLetters, letter ∈ t.deadLetters)
    (marks : ∀ eventId ∈ t.processed, eventId ∈ s.processed ∨
      ∃ body, body.eventId = eventId ∧
        (s.handlers consumer = .settled body ∨ s.handlers consumer = .parked body))
    (carried : ∀ body, phase.body = some body →
      ∃ published ∈ s.outbox.published, published.message = body)
    (outside : ∀ body, phase ≠ .running body)
    (parked : ∀ body, phase = .parked body → ∃ letter ∈ t.deadLetters, letter.body = body)
    (settled : ∀ body, phase = .settled body → body.eventType ≠ "InsightRequested") :
    ConsumerStep s t consumer phase where
  outbox := outbox
  handlers := handlers
  workers := fun _ _ => by rw [insights]
  finishes := by rw [insights]; exact supplied.finishes
  queued := fun _ _ found _ => by rwa [insights] at found
  letters := letters
  marks := marks
  carried := carried
  linked := fun body _ running => absurd running (outside body)
  parked := parked
  settling := by
    intro body settling
    have here : t.handlers consumer = phase := by rw [handlers, Function.update_self]
    rcases settling with done | ⟨running, _⟩
    · rw [here] at done
      exact .inr fun _ _ _ _ requests => settled body done requests.1
    · rw [here] at running
      exact absurd running (outside body)

theorem deliver_step (supplied : Supplied config s) {consumer : WorkerId}
    {published : Published InsightPayload} (taken : deliver s consumer published = some t) :
    Supplied config t := by
  unfold deliver at taken
  split at taken
  · split at taken
    · rename_i member
      cases taken
      refine supplied_consumer supplied (still_step supplied rfl rfl rfl (fun _ kept => kept)
        (fun _ before => .inl before) ?_ (by simp) (by simp) (by simp))
      intro body carries
      cases carries
      exact ⟨published, member, rfl⟩
    · cases taken
  · cases taken

theorem rest_step (supplied : Supplied config s) (consumer : WorkerId) (failures : Uuid → Nat)
    (letters : List DeadLetter) :
    Supplied config (({ s with failures := failures, deadLetters := s.deadLetters ++ letters } :
      State).setHandler consumer .idle) :=
  supplied_consumer supplied (still_step supplied rfl rfl rfl
    (fun _ kept => List.mem_append_left _ kept) (fun _ before => .inl before)
    (fun _ carries => by cases carries) (by simp) (by simp) (by simp))

theorem idle_step (supplied : Supplied config s) (consumer : WorkerId) :
    Supplied config (s.setHandler consumer .idle) := by
  simpa only [List.append_nil] using rest_step supplied consumer s.failures []

theorem enter_step (supplied : Supplied config s) {consumer : WorkerId} {body : Body}
    {insights : Insights.State}
    (carried : ∃ published ∈ s.outbox.published, published.message = body)
    (called : Insights.call s.insights consumer (processCommand body) = some insights) :
    ConsumerStep s (({ s with insights := insights } : State).setHandler consumer (.running body))
      consumer (.running body) := by
  have effect : Insights.Effect config.worker s.insights
      (.call consumer (processCommand body)) insights := call_effect called
  have finishes := pending_finishes_step supplied.finishes effect
  unfold Insights.call at called
  split at called
  · cases called
    refine ⟨rfl, rfl, fun other different => Function.update_of_ne different _ _, finishes,
      fun _ _ found _ => found, fun _ kept => kept, fun _ before => .inl before, ?_, ?_, ?_, ?_⟩
    · intro found carries
      cases carries
      exact carried
    · intro found command running phase
      cases running
      change (Function.update s.insights.workers consumer _ consumer).command = _ at phase
      rw [Function.update_self] at phase
      exact (Option.some.inj phase).symm
    · intro found parked
      cases parked
    · intro found settling
      rcases settling with settled | ⟨_, ended⟩
      · change Function.update s.handlers consumer _ consumer = _ at settled
        rw [Function.update_self] at settled
        cases settled
      · change (Function.update s.insights.workers consumer _ consumer).claimOver = _ at ended
        rw [Function.update_self] at ended
        cases ended
  · cases called

theorem is_processed_step (supplied : Supplied config s) {consumer : WorkerId} {answered : Bool}
    (taken : isProcessed s consumer answered = some t) : Supplied config t := by
  unfold isProcessed at taken
  split at taken
  · rename_i body received
    have carried : ∃ published ∈ s.outbox.published, published.message = body :=
      supplied.carried consumer body (by rw [received]; rfl)
    split at taken
    · cases taken
      exact idle_step supplied consumer
    · split at taken
      · obtain ⟨insights, called, rfl⟩ := Option.map_eq_some_iff.mp taken
        exact supplied_consumer supplied (enter_step supplied carried called)
      · rename_i other
        cases taken
        refine supplied_consumer supplied (still_step supplied rfl rfl rfl (fun _ kept => kept)
          (fun _ before => .inl before) ?_ (by simp) (by simp) ?_)
        · intro found carries
          cases carries
          exact carried
        · intro found settled
          cases settled
          exact other
  · cases taken

/-- A step inside `process_insight`: only the claim decides whether the event may be marked. -/
theorem work_step (supplied : Supplied config s) {consumer : WorkerId}
    {action : Insights.Action} (taken : work config s consumer action = some t) :
    Supplied config t := by
  unfold work at taken
  split at taken
  · rename_i body running
    split at taken
    · rename_i inside
      obtain ⟨insights, moved, rfl⟩ := Option.map_eq_some_iff.mp taken
      obtain ⟨phase, workers, settled, claim⟩ := inside_step moved inside
      have own : insights.workers consumer = phase := by rw [workers, Function.update_self]
      have same : s.handlers = Function.update s.handlers consumer (.running body) := by
        rw [← running, Function.update_eq_self]
      suffices stepped : ConsumerStep s { s with insights := insights } consumer (.running body) from
        supplied_consumer supplied stepped
      refine ⟨rfl, same, fun other different => ?_,
        pending_finishes_step supplied.finishes (step_effect moved), ?_, fun _ kept => kept,
        fun _ before => .inl before, ?_, ?_, ?_, ?_⟩
      · change insights.workers other = _
        rw [workers, Function.update_of_ne different]
      · exact fun id row found queued =>
          inside_queued supplied.finishes moved (inside_worker inside) found queued
      · intro found carries
        cases carries
        exact supplied.carried consumer body (by rw [running]; rfl)
      · intro found command _ called
        change (insights.workers consumer).command = _ at called
        rw [own, settled] at called
        cases called
      · intro found parked
        cases parked
      · intro found settling
        rcases settling with done | ⟨still, ended⟩
        · exact .inl (.inl done)
        · change s.handlers consumer = _ at still
          rw [running] at still
          cases still
          change (insights.workers consumer).claimOver = true at ended
          rw [own] at ended
          rcases claim with before | ⟨command, called, ends⟩
          · exact .inl (.inr ⟨running, before⟩)
          · refine .inr fun id row found queued requests => ?_
            have asks := supplied.linked consumer body command running (by rw [called]; rfl)
            have key := Table.key_of_get found
            subst key
            refine ends ended row ?_ queued
            rw [asks, requests.2]
            change Option.filter _ (Table.get _ row.id) = _
            change Table.get insights.rows row.id = _ at found
            simp [found, Option.filter]
    · cases taken
  · cases taken

/-- The consumer leaves `process_insight`, to mark the event only if the claim is over. -/
theorem leave_step (supplied : Supplied config s) {consumer : WorkerId} {body : Body}
    {insights : Insights.State} {phase : HandlerPhase}
    (running : s.handlers consumer = .running body)
    (finished : Insights.finish s.insights consumer = some insights)
    (next : phase = .settled body ∧ (s.insights.workers consumer).claimOver = true ∨
      ∃ error, phase = .failed body error) :
    Supplied config (({ s with insights := insights } : State).setHandler consumer phase) := by
  have effect : Insights.Effect config.worker s.insights (.finish consumer) insights :=
    finish_effect finished
  have finishes := pending_finishes_step supplied.finishes effect
  have left : insights = s.insights.setPhase consumer .idle := by
    unfold Insights.finish at finished
    split at finished <;> cases finished
    · rfl
    · rfl
  subst left
  have carries (found : Body) (of_phase : phase.body = some found) : found = body := by
    rcases next with ⟨rfl, _⟩ | ⟨error, rfl⟩ <;> cases of_phase <;> rfl
  suffices stepped : ConsumerStep s (({ s with insights := s.insights.setPhase consumer .idle } :
      State).setHandler consumer phase) consumer phase from supplied_consumer supplied stepped
  refine ⟨rfl, rfl, fun other different => Function.update_of_ne different _ _, finishes,
    fun _ _ found _ => found, fun _ kept => kept, fun _ before => .inl before, ?_, ?_, ?_, ?_⟩
  · intro found of_phase
    rw [carries found of_phase]
    exact supplied.carried consumer body (by rw [running]; rfl)
  · rintro found command rfl
    rcases next with ⟨bad, _⟩ | ⟨_, bad⟩ <;> cases bad
  · rintro found rfl
    rcases next with ⟨bad, _⟩ | ⟨_, bad⟩ <;> cases bad
  · intro found settling
    have here : ((({ s with insights := s.insights.setPhase consumer .idle } : State).setHandler
        consumer phase).handlers consumer) = phase := Function.update_self ..
    rcases settling with settled | ⟨still, _⟩
    · rw [here] at settled
      subst settled
      rcases next with ⟨same, ended⟩ | ⟨_, bad⟩
      · cases same
        exact .inl (.inr ⟨running, ended⟩)
      · cases bad
    · rw [here] at still
      subst still
      rcases next with ⟨bad, _⟩ | ⟨_, bad⟩ <;> cases bad

theorem settle_step (supplied : Supplied config s) {consumer : WorkerId}
    {metricsError : Option String} (taken : settle s consumer metricsError = some t) :
    Supplied config t := by
  unfold settle at taken
  split at taken
  · rename_i body running
    obtain ⟨insights, finished, rest⟩ := Option.bind_eq_some_iff.mp taken
    dsimp only at rest
    split at rest
    · rename_i id missing
      cases rest
      exact leave_step supplied running finished (.inl ⟨rfl, by rw [missing]; rfl⟩)
    · cases rest
      exact leave_step supplied running finished (.inr ⟨_, rfl⟩)
    · rename_i missing raised
      split at rest
      · cases rest
        exact leave_step supplied running finished (.inr ⟨_, rfl⟩)
      · cases rest
        refine leave_step supplied running finished (.inl ⟨rfl, ?_⟩)
        unfold Insights.finish at finished
        split at finished
        · rename_i result returned
          rw [returned]
          rfl
        · rename_i error failed
          cases error with
          | insightNotFound id => exact absurd failed (missing id)
          | raised message => exact absurd failed (raised message)
        · cases finished
  · cases taken

theorem mark_step (supplied : Supplied config s) {consumer : WorkerId} {body : Body}
    (held : s.handlers consumer = .settled body ∨ s.handlers consumer = .parked body)
    {phase : HandlerPhase} (next : phase = .idle ∨ ∃ error, phase = .failed body error) :
    Supplied config ((s.mark body.eventId).setHandler consumer phase) := by
  have carried : ∃ published ∈ s.outbox.published, published.message = body :=
    supplied.carried consumer body (by rcases held with now | now <;> rw [now] <;> rfl)
  refine supplied_consumer supplied (still_step supplied rfl rfl rfl (fun _ kept => kept)
    ?_ ?_ ?_ ?_ ?_)
  · intro eventId marked
    rcases List.mem_cons.mp marked with same | before
    · exact .inr ⟨body, same.symm, held⟩
    · exact .inl before
  · intro found carries
    rcases next with rfl | ⟨error, rfl⟩ <;> cases carries
    exact carried
  · rintro found rfl
    rcases next with bad | ⟨_, bad⟩ <;> cases bad
  · rintro found rfl
    rcases next with bad | ⟨_, bad⟩ <;> cases bad
  · rintro found rfl
    rcases next with bad | ⟨_, bad⟩ <;> cases bad

theorem fail_step (supplied : Supplied config s) {consumer : WorkerId} {body : Body}
    {error : String} {phase : HandlerPhase}
    (carries : (s.handlers consumer).body = some body)
    (next : phase = .failed body error ∨ phase = .exhausted body error)
    (failures : Uuid → Nat) :
    Supplied config (({ s with failures := failures } : State).setHandler consumer phase) := by
  refine supplied_consumer supplied (still_step supplied rfl rfl rfl (fun _ kept => kept)
    (fun _ before => .inl before) ?_ ?_ ?_ ?_)
  · intro found of_phase
    rcases next with rfl | rfl <;> cases of_phase
    all_goals exact supplied.carried consumer body carries
  · rintro found rfl
    rcases next with bad | bad <;> cases bad
  · rintro found rfl
    rcases next with bad | bad <;> cases bad
  · rintro found rfl
    rcases next with bad | bad <;> cases bad

theorem mark_processed_step (supplied : Supplied config s) {consumer : WorkerId}
    {outcome : CommitOutcome} (taken : markProcessed s consumer outcome = some t) :
    Supplied config t := by
  unfold markProcessed at taken
  split at taken
  · rename_i body settled
    cases taken
    exact mark_step supplied (.inl settled) (.inl rfl)
  · rename_i body error settled
    cases taken
    exact mark_step supplied (.inl settled) (.inr ⟨error, rfl⟩)
  · rename_i body error settled
    cases taken
    exact fail_step supplied (by rw [settled]; rfl) (.inl rfl) s.failures
  · cases taken
    exact idle_step supplied consumer
  · rename_i body _ parked _
    cases taken
    exact mark_step supplied (.inr parked) (.inl rfl)
  · cases taken

theorem count_rest (supplied : Supplied config s) (consumer : WorkerId) (eventId : Uuid) :
    Supplied config ((s.count eventId).setHandler consumer .idle) := by
  have rests := rest_step supplied consumer (s.count eventId).failures []
  rw [List.append_nil] at rests
  exact rests

theorem increment_failures_step (supplied : Supplied config s) {consumer : WorkerId}
    {outcome : CommitOutcome} (taken : incrementFailures config s consumer outcome = some t) :
    Supplied config t := by
  unfold incrementFailures at taken
  split at taken
  · rename_i body error failed
    split at taken
    · split at taken <;> cases taken
      · exact fail_step supplied (by rw [failed]; rfl) (.inr rfl) (s.count body.eventId).failures
      · exact count_rest supplied consumer body.eventId
    · cases taken
      exact count_rest supplied consumer body.eventId
    · cases taken
      exact idle_step supplied consumer
  · cases taken

theorem publish_dead_letter_step (supplied : Supplied config s) {consumer : WorkerId}
    {outcome : PublishOutcome} (taken : publishDeadLetter s consumer outcome = some t) :
    Supplied config t := by
  unfold publishDeadLetter at taken
  split at taken
  · rename_i body error exhausted
    split at taken <;> cases taken
    · refine supplied_consumer supplied (still_step supplied rfl rfl rfl
        (fun _ kept => List.mem_append_left _ kept) (fun _ before => .inl before) ?_ (by simp) ?_
        (by simp))
      · intro found carries
        cases carries
        exact supplied.carried consumer body (by rw [exhausted]; rfl)
      · intro found parked
        cases parked
        exact ⟨⟨body, error⟩, List.mem_append_right _ List.mem_cons_self, rfl⟩
    · exact rest_step supplied consumer s.failures [⟨body, error⟩]
    · exact idle_step supplied consumer
  · cases taken

theorem crash_step (supplied : Supplied config s) (consumer : WorkerId) :
    Supplied config (crash s consumer) := by
  have effect : Insights.Effect config.worker s.insights (.crash consumer)
      (s.insights.setPhase consumer .idle) := step_effect rfl
  have finishes := pending_finishes_step supplied.finishes effect
  suffices stepped : ConsumerStep s (crash s consumer) consumer .idle from
    supplied_consumer supplied stepped
  refine ⟨rfl, rfl, fun other different => Function.update_of_ne different _ _, finishes,
    fun _ _ found _ => found, fun _ kept => kept, fun _ before => .inl before,
    ?_, ?_, ?_, ?_⟩
  · intro found carries
    cases carries
  · intro found command running
    cases running
  · intro found parked
    cases parked
  intro found settling
  have here : (crash s consumer).handlers consumer = .idle := Function.update_self ..
  rcases settling with settled | ⟨running, _⟩
  · rw [here] at settled
    cases settled
  · rw [here] at running
    cases running

/-- A mark or a counter that expires takes nothing from the queued insights. -/
theorem expire_step (supplied : Supplied config s) (failures : Uuid → Nat) (keeps : Uuid → Bool) :
    Supplied config { s with failures := failures, processed := s.processed.filter keeps } where
  finishes := supplied.finishes
  accounted := supplied.accounted
  known := fun eventId marked => supplied.known eventId (List.mem_of_mem_filter marked)
  carried := supplied.carried
  linked := supplied.linked
  parked := supplied.parked
  backed := by
    intro id row found queued
    obtain ⟨eventId, backed⟩ := supplied.backed id row found queued
    exact ⟨eventId, backed.appended, backed.stored, backed.sent,
      fun marked => backed.marked (List.mem_of_mem_filter marked), backed.unsettled⟩

theorem backed_carries {insight : Insight} {eventId : Uuid} (backed : Backed s insight eventId)
    {outbox : Outbox.State InsightPayload} (carries : Carries s.outbox outbox)
    (insights : Insights.State) (workers : insights.workers = s.insights.workers) :
    Backed { s with insights := insights, outbox := outbox } insight eventId where
  appended := carries.appended eventId backed.appended
  stored := by
    intro row' found
    obtain ⟨row, before, same⟩ := carries.stored eventId backed.appended row' found
    rw [same]
    exact backed.stored row before
  sent := by
    rintro published member rfl
    rcases carries.sent published member backed.appended with before | ⟨row, stored, same⟩
    · exact backed.sent published before rfl
    · rw [same]
      exact backed.stored row stored
  marked := backed.marked
  unsettled := by
    intro consumer body same settling
    apply backed.unsettled consumer body same
    unfold State.Settling at settling ⊢
    rwa [workers] at settling

theorem supplied_transaction (supplied : Supplied config s) {outbox : Outbox.State InsightPayload}
    (accounted : Accounted config.poller outbox) (carries : Carries s.outbox outbox)
    {insights : Insights.State} (workers : insights.workers = s.insights.workers)
    (backed : ∀ id row, insights.rows.get id = some row → row.status = .QUEUED →
      ∃ eventId, Backed { s with insights := insights, outbox := outbox } row eventId) :
    Supplied config { s with insights := insights, outbox := outbox } where
  finishes := by
    intro worker update pending
    change (insights.workers worker).pending = _ at pending
    rw [workers] at pending
    exact supplied.finishes worker update pending
  accounted := accounted
  known := fun eventId marked => carries.appended eventId (supplied.known eventId marked)
  carried := by
    intro consumer body of_phase
    obtain ⟨published, sent, message⟩ := supplied.carried consumer body of_phase
    exact ⟨published, carries.kept published sent, message⟩
  linked := by
    intro consumer body command running called
    change (insights.workers consumer).command = _ at called
    rw [workers] at called
    exact supplied.linked consumer body command running called
  parked := supplied.parked
  backed := backed

theorem relay_step (supplied : Supplied config s) {action : Outbox.Action InsightPayload}
    (taken : relay config s action = some t) : Supplied config t := by
  unfold relay at taken
  split at taken
  · obtain ⟨outbox, moved, rfl⟩ := Option.map_eq_some_iff.mp taken
    have effect := Outbox.step_effect moved
    have carries := carries_step supplied.accounted effect
    refine supplied_transaction supplied (accounted_step supplied.accounted effect) carries rfl ?_
    intro id row found queued
    obtain ⟨eventId, backed⟩ := supplied.backed id row found queued
    exact ⟨eventId, backed_carries backed carries s.insights rfl⟩
  · cases taken

structure Appended (createdAt : Timestamp) (events : List (OutboxEvent InsightPayload × Uuid))
    (s u : Outbox.State InsightPayload) : Prop where
  published : u.published = s.published
  rows : ∀ id ∈ s.appended, u.rows.get id = s.rows.get id
  mono : ∀ id ∈ s.appended, id ∈ u.appended
  fresh : ∀ event ∈ events, event.2 ∉ s.appended ∧ event.2 ∈ u.appended ∧
    u.rows.get event.2 = some (newRow event.1 event.2 createdAt)

theorem append_spec {s u : Outbox.State InsightPayload} {event : OutboxEvent InsightPayload}
    {id : Uuid} {createdAt : Timestamp} (taken : Outbox.append s event id createdAt = some u) :
    Appended createdAt [(event, id)] s u := by
  unfold Outbox.append at taken
  split at taken
  · cases taken
  · rename_i fresh
    obtain ⟨rows, inserted, rfl⟩ := Option.map_eq_some_iff.mp taken
    have reads := Table.get_insert inserted
    refine ⟨rfl, ?_, fun _ member => List.mem_cons_of_mem _ member, ?_⟩
    · intro other member
      have different : id ≠ other := by
        rintro rfl
        exact fresh member
      exact (reads other).trans (if_neg different)
    · intro found member
      cases List.mem_singleton.mp member
      exact ⟨fresh, List.mem_cons_self, (reads id).trans (if_pos rfl)⟩

theorem appends_spec {poller : PollerConfig} {createdAt : Timestamp}
    {events : List (OutboxEvent InsightPayload × Uuid)} {s u : Outbox.State InsightPayload}
    (reached : run (Outbox.step poller) s (appends createdAt events) = some u) :
    Appended createdAt events s u := by
  induction events generalizing s with
  | nil =>
      cases reached
      exact ⟨rfl, fun _ _ => rfl, fun _ member => member, fun _ member => by cases member⟩
  | cons event events ih =>
      obtain ⟨middle, first, rest⟩ := run_cons_eq_some.mp reached
      have head := append_spec first
      have tail := ih rest
      refine ⟨tail.published.trans head.published, ?_, ?_, ?_⟩
      · exact fun id member => (tail.rows id (head.mono id member)).trans (head.rows id member)
      · exact fun id member => tail.mono id (head.mono id member)
      · intro found member
        rcases List.mem_cons.mp member with rfl | later
        · obtain ⟨fresh, known, stored⟩ := head.fresh found List.mem_cons_self
          exact ⟨fresh, tail.mono _ known, (tail.rows _ known).trans stored⟩
        · obtain ⟨fresh, known, stored⟩ := tail.fresh found later
          exact ⟨fun old => fresh (head.mono _ old), known, stored⟩

theorem backed_fresh (supplied : Supplied config s) {createdAt : Timestamp}
    {events : List (OutboxEvent InsightPayload × Uuid)} {outbox : Outbox.State InsightPayload}
    (appended : Appended createdAt events s.outbox outbox) {insight : Insight}
    {event : OutboxEvent InsightPayload × Uuid} (member : event ∈ events)
    (requests : Requests (buildMessage (newRow event.1 event.2 createdAt)) insight)
    (insights : Insights.State) :
    Backed { s with insights := insights, outbox := outbox } insight event.2 := by
  obtain ⟨fresh, known, stored⟩ := appended.fresh event member
  refine ⟨known, ?_, ?_, ?_, ?_⟩
  · intro row found
    change outbox.rows.get event.2 = some row at found
    rw [stored] at found
    cases found
    exact requests
  · intro published sent same
    change published ∈ outbox.published at sent
    rw [appended.published] at sent
    exact absurd (same ▸ supplied.accounted.known published sent) fresh
  · intro marked
    exact absurd (supplied.known event.2 marked) fresh
  · intro consumer body same settling
    have carries : (s.handlers consumer).body = some body := by
      rcases settling with settled | ⟨running, _⟩
      · change s.handlers consumer = _ at settled
        rw [settled]
        rfl
      · change s.handlers consumer = _ at running
        rw [running]
        rfl
    obtain ⟨published, sent, message⟩ := supplied.carried consumer body carries
    have old := supplied.accounted.known published sent
    rw [message, same] at old
    exact fresh old

theorem appends_accounted (supplied : Supplied config s) {createdAt : Timestamp}
    {events : List (OutboxEvent InsightPayload × Uuid)} {outbox : Outbox.State InsightPayload}
    (reached : run (Outbox.step config.poller) s.outbox (appends createdAt events) = some outbox) :
    Accounted config.poller outbox :=
  run_preserves (fun _ _ _ taken before => accounted_step before (Outbox.step_effect taken)) reached
    supplied.accounted

theorem request_step (supplied : Supplied config s) {id : InsightId}
    {command : RequestInsightCommand} {now createdAt : Timestamp} {eventId : Uuid}
    (taken : request config s id command now eventId createdAt = some t) : Supplied config t := by
  unfold request at taken
  split at taken
  · rename_i insights outbox requested reached
    cases taken
    have appended := appends_spec reached
    have carries := run_carries reached supplied.accounted
    simp only [Insights.step, Insights.request] at requested
    split at requested
    · cases requested
    · rename_i row ok
      obtain ⟨rows, inserted, rfl⟩ := Option.map_eq_some_iff.mp requested
      unfold requestedRow Insight.markQueued at ok
      cases ok
      refine supplied_transaction supplied (appends_accounted supplied reached) carries rfl ?_
      intro found row stored queued
      change Table.get rows found = some row at stored
      rw [Table.get_insert inserted] at stored
      split at stored
      · have requests : Requests (buildMessage
            (newRow (insightRequested (newInsight id command now) now) eventId createdAt)) row := by
          rw [← Option.some.inj stored]
          exact ⟨rfl, rfl⟩
        exact ⟨eventId, backed_fresh supplied appended List.mem_cons_self requests _⟩
      · obtain ⟨backing, backed⟩ := supplied.backed found row stored queued
        exact ⟨backing, backed_carries backed carries _ rfl⟩
  · cases taken

/-- A row that a reaper tick leaves QUEUED was QUEUED before, or has just been requeued. -/
theorem reaped_queued {maxRetries : Nat} {now : Timestamp} {rows : InsightRows} {id : InsightId}
    {row : InsightRow}
    (found : (failExhausted maxRetries now (requeueExpired maxRetries now rows)).get id = some row)
    (queued : row.status = .QUEUED) :
    rows.get id = some row ∨ ∃ old, rows.get id = some old ∧
      requeueable maxRetries now old = true ∧ row = requeueRow now old := by
  rw [failExhausted, Table.get_updateWhere, requeueExpired, Table.get_updateWhere] at found
  cases stored : rows.get id with
  | none => simp [stored] at found
  | some old =>
      simp only [stored, Option.map_some, Option.some.injEq] at found
      by_cases due : requeueable maxRetries now old = true
      · have ended : exhaustable maxRetries now (requeueRow now old) = false := by
          simp [exhaustable, expired, requeueRow]
        simp only [due, if_true, ended, Bool.false_eq_true, if_false] at found
        exact .inr ⟨old, rfl, due, found.symm⟩
      · simp only [due, Bool.false_eq_true, if_false] at found
        split at found
        · rw [← found] at queued
          cases queued
        · exact .inl (by rw [found])

theorem zip_covers {rows : List InsightRow} {row : InsightRow} (member : row ∈ rows)
    {eventIds : List Uuid} {occurredAt : Timestamp}
    (enough : eventIds.length = (rows.map fun row => insightRequested row occurredAt).length) :
    ∃ event ∈ (rows.map fun row => insightRequested row occurredAt).zip eventIds,
      event.1 = insightRequested row occurredAt := by
  have inside : insightRequested row occurredAt ∈
      ((rows.map fun row => insightRequested row occurredAt).zip eventIds).map Prod.fst := by
    rw [List.map_fst_zip (le_of_eq enough.symm)]
    exact List.mem_map_of_mem member
  obtain ⟨event, paired, same⟩ := List.mem_map.mp inside
  exact ⟨event, paired, same⟩

theorem reaper_tick_step (supplied : Supplied config s) {now occurredAt createdAt : Timestamp}
    {eventIds : List Uuid}
    (taken : reaperTick config s now occurredAt createdAt eventIds = some t) :
    Supplied config t := by
  simp only [reaperTick] at taken
  split at taken
  · cases taken
  · rename_i enough
    split at taken
    · rename_i insights outbox reaped reached
      cases taken
      have appended := appends_spec reached
      have carries := run_carries reached supplied.accounted
      obtain ⟨middle, first, rest⟩ := run_cons_eq_some.mp reaped
      obtain ⟨last, second, done⟩ := run_cons_eq_some.mp rest
      cases done
      simp only [Insights.step] at first second
      obtain ⟨_, rfl⟩ := reap_eq_some first
      obtain ⟨_, rfl⟩ := reap_eq_some second
      refine supplied_transaction supplied (appends_accounted supplied reached) carries rfl ?_
      intro id row found queued
      rcases reaped_queued found queued with before | ⟨old, stored, due, rfl⟩
      · obtain ⟨eventId, backed⟩ := supplied.backed id row before queued
        exact ⟨eventId, backed_carries backed carries _ rfl⟩
      · have member : old ∈ requeuedRows config s now :=
          List.mem_filter.mpr ⟨Table.mem_of_get stored, due⟩
        obtain ⟨event, paired, own⟩ := zip_covers member (not_not.mp enough)
        have requests : Requests (buildMessage (newRow event.1 event.2 createdAt))
            (requeueRow now old) := by
          rw [own]
          exact ⟨rfl, rfl⟩
        exact ⟨event.2, backed_fresh supplied appended paired requests _⟩
    · cases taken

theorem supplied_step (supplied : Supplied config s) {a : Action}
    (taken : step config s a = some t) : Supplied config t := by
  cases a with
  | request id command now eventId createdAt => exact request_step supplied taken
  | reaperTick now occurredAt createdAt eventIds => exact reaper_tick_step supplied taken
  | relay action => exact relay_step supplied taken
  | deliver consumer published => exact deliver_step supplied taken
  | isProcessed consumer answered => exact is_processed_step supplied taken
  | work consumer action => exact work_step supplied taken
  | settle consumer metricsError => exact settle_step supplied taken
  | markProcessed consumer outcome => exact mark_processed_step supplied taken
  | incrementFailures consumer outcome => exact increment_failures_step supplied taken
  | publishDeadLetter consumer outcome => exact publish_dead_letter_step supplied taken
  | crash consumer =>
      cases taken
      exact crash_step supplied consumer
  | expireProcessed eventId =>
      cases taken
      exact expire_step supplied s.failures _
  | expireFailures eventId =>
      cases taken
      have all := expire_step supplied (Function.update s.failures eventId 0) (fun _ => true)
      rwa [List.filter_true] at all

end

/-- In every state that the pipeline reaches, each QUEUED insight has an event that can still
start work. -/
theorem queued_can_start (config : PipelineConfig) (actions : List Action) (s : State)
    (reached : run (step config) .start actions = some s) :
    ∀ row ∈ s.insights.rows.rows, row.status = .QUEUED → CanStart s row := by
  have supplied : Supplied config s :=
    run_preserves (fun _ _ _ taken before => supplied_step before taken) reached
      (supplied_start config)
  intro row member queued
  obtain ⟨eventId, backed⟩ := supplied.backed row.id row (Table.get_of_mem member) queued
  exact can_start_of_supplied supplied backed

def pipelineConfig : PipelineConfig := ⟨leasedWorker 3 15, workerConfig, 3⟩

def monthRow : OutboxRow InsightPayload :=
  newRow (insightRequested (newInsight ⟨7⟩ requestedMonth 0) 0) 1 0

/-- The event of a request is relayed and delivered. The consumer dies after its call of the AI
client, and the reaper requeues the insight with a new event. -/
def requeuedRun : List Action :=
  [.request ⟨7⟩ requestedMonth 0 1 0, .relay (.snapshotPendingIds 0 [monthRow]),
    .relay (.lockRow 0 false), .relay (.publish 0 .returned 5), .relay (.commit 0 .committed),
    .deliver 0 (publication "yomochi.insights.v1" monthRow), .isProcessed 0 true,
    .work 0 (.claim 0 10 .committed), .work 0 (.buildContext 0 (.ok .FULL)),
    .work 0 (.generate 0 (.ok response)), .crash 0,
    .reaperTick (20 * minute) (20 * minute) (20 * minute) [2]]

theorem requeued_run_reaches : (run (step pipelineConfig) .start requeuedRun).any (fun s =>
    s.insights.rows.rows.any fun row => row.status = .QUEUED) = true := by
  decide +kernel

theorem queued_can_start_requeued_run :
    ∃ s, run (step pipelineConfig) .start requeuedRun = some s ∧
      (∃ row ∈ s.insights.rows.rows, row.status = .QUEUED) ∧
      ∀ row ∈ s.insights.rows.rows, row.status = .QUEUED → CanStart s row := by
  obtain ⟨s, reached, some_queued⟩ := (Option.any_eq_true _ _).mp requeued_run_reaches
  refine ⟨s, reached, ?_, queued_can_start pipelineConfig requeuedRun s reached⟩
  simpa using some_queued

end Yomochi.Messaging
