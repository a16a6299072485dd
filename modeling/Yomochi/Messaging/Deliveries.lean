import Yomochi.Messaging.Consumer

/-! A delivery as one function is a run of one consumer of the pipeline that nobody
interrupts. -/

namespace Yomochi.Messaging

open Foundation Insights Outbox

/-- `e` is what the state holds of the event of `body`. -/
structure Agrees (body : Body) (s : State) (e : EventState) : Prop where
  rows : s.insights.rows = e.rows
  processed : s.processed.contains body.eventId = e.processed
  failures : s.failures body.eventId = e.failures
  deadLetters : s.deadLetters = e.deadLetters

/-- The consumer is through, and the event is where `e` says. -/
structure Through (body : Body) (consumer : WorkerId) (e : EventState) (s : State) : Prop where
  idle : s.handlers consumer = .idle
  agrees : Agrees body s e

def LeadsTo (config : PipelineConfig) (s : State) (P : State → Prop) : Prop :=
  ∃ actions t, run (step config) s actions = some t ∧ P t

section

variable {config : PipelineConfig} {body : Body} {consumer : WorkerId} {s t : State}
  {e : EventState} {d : Delivery} {P : State → Prop}

theorem leads_here (here : P s) : LeadsTo config s P := ⟨[], s, rfl, here⟩

theorem leads_step {a : Action} (taken : step config s a = some t) (rest : LeadsTo config t P) :
    LeadsTo config s P := by
  obtain ⟨actions, u, reached, there⟩ := rest
  exact ⟨a :: actions, u, run_cons_eq_some.mpr ⟨t, taken, reached⟩, there⟩

theorem leads_run {actions : List Action} (reached : run (step config) s actions = some t)
    (rest : LeadsTo config t P) : LeadsTo config s P := by
  obtain ⟨later, u, ended, there⟩ := rest
  exact ⟨actions ++ later, u, run_append_eq_some.mpr ⟨t, reached, ended⟩, there⟩

@[simp] theorem handler_setHandler (s : State) (consumer : WorkerId) (phase : HandlerPhase) :
    (s.setHandler consumer phase).handlers consumer = phase := by
  simp [State.setHandler]

theorem agrees_handler (agrees : Agrees body s e) (phase : HandlerPhase) :
    Agrees body (s.setHandler consumer phase) e :=
  ⟨agrees.rows, agrees.processed, agrees.failures, agrees.deadLetters⟩

theorem agrees_mark (agrees : Agrees body s e) : Agrees body (s.mark body.eventId) e.mark :=
  ⟨agrees.rows, by simp [State.mark, EventState.mark, EventState.note], agrees.failures,
    agrees.deadLetters⟩

theorem agrees_count (agrees : Agrees body s e) : Agrees body (s.count body.eventId) e.count :=
  ⟨agrees.rows, agrees.processed, by simp [State.count, EventState.count, agrees.failures],
    agrees.deadLetters⟩

theorem agrees_bury (agrees : Agrees body s e) (letter : DeadLetter) :
    Agrees body (s.bury letter) (e.bury letter) :=
  ⟨agrees.rows, agrees.processed, agrees.failures,
    congrArg (fun letters => letters ++ [letter]) agrees.deadLetters⟩

theorem through_handler (agrees : Agrees body s e) :
    Through body consumer e (s.setHandler consumer .idle) :=
  ⟨handler_setHandler s consumer .idle, agrees_handler agrees .idle⟩

theorem leads_last {a : Action} (taken : step config s a = some (t.setHandler consumer .idle))
    (agrees : Agrees body t e) : LeadsTo config s (Through body consumer e) :=
  leads_step taken (leads_here (through_handler agrees))

theorem parked_leads (parked : s.handlers consumer = .parked body) (agrees : Agrees body s e)
    (outcome : CommitOutcome) :
    LeadsTo config s (Through body consumer (markEvent outcome e).2) := by
  have taken : step config s (.markProcessed consumer outcome) =
      markProcessed s consumer outcome := rfl
  simp only [markProcessed, parked] at taken
  cases outcome with
  | committed => exact leads_last taken (agrees_mark agrees)
  | raised applied error =>
      cases applied with
      | true => exact leads_last taken (agrees_mark agrees)
      | false => exact leads_last taken agrees

theorem exhausted_leads {error : String} (exhausted : s.handlers consumer = .exhausted body error)
    (agrees : Agrees body s e) :
    LeadsTo config s (Through body consumer
      (match d.publish with
        | .returned => markEvent d.markParked (e.bury ⟨body, error⟩)
        | .raised published failed =>
            ((.error failed, if published then e.bury ⟨body, error⟩ else e) : Handled)).2) := by
  have taken : step config s (.publishDeadLetter consumer d.publish) =
      publishDeadLetter s consumer d.publish := rfl
  simp only [publishDeadLetter, exhausted] at taken
  cases outcome : d.publish with
  | returned =>
      rw [outcome] at taken
      exact leads_step taken (parked_leads (handler_setHandler _ _ _)
        (agrees_handler (agrees_bury agrees _) _) d.markParked)
  | raised published failed =>
      rw [outcome] at taken
      cases published with
      | true => exact leads_last taken (agrees_bury agrees _)
      | false => exact leads_last taken agrees

theorem failed_leads {error : String} (failed : s.handlers consumer = .failed body error)
    (agrees : Agrees body s e) :
    LeadsTo config s (Through body consumer (handleFailure config body d e error).2) := by
  have taken : step config s (.incrementFailures consumer d.incrementFailures) =
      incrementFailures config s consumer d.incrementFailures := rfl
  simp only [incrementFailures, failed] at taken
  unfold handleFailure
  cases outcome : d.incrementFailures with
  | raised applied other =>
      rw [outcome] at taken
      cases applied with
      | true => exact leads_last taken (agrees_count agrees)
      | false => exact leads_last taken agrees
  | committed =>
      rw [outcome] at taken
      simp only [agrees.failures] at taken
      by_cases spent : e.failures + 1 ≥ config.consumerMaxRetries
      · rw [if_pos spent] at taken
        rw [if_pos (show e.count.failures ≥ config.consumerMaxRetries from spent)]
        exact leads_step taken (exhausted_leads (handler_setHandler _ _ _)
          (agrees_handler (agrees_count agrees) _))
      · rw [if_neg spent] at taken
        rw [if_neg (show ¬ e.count.failures ≥ config.consumerMaxRetries from spent)]
        exact leads_last taken (agrees_count agrees)

theorem settled_leads (settled : s.handlers consumer = .settled body) (agrees : Agrees body s e) :
    LeadsTo config s
      (Through body consumer (caught config body d (markEvent d.markProcessed e)).2) := by
  have taken : step config s (.markProcessed consumer d.markProcessed) =
      markProcessed s consumer d.markProcessed := rfl
  simp only [markProcessed, settled] at taken
  cases outcome : d.markProcessed with
  | committed =>
      rw [outcome] at taken
      exact leads_last taken (agrees_mark agrees)
  | raised applied error =>
      rw [outcome] at taken
      cases applied with
      | true => exact leads_step taken (failed_leads (handler_setHandler _ _ _)
          (agrees_handler (agrees_mark agrees) _))
      | false => exact leads_step taken (failed_leads (handler_setHandler _ _ _)
          (agrees_handler agrees _))

theorem work_runs {actions : List Insights.Action} {insights : Insights.State}
    (inside : ∀ a ∈ actions, a.inside = some consumer) (running : s.handlers consumer = .running body)
    (reached : run (Insights.step config.worker) s.insights actions = some insights) :
    run (step config) s (actions.map (.work consumer)) = some { s with insights := insights } := by
  induction actions generalizing s with
  | nil =>
      cases reached
      rfl
  | cons a actions ih =>
      obtain ⟨middle, taken, rest⟩ := run_cons_eq_some.mp reached
      have worked : step config s (.work consumer a) = some { s with insights := middle } := by
        simp [step, work, running, inside a List.mem_cons_self, taken]
      have later : ∀ b ∈ actions, b.inside = some consumer :=
        fun b member => inside b (List.mem_cons_of_mem a member)
      exact run_cons_eq_some.mpr ⟨_, worked, ih later running rest⟩

theorem settle_leads {outcome : ProcessOutcome} (running : s.handlers consumer = .running body)
    (ended : s.insights.workers consumer = outcomePhase outcome) (agrees : Agrees body s e) :
    LeadsTo config s (Through body consumer (caught config body d
      (match raisedBy d.metricsError outcome with
        | some error => (.error error, e)
        | none => markEvent d.markProcessed e)).2) := by
  have finished : Insights.finish s.insights consumer =
      some (s.insights.setPhase consumer .idle) := by
    unfold Insights.finish
    rw [ended]
    cases outcome <;> rfl
  have taken : step config s (.settle consumer d.metricsError) =
      settle s consumer d.metricsError := rfl
  simp only [settle, running, finished, Option.bind_some, ended] at taken
  have left : Agrees body ({ s with insights := s.insights.setPhase consumer .idle } : State) e :=
    ⟨agrees.rows, agrees.processed, agrees.failures, agrees.deadLetters⟩
  cases outcome with
  | ok result =>
      cases measured : d.metricsError with
      | none =>
          rw [measured] at taken
          exact leads_step taken (settled_leads (handler_setHandler _ _ _) (agrees_handler left _))
      | some error =>
          rw [measured] at taken
          exact leads_step taken (failed_leads (handler_setHandler _ _ _) (agrees_handler left _))
  | error error =>
      cases error with
      | insightNotFound id =>
          exact leads_step taken (settled_leads (handler_setHandler _ _ _) (agrees_handler left _))
      | raised message =>
          exact leads_step taken (failed_leads (handler_setHandler _ _ _) (agrees_handler left _))

/-- A call of `process_insight` that nobody interrupts, and what the handler makes of it. -/
theorem process_leads (running : s.handlers consumer = .running body)
    (called : s.insights.workers consumer = .called (processCommand body))
    (agrees : Agrees body s e) :
    LeadsTo config s (Through body consumer (caught config body d
      (match raisedBy d.metricsError (process config body d e).1 with
        | some error => (.error error, attempted config body d e)
        | none => markEvent d.markProcessed (attempted config body d e))).2) := by
  obtain ⟨actions, insights, inside, reached, phase, rows⟩ :=
    process_insight_reaches config.worker d.process called
  rw [agrees.rows] at phase rows
  apply leads_run (work_runs inside running reached)
  have after : Agrees body ({ s with insights := insights } : State) (attempted config body d e) :=
    ⟨rows, agrees.processed, agrees.failures, agrees.deadLetters⟩
  exact settle_leads running phase after

end

/-- From a received event an uninterrupted consumer gets to where `handleInsightEvent` says. -/
theorem delivery_runs (config : PipelineConfig) (body : Body) (d : Delivery) (e : EventState)
    (consumer : WorkerId) (s : State) (received : s.handlers consumer = .received body)
    (idle : s.insights.workers consumer = .idle) (agrees : Agrees body s e) :
    LeadsTo config s (Through body consumer (handleInsightEvent config body d e).2) := by
  have asked : step config s (.isProcessed consumer d.isProcessedError.isNone) =
      isProcessed s consumer d.isProcessedError.isNone := rfl
  simp only [isProcessed, received, agrees.processed] at asked
  unfold handleInsightEvent
  cases answer : d.isProcessedError with
  | some error =>
      rw [answer] at asked
      exact leads_last asked agrees
  | none =>
      rw [answer] at asked
      cases seen : e.processed with
      | true =>
          rw [seen] at asked
          exact leads_last asked agrees
      | false =>
          rw [seen] at asked
          unfold attempt
          by_cases requested : body.eventType = "InsightRequested"
          · have called : Insights.call s.insights consumer (processCommand body) =
                some (s.insights.setPhase consumer (.called (processCommand body))) := by
              simp [Insights.call, idle]
            simp only [requested, called, Option.map_some] at asked ⊢
            exact leads_step asked (process_leads (handler_setHandler _ _ _) set_phase_worker
              ⟨agrees.rows, agrees.processed, agrees.failures, agrees.deadLetters⟩)
          · simp only [requested] at asked ⊢
            exact leads_step asked
              (settled_leads (handler_setHandler _ _ _) (agrees_handler agrees _))

end Yomochi.Messaging
