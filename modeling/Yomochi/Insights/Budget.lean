import Yomochi.Insights.Terminal

/-! The AI work that one insight can cost. Each call of the client is paid for by a claim, and
each claim by the request or by a requeue that the reaper has counted. -/

namespace Yomochi.Insights

open Foundation

def queuedCount (row : InsightRow) : Nat := if row.status = .QUEUED then 1 else 0

structure WithinBudget (config : WorkerConfig) (s : State) : Prop where
  finishes : PendingFinishes s
  retries : ∀ id row, s.rows.get id = some row → row.retryCount ≤ config.maxRetries
  claims : ∀ id row, s.rows.get id = some row →
    s.claims id + queuedCount row ≤ row.retryCount + 1
  unclaimed : ∀ id, s.rows.get id = none → s.claims id = 0
  generated : ∀ id (waiting : List WorkerId), waiting.Nodup →
    (∀ worker ∈ waiting, (s.workers worker).mayGenerate = some id) →
      s.generated id + waiting.length ≤ s.claims id

theorem queuedCount_le_one (row : InsightRow) : queuedCount row ≤ 1 := by
  unfold queuedCount
  split <;> omega

theorem queuedCount_queued {row : InsightRow} (queued : row.status = .QUEUED) :
    queuedCount row = 1 := if_pos queued

theorem queuedCount_other {row : InsightRow} (other : row.status ≠ .QUEUED) :
    queuedCount row = 0 := if_neg other

theorem within_budget_start (config : WorkerConfig) : WithinBudget config .start where
  finishes := pending_finishes_start
  retries := by
    intro id row found
    cases found
  claims := by
    intro id row found
    cases found
  unclaimed := fun _ _ => rfl
  generated := by
    intro id waiting _ may
    cases waiting with
    | nil => rfl
    | cons worker waiting => cases may worker List.mem_cons_self

section

variable {config : WorkerConfig} {s t : State} {a : Action}

theorem retries_step (before : WithinBudget config s) (effect : Effect config s a t)
    {id : InsightId} {row : InsightRow} (found : t.rows.get id = some row) :
    row.retryCount ≤ config.maxRetries := by
  have change := row_change effect id
  rw [found] at change
  generalize stored : s.rows.get id = old at change
  cases change with
  | same kept => exact before.retries id row stored
  | requested requests fresh kept => rw [fresh.retryCount]; exact Nat.zero_le _
  | claimed => rw [claimedRow_retryCount]; exact before.retries id _ stored
  | committed update commits open_ =>
      rw [flush_retryCount (before.finishes _ update open_)]
      exact before.retries id _ stored
  | requeued reaps due =>
      simp only [requeueable, Bool.and_eq_true, decide_eq_true_eq] at due
      exact due.2
  | @exhausted now old => exact before.retries id old stored

theorem claims_step (before : WithinBudget config s) (effect : Effect config s a t)
    {id : InsightId} {row : InsightRow} (found : t.rows.get id = some row) :
    t.claims id + queuedCount row ≤ row.retryCount + 1 := by
  have change := row_change effect id
  rw [found] at change
  generalize stored : s.rows.get id = old at change
  cases change with
  | same kept =>
      rw [kept.claims]
      exact before.claims id row stored
  | requested requests fresh kept =>
      rw [kept.claims, before.unclaimed id stored, queuedCount_queued fresh.queued]
      omega
  | @claimed worker now command old claims called addressed owned queued held leased counted =>
      have budget := before.claims id old stored
      have processing := claimedRow_status config.statusMapped (config.deadline now) queued
      rw [queuedCount_queued queued] at budget
      rw [counted, claimedRow_retryCount, queuedCount_other (by rw [processing]; simp)]
      omega
  | @committed worker old update commits open_ addressed kept =>
      have budget := before.claims id old stored
      have finishes := before.finishes _ update open_
      have ended : (flush config.table update.loaded update.modified old).status ≠ .QUEUED := by
        rw [flush_status config.statusMapped finishes]
        exact terminal_not_queued finishes.terminal
      rw [kept.claims, flush_retryCount finishes, queuedCount_other ended]
      omega
  | @requeued now old reaps due kept =>
      have budget := before.claims id old stored
      have single := queuedCount_le_one (requeueRow now old)
      change t.claims id + queuedCount (requeueRow now old) ≤ old.retryCount + 1 + 1
      rw [kept.claims]
      omega
  | @exhausted now old reaps due kept =>
      have budget := before.claims id old stored
      change t.claims id + queuedCount (exhaustRow now old) ≤ old.retryCount + 1
      rw [kept.claims, queuedCount_other (by simp [exhaustRow])]
      omega

theorem unclaimed_step (before : WithinBudget config s) (effect : Effect config s a t)
    {id : InsightId} (absent : t.rows.get id = none) : t.claims id = 0 := by
  have change := row_change effect id
  rw [absent] at change
  generalize stored : s.rows.get id = old at change
  cases change with
  | same kept => rw [kept.claims, before.unclaimed id stored]

theorem waiting_before {worker : WorkerId} {phase : Phase} {id : InsightId}
    {waiting : List WorkerId}
    (keeps : phase.mayGenerate = some id → (s.workers worker).mayGenerate = some id)
    (may : ∀ other ∈ waiting, ((s.setPhase worker phase).workers other).mayGenerate = some id) :
    ∀ other ∈ waiting, (s.workers other).mayGenerate = some id := by
  intro other member
  have after := may other member
  rw [workers_setPhase] at after
  split at after
  · rename_i same
    subst same
    exact keeps after
  · exact after

theorem not_waiting {worker : WorkerId} {phase : Phase} {id : InsightId} {waiting : List WorkerId}
    (settled : phase.mayGenerate = none)
    (may : ∀ other ∈ waiting, ((s.setPhase worker phase).workers other).mayGenerate = some id) :
    worker ∉ waiting := by
  intro member
  have after := may worker member
  rw [workers_setPhase, if_pos rfl, settled] at after
  cases after

/-- A claim lets one more worker call the client and is counted once. -/
theorem generated_grant (before : WithinBudget config s) {worker : WorkerId} {now : Timestamp}
    {command : ProcessInsightCommand} {phase : Phase}
    (mayGenerate : phase.mayGenerate = none ∨ phase.mayGenerate = some command.insightId)
    {id : InsightId} {waiting : List WorkerId} (distinct : waiting.Nodup)
    (may : ∀ other ∈ waiting, (((grant config s worker command.insightId now).setPhase worker
      phase).workers other).mayGenerate = some id) :
    s.generated id + waiting.length ≤
      (grant config s worker command.insightId now).claims id := by
  change _ ≤ Function.update s.claims command.insightId (s.claims command.insightId + 1) id
  by_cases same : id = command.insightId
  · subst same
    have others : ∀ other ∈ waiting.erase worker, (s.workers other).mayGenerate =
        some command.insightId := by
      intro other member
      have after := may other (List.mem_of_mem_erase member)
      rwa [workers_setPhase, if_neg (distinct.mem_erase_iff.mp member).1] at after
    have paid := before.generated command.insightId (waiting.erase worker)
      (distinct.erase worker) others
    have one_less : waiting.length - 1 ≤ (waiting.erase worker).length := List.le_length_erase
    rw [Function.update_self]
    omega
  · rw [Function.update_of_ne same]
    have keeps (stays : phase.mayGenerate = some id) :
        (s.workers worker).mayGenerate = some id := by
      rcases mayGenerate with none_ | own
      · rw [none_] at stays
        cases stays
      · rw [own] at stays
        exact absurd (Option.some.inj stays).symm same
    exact before.generated id waiting distinct (waiting_before keeps may)

theorem generated_step (before : WithinBudget config s) (effect : Effect config s a t)
    {id : InsightId} {waiting : List WorkerId} (distinct : waiting.Nodup)
    (may : ∀ worker ∈ waiting, (t.workers worker).mayGenerate = some id) :
    t.generated id + waiting.length ≤ t.claims id := by
  have paid := before.generated id waiting distinct
  cases effect with
  | requested => exact paid may
  | @moved _ worker phase claimant stays pending =>
      refine paid (waiting_before ?_ may)
      intro own
      rcases stays with none_ | same
      · rw [none_] at own
        cases own
      · exact same ▸ own
  | granted claims called selected queued claimant stays =>
      exact generated_grant before stays distinct may
  | @generated _ worker paying phase caller claimant settled =>
      have apart := not_waiting settled may
      have others := waiting_before (fun own => by simp [settled] at own) may
      change Function.update s.generated paying (s.generated paying + 1) id + _ ≤ s.claims id
      by_cases same : id = paying
      · subst same
        have all := before.generated id (worker :: waiting) (List.nodup_cons.mpr ⟨apart, distinct⟩)
          (by
            intro other member
            rcases List.mem_cons.mp member with rfl | inside
            · exact caller
            · exact others other inside)
        rw [List.length_cons] at all
        rw [Function.update_self]
        omega
      · rw [Function.update_of_ne same]
        exact paid others
  | read update reads working found loads finishes claimant settled =>
      exact paid (waiting_before (fun own => by simp [settled] at own) may)
  | committed update commits open_ claimant settled =>
      exact paid (waiting_before (fun own => by simp [settled] at own) may)
  | requeued => exact paid may
  | exhausted => exact paid may

theorem within_budget_step (before : WithinBudget config s) (effect : Effect config s a t) :
    WithinBudget config t where
  finishes := pending_finishes_step before.finishes effect
  retries := fun _ _ found => retries_step before effect found
  claims := fun _ _ found => claims_step before effect found
  unclaimed := fun _ absent => unclaimed_step before effect absent
  generated := fun _ _ distinct may => generated_step before effect distinct may

theorem generated_le (budget : WithinBudget config s) (id : InsightId) :
    s.generated id ≤ config.maxRetries + 1 := by
  have paid := budget.generated id [] List.nodup_nil (by simp)
  cases found : s.rows.get id with
  | none =>
      have unclaimed := budget.unclaimed id found
      simp only [List.length_nil] at paid
      omega
  | some row =>
      have claims := budget.claims id row found
      have retries := budget.retries id row found
      simp only [List.length_nil] at paid
      omega

end

theorem within_budget_run {config : WorkerConfig} {actions : List Action} {s : State}
    (reached : run (step config) .start actions = some s) : WithinBudget config s :=
  run_preserves (fun _ _ _ taken before => within_budget_step before (step_effect taken))
    reached (within_budget_start config)

end Yomochi.Insights
