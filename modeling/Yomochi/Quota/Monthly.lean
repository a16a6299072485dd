import Yomochi.Foundation.Months
import Yomochi.Foundation.Runs
import Yomochi.Insights.Workers
import Yomochi.Recurring.Session

/-! `SqlaQuotaCheck` under concurrent requests of `CreateTransactionUseCase` and
`RequestInsightUseCase`, within one month: the count query, the saved object and the commit of a
request are separate steps, and a query sees what is committed. -/

namespace Yomochi.Quota

open Foundation Insights Recurring

abbrev RequestId := Nat

inductive Plan
  | FREE
  | DEMO
  deriving DecidableEq, Repr

inductive QuotaResource
  | TRANSACTIONS
  | INSIGHTS
  deriving DecidableEq, Repr

def planLimit : Plan → QuotaResource → Nat
  | .FREE, .TRANSACTIONS => 500
  | .FREE, .INSIGHTS => 30
  | .DEMO, .TRANSACTIONS => 5000
  | .DEMO, .INSIGHTS => 300

structure QuotaExceededError where
  resource : QuotaResource
  current : Nat
  limit : Nat
  deriving DecidableEq, Repr

inductive Command
  | createTransaction (command : CreateTransactionCommand)
  | requestInsight (command : RequestInsightCommand)
  deriving DecidableEq

namespace Command

def userId : Command → UserId
  | .createTransaction command => command.userId
  | .requestInsight command => command.userId

def resource : Command → QuotaResource
  | .createTransaction _ => .TRANSACTIONS
  | .requestInsight _ => .INSIGHTS

end Command

inductive Phase
  | arrived
  | refused (error : QuotaExceededError)
  | counted (command : Command) (count : Nat)
  | saved (command : Command) (count : Nat) (id : Uuid) (createdAt : Timestamp)
  | done

/-- `overtaken` counts for each request the rows of its user and resource that others have
committed since its count query. -/
structure State where
  plans : UserId → Option Plan
  transactions : Table Transaction.id
  insights : Table Insight.id
  requests : RequestId → Phase
  overtaken : RequestId → Nat

def State.start (plans : UserId → Option Plan) (transactions : Table Transaction.id)
    (insights : Table Insight.id) : State :=
  ⟨plans, transactions, insights, fun _ => .arrived, fun _ => 0⟩

inductive Action
  | check (request : RequestId) (command : Command) (now : Timestamp)
  | save (request : RequestId) (id : Uuid) (createdAt : Timestamp)
  | commit (request : RequestId)
  | fail (request : RequestId)

/-- `get_plan`: a user without a row is on the free plan. -/
def State.getPlan (s : State) (userId : UserId) : Plan := (s.plans userId).getD .FREE

def createdBy (userId rowUserId : UserId) (month : Nat) (createdAt : Timestamp) : Bool :=
  decide (rowUserId = userId) && decide (InMonth month createdAt)

def State.count (s : State) (userId : UserId) (resource : QuotaResource) (month : Nat) : Nat :=
  match resource with
  | .TRANSACTIONS =>
      s.transactions.rows.countP fun row => createdBy userId row.userId month row.createdAt
  | .INSIGHTS => s.insights.rows.countP fun row => createdBy userId row.userId month row.createdAt

def State.setPhase (s : State) (request : RequestId) (phase : Phase) : State :=
  { s with requests := Function.update s.requests request phase }

/-- `check_and_increment`: the increment is the row that the caller inserts. -/
def check (month : Nat) (s : State) (request : RequestId) (command : Command) (now : Timestamp) :
    Option State :=
  match s.requests request with
  | .arrived =>
      if currentMonth now ≠ month then none
      else if planLimit (s.getPlan command.userId) command.resource ≤
          s.count command.userId command.resource (currentMonth now) then
        some (s.setPhase request (.refused ⟨command.resource,
          s.count command.userId command.resource (currentMonth now) + 1,
          planLimit (s.getPlan command.userId) command.resource⟩))
      else
        some (({ s with overtaken := Function.update s.overtaken request 0 } : State).setPhase request
          (.counted command (s.count command.userId command.resource (currentMonth now))))
  | _ => none

/-- `merge`: the row waits for the commit. -/
def save (month : Nat) (s : State) (request : RequestId) (id : Uuid) (createdAt : Timestamp) :
    Option State :=
  match s.requests request with
  | .counted command count =>
      if currentMonth createdAt ≠ month then none
      else some (s.setPhase request (.saved command count id createdAt))
  | _ => none

def State.insert (s : State) (command : Command) (id : Uuid) (createdAt : Timestamp) : Option State :=
  match command with
  | .createTransaction command =>
      (s.transactions.insert (newTransaction command ⟨none, ⟨id⟩, createdAt, createdAt⟩)).map
        fun transactions => { s with transactions := transactions }
  | .requestInsight command =>
      match requestedRow Insights.insights ⟨id⟩ command createdAt with
      | .error _ => none
      | .ok row => (s.insights.insert row).map fun insights => { s with insights := insights }

def Phase.concerns (phase : Phase) (userId : UserId) (resource : QuotaResource) : Bool :=
  match phase with
  | .counted command _ | .saved command _ _ _ =>
      decide (command.userId = userId) && decide (command.resource = resource)
  | _ => false

/-- The other requests that have counted fall behind by one row. -/
def State.overtake (s : State) (userId : UserId) (resource : QuotaResource) : State :=
  { s with overtaken := fun request =>
      if (s.requests request).concerns userId resource then s.overtaken request + 1
      else s.overtaken request }

def commit (s : State) (request : RequestId) : Option State :=
  match s.requests request with
  | .saved command _ id createdAt =>
      (s.insert command id createdAt).map fun inserted =>
        (inserted.overtake command.userId command.resource).setPhase request .done
  | _ => none

def step (month : Nat) (s : State) : Action → Option State
  | .check request command now => check month s request command now
  | .save request id createdAt => save month s request id createdAt
  | .commit request => commit s request
  | .fail request => some (s.setPhase request .done)

def State.limit (s : State) (userId : UserId) (resource : QuotaResource) : Nat :=
  planLimit (s.getPlan userId) resource

/-- The rows that the user has created in the month are within the quota. -/
def WithinQuota (month : Nat) (userId : UserId) (resource : QuotaResource) (s : State) : Prop :=
  s.count userId resource month ≤ s.limit userId resource

def Phase.ticket : Phase → Option (Command × Nat)
  | .counted command count | .saved command count _ _ => some (command, count)
  | _ => none

/-- When a request commits, fewer rows have been committed since its count query than the count
left below the limit. -/
def RoomLeft (userId : UserId) (resource : QuotaResource) (s : State) : Action → Prop
  | .commit request => ∀ ticket ∈ (s.requests request).ticket,
      ticket.1.userId = userId → ticket.1.resource = resource →
        ticket.2 + s.overtaken request < s.limit userId resource
  | _ => True

/-- Every count is right up to the rows committed since. -/
structure Counts (month : Nat) (s : State) : Prop where
  counted : ∀ request command count, (s.requests request).ticket = some (command, count) →
    s.count command.userId command.resource month = count + s.overtaken request
  created : ∀ request command count id createdAt,
    s.requests request = .saved command count id createdAt → currentMonth createdAt = month

section

variable {month : Nat} {s t : State} {request : RequestId} {userId : UserId}
  {resource : QuotaResource} {command : Command} {id : Uuid} {createdAt : Timestamp}

theorem counts_start (plans : UserId → Option Plan) (transactions : Table Transaction.id)
    (insights : Table Insight.id) : Counts month (.start plans transactions insights) where
  counted := fun _ _ _ counted => by cases counted
  created := fun _ _ _ _ _ saved => by cases saved

@[simp] theorem count_set_phase (phase : Phase) :
    (s.setPhase request phase).count userId resource month = s.count userId resource month := by
  cases resource <;> rfl

theorem set_phase_self (s : State) (request : RequestId) (phase : Phase) :
    (s.setPhase request phase).requests request = phase := by
  simp [State.setPhase]

theorem set_phase_other {other : RequestId} {phase : Phase} (different : other ≠ request) :
    (s.setPhase request phase).requests other = s.requests other := by
  simp [State.setPhase, different]

theorem counts_set_phase {phase : Phase} (counts : Counts month s)
    (ticket : ∀ command count, phase.ticket = some (command, count) →
      s.count command.userId command.resource month = count + s.overtaken request)
    (created : ∀ command count id createdAt, phase = .saved command count id createdAt →
      currentMonth createdAt = month) : Counts month (s.setPhase request phase) := by
  constructor
  · intro other command count held
    rw [count_set_phase]
    by_cases same : other = request
    · subst same
      rw [set_phase_self] at held
      exact ticket command count held
    · rw [set_phase_other same] at held
      exact counts.counted other command count held
  · intro other command count id createdAt saved
    by_cases same : other = request
    · subst same
      rw [set_phase_self] at saved
      exact created command count id createdAt saved
    · rw [set_phase_other same] at saved
      exact counts.created other command count id createdAt saved

theorem count_insert (userId : UserId) (resource : QuotaResource)
    (inserted : s.insert command id createdAt = some t)
    (within : currentMonth createdAt = month) : t.count userId resource month =
      s.count userId resource month +
        if command.userId = userId ∧ command.resource = resource then 1 else 0 := by
  have inside : InMonth month createdAt := within ▸ in_current_month createdAt
  cases command with
  | createTransaction command =>
      obtain ⟨transactions, added, rfl⟩ := Option.map_eq_some_iff.mp inserted
      cases resource with
      | TRANSACTIONS =>
          simp [State.count, (Table.insert_eq_some added).2, createdBy, newTransaction, inside,
            Command.userId, Command.resource]
      | INSIGHTS => simp [State.count, Command.resource]
  | requestInsight command =>
      obtain ⟨insights, added, rfl⟩ := Option.map_eq_some_iff.mp inserted
      cases resource with
      | TRANSACTIONS => simp [State.count, Command.resource]
      | INSIGHTS =>
          simp [State.count, (Table.insert_eq_some added).2, createdBy, newInsight, mapped, inside,
            Command.userId, Command.resource]

theorem insert_requests (inserted : s.insert command id createdAt = some t) :
    t.requests = s.requests ∧ t.overtaken = s.overtaken ∧ t.plans = s.plans := by
  cases command with
  | createTransaction command =>
      obtain ⟨transactions, added, rfl⟩ := Option.map_eq_some_iff.mp inserted
      exact ⟨rfl, rfl, rfl⟩
  | requestInsight command =>
      obtain ⟨insights, added, rfl⟩ := Option.map_eq_some_iff.mp inserted
      exact ⟨rfl, rfl, rfl⟩

theorem concerns_of_ticket (userId : UserId) (resource : QuotaResource) {phase : Phase}
    {count : Nat} (held : phase.ticket = some (command, count)) :
    phase.concerns userId resource =
      (decide (command.userId = userId) && decide (command.resource = resource)) := by
  cases phase with
  | counted other _ =>
      cases held
      rfl
  | saved other _ _ _ =>
      cases held
      rfl
  | _ => cases held

/-- What a commit adds to a count, it adds to how far the other requests are behind. -/
theorem counts_committed {inserted : State} (counts : Counts month s)
    (added : s.insert command id createdAt = some inserted)
    (within : currentMonth createdAt = month) :
    Counts month (inserted.overtake command.userId command.resource) := by
  obtain ⟨requests, overtaken, _⟩ := insert_requests added
  constructor
  · intro other waiting count held
    change (inserted.requests other).ticket = some (waiting, count) at held
    rw [requests] at held
    have before := counts.counted other waiting count held
    have after := count_insert waiting.userId waiting.resource added within
    have behind := concerns_of_ticket command.userId command.resource held
    change inserted.count waiting.userId waiting.resource month =
      count + if (inserted.requests other).concerns command.userId command.resource
        then inserted.overtaken other + 1 else inserted.overtaken other
    rw [requests, overtaken, behind, after, before]
    by_cases same : command.userId = waiting.userId ∧ command.resource = waiting.resource
    · simp [same, Nat.add_assoc]
    · have different : ¬(waiting.userId = command.userId ∧ waiting.resource = command.resource) :=
        fun equal => same ⟨equal.1.symm, equal.2.symm⟩
      simp [same, different]
  · intro other waiting count key time saved
    change inserted.requests other = .saved waiting count key time at saved
    rw [requests] at saved
    exact counts.created other waiting count key time saved

theorem counts_reset (counts : Counts month s) (arrived : s.requests request = .arrived) :
    Counts month { s with overtaken := Function.update s.overtaken request 0 } where
  counted := by
    intro other command count held
    have different : other ≠ request := by
      rintro rfl
      rw [arrived] at held
      cases held
    simp only [Function.update_of_ne different]
    exact counts.counted other command count held
  created := counts.created

theorem counts_step (s : State) (a : Action) (t : State) (taken : step month s a = some t)
    (counts : Counts month s) : Counts month t := by
  cases a with
  | check request command now =>
      simp only [step, check] at taken
      split at taken
      · rename_i arrived
        split at taken
        · cases taken
        · rename_i now
          split at taken
          · cases taken
            exact counts_set_phase counts (fun _ _ held => by cases held)
              (fun _ _ _ _ saved => by cases saved)
          · cases taken
            apply counts_set_phase (counts_reset counts arrived)
            · intro waiting count held
              cases held
              simp only [Function.update_self, Nat.add_zero]
              rw [Decidable.not_not.mp now]
              rfl
            · intro _ _ _ _ saved
              cases saved
      · cases taken
  | save request id createdAt =>
      simp only [step, save] at taken
      split at taken
      · rename_i command count phase
        split at taken
        · cases taken
        · rename_i within
          cases taken
          apply counts_set_phase counts
          · intro command count held
            cases held
            exact counts.counted request command count (by rw [phase]; rfl)
          · intro command count id createdAt saved
            cases saved
            exact Decidable.not_not.mp within
      · cases taken
  | commit request =>
      simp only [step, commit] at taken
      split at taken
      · rename_i command count id createdAt phase
        obtain ⟨inserted, added, rfl⟩ := Option.map_eq_some_iff.mp taken
        have within := counts.created request command count id createdAt phase
        exact counts_set_phase (counts_committed counts added within)
          (fun _ _ held => by cases held) (fun _ _ _ _ saved => by cases saved)
      · cases taken
  | fail request =>
      cases taken
      exact counts_set_phase counts (fun _ _ held => by cases held)
        (fun _ _ _ _ saved => by cases saved)

/-- A step takes the user over the limit exactly when it commits a row with no room left. -/
theorem within_quota_step (s : State) (a : Action) (t : State) (taken : step month s a = some t)
    (counts : Counts month s) (within : WithinQuota month userId resource s) :
    WithinQuota month userId resource t ↔ RoomLeft userId resource s a := by
  cases a with
  | check request command now =>
      simp only [step, check] at taken
      split at taken
      · split at taken
        · cases taken
        · split at taken <;> cases taken <;> exact ⟨fun _ => trivial, fun _ => within⟩
      · cases taken
  | save request id createdAt =>
      simp only [step, save] at taken
      split at taken
      · split at taken <;> cases taken
        exact ⟨fun _ => trivial, fun _ => within⟩
      · cases taken
  | commit request =>
      simp only [step, commit] at taken
      split at taken
      · rename_i command count id createdAt phase
        obtain ⟨inserted, added, rfl⟩ := Option.map_eq_some_iff.mp taken
        have times := counts.created request command count id createdAt phase
        have counted := counts.counted request command count (by rw [phase]; rfl)
        have after := count_insert userId resource added times
        have plans := (insert_requests added).2.2
        have limit : inserted.limit userId resource = s.limit userId resource := by
          simp [State.limit, State.getPlan, plans]
        change inserted.count userId resource month ≤ inserted.limit userId resource ↔ _
        simp only [RoomLeft, phase, Phase.ticket]
        rw [after, limit]
        by_cases same : command.userId = userId ∧ command.resource = resource
        · obtain ⟨rfl, rfl⟩ := same
          rw [counted, if_pos ⟨rfl, rfl⟩]
          constructor
          · rintro within ticket ⟨⟩ _ _
            exact within
          · exact fun room => room (command, count) rfl rfl rfl
        · rw [if_neg same]
          refine ⟨fun _ => ?_, fun _ => within⟩
          rintro ticket held owner kind
          cases held
          exact absurd ⟨owner, kind⟩ same
      · cases taken
  | fail request =>
      cases taken
      exact ⟨fun _ => trivial, fun _ => within⟩

end

/-- The quota of a user for a resource holds throughout a month exactly when every commit finds
room for its row. -/
theorem within_quota_iff (month : Nat) (userId : UserId) (resource : QuotaResource)
    (plans : UserId → Option Plan) (transactions : Table Transaction.id)
    (insights : Table Insight.id)
    (within : WithinQuota month userId resource (.start plans transactions insights))
    (actions : List Action) (s : State)
    (reached : run (step month) (.start plans transactions insights) actions = some s) :
    Visits (step month) (WithinQuota month userId resource) (.start plans transactions insights)
        actions ↔
      Along (step month) (RoomLeft userId resource) (.start plans transactions insights) actions :=
  visits_iff_along counts_step within_quota_step reached
    (counts_start plans transactions insights) within

def januaryInsight : RequestInsightCommand := ⟨⟨3⟩, .MONTHLY, 1970, 1⟩

def oneLeft : Table Insight.id :=
  ⟨(List.range 29).map fun n => newInsight ⟨n⟩ januaryInsight 0, by decide +kernel⟩

def bothCount : List Action :=
  [.check 0 (.requestInsight januaryInsight) 0, .check 1 (.requestInsight januaryInsight) 0,
    .save 0 100 0, .save 1 101 0, .commit 0, .commit 1]

theorem one_left_within :
    WithinQuota 0 ⟨3⟩ .INSIGHTS (.start (fun _ => none) .empty oneLeft) := by
  unfold WithinQuota
  decide +kernel

theorem both_count_reached : ∃ s,
    run (step 0) (.start (fun _ => none) .empty oneLeft) bothCount = some s ∧
      s.count ⟨3⟩ .INSIGHTS 0 = 31 ∧ s.limit ⟨3⟩ .INSIGHTS = 30 := by
  have ends : (run (step 0) (.start (fun _ => none) .empty oneLeft) bothCount).any (fun s =>
      decide (s.count ⟨3⟩ .INSIGHTS 0 = 31 ∧ s.limit ⟨3⟩ .INSIGHTS = 30)) = true := by
    decide +kernel
  obtain ⟨s, reached, counted⟩ := (Option.any_eq_true _ _).mp ends
  exact ⟨s, reached, of_decide_eq_true counted⟩

theorem within_quota_iff_both_count :
    Visits (step 0) (WithinQuota 0 ⟨3⟩ .INSIGHTS) (.start (fun _ => none) .empty oneLeft) bothCount ↔
      Along (step 0) (RoomLeft ⟨3⟩ .INSIGHTS) (.start (fun _ => none) .empty oneLeft) bothCount := by
  obtain ⟨s, reached, _⟩ := both_count_reached
  exact within_quota_iff 0 ⟨3⟩ .INSIGHTS (fun _ => none) .empty oneLeft one_left_within bothCount s
    reached

theorem not_within_quota : ¬ ∀ (month : Nat) (userId : UserId) (resource : QuotaResource)
    (plans : UserId → Option Plan) (transactions : Table Transaction.id) (insights : Table Insight.id),
    WithinQuota month userId resource (.start plans transactions insights) →
      ∀ actions s, run (step month) (.start plans transactions insights) actions = some s →
        WithinQuota month userId resource s := by
  intro claimed
  obtain ⟨s, reached, counted, limit⟩ := both_count_reached
  have within := claimed 0 ⟨3⟩ .INSIGHTS (fun _ => none) .empty oneLeft one_left_within bothCount s
    reached
  rw [WithinQuota, counted, limit] at within
  exact absurd within (by decide)

end Yomochi.Quota
