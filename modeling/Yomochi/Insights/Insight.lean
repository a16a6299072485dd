import Mathlib.Data.Rat.Defs
import Yomochi.Values

/-! The `Insight` entity and its status transitions. -/

namespace Yomochi.Insights

structure CurrencyTotals where
  currency : String
  income : ℚ
  expense : ℚ
  count : Nat
  deriving DecidableEq

structure BudgetSummarySnapshot where
  perCurrency : List CurrencyTotals
  deriving DecidableEq

structure Insight where
  id : InsightId
  userId : UserId
  period : Period
  periodYear : Int
  periodMonth : Int
  status : InsightStatus
  contextQuality : Option ContextQuality
  title : Option String
  description : Option String
  impactScore : Option Int
  generatedAt : Option Timestamp
  errorMessage : Option String
  createdAt : Timestamp
  updatedAt : Option Timestamp := none
  budgetSummary : Option BudgetSummarySnapshot := none
  processingDeadline : Option Timestamp := none
  retryCount : Nat := 0
  deriving DecidableEq

structure InsightResponse where
  title : String
  description : String
  impactScore : Int
  deriving DecidableEq, Repr

namespace Insight

def markQueued (insight : Insight) : Except ValueError Insight :=
  if insight.status ≠ .PENDING then
    .error ⟨"Cannot queue insight in status " ++ insight.status.value⟩
  else .ok { insight with status := .QUEUED }

def markProcessing (insight : Insight) (deadline : Option Timestamp := none) :
    Except ValueError Insight :=
  if insight.status ≠ .QUEUED then
    .error ⟨"Cannot process insight in status " ++ insight.status.value⟩
  else
    .ok { insight with
      status := .PROCESSING
      processingDeadline := deadline.orElse fun _ => insight.processingDeadline }

def markCompleted (insight : Insight) (title description : String) (impactScore : Int)
    (contextQuality : ContextQuality) (generatedAt : Timestamp)
    (budgetSummary : Option BudgetSummarySnapshot) : Except ValueError Insight :=
  if insight.status ≠ .PROCESSING then
    .error ⟨"Cannot complete insight in status " ++ insight.status.value⟩
  else if ¬(1 ≤ impactScore ∧ impactScore ≤ 10) then
    .error ⟨"impact_score must be 1-10, got " ++ toString impactScore⟩
  else
    .ok { insight with
      status := .COMPLETED
      title := some title
      description := some description
      impactScore := some impactScore
      contextQuality := some contextQuality
      generatedAt := some generatedAt
      budgetSummary := budgetSummary }

def markFailed (insight : Insight) (error : String) : Except ValueError Insight :=
  if insight.status ≠ .PROCESSING then
    .error ⟨"Cannot fail insight in status " ++ insight.status.value⟩
  else .ok { insight with status := .FAILED, errorMessage := some error }

structure Outcome where
  status : InsightStatus
  title : Option String
  description : Option String
  impactScore : Option Int
  contextQuality : Option ContextQuality
  generatedAt : Option Timestamp
  budgetSummary : Option BudgetSummarySnapshot
  errorMessage : Option String
  deriving DecidableEq

def outcome (insight : Insight) : Outcome where
  status := insight.status
  title := insight.title
  description := insight.description
  impactScore := insight.impactScore
  contextQuality := insight.contextQuality
  generatedAt := insight.generatedAt
  budgetSummary := insight.budgetSummary
  errorMessage := insight.errorMessage

end Insight

def Terminal (status : InsightStatus) : Prop := status = .COMPLETED ∨ status = .FAILED

instance (status : InsightStatus) : Decidable (Terminal status) :=
  inferInstanceAs (Decidable (_ ∨ _))

/-- `mark_completed` succeeds from PROCESSING only, and keeps who the insight is for. -/
theorem mark_completed_eq_ok {insight completed : Insight} {title description : String}
    {impactScore : Int} {quality : ContextQuality} {generatedAt : Timestamp}
    {budget : Option BudgetSummarySnapshot}
    (marked : insight.markCompleted title description impactScore quality generatedAt budget =
      .ok completed) :
    insight.status = .PROCESSING ∧ 1 ≤ impactScore ∧ impactScore ≤ 10 ∧
      completed = { insight with
        status := .COMPLETED
        title := some title
        description := some description
        impactScore := some impactScore
        contextQuality := some quality
        generatedAt := some generatedAt
        budgetSummary := budget } := by
  unfold Insight.markCompleted at marked
  split at marked
  · cases marked
  · rename_i processing
    split at marked
    · cases marked
    · rename_i bounded
      cases marked
      have bounds := not_not.mp bounded
      exact ⟨not_not.mp processing, bounds.1, bounds.2, rfl⟩

theorem mark_failed_eq_ok {insight failed : Insight} {error : String}
    (marked : insight.markFailed error = .ok failed) :
    insight.status = .PROCESSING ∧
      failed = { insight with status := .FAILED, errorMessage := some error } := by
  unfold Insight.markFailed at marked
  split at marked
  · cases marked
  · rename_i processing
    cases marked
    exact ⟨not_not.mp processing, rfl⟩

end Yomochi.Insights
