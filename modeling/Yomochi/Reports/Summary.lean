import Yomochi.Foundation.Grouping
import Yomochi.Reports.Trend

/-! The summary of a month: the totals of each currency, of the income and of the expenses, up to
the current day. -/

namespace Yomochi.Reports

open Foundation
open Insights (StoredTransaction)
open Recurring (TransactionType)

structure MonthPeriod where
  year : Nat
  month : Nat
  monthBounds : 1 ≤ month ∧ month ≤ 12
  yearBounds : 1900 ≤ year ∧ year ≤ 2999

namespace MonthPeriod

def new (year month : Int) : Option MonthPeriod :=
  if valid : (1 ≤ month.toNat ∧ month.toNat ≤ 12) ∧ (1900 ≤ year.toNat ∧ year.toNat ≤ 2999) then
    some ⟨year.toNat, month.toNat, valid.1, valid.2⟩
  else none

theorem year_known (period : MonthPeriod) : 1 ≤ period.year ∧ period.year ≤ maxYear := by
  have bounds := period.yearBounds
  simp only [maxYear]
  omega

def start (period : MonthPeriod) : Date where
  year := period.year
  month := period.month
  day := 1
  yearBounds := period.year_known
  monthBounds := period.monthBounds
  dayBounds := ⟨Nat.le_refl 1, Nat.le_trans (Nat.le_add_left 1 27) (daysInMonth_bounds _ _).1⟩

def naturalEnd (period : MonthPeriod) : Date where
  year := period.year
  month := period.month
  day := daysInMonth period.year period.month
  yearBounds := period.year_known
  monthBounds := period.monthBounds
  dayBounds := ⟨Nat.le_trans (Nat.le_add_left 1 27) (daysInMonth_bounds _ _).1, Nat.le_refl _⟩

def boundsClippedTo (period : MonthPeriod) (today : Date) : Date × Date :=
  (period.start, if today < period.naturalEnd then today else period.naturalEnd)

end MonthPeriod

structure CurrencyTotalRow where
  currency : Text
  type : TransactionType
  total : ℚ
  count : Nat
  deriving DecidableEq

def sumOf (rows : List StoredTransaction) : ℚ :=
  (rows.map StoredTransaction.amount).foldl (fun total amount => total + amount) 0

def summaryRows (rows : List StoredTransaction) (userId : UserId) (start end_ : Date) :
    List StoredTransaction :=
  rows.filter fun row =>
    decide (row.userId = userId) && decide (start ≤ row.date) && decide (row.date ≤ end_)

/-- `SqlaBudgetSummaryReader.read_clipped`: grouped by currency and type. The database may return
the groups in another order. -/
def readClipped (rows : List StoredTransaction) (userId : UserId) (period : MonthPeriod)
    (clippedTo : Date) : List CurrencyTotalRow :=
  let bounds := period.boundsClippedTo clippedTo
  groupBy (fun row => (row.currency, row.type))
    (fun group members => ⟨group.1, group.2, sumOf members, members.length⟩)
    (summaryRows rows userId bounds.1 bounds.2)

structure CurrencyTotal where
  currency : Text
  total : ℚ
  count : Nat
  deriving DecidableEq

structure BudgetSummaryResult where
  expenses : List CurrencyTotal
  income : List CurrencyTotal

def splitByType (rows : List CurrencyTotalRow) : BudgetSummaryResult :=
  rows.foldl (fun result row =>
    let bucket : CurrencyTotal := ⟨row.currency, row.total, row.count⟩
    if row.type = .EXPENSE then { result with expenses := result.expenses ++ [bucket] }
    else { result with income := result.income ++ [bucket] }) ⟨[], []⟩

/-- `GetBudgetSummaryUseCase`; `order` is the one in which the database returns the groups, and
`none` is a `ValueError`. -/
def getBudgetSummary (order : List CurrencyTotalRow → List CurrencyTotalRow)
    (rows : List StoredTransaction) (userId : UserId) (year month : Int) (today : Date) :
    Option BudgetSummaryResult :=
  (MonthPeriod.new year month).map fun period =>
    splitByType (order (readClipped rows userId period (period.boundsClippedTo today).2))

/-! The two lists of a summary. -/

def BudgetSummaryResult.of (result : BudgetSummaryResult) : TransactionType → List CurrencyTotal
  | .EXPENSE => result.expenses
  | .INCOME => result.income

theorem split_by_type (rows : List CurrencyTotalRow) (type : TransactionType) :
    (splitByType rows).of type =
      (rows.filter fun row => decide (row.type = type)).map fun row =>
        ⟨row.currency, row.total, row.count⟩ := by
  have from_ (rows : List CurrencyTotalRow) (result : BudgetSummaryResult) :
      (rows.foldl (fun result row =>
        let bucket : CurrencyTotal := ⟨row.currency, row.total, row.count⟩
        if row.type = .EXPENSE then { result with expenses := result.expenses ++ [bucket] }
        else { result with income := result.income ++ [bucket] }) result).of type =
      result.of type ++ (rows.filter fun row => decide (row.type = type)).map fun row =>
        ⟨row.currency, row.total, row.count⟩ := by
    induction rows generalizing result with
    | nil => exact (List.append_nil _).symm
    | cons row rows ih =>
        rw [List.foldl_cons, ih]
        cases kind : row.type with
        | EXPENSE =>
            cases type with
            | EXPENSE => simp [BudgetSummaryResult.of, kind]
            | INCOME => simp [BudgetSummaryResult.of, kind]
        | INCOME =>
            cases type with
            | EXPENSE => simp [BudgetSummaryResult.of, kind]
            | INCOME => simp [BudgetSummaryResult.of, kind]
  have whole := from_ rows ⟨[], []⟩
  rw [splitByType, whole]
  cases type with
  | EXPENSE => exact List.nil_append _
  | INCOME => exact List.nil_append _

end Yomochi.Reports
