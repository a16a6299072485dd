import Yomochi.Foundation.Calendar
import Yomochi.Insights.Aggregation
import Yomochi.Values

/-! What the insights read of the transactions: the rows of a calendar month, those of the months
before it, and how many there are. Each query names its user and a range of dates. -/

namespace Yomochi.Insights

open Foundation
open Recurring (TransactionType)

structure StoredTransaction where
  id : Uuid
  userId : UserId
  date : Date
  amount : ℚ
  currency : Text
  type : TransactionType
  categoryLabel : Option Text
  deriving DecidableEq

def StoredTransaction.row (transaction : StoredTransaction) : TransactionRow :=
  ⟨transaction.amount, transaction.currency, transaction.type, transaction.categoryLabel⟩

abbrev YearMonth := Int × Int

def lastDay (period : YearMonth) : Option Date :=
  Date.ofNumbers period.1 period.2 (daysInMonth period.1.toNat period.2.toNat)

def fetch (rows : List StoredTransaction) (userId : UserId) (firstDay lastDay : Date) :
    List StoredTransaction :=
  rows.filter fun row =>
    decide (row.userId = userId) && (decide (firstDay ≤ row.date) && decide (row.date ≤ lastDay))

/-- `read_month`; `none` is a `ValueError` of `date` or `calendar.monthrange`. -/
def readMonth (rows : List StoredTransaction) (userId : UserId) (period : YearMonth) :
    Option (List StoredTransaction) := do
  let first ← Date.ofNumbers period.1 period.2 1
  let last ← lastDay period
  some (fetch rows userId first last)

def monthsBefore : Nat → YearMonth → List YearMonth
  | 0, _ => []
  | n + 1, (year, month) =>
      let before := if month - 1 = 0 then (year - 1, 12) else (year, month - 1)
      before :: monthsBefore n before

def inMonth (period : YearMonth) (date : Date) : Bool :=
  decide ((date.year : Int) = period.1) && decide ((date.month : Int) = period.2)

def readHistoryMonths (rows : List StoredTransaction) (userId : UserId) (before : YearMonth)
    (nMonths : Nat) : Option (List (YearMonth × List StoredTransaction)) :=
  let months := monthsBefore nMonths before
  match months.getLast?, months.head? with
  | some earliest, some latest => do
      let first ← Date.ofNumbers earliest.1 earliest.2 1
      let last ← lastDay latest
      let found := fetch rows userId first last
      some (months.map fun month => (month, found.filter fun row => inMonth month row.date))
  | _, _ => some []

def countedRows (rows : List StoredTransaction) (userId : UserId) (period : YearMonth) :
    List StoredTransaction :=
  rows.filter fun row => decide (row.userId = userId) && inMonth period row.date

def countForPeriod (rows : List StoredTransaction) (userId : UserId) (period : YearMonth) : Nat :=
  (countedRows rows userId period).length

def aggregateMonth (period : YearMonth) (rows : List StoredTransaction) : List MonthlyAggregation :=
  aggregate period.1 period.2 (rows.map StoredTransaction.row)

/-- The order of `sorted` on the items of the dict, whose keys differ. -/
def earlier (first second : YearMonth × List StoredTransaction) : Bool :=
  decide (first.1.1 < second.1.1) ||
    (decide (first.1.1 = second.1.1) && decide (first.1.2 ≤ second.1.2))

/-- The aggregations of the months that have rows, from the earliest. -/
def historyAggregations (history : List (YearMonth × List StoredTransaction)) :
    List MonthlyAggregation :=
  (history.insertionSort fun first second => earlier first second = true).flatMap fun entry =>
    if entry.2 = [] then [] else aggregateMonth entry.1 entry.2

def nHistoryMonths : Nat := 3

end Yomochi.Insights
