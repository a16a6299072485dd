import Mathlib.Data.List.Sort
import Yomochi.Foundation.Numbers
import Yomochi.Recurring.Rules

/-! The monthly aggregator: the totals of each currency of a set of transactions. -/

namespace Yomochi.Insights

open Foundation
open Recurring (TransactionType)

structure TransactionRow where
  amount : ℚ
  currency : Text
  type : TransactionType
  categoryLabel : Option Text
  deriving DecidableEq

structure TopCategory where
  category : Text
  amount : ℚ
  pctOfExpenses : ℚ
  deriving DecidableEq

structure MonthlyAggregation where
  year : Int
  month : Int
  currency : Text
  totalIncome : ℚ
  totalExpenses : ℚ
  netSavings : ℚ
  savingsRate : ℚ
  topCategories : List TopCategory
  transactionCount : Nat
  deriving DecidableEq

/-- `totals[category] = totals.get(category, 0) + amount`, in the order of the keys. -/
def addTo (category : Text) (amount : ℚ) : List (Text × ℚ) → List (Text × ℚ)
  | [] => [(category, inContext amount)]
  | (other, total) :: totals =>
      if other = category then (other, inContext (total + amount)) :: totals
      else (other, total) :: addTo category amount totals

def amountsOf (type : TransactionType) (rows : List TransactionRow) : List ℚ :=
  (rows.filter fun row => row.type = type).map TransactionRow.amount

/-- The totals of the expenses that have a category with a name. -/
def categoryTotals (rows : List TransactionRow) : List (Text × ℚ) :=
  rows.foldl (fun totals row =>
    match row.categoryLabel with
    | some (c :: label) => if row.type = .EXPENSE then addTo (c :: label) row.amount totals
        else totals
    | _ => totals) []

/-- `float(part / whole)` where the whole is positive. -/
def ratio (part whole : ℚ) : ℚ := if 0 < whole then toFloat (inContext (part / whole)) else 0

def topCategories (rows : List TransactionRow) : List TopCategory :=
  ((categoryTotals rows).insertionSort fun first second => second.2 ≤ first.2).take 5
    |>.map fun entry => ⟨entry.1, entry.2, ratio entry.2 (decimalSum (amountsOf .EXPENSE rows))⟩

def aggregateCurrency (year month : Int) (currency : Text) (rows : List TransactionRow) :
    MonthlyAggregation :=
  let totalIncome := decimalSum (amountsOf .INCOME rows)
  let totalExpenses := decimalSum (amountsOf .EXPENSE rows)
  let netSavings := inContext (totalIncome - totalExpenses)
  { year := year
    month := month
    currency := currency
    totalIncome := totalIncome
    totalExpenses := totalExpenses
    netSavings := netSavings
    savingsRate := ratio netSavings totalIncome
    topCategories := topCategories rows
    transactionCount := rows.length }

def rowsOf (currency : Text) (rows : List TransactionRow) : List TransactionRow :=
  rows.filter fun row => row.currency = currency

/-- `aggregate`: one aggregation for each currency, in the order of their codes. -/
def aggregate (year month : Int) (rows : List TransactionRow) : List MonthlyAggregation :=
  (sortedSet (rows.map TransactionRow.currency)).map fun currency =>
    aggregateCurrency year month currency (rowsOf currency rows)

theorem rows_of_concat (currency : Text) (rows : List TransactionRow) (row : TransactionRow) :
    rowsOf currency (rows ++ [row]) =
      if row.currency = currency then rowsOf currency rows ++ [row] else rowsOf currency rows := by
  unfold rowsOf
  rw [List.filter_append]
  by_cases same : row.currency = currency
  · rw [if_pos same, List.filter_singleton, decide_eq_true same]
    rfl
  · rw [if_neg same, List.filter_singleton, decide_eq_false same]
    exact List.append_nil _

def totalOf (type : TransactionType) (currency : Text) (rows : List TransactionRow) : ℚ :=
  decimalSum (amountsOf type (rowsOf currency rows))

theorem total_of_concat (type : TransactionType) (currency : Text) (rows : List TransactionRow)
    (row : TransactionRow) :
    totalOf type currency (rows ++ [row]) =
      if row.type = type ∧ row.currency = currency then
        inContext (totalOf type currency rows + row.amount)
      else totalOf type currency rows := by
  unfold totalOf
  rw [rows_of_concat]
  by_cases inside : row.currency = currency
  · rw [if_pos inside]
    unfold amountsOf
    rw [List.filter_append, List.filter_singleton]
    by_cases same : row.type = type
    · rw [if_pos ⟨same, inside⟩, decide_eq_true same]
      simp [decimalSum]
    · rw [if_neg fun both => same both.1, decide_eq_false same]
      simp
  · rw [if_neg inside, if_neg fun both => inside both.2]

theorem counts_total {currencies : List Text} (distinct : currencies.Nodup)
    {rows : List TransactionRow} (known : ∀ row ∈ rows, row.currency ∈ currencies) :
    currencies.foldr (fun currency total => (rowsOf currency rows).length + total) 0 =
      rows.length := by
  induction currencies generalizing rows with
  | nil =>
      cases rows with
      | nil => rfl
      | cons row rows => exact absurd (known row List.mem_cons_self) List.not_mem_nil
  | cons currency currencies ih =>
      obtain ⟨absent, distinct⟩ := List.nodup_cons.mp distinct
      let others := rows.filter fun row => ¬ row.currency = currency
      have elsewhere : ∀ row ∈ others, row.currency ∈ currencies := by
        intro row member
        obtain ⟨inside, different⟩ := List.mem_filter.mp member
        rcases List.mem_cons.mp (known row inside) with same | later
        · exact absurd same (of_decide_eq_true different)
        · exact later
      have unaffected : ∀ other ∈ currencies, rowsOf other others = rowsOf other rows := by
        intro other member
        have different : ¬ other = currency := fun same => absent (same ▸ member)
        unfold rowsOf
        rw [List.filter_filter]
        apply List.filter_congr
        intro row _
        by_cases same : row.currency = other
        · simp [same, different]
        · simp [same]
      have rest : currencies.foldr (fun other total => (rowsOf other rows).length + total) 0 =
          others.length := by
        rw [← ih distinct elsewhere]
        apply List.foldr_ext
        intro other member total
        rw [unaffected other member]
      have split := List.length_eq_length_filter_add (l := rows) fun row => row.currency = currency
      rw [List.foldr_cons, rest, split]
      have filtered : others = rows.filter fun row => ! decide (row.currency = currency) := by
        apply List.filter_congr
        intro row _
        exact decide_not
      rw [filtered]
      rfl

end Yomochi.Insights
