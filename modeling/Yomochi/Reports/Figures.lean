import Yomochi.Chat.ToolArguments
import Yomochi.Foundation.ContextSums
import Yomochi.Insights.Periods
import Yomochi.Reports.Summary
import Yomochi.Reports.TrendPeriods

/-! The figures of a month, as the summary, the trend, the chat's tool and the insights have them:
each reads and adds up the transactions by itself, and all of them come to the same. -/

namespace Yomochi.Reports

open Foundation
open Insights (StoredTransaction TransactionRow MonthlyAggregation YearMonth inMonth readMonth
  countedRows aggregate aggregateMonth amountsOf rowsOf)
open Recurring (TransactionType)

def booked (rows : List StoredTransaction) (userId : UserId) (period : MonthPeriod)
    (currency : Text) (type : TransactionType) : List StoredTransaction :=
  rows.filter fun row =>
    decide (row.userId = userId) && inMonth (period.year, period.month) row.date &&
      (decide (row.currency = currency) && decide (row.type = type))

/-- Of these, the ones of no later day than today. -/
def shown (rows : List StoredTransaction) (userId : UserId) (period : MonthPeriod)
    (currency : Text) (type : TransactionType) (today : Date) : List StoredTransaction :=
  (booked rows userId period currency type).filter fun row => decide (row.date ≤ today)

/-- Amounts as their column holds them, with four places, and few enough that no sum of them needs
more than the digits of the context. -/
structure Priced (rows : List StoredTransaction) : Prop where
  nonneg : ∀ row ∈ rows, 0 ≤ row.amount
  places : ∀ row ∈ rows, ∃ n : Int, row.amount = n * 10 ^ (-4 : Int)
  small : total (rows.map StoredTransaction.amount) < 10 ^ (24 : Int)

/-! Months. -/

section Months

variable {period : MonthPeriod} {date today : Date}

theorem in_month_iff : inMonth (period.year, period.month) date = true ↔
    date.year = period.year ∧ date.month = period.month := by
  simp only [inMonth, Bool.and_eq_true, decide_eq_true_eq, Nat.cast_inj]

theorem between_bounds : (period.start ≤ date ∧ date ≤ (period.boundsClippedTo today).2) ↔
    inMonth (period.year, period.month) date = true ∧ date ≤ today := by
  have days := date.dayBounds
  have short := date.day_le
  have months := date.monthBounds
  have length := daysInMonth_bounds period.year period.month
  have monthsPeriod := period.monthBounds
  rw [in_month_iff]
  unfold MonthPeriod.boundsClippedTo
  by_cases early : today < period.naturalEnd
  · simp only [early, if_true]
    simp only [Date.lt_def, Date.le_def, Date.stamp, MonthPeriod.start,
      MonthPeriod.naturalEnd] at early ⊢
    omega
  · simp only [early, if_false]
    rw [Date.not_lt] at early
    constructor
    · intro inside
      refine ⟨?_, Date.le_trans inside.2 early⟩
      have low := inside.1
      have high := inside.2
      simp only [Date.le_def, Date.stamp, MonthPeriod.start, MonthPeriod.naturalEnd] at low high
      omega
    · intro inside
      obtain ⟨⟨year, month⟩, _⟩ := inside
      rw [year, month] at days
      simp only [Date.le_def, Date.stamp, MonthPeriod.start, MonthPeriod.naturalEnd]
      omega

theorem clipped_twice : (period.boundsClippedTo (period.boundsClippedTo today).2).2 =
    (period.boundsClippedTo today).2 := by
  unfold MonthPeriod.boundsClippedTo
  by_cases early : today < period.naturalEnd
  · simp [early]
  · simp [early]

theorem shown_past {rows : List StoredTransaction} {userId : UserId} {currency : Text}
    {type : TransactionType} (past : period.naturalEnd ≤ today) :
    shown rows userId period currency type today = booked rows userId period currency type := by
  apply List.filter_eq_self.mpr
  intro row member
  have matching := (List.mem_filter.mp member).2
  simp only [Bool.and_eq_true] at matching
  have length := row.date.dayBounds.2
  obtain ⟨year, month⟩ := in_month_iff.mp matching.1.2
  rw [year, month] at length
  apply decide_eq_true
  apply Date.le_trans _ past
  simp only [Date.le_def, Date.stamp, MonthPeriod.naturalEnd]
  omega

theorem real_month (period : MonthPeriod) :
    Insights.RealMonth ((period.year : Int), (period.month : Int)) := by
  have years := period.year_known
  have months := period.monthBounds
  simp only [Insights.RealMonth]
  omega

end Months

theorem sum_of_eq (rows : List StoredTransaction) :
    sumOf rows = total (rows.map StoredTransaction.amount) := by
  have from_ (amounts : List ℚ) (before : ℚ) :
      amounts.foldl (fun total amount => total + amount) before = before + total amounts := by
    induction amounts generalizing before with
    | nil => exact (add_zero before).symm
    | cons amount amounts ih => rw [List.foldl_cons, ih, add_assoc]; rfl
  rw [sumOf, from_, zero_add]

/-! The summary. -/

section Summary

variable {stored : List StoredTransaction} {userId : UserId} {period : MonthPeriod} {today : Date}

theorem summary_group (currency : Text) (type : TransactionType) :
    groupOf (fun row => (row.currency, row.type)) (summaryRows stored userId
        (period.boundsClippedTo (period.boundsClippedTo today).2).1
        (period.boundsClippedTo (period.boundsClippedTo today).2).2) (currency, type) =
      shown stored userId period currency type today := by
  rw [clipped_twice]
  unfold groupOf summaryRows shown booked
  rw [List.filter_filter, List.filter_filter]
  apply List.filter_congr
  intro row _
  have days : (period.start ≤ row.date ∧ row.date ≤ (period.boundsClippedTo today).2) ↔
      inMonth (period.year, period.month) row.date = true ∧ row.date ≤ today := between_bounds
  rw [Bool.eq_iff_iff]
  simp only [Bool.and_eq_true, decide_eq_true_eq, Prod.mk.injEq]
  tauto

theorem summary_line {order : List CurrencyTotalRow → List CurrencyTotalRow}
    (permutes : ∀ rows, (order rows).Perm rows) (type : TransactionType) (line : CurrencyTotal) :
    line ∈ (splitByType (order (readClipped stored userId period
        (period.boundsClippedTo today).2))).of type ↔
      shown stored userId period line.currency type today ≠ [] ∧
      line.total = total ((shown stored userId period line.currency type today).map
        StoredTransaction.amount) ∧
      line.count = (shown stored userId period line.currency type today).length := by
  have listed : line ∈ (splitByType (order (readClipped stored userId period
      (period.boundsClippedTo today).2))).of type ↔
        (⟨line.currency, type, line.total, line.count⟩ : CurrencyTotalRow) ∈
          readClipped stored userId period (period.boundsClippedTo today).2 := by
    rw [split_by_type, ← (permutes _).mem_iff]
    constructor
    · intro member
      obtain ⟨row, inside, same⟩ := List.mem_map.mp member
      obtain ⟨there, kind⟩ := List.mem_filter.mp inside
      rw [← same, ← of_decide_eq_true kind]
      exact there
    · intro there
      exact List.mem_map.mpr ⟨_, List.mem_filter.mpr ⟨there, decide_eq_true rfl⟩, rfl⟩
  rw [listed, readClipped]
  rw [@group_by_line _ _ _ _ _ _ _ (fun row : CurrencyTotalRow => (row.currency, row.type))
    fun _ _ => rfl]
  simp only [summary_group, CurrencyTotalRow.mk.injEq, sum_of_eq, true_and]

end Summary

/-! The trend. -/

section Trend

variable {stored : List StoredTransaction} {userId : UserId} {period : MonthPeriod}
  {window : TrendWindow} {currency : Text} {type : TransactionType}

theorem label_eq_iff {date : Date} : toCharMonth date = toCharMonth period.start ↔
    inMonth (period.year, period.month) date = true := by
  have months := date.monthBounds
  have others := period.monthBounds
  have number : toCharMonth date = toCharMonth period.start ↔
      bucketNumber .month date = bucketNumber .month period.start := by
    constructor
    · intro same
      have forth := text_lt_bucket_label .month date period.start
      have back := text_lt_bucket_label .month period.start date
      simp only [bucketLabel, same, text_lt_self] at forth back
      have notLess := of_decide_eq_false forth.symm
      have notMore := of_decide_eq_false back.symm
      omega
    · intro same
      exact label_of_bucket same
  rw [number, in_month_iff]
  simp only [bucketNumber, MonthPeriod.start]
  omega

theorem trend_bucket (modern : 1900 ≤ window.end_.year) (monthly : window.granularity = .month)
    (covers : bucketNumber .month window.end_ <
      bucketNumber .month period.start + window.bucketCount) :
    ∃ buckets, read stored userId currency type window = some buckets ∧
      ∀ bucket, bucket ∈ buckets ∧ bucket.label = toCharMonth period.start ↔
        shown stored userId period currency type window.end_ ≠ [] ∧
          bucket = ⟨toCharMonth period.start, total ((shown stored userId period currency type
            window.end_).map StoredTransaction.amount)⟩ := by
  obtain ⟨floor, floors, opens⟩ := floor_date_spec modern
  rw [TrendWindow.Opens, monthly] at opens
  -- the rows with the label of the month are those that are shown of it
  have group : (trendRows stored userId currency type floor window.end_).filter (fun row =>
      decide (bucketLabel window.granularity row.date = toCharMonth period.start)) =
        shown stored userId period currency type window.end_ := by
    unfold trendRows shown booked
    rw [List.filter_filter, List.filter_filter]
    apply List.filter_congr
    intro row _
    have after : inMonth (period.year, period.month) row.date = true → floor ≤ row.date := by
      intro inside
      have same := in_month_iff.mp inside
      have number : bucketNumber .month row.date = bucketNumber .month period.start := by
        rw [bucketNumber, bucketNumber, same.1, same.2]
        rfl
      rw [opens.1]
      omega
    rw [Bool.eq_iff_iff, monthly]
    simp only [bucketLabel, Bool.and_eq_true, decide_eq_true_eq, label_eq_iff]
    tauto
  refine ⟨_, by rw [read, floors]; rfl, fun bucket => ?_⟩
  constructor
  · intro found
    obtain ⟨listed, labelled⟩ := found
    obtain ⟨label, named, made⟩ := List.mem_map.mp listed
    have own : label = toCharMonth period.start := by
      rw [← labelled, ← made]
    rw [own] at named made
    obtain ⟨row, member, same⟩ := List.mem_map.mp (mem_sorted_set.mp named)
    have filled : row ∈ shown stored userId period currency type window.end_ := by
      rw [← group]
      exact List.mem_filter.mpr ⟨member, decide_eq_true same⟩
    refine ⟨List.ne_nil_of_mem filled, ?_⟩
    rw [← made, group, ← sum_of_eq]
    rfl
  · intro given
    obtain ⟨filled, made⟩ := given
    obtain ⟨row, member⟩ := List.exists_mem_of_ne_nil _ filled
    rw [← group] at member
    obtain ⟨inside, same⟩ := List.mem_filter.mp member
    refine ⟨List.mem_map.mpr ⟨toCharMonth period.start, ?_, ?_⟩, by rw [made]⟩
    · exact mem_sorted_set.mpr (List.mem_map.mpr ⟨row, inside, of_decide_eq_true same⟩)
    · rw [made, group, ← sum_of_eq]
      rfl

end Trend

/-! The aggregates of the chat's tool and of the insights. -/

section Aggregates

variable {stored : List StoredTransaction} {userId : UserId} {period : MonthPeriod}

theorem amounts_booked (currency : Text) (type : TransactionType) :
    amountsOf type (rowsOf currency ((countedRows stored userId (period.year, period.month)).map
        StoredTransaction.row)) =
      (booked stored userId period currency type).map StoredTransaction.amount := by
  unfold amountsOf rowsOf countedRows booked
  rw [List.filter_map, List.filter_map, List.map_map, List.filter_filter, List.filter_filter]
  congr 1
  apply List.filter_congr
  intro row _
  change (decide (row.type = type) && decide (row.currency = currency) &&
    (decide (row.userId = userId) && inMonth (period.year, period.month) row.date)) = _
  rw [Bool.and_comm, Bool.and_comm (decide (row.type = type))]

theorem booked_sum (priced : Priced (countedRows stored userId (period.year, period.month)))
    (currency : Text) (type : TransactionType) :
    decimalSum ((booked stored userId period currency type).map StoredTransaction.amount) =
      total ((booked stored userId period currency type).map StoredTransaction.amount) := by
  have part : (booked stored userId period currency type).Sublist
      (countedRows stored userId (period.year, period.month)) := by
    have split : booked stored userId period currency type =
        (countedRows stored userId (period.year, period.month)).filter fun row =>
          decide (row.currency = currency) && decide (row.type = type) := by
      rw [countedRows, List.filter_filter]
      apply List.filter_congr
      intro row _
      exact Bool.and_comm _ _
    rw [split]
    exact List.filter_sublist
  have exact : SumsExact ((countedRows stored userId (period.year, period.month)).map
      StoredTransaction.amount) := by
    apply @sums_exact (-4)
    · intro amount member
      obtain ⟨row, inside, same⟩ := List.mem_map.mp member
      exact same ▸ priced.nonneg row inside
    · intro amount member
      obtain ⟨row, inside, same⟩ := List.mem_map.mp member
      exact same ▸ priced.places row inside
    · exact priced.small
  exact (exact.part (part.map _).subperm).decimal_sum

theorem aggregate_figures
    (priced : Priced (countedRows stored userId (period.year, period.month)))
    (aggregation : MonthlyAggregation)
    (made : aggregation ∈ aggregateMonth (period.year, period.month)
      (countedRows stored userId (period.year, period.month))) :
    aggregation.totalIncome = total ((booked stored userId period aggregation.currency
        .INCOME).map StoredTransaction.amount) ∧
      aggregation.totalExpenses = total ((booked stored userId period aggregation.currency
        .EXPENSE).map StoredTransaction.amount) ∧
      aggregation.transactionCount = (booked stored userId period aggregation.currency
        .INCOME).length + (booked stored userId period aggregation.currency .EXPENSE).length := by
  obtain ⟨currency, _, same⟩ := List.mem_map.mp made
  rw [← same]
  refine ⟨?_, ?_, ?_⟩
  · rw [← booked_sum priced, ← amounts_booked]
    rfl
  · rw [← booked_sum priced, ← amounts_booked]
    rfl
  · have income := congrArg List.length
      (@amounts_booked stored userId period currency .INCOME)
    have expenses := congrArg List.length
      (@amounts_booked stored userId period currency .EXPENSE)
    simp only [amountsOf, List.length_map] at income expenses
    change (rowsOf currency _).length = (booked stored userId period currency .INCOME).length +
      (booked stored userId period currency .EXPENSE).length
    rw [← income, ← expenses, List.length_eq_length_filter_add fun row : TransactionRow =>
      decide (row.type = .INCOME)]
    congr 2
    apply List.filter_congr
    intro row _
    cases row.type with
    | INCOME => rfl
    | EXPENSE => rfl

theorem aggregate_currency (currency : Text) :
    (∃ aggregation ∈ aggregateMonth (period.year, period.month)
        (countedRows stored userId (period.year, period.month)),
          aggregation.currency = currency) ↔
      booked stored userId period currency .INCOME ≠ [] ∨
        booked stored userId period currency .EXPENSE ≠ [] := by
  have listed : (∃ aggregation ∈ aggregateMonth (period.year, period.month)
      (countedRows stored userId (period.year, period.month)),
        aggregation.currency = currency) ↔
      ∃ row ∈ countedRows stored userId (period.year, period.month), row.currency = currency := by
    simp only [aggregateMonth, aggregate, List.mem_map, mem_sorted_set, exists_exists_and_eq_and]
    constructor
    · intro found
      obtain ⟨row, inside, same⟩ := found
      exact ⟨row, inside, same⟩
    · intro found
      obtain ⟨row, inside, same⟩ := found
      exact ⟨row, inside, same⟩
  have split (type : TransactionType) : booked stored userId period currency type ≠ [] ↔
      ∃ row ∈ countedRows stored userId (period.year, period.month),
        row.currency = currency ∧ row.type = type := by
    have member (row : StoredTransaction) : row ∈ booked stored userId period currency type ↔
        row ∈ countedRows stored userId (period.year, period.month) ∧
          (row.currency = currency ∧ row.type = type) := by
      simp only [booked, countedRows, List.mem_filter, Bool.and_eq_true, decide_eq_true_eq]
      tauto
    rw [← exists_congr member]
    constructor
    · exact List.exists_mem_of_ne_nil _
    · intro found
      obtain ⟨row, inside⟩ := found
      exact List.ne_nil_of_mem inside
  rw [listed, split, split]
  constructor
  · intro found
    obtain ⟨row, inside, same⟩ := found
    cases kind : row.type with
    | INCOME => exact .inl ⟨row, inside, same, kind⟩
    | EXPENSE => exact .inr ⟨row, inside, same, kind⟩
  · intro found
    rcases found with income | expense
    · obtain ⟨row, inside, same, _⟩ := income
      exact ⟨row, inside, same⟩
    · obtain ⟨row, inside, same, _⟩ := expense
      exact ⟨row, inside, same⟩

end Aggregates

def monthSummary (period : MonthPeriod) (aggregations : List MonthlyAggregation) : Chat.Value :=
  .dataclass [(text "year", .int period.year), (text "month", .int period.month),
    (text "by_currency", .list (aggregations.map Chat.currencySummaryValue))]

/-- A database from which the chat's tools read a user's rows. -/
def ReadBy (stored : List StoredTransaction) (userId : UserId) (db : Chat.Database) : Prop :=
  ∀ first last, db.budgetRows first last =
    (Insights.fetch stored userId first last).map StoredTransaction.row

theorem then_ok {ε α β : Type} {first : Except ε α} {a : α} (made : first = .ok a)
    (next : α → Except ε β) : (first >>= next) = next a := by
  rw [made]
  rfl

theorem month_summary {stored : List StoredTransaction} {userId : UserId} {db : Chat.Database}
    (readBy : ReadBy stored userId db) (period : MonthPeriod) :
    Chat.getMonthSummary db period.year period.month =
      .ok (monthSummary period (aggregateMonth (period.year, period.month)
        (countedRows stored userId (period.year, period.month)))) := by
  obtain ⟨first, starts⟩ := Insights.first_day_of_real (real_month period)
  obtain ⟨last, ends⟩ := Insights.last_day_of_real (real_month period)
  have years := period.yearBounds
  have months := period.monthBounds
  have days := daysInMonth_bounds period.year period.month
  have small (n : Nat) (bound : n ≤ 2999) : Chat.CInt n := by
    simp only [Chat.CInt]
    omega
  have date {day : Nat} {made : Date} (bound : day ≤ 31)
      (read : Date.ofNumbers period.year period.month day = some made) :
      Chat.newDate period.year period.month day = .ok made := by
    rw [Chat.newDate, if_pos ⟨small _ years.2, small _ (by omega), small _ (by omega)⟩, read]
  have one : Chat.newDate period.year period.month 1 = .ok first := by
    rw [← Nat.cast_one]
    exact date (by decide) starts
  have two : Chat.lastDay period.year period.month = .ok last := by
    rw [Insights.lastDay] at ends
    rw [Chat.lastDay]
    exact date days.2 ends
  have rows : db.budgetRows first last =
      (countedRows stored userId (period.year, period.month)).map StoredTransaction.row := by
    rw [readBy, Insights.fetch_between starts ends]
  have answered : Chat.getMonthSummary db period.year period.month =
      .ok (.dataclass [(text "year", .int period.year), (text "month", .int period.month),
        (text "by_currency", Chat.currencySummaries period.year period.month
          (db.budgetRows first last))]) :=
    (then_ok one _).trans (then_ok two _)
  rw [answered, rows]
  rfl

/-- The figures of a month: those of the days up to today, which the summary and the trend have,
and those of the whole month, which are the same when the month is over. -/
structure FiguresOf (stored : List StoredTransaction) (userId : UserId) (period : MonthPeriod)
    (window : TrendWindow) (summary : BudgetSummaryResult)
    (aggregations : List MonthlyAggregation) : Prop where
  lines : ∀ type line, line ∈ summary.of type ↔
    shown stored userId period line.currency type window.end_ ≠ [] ∧
    line.total = total ((shown stored userId period line.currency type window.end_).map
      StoredTransaction.amount) ∧
    line.count = (shown stored userId period line.currency type window.end_).length
  buckets : ∀ currency type, ∃ buckets, read stored userId currency type window = some buckets ∧
    ∀ bucket, bucket ∈ buckets ∧ bucket.label = toCharMonth period.start ↔
      shown stored userId period currency type window.end_ ≠ [] ∧
        bucket = ⟨toCharMonth period.start, total ((shown stored userId period currency type
          window.end_).map StoredTransaction.amount)⟩
  currencies : ∀ currency, (∃ aggregation ∈ aggregations, aggregation.currency = currency) ↔
    booked stored userId period currency .INCOME ≠ [] ∨
      booked stored userId period currency .EXPENSE ≠ []
  totals : ∀ aggregation ∈ aggregations,
    aggregation.totalIncome = total ((booked stored userId period aggregation.currency
      .INCOME).map StoredTransaction.amount) ∧
    aggregation.totalExpenses = total ((booked stored userId period aggregation.currency
      .EXPENSE).map StoredTransaction.amount) ∧
    aggregation.transactionCount = (booked stored userId period aggregation.currency
      .INCOME).length + (booked stored userId period aggregation.currency .EXPENSE).length
  whole : period.naturalEnd ≤ window.end_ → ∀ currency type,
    shown stored userId period currency type window.end_ =
      booked stored userId period currency type

theorem new_period (period : MonthPeriod) :
    MonthPeriod.new period.year period.month = some period := by
  have valid : (1 ≤ (period.month : Int).toNat ∧ (period.month : Int).toNat ≤ 12) ∧
      (1900 ≤ (period.year : Int).toNat ∧ (period.year : Int).toNat ≤ 2999) :=
    ⟨period.monthBounds, period.yearBounds⟩
  rw [MonthPeriod.new, dif_pos valid]
  rfl

/-- The summary of a month, its bucket in a trend, the chat's tool and the aggregates behind an
insight all have the same figures of it. -/
theorem month_figures_agree {stored : List StoredTransaction} {userId : UserId}
    {period : MonthPeriod} {window : TrendWindow} {db : Chat.Database}
    {order : List CurrencyTotalRow → List CurrencyTotalRow}
    (permutes : ∀ rows, (order rows).Perm rows) (readBy : ReadBy stored userId db)
    (modern : 1900 ≤ window.end_.year) (monthly : window.granularity = .month)
    (covers : bucketNumber .month window.end_ <
      bucketNumber .month period.start + window.bucketCount)
    (priced : Priced (countedRows stored userId (period.year, period.month))) :
    ∃ summary aggregations,
      getBudgetSummary order stored userId period.year period.month window.end_ = some summary ∧
      Chat.getMonthSummary db period.year period.month =
        .ok (monthSummary period aggregations) ∧
      (readMonth stored userId (period.year, period.month)).map
        (aggregateMonth (period.year, period.month)) = some aggregations ∧
      FiguresOf stored userId period window summary aggregations := by
  refine ⟨splitByType (order (readClipped stored userId period
    (period.boundsClippedTo window.end_).2)), _, ?_, month_summary readBy period, ?_, ?_⟩
  · rw [getBudgetSummary, new_period]
    rfl
  · rw [Insights.read_real (real_month period)]
    rfl
  · exact {
      lines := summary_line permutes
      buckets := fun currency type => trend_bucket modern monthly covers
      currencies := aggregate_currency
      totals := aggregate_figures priced
      whole := fun past currency type => shown_past past }

theorem groceries_year : 1 ≤ 2026 ∧ 2026 ≤ maxYear := by decide

theorem groceries_month : 1 ≤ 3 ∧ 3 ≤ 12 := by decide

theorem month_after : 1 ≤ 4 ∧ 4 ≤ 12 := by decide

def groceries : StoredTransaction where
  id := 1
  userId := ⟨7⟩
  date := ⟨2026, 3, 5, groceries_year, groceries_month, by decide⟩
  amount := 25 / 2
  currency := text "EUR"
  type := .EXPENSE
  categoryLabel := some (text "Food")

/-- The groceries, a wage and a ticket of the month, and a row of the month after. -/
def purse : List StoredTransaction :=
  [groceries, { groceries with id := 2, amount := 3000, type := .INCOME, categoryLabel := none },
    { groceries with id := 3, amount := 900, currency := text "JPY" },
    { groceries with id := 4, date := ⟨2026, 4, 5, groceries_year, month_after, by decide⟩ }]

/-- Three rows of March in two currencies, in May. -/
theorem month_figures_agree_groceries :
    let march : MonthPeriod := ⟨2026, 3, by decide, by decide⟩
    let window : TrendWindow :=
      ⟨.month, 6, ⟨2026, 5, 10, by decide, by decide, by decide⟩, by decide⟩
    let db : Chat.Database := ⟨fun first last =>
      (Insights.fetch purse ⟨7⟩ first last).map StoredTransaction.row,
        fun _ _ _ => [], fun _ _ => [], []⟩
    ∃ summary aggregations,
      getBudgetSummary id purse ⟨7⟩ march.year march.month window.end_ = some summary ∧
      Chat.getMonthSummary db march.year march.month = .ok (monthSummary march aggregations) ∧
      (readMonth purse ⟨7⟩ (march.year, march.month)).map
        (aggregateMonth (march.year, march.month)) = some aggregations ∧
      FiguresOf purse ⟨7⟩ march window summary aggregations := by
  intro march window db
  have three : countedRows purse ⟨7⟩ (march.year, march.month) = purse.take 3 := by
    decide +kernel
  have priced : Priced (countedRows purse ⟨7⟩ (march.year, march.month)) := by
    rw [three]
    refine ⟨?_, ?_, ?_⟩
    · intro row member
      simp only [purse, List.take_succ_cons, List.take_zero, List.mem_cons, List.not_mem_nil,
        or_false] at member
      rcases member with rfl | rfl | rfl
      · norm_num [groceries]
      · norm_num
      · norm_num
    · intro row member
      simp only [purse, List.take_succ_cons, List.take_zero, List.mem_cons, List.not_mem_nil,
        or_false] at member
      rcases member with rfl | rfl | rfl
      · exact ⟨125000, by norm_num [groceries]⟩
      · exact ⟨30000000, by norm_num⟩
      · exact ⟨9000000, by norm_num⟩
    · norm_num [purse, total, groceries]
  exact month_figures_agree (fun rows => List.Perm.refl rows) (fun _ _ => rfl) (by decide) rfl
    (by decide) priced

end Yomochi.Reports
