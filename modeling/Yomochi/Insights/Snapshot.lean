import Yomochi.Foundation.DecimalSum
import Yomochi.Foundation.Dict
import Yomochi.Foundation.Json
import Yomochi.Insights.Aggregation

/-! The budget summary of an insight: its totals, its JSON column, and the monthly aggregator's
totals of the same rows. -/

namespace Yomochi.Insights.Snapshot

open Foundation
open Recurring (TransactionType)

structure BudgetRow where
  amount : Decimal
  currency : Text
  type : TransactionType
  categoryLabel : Option Text
  stored : ∃ q, Held amount q ∧ |q| < 10 ^ (15 : Int)

structure CurrencyTotals where
  currency : Text
  income : Decimal
  expense : Decimal
  count : Int
  deriving DecidableEq

structure BudgetSummarySnapshot where
  perCurrency : List CurrencyTotals
  deriving DecidableEq

def zero : Decimal := .finite false 0 0

structure Running where
  income : Dict Text Decimal
  expense : Dict Text Decimal
  count : Dict Text Int

def addAmount (totals : Dict Text Decimal) (currency : Text) (amount : Decimal) :
    Except Signal (Dict Text Decimal) :=
  (defaultContext.add ((totals.get? currency).getD zero) amount).map fun total =>
    totals.set currency total

def addRow (running : Running) (row : BudgetRow) : Except Signal Running :=
  let count := running.count.set row.currency ((running.count.get? row.currency).getD 0 + 1)
  match row.type with
  | .INCOME => (addAmount running.income row.currency row.amount).map fun income =>
      { running with income := income, count := count }
  | .EXPENSE => (addAmount running.expense row.currency row.amount).map fun expense =>
      { running with expense := expense, count := count }

def Running.totals (running : Running) (currency : Text) : CurrencyTotals where
  currency := currency
  income := (running.income.get? currency).getD zero
  expense := (running.expense.get? currency).getD zero
  count := (running.count.get? currency).getD 0

def CurrencyTotals.toJson (totals : CurrencyTotals) : Json := .object [
  (text "currency", .string totals.currency),
  (text "income", .string totals.income.str),
  (text "expense", .string totals.expense.str),
  (text "count", .int totals.count)]

namespace BudgetSummarySnapshot

def aggregateRows (rows : List BudgetRow) : Except Signal (Option BudgetSummarySnapshot) :=
  (rows.foldlM addRow ⟨[], [], []⟩).map fun running =>
    if rows = [] then none
    else some ⟨(sortedSet running.count.keys).map running.totals⟩

def toJson (snapshot : BudgetSummarySnapshot) : List Json :=
  snapshot.perCurrency.map CurrencyTotals.toJson

end BudgetSummarySnapshot

/-- `str(value)` of a JSON value; `floatStr` is `float.__repr__`. What is written for arrays and
objects is no number. -/
def jsonStr (floatStr : PyFloat → Text) : Json → Text
  | .null => text "None"
  | .bool value => text (if value then "True" else "False")
  | .int value => (if value < 0 then text "-" else []) ++ decimal value.natAbs
  | .float value => floatStr value
  | .string value => value
  | .array _ => text "[]"
  | .object _ => text "dict()"

def jsonInt : Json → Option Int
  | .bool value => some (if value then 1 else 0)
  | .int value => some value
  | .float (.finite value) => some (if 0 ≤ value then ⌊value⌋ else ⌈value⌉)
  | .string value => intOfText value
  | _ => none

def jsonText : Json → Option Text
  | .string value => some value
  | _ => none

def item (key : String) : Json → Option Json
  | .object members => members.lookup (text key)
  | _ => none

/-- The totals of one item. A currency that is no text is refused. -/
def totalsOfJson (floatStr : PyFloat → Text) (entry : Json) : Option CurrencyTotals := do
  let currency ← jsonText (← item "currency" entry)
  let income ← Decimal.ofText (jsonStr floatStr (← item "income" entry))
  let expense ← Decimal.ofText (jsonStr floatStr (← item "expense" entry))
  let count ← jsonInt (← item "count" entry)
  return ⟨currency, income, expense, count⟩

def BudgetSummarySnapshot.fromJson (floatStr : PyFloat → Text) (raw : List Json) :
    Option (Option BudgetSummarySnapshot) :=
  if raw.isEmpty then some none
  else (raw.mapM (totalsOfJson floatStr)).map fun totals => some ⟨totals⟩

/-! Both aggregators run over the same rows: the totals of the snapshot so far are those that the
aggregator has for the rows so far. -/

/-- The row as the monthly aggregator sees it, with the value of its amount. -/
def BudgetRow.view (row : BudgetRow) : TransactionRow where
  amount := row.amount.value.getD 0
  currency := row.currency
  type := row.type
  categoryLabel := row.categoryLabel

/-- A total that further amounts can be added to, and that its text gives back. -/
structure TotalIs (total : Decimal) (q : ℚ) : Prop where
  held : Held total q
  bounded : |q| ≤ 10 ^ (44 : Int)
  representable : ∃ negative coefficient exponent, total = .finite negative coefficient exponent ∧
    Decimal.representable coefficient exponent

theorem total_is_zero : TotalIs zero 0 where
  held := ⟨by simp [zero, Decimal.value], false, 0, 0, rfl, by decide⟩
  bounded := by
    rw [abs_zero]
    exact (ten_zpow_pos 44).le
  representable := ⟨false, 0, 0, rfl, by decide⟩

theorem TotalIs.reads_back {total : Decimal} {q : ℚ} (known : TotalIs total q) :
    Decimal.ofText total.str = some total := by
  obtain ⟨negative, coefficient, exponent, rfl, representable⟩ := known.representable
  exact Decimal.of_text_str representable

theorem BudgetRow.held (row : BudgetRow) :
    Held row.amount row.view.amount ∧ |row.view.amount| < 10 ^ (15 : Int) := by
  obtain ⟨q, held, small⟩ := row.stored
  have value : row.view.amount = q := by
    unfold BudgetRow.view
    rw [held.value]
    rfl
  rw [value]
  exact ⟨held, small⟩

theorem add_amount_ok {totals : Dict Text Decimal} {sum : Text → ℚ}
    (known : ∀ currency, TotalIs ((totals.get? currency).getD zero) (sum currency))
    (row : BudgetRow) :
    ∃ next, addAmount totals row.currency row.amount = .ok next ∧
      ∀ currency, TotalIs ((next.get? currency).getD zero)
        (if row.currency = currency then inContext (sum currency + row.view.amount)
        else sum currency) := by
  have before := known row.currency
  obtain ⟨held, small⟩ := row.held
  obtain ⟨total, added, kept, bounded, shape⟩ := add_held before.held held before.bounded small
  refine ⟨totals.set row.currency total, ?_, ?_⟩
  · unfold addAmount
    rw [added]
    rfl
  · intro currency
    rw [Dict.get?_set]
    by_cases same : row.currency = currency
    · subst same
      rw [if_pos rfl, if_pos rfl]
      exact ⟨kept, bounded, shape⟩
    · rw [if_neg same, if_neg same]
      exact known currency

structure Tracks (running : Running) (rows : List TransactionRow) : Prop where
  income : ∀ currency, TotalIs ((running.income.get? currency).getD zero)
    (totalOf .INCOME currency rows)
  expense : ∀ currency, TotalIs ((running.expense.get? currency).getD zero)
    (totalOf .EXPENSE currency rows)
  count : ∀ currency, (running.count.get? currency).getD 0 = (rowsOf currency rows).length
  keys : ∀ currency, currency ∈ running.count.keys ↔ currency ∈ rows.map TransactionRow.currency

theorem tracks_nil : Tracks ⟨[], [], []⟩ [] where
  income _ := total_is_zero
  expense _ := total_is_zero
  count _ := rfl
  keys _ := Iff.rfl

theorem count_set {running : Running} {rows : List TransactionRow} (known : Tracks running rows)
    (row : TransactionRow) (currency : Text) :
    ((running.count.set row.currency ((running.count.get? row.currency).getD 0 + 1)).get?
      currency).getD 0 = (rowsOf currency (rows ++ [row])).length := by
  rw [Dict.get?_set, rows_of_concat]
  by_cases same : row.currency = currency
  · subst same
    rw [if_pos rfl, if_pos rfl, Option.getD_some, known.count, List.length_append]
    rfl
  · rw [if_neg same, if_neg same]
    exact known.count currency

theorem keys_set {running : Running} {rows : List TransactionRow} (known : Tracks running rows)
    (row : TransactionRow) (count : Int) (currency : Text) :
    currency ∈ (running.count.set row.currency count).keys ↔
      currency ∈ (rows ++ [row]).map TransactionRow.currency := by
  rw [Dict.mem_keys_set, known.keys, List.map_append, List.mem_append, List.map_singleton,
    List.mem_singleton, or_comm]

/-- A row changes the totals of its own type only. -/
theorem other_total {type : TransactionType} {row : TransactionRow} (different : row.type ≠ type)
    (currency : Text) (rows : List TransactionRow) :
    totalOf type currency (rows ++ [row]) = totalOf type currency rows := by
  rw [total_of_concat, if_neg fun both => different both.1]

theorem own_total {type : TransactionType} {row : TransactionRow} (same : row.type = type)
    (currency : Text) (rows : List TransactionRow) :
    totalOf type currency (rows ++ [row]) =
      if row.currency = currency then inContext (totalOf type currency rows + row.amount)
      else totalOf type currency rows := by
  rw [total_of_concat]
  by_cases inside : row.currency = currency
  · rw [if_pos ⟨same, inside⟩, if_pos inside]
  · rw [if_neg inside, if_neg fun both => inside both.2]

theorem add_row_tracks {running : Running} {rows : List TransactionRow}
    (known : Tracks running rows) (row : BudgetRow) :
    ∃ next, addRow running row = .ok next ∧ Tracks next (rows ++ [row.view]) := by
  cases type : row.type with
  | INCOME =>
      obtain ⟨income, added, totals⟩ := add_amount_ok known.income row
      have own : row.view.type = .INCOME := type
      refine ⟨_, by rw [addRow, type, added]; rfl, ?_, ?_, count_set known row.view,
        keys_set known row.view _⟩
      · intro currency
        rw [own_total own]
        exact totals currency
      · intro currency
        rw [other_total (own ▸ nofun)]
        exact known.expense currency
  | EXPENSE =>
      obtain ⟨expense, added, totals⟩ := add_amount_ok known.expense row
      have own : row.view.type = .EXPENSE := type
      refine ⟨_, by rw [addRow, type, added]; rfl, ?_, ?_, count_set known row.view,
        keys_set known row.view _⟩
      · intro currency
        rw [other_total (own ▸ nofun)]
        exact known.income currency
      · intro currency
        rw [own_total own]
        exact totals currency

theorem add_rows_track (rows : List BudgetRow) {running : Running} {before : List TransactionRow}
    (known : Tracks running before) :
    ∃ next, rows.foldlM addRow running = .ok next ∧
      Tracks next (before ++ rows.map BudgetRow.view) := by
  induction rows generalizing running before with
  | nil => exact ⟨running, rfl, (List.append_nil before).symm ▸ known⟩
  | cons row rows ih =>
      obtain ⟨middle, added, between⟩ := add_row_tracks known row
      obtain ⟨next, ran, after⟩ := ih between
      refine ⟨next, ?_, ?_⟩
      · rw [List.foldlM_cons, added]
        exact ran
      · rw [List.append_assoc] at after
        exact after

/-! The JSON column. -/

theorem item_to_json (totals : CurrencyTotals) :
    item "currency" totals.toJson = some (.string totals.currency) ∧
    item "income" totals.toJson = some (.string totals.income.str) ∧
    item "expense" totals.toJson = some (.string totals.expense.str) ∧
    item "count" totals.toJson = some (.int totals.count) :=
  ⟨rfl, rfl, rfl, rfl⟩

theorem totals_of_to_json (floatStr : PyFloat → Text) {totals : CurrencyTotals}
    (income : Decimal.ofText totals.income.str = some totals.income)
    (expense : Decimal.ofText totals.expense.str = some totals.expense) :
    totalsOfJson floatStr totals.toJson = some totals := by
  obtain ⟨currency, first, second, count⟩ := item_to_json totals
  unfold totalsOfJson
  rw [currency, first, second, count]
  simp only [Option.bind_eq_bind, Option.bind_some, jsonStr, jsonText, jsonInt, income, expense]
  rfl

theorem from_json_to_json (floatStr : PyFloat → Text) {snapshot : BudgetSummarySnapshot}
    (some : snapshot.perCurrency ≠ [])
    (readsBack : ∀ totals ∈ snapshot.perCurrency,
      Decimal.ofText totals.income.str = .some totals.income ∧
      Decimal.ofText totals.expense.str = .some totals.expense) :
    BudgetSummarySnapshot.fromJson floatStr snapshot.toJson = .some (.some snapshot) := by
  have items : snapshot.toJson.mapM (totalsOfJson floatStr) = .some snapshot.perCurrency := by
    unfold BudgetSummarySnapshot.toJson
    generalize snapshot.perCurrency = entries at readsBack
    induction entries with
    | nil => rfl
    | cons totals entries ih =>
        obtain ⟨income, expense⟩ := readsBack totals List.mem_cons_self
        rw [List.map_cons, List.mapM_cons, totals_of_to_json floatStr income expense,
          ih fun other member => readsBack other (List.mem_cons_of_mem totals member)]
        rfl
  have filled : ¬ snapshot.toJson.isEmpty := by
    rw [List.isEmpty_iff]
    exact fun empty => some (List.map_eq_nil_iff.mp empty)
  unfold BudgetSummarySnapshot.fromJson
  rw [if_neg filled, items]
  rfl

/-! The two aggregators. -/

def CurrencyTotals.Agrees (totals : CurrencyTotals) (aggregation : MonthlyAggregation) : Prop :=
  totals.currency = aggregation.currency ∧ totals.income.value = some aggregation.totalIncome ∧
  totals.expense.value = some aggregation.totalExpenses ∧
  totals.count = aggregation.transactionCount

theorem Tracks.agrees {running : Running} {rows : List TransactionRow}
    (known : Tracks running rows) (year month : Int) (currency : Text) :
    (running.totals currency).Agrees
      (aggregateCurrency year month currency (rowsOf currency rows)) :=
  ⟨rfl, (known.income currency).held.value, (known.expense currency).held.value,
    known.count currency⟩

theorem Tracks.currencies {running : Running} {rows : List TransactionRow}
    (known : Tracks running rows) :
    sortedSet running.count.keys = sortedSet (rows.map TransactionRow.currency) :=
  sorted_set_congr known.keys

theorem Tracks.counts {running : Running} {rows : List TransactionRow}
    (known : Tracks running rows) :
    ((sortedSet running.count.keys).map running.totals).foldr
      (fun totals (count : Int) => totals.count + count) 0 = rows.length := by
  have inside : ∀ row ∈ rows, row.currency ∈ sortedSet running.count.keys := by
    intro row member
    exact mem_sorted_set.mpr ((known.keys _).mpr (List.mem_map_of_mem member))
  rw [List.foldr_map, ← counts_total (sorted_set_nodup _) inside]
  generalize sortedSet running.count.keys = currencies
  induction currencies with
  | nil => rfl
  | cons currency currencies ih =>
      rw [List.foldr_cons, List.foldr_cons, ih]
      unfold Running.totals
      rw [known.count]
      exact (Nat.cast_add _ _).symm

theorem snapshot_agrees (rows : List BudgetRow) (filled : rows ≠ []) (year month : Int) :
    ∃ snapshot, BudgetSummarySnapshot.aggregateRows rows = .ok (some snapshot) ∧
      List.Forall₂ CurrencyTotals.Agrees snapshot.perCurrency
        (aggregate year month (rows.map BudgetRow.view)) ∧
      snapshot.perCurrency.foldr (fun totals (count : Int) => totals.count + count) 0 =
        rows.length ∧
      ∀ floatStr, BudgetSummarySnapshot.fromJson floatStr snapshot.toJson =
        some (some snapshot) := by
  obtain ⟨running, ran, known⟩ := add_rows_track rows tracks_nil
  rw [List.nil_append] at known
  refine ⟨⟨(sortedSet running.count.keys).map running.totals⟩, ?_, ?_, ?_, ?_⟩
  · unfold BudgetSummarySnapshot.aggregateRows
    rw [ran]
    exact congrArg _ (if_neg filled)
  · unfold aggregate
    dsimp only
    rw [known.currencies, List.forall₂_map_left_iff, List.forall₂_map_right_iff,
      List.forall₂_same]
    intro currency _
    exact known.agrees year month currency
  · rw [known.counts, List.length_map]
  · intro floatStr
    apply from_json_to_json
    · obtain ⟨row, rest, rfl⟩ := List.exists_cons_of_ne_nil filled
      have member : row.currency ∈ sortedSet running.count.keys := by
        rw [mem_sorted_set, known.keys]
        exact List.mem_cons_self
      intro empty
      rw [List.map_eq_nil_iff.mp empty] at member
      exact List.not_mem_nil member
    · intro totals member
      obtain ⟨currency, _, rfl⟩ := List.mem_map.mp member
      exact ⟨(known.income currency).reads_back, (known.expense currency).reads_back⟩

def coffee : BudgetRow where
  amount := .finite false 45000 (-4)
  currency := text "EUR"
  type := .EXPENSE
  categoryLabel := some (text "Food")
  stored := ⟨9 / 2, ⟨by norm_num [Decimal.value], false, 45000, -4, rfl, by decide⟩,
    by norm_num [abs_of_pos]⟩

def bonus : BudgetRow where
  amount := .finite false 3000000000 (-4)
  currency := text "JPY"
  type := .INCOME
  categoryLabel := none
  stored := ⟨300000, ⟨by norm_num [Decimal.value], false, 3000000000, -4, rfl, by decide⟩,
    by norm_num [abs_of_pos]⟩

def refund : BudgetRow where
  amount := .finite false 12500 (-4)
  currency := text "EUR"
  type := .INCOME
  categoryLabel := some (text "Food")
  stored := ⟨5 / 4, ⟨by norm_num [Decimal.value], false, 12500, -4, rfl, by decide⟩,
    by norm_num [abs_of_pos]⟩

/-- Three rows in two currencies. -/
theorem snapshot_agrees_coffee :
    ∃ snapshot,
      BudgetSummarySnapshot.aggregateRows [coffee, bonus, refund] = .ok (some snapshot) ∧
      List.Forall₂ CurrencyTotals.Agrees snapshot.perCurrency
        (aggregate 2026 5 ([coffee, bonus, refund].map BudgetRow.view)) ∧
      snapshot.perCurrency.foldr (fun totals (count : Int) => totals.count + count) 0 = 3 ∧
      ∀ floatStr, BudgetSummarySnapshot.fromJson floatStr snapshot.toJson =
        some (some snapshot) :=
  snapshot_agrees [coffee, bonus, refund] (List.cons_ne_nil _ _) 2026 5

end Yomochi.Insights.Snapshot
