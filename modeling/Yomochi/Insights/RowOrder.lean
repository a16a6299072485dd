import Yomochi.Foundation.ContextSums
import Yomochi.Insights.TopCategories

/-! The monthly aggregates of the same rows in another order. The readers of the rows ask for no
order. -/

namespace Yomochi.Insights

open Foundation

structure DetailedAggregation extends MonthlyAggregation where
  avgTransactionAmount : ℚ
  incomeSourcesCount : Nat
  largestSingleExpense : ℚ

def TransactionRow.earnedFrom (row : TransactionRow) : Option Text :=
  match row.categoryLabel with
  | some (c :: label) => if row.type = .INCOME then some (c :: label) else none
  | _ => none

def detailedCurrency (year month : Int) (currency : Text) (rows : List TransactionRow) :
    DetailedAggregation :=
  let aggregation := aggregateCurrency year month currency rows
  { aggregation with
    avgTransactionAmount :=
      if rows = [] then 0
      else inContext (inContext (aggregation.totalIncome + aggregation.totalExpenses) / rows.length)
    incomeSourcesCount := (sortedSet (rows.filterMap TransactionRow.earnedFrom)).length
    largestSingleExpense := (amountsOf .EXPENSE rows).max?.getD 0 }

def detailedAggregate (year month : Int) (rows : List TransactionRow) : List DetailedAggregation :=
  (sortedSet (rows.map TransactionRow.currency)).map fun currency =>
    detailedCurrency year month currency (rowsOf currency rows)

theorem detailed_aggregate_totals (year month : Int) (rows : List TransactionRow) :
    (detailedAggregate year month rows).map DetailedAggregation.toMonthlyAggregation =
      aggregate year month rows := by
  unfold detailedAggregate aggregate
  rw [List.map_map]
  rfl

structure ExactFields where
  currency : Text
  totalIncome : ℚ
  totalExpenses : ℚ
  netSavings : ℚ
  transactionCount : Nat
  avgTransactionAmount : ℚ
  incomeSourcesCount : Nat
  largestSingleExpense : ℚ
  topCategories : List (Text × ℚ)
  deriving DecidableEq

def DetailedAggregation.exact (aggregation : DetailedAggregation) : ExactFields where
  currency := aggregation.currency
  totalIncome := aggregation.totalIncome
  totalExpenses := aggregation.totalExpenses
  netSavings := aggregation.netSavings
  transactionCount := aggregation.transactionCount
  avgTransactionAmount := aggregation.avgTransactionAmount
  incomeSourcesCount := aggregation.incomeSourcesCount
  largestSingleExpense := aggregation.largestSingleExpense
  topCategories := aggregation.topCategories.map fun top => (top.category, top.amount)

def spent (category : Text) (rows : List TransactionRow) : ℚ := total (amountsOn category rows)

/-- Two categories of the rows are level only behind five larger ones. -/
def CutDecided (rows : List TransactionRow) : Prop :=
  ∀ first ∈ categoriesOf rows, ∀ second ∈ categoriesOf rows, first ≠ second →
    spent first rows = spent second rows →
      5 ≤ ((categoriesOf rows).filter fun category => spent first rows < spent category rows).length

/-- The sums of the incomes and of the expenses stay within the precision of the context. -/
def RowSumsExact (rows : List TransactionRow) : Prop :=
  ∀ type currency, SumsExact (amountsOf type (rowsOf currency rows))

section Currency

variable {rows others : List TransactionRow}

theorem amounts_on_part (category : Text) (rows : List TransactionRow) :
    (amountsOn category rows).Subperm (amountsOf .EXPENSE rows) := by
  have inside : (rows.filter fun row => row.spentOn = some category).Sublist
      (rows.filter fun row => row.type = .EXPENSE) := by
    apply List.monotone_filter_right
    intro row spentOn
    exact decide_eq_true (spent_on_expense (of_decide_eq_true spentOn))
  exact (inside.map _).subperm

theorem total_on_exact (exact : SumsExact (amountsOf .EXPENSE rows)) (category : Text) :
    totalOn category rows = spent category rows :=
  (exact.part (amounts_on_part category rows)).decimal_sum

theorem spent_perm (permuted : rows.Perm others) (category : Text) :
    spent category rows = spent category others :=
  total_perm ((permuted.filter _).map _)

theorem categories_perm (permuted : rows.Perm others) :
    (categoriesOf rows).Perm (categoriesOf others) :=
  Dict.first_seen_perm (permuted.filterMap _)

theorem total_on_perm (permuted : rows.Perm others) (exact : SumsExact (amountsOf .EXPENSE rows))
    (category : Text) : totalOn category rows = totalOn category others := by
  have other : SumsExact (amountsOf .EXPENSE others) :=
    exact.part ((permuted.symm.filter _).map _).subperm
  rw [total_on_exact exact, total_on_exact other, spent_perm permuted]

theorem spendings_perm (permuted : rows.Perm others) (exact : SumsExact (amountsOf .EXPENSE rows)) :
    (spendings rows).Perm (spendings others) := by
  unfold spendings
  have same : (categoriesOf others).map (fun category => (category, totalOn category others)) =
      (categoriesOf others).map fun category => (category, totalOn category rows) := by
    apply List.map_congr_left
    intro category _
    rw [total_on_perm permuted exact]
  rw [same]
  exact (categories_perm permuted).map _

theorem decided_iff (exact : SumsExact (amountsOf .EXPENSE rows)) :
    Ranking.Decided larger 5 (spendings rows) ↔ CutDecided rows := by
  have counted (first : Text) :
      ((spendings rows).filter fun other => ¬ larger (first, totalOn first rows) other).length =
        ((categoriesOf rows).filter fun category =>
          spent first rows < spent category rows).length := by
    unfold spendings
    rw [List.filter_map, List.length_map]
    congr 2
    funext category
    simp only [Function.comp_apply, larger, not_le, total_on_exact exact]
  constructor
  · intro decided first member second other different level
    rw [← counted first]
    apply decided (first, totalOn first rows) (List.mem_map_of_mem member)
      (second, totalOn second rows) (List.mem_map_of_mem other)
    · intro same
      exact different (congrArg Prod.fst same)
    · rw [total_on_exact exact, total_on_exact exact, level]
    · rw [total_on_exact exact, total_on_exact exact, level]
  · intro decided entry member other inside different below above
    obtain ⟨first, known, rfl⟩ := List.mem_map.mp member
    obtain ⟨second, listed, rfl⟩ := List.mem_map.mp inside
    have level := le_antisymm above below
    rw [counted first]
    apply decided first known second listed
    · intro same
      exact different (same ▸ rfl)
    · rw [← total_on_exact exact, ← total_on_exact exact]
      exact level

/-! Each exact field of one currency. -/

theorem max_perm {values others : List ℚ} (permuted : values.Perm others) :
    values.max? = others.max? := by
  cases largest : values.max? with
  | none =>
      rw [List.max?_eq_none_iff.mp largest] at permuted
      rw [permuted.nil_eq.symm]
      rfl
  | some value =>
      obtain ⟨member, above⟩ := List.max?_eq_some_iff.mp largest
      symm
      apply List.max?_eq_some_iff.mpr
      refine ⟨permuted.mem_iff.mp member, ?_⟩
      intro other inside
      exact above other (permuted.mem_iff.mpr inside)

theorem detailed_exact_eq (year month : Int) (currency : Text) (permuted : rows.Perm others)
    (exact : ∀ type, SumsExact (amountsOf type rows)) (decided : CutDecided rows) :
    (detailedCurrency year month currency rows).exact =
      (detailedCurrency year month currency others).exact := by
  have sums (type : Recurring.TransactionType) :
      decimalSum (amountsOf type rows) = decimalSum (amountsOf type others) :=
    (exact type).perm ((permuted.filter _).map _)
  have top := Ranking.top_eq_of_decided (spendings_perm permuted (exact .EXPENSE))
    ((decided_iff (exact .EXPENSE)).mpr decided)
  have sources : sortedSet (rows.filterMap TransactionRow.earnedFrom) =
      sortedSet (others.filterMap TransactionRow.earnedFrom) :=
    sorted_set_congr fun _ => (permuted.filterMap _).mem_iff
  have largest : (amountsOf .EXPENSE rows).max? = (amountsOf .EXPENSE others).max? :=
    max_perm ((permuted.filter _).map _)
  have empty : rows = [] ↔ others = [] := by
    rw [← List.length_eq_zero_iff, ← List.length_eq_zero_iff, permuted.length_eq]
  rw [← top_categories_listed, ← top_categories_listed] at top
  unfold DetailedAggregation.exact detailedCurrency aggregateCurrency
  simp only [sums, top, sources, largest, empty, permuted.length_eq]

end Currency

theorem spendings_cons {row : TransactionRow} {category : Text}
    (spentOn : row.spentOn = some category) (rows : List TransactionRow) :
    ∃ entries, spendings (row :: rows) = (category, totalOn category (row :: rows)) :: entries := by
  unfold spendings categoriesOf
  rw [List.filterMap_cons_some spentOn, Dict.firstSeen, List.map_cons]
  exact ⟨_, rfl⟩

/-- The rows may come with an expense on any of the categories first. -/
theorem moved_first {currency : Text} {rows : List TransactionRow}
    (exact : SumsExact (amountsOf .EXPENSE (rowsOf currency rows))) {entry : Text × ℚ}
    (member : entry ∈ spendings (rowsOf currency rows)) :
    ∃ others entries, rows.Perm others ∧ spendings (rowsOf currency others) = entry :: entries := by
  obtain ⟨category, listed, rfl⟩ := List.mem_map.mp member
  obtain ⟨row, inside, spentOn⟩ := mem_categories_of.mp listed
  obtain ⟨known, same⟩ := List.mem_filter.mp inside
  have permuted := List.perm_cons_erase known
  have front : rowsOf currency (row :: rows.erase row) =
      row :: rowsOf currency (rows.erase row) := List.filter_cons_of_pos same
  have moved : (rowsOf currency rows).Perm (rowsOf currency (row :: rows.erase row)) :=
    permuted.filter _
  have sum := total_on_perm moved exact category
  obtain ⟨entries, first⟩ := spendings_cons spentOn (rowsOf currency (rows.erase row))
  refine ⟨row :: rows.erase row, entries, permuted, ?_⟩
  rw [sum, front, first]

theorem exact_at {year month : Int} {rows others : List TransactionRow} (permuted : rows.Perm others)
    (same : (detailedAggregate year month others).map DetailedAggregation.exact =
      (detailedAggregate year month rows).map DetailedAggregation.exact)
    {currency : Text} {entry : Text × ℚ} (member : entry ∈ spendings (rowsOf currency rows)) :
    ((spendings (rowsOf currency others)).insertionSort larger).take 5 =
      ((spendings (rowsOf currency rows)).insertionSort larger).take 5 := by
  have currencies : sortedSet (others.map TransactionRow.currency) =
      sortedSet (rows.map TransactionRow.currency) :=
    sorted_set_congr fun _ => (permuted.symm.map _).mem_iff
  have listed : currency ∈ sortedSet (rows.map TransactionRow.currency) := by
    obtain ⟨category, spentOn, _⟩ := List.mem_map.mp member
    obtain ⟨row, inside, _⟩ := mem_categories_of.mp spentOn
    obtain ⟨known, own⟩ := List.mem_filter.mp inside
    rw [mem_sorted_set, ← of_decide_eq_true own]
    exact List.mem_map_of_mem known
  unfold detailedAggregate at same
  rw [currencies, List.map_map, List.map_map, List.map_inj_left] at same
  rw [← top_categories_listed, ← top_categories_listed]
  exact congrArg ExactFields.topCategories (same currency listed)

theorem aggregate_order_iff (year month : Int) (rows : List TransactionRow)
    (exact : RowSumsExact rows) :
    (∀ others, rows.Perm others → (detailedAggregate year month others).map
        DetailedAggregation.exact =
      (detailedAggregate year month rows).map DetailedAggregation.exact) ↔
    ∀ currency, CutDecided (rowsOf currency rows) := by
  constructor
  · intro free currency
    have sums := exact .EXPENSE currency
    apply (decided_iff sums).mp
    intro first member second other different ties back
    by_contra few
    obtain ⟨others, entries, permuted, one⟩ := moved_first sums member
    obtain ⟨mirrored, behind, moved, two⟩ := moved_first sums other
    have same := (exact_at permuted (free others permuted) member).trans
      (exact_at moved (free mirrored moved) other).symm
    have own : (spendings (rowsOf currency rows)).Perm (first :: entries) :=
      one ▸ spendings_perm (permuted.filter _) sums
    have its : (spendings (rowsOf currency rows)).Perm (second :: behind) :=
      two ▸ spendings_perm (moved.filter _) sums
    rw [one, two] at same
    rw [(own.filter _).length_eq, not_le] at few
    exact Ranking.top_ne_of_undecided (own.symm.trans its) different ties back few same
  · intro decided others permuted
    have currencies : sortedSet (others.map TransactionRow.currency) =
        sortedSet (rows.map TransactionRow.currency) :=
      sorted_set_congr fun _ => (permuted.symm.map _).mem_iff
    unfold detailedAggregate
    rw [currencies, List.map_map, List.map_map]
    apply List.map_congr_left
    intro currency _
    exact (detailed_exact_eq year month currency (permuted.filter _)
      (fun type => exact type currency) (decided currency)).symm

theorem row_sums_exact {rows : List TransactionRow}
    (exact : SumsExact (rows.map TransactionRow.amount)) : RowSumsExact rows := by
  intro type currency
  have inside : ((rowsOf currency rows).filter fun row => row.type = type).Sublist rows :=
    List.filter_sublist.trans List.filter_sublist
  exact exact.part (inside.map _).subperm

theorem euros_exact : RowSumsExact [euros "Food" 10, euros "Rent" 10] := by
  apply row_sums_exact
  apply @sums_exact 0
  · decide +kernel
  · intro value member
    refine ⟨10, ?_⟩
    simp [euros] at member
    simp [member]
  · norm_num [total, euros]

theorem aggregate_order_euros :
    (∀ others, [euros "Food" 10, euros "Rent" 10].Perm others →
      (detailedAggregate 2026 5 others).map DetailedAggregation.exact =
        (detailedAggregate 2026 5 [euros "Food" 10, euros "Rent" 10]).map
          DetailedAggregation.exact) ↔
    ∀ currency, CutDecided (rowsOf currency [euros "Food" 10, euros "Rent" 10]) :=
  aggregate_order_iff 2026 5 _ euros_exact

theorem not_aggregate_order : ¬ ∀ (year month : Int) (rows others : List TransactionRow),
    RowSumsExact rows → rows.Perm others →
      (detailedAggregate year month others).map DetailedAggregation.exact =
        (detailedAggregate year month rows).map DetailedAggregation.exact := by
  intro claimed
  have same := claimed 2026 5 [euros "Food" 10, euros "Rent" 10]
    [euros "Rent" 10, euros "Food" 10] euros_exact (List.Perm.swap _ _ _)
  revert same
  decide +kernel

end Yomochi.Insights
