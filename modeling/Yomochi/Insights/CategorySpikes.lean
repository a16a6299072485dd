import Yomochi.Foundation.ContextSums
import Yomochi.Insights.ShiftDetector
import Yomochi.Insights.TopCategories

/-! The category spikes of a month against the months before it, in one currency, and what they are
after an amount of the past is lowered. -/

namespace Yomochi.Insights

open Foundation

/-- `(value - average) / average`, without the rounding to a float. -/
def exactChange (value average : ℚ) : ℚ := (value - average) / average

def spikeSeverity (t : ShiftThresholds) (history : List MonthlyAggregation) (top : TopCategory) :
    Option Severity :=
  match avgCategory history top.category with
  | none => none
  | some average =>
      if 0 < average then
        severityOf (exactChange top.amount average) t.categorySpikeHigh t.categorySpikeMedium
      else none

def detectSpikes (t : ShiftThresholds) (current : MonthlyAggregation)
    (history : List MonthlyAggregation) : List Text :=
  if history.length < 2 then []
  else current.topCategories.filterMap fun top =>
    (spikeSeverity t history top).map fun _ => top.category

/-- The rows of a month, in one currency. No amount of money is negative. -/
structure MonthRows (currency : Text) where
  year : Int
  month : Int
  rows : List TransactionRow
  inCurrency : ∀ row ∈ rows, row.currency = currency
  nonneg : ∀ row ∈ rows, 0 ≤ row.amount

def MonthRows.aggregate {currency : Text} (month : MonthRows currency) : List MonthlyAggregation :=
  Insights.aggregate month.year month.month month.rows

/-- Both months and history aggregated, and the first currency of the month looked at. -/
def reportedSpikes (t : ShiftThresholds) {currency : Text} (current : MonthRows currency)
    (history : List (MonthRows currency)) : List Text :=
  match current.aggregate with
  | [] => []
  | primary :: _ => detectSpikes t primary ((history.flatMap MonthRows.aggregate).filter
      fun aggregation => aggregation.currency = primary.currency)

/-- The categories that stand before one: those with a larger total, and those with the same total
that come up earlier. -/
def ahead (category : Text) (rows : List TransactionRow) : List Text :=
  (((categoriesOf rows).takeWhile (· ≠ category)).filter fun other =>
    totalOn category rows ≤ totalOn other rows) ++
  ((categoriesOf rows).dropWhile (· ≠ category)).filter fun other =>
    totalOn category rows < totalOn other rows

def Listed (category : Text) (rows : List TransactionRow) : Prop :=
  category ∈ categoriesOf rows ∧ (ahead category rows).length < 5

instance (category : Text) (rows : List TransactionRow) : Decidable (Listed category rows) :=
  inferInstanceAs (Decidable (_ ∧ _))

/-- What the months that have the category among the five largest ones spent on it. -/
def baseline (category : Text) {currency : Text} (history : List (MonthRows currency)) : List ℚ :=
  history.filterMap fun month =>
    if Listed category month.rows then some (totalOn category month.rows) else none

/-- The amount is a spike against the average of the others. -/
def IsSpike (t : ShiftThresholds) (amount : ℚ) (amounts : List ℚ) : Prop :=
  amounts ≠ [] ∧ 0 < inContext (decimalSum amounts / amounts.length) ∧
  (severityOf (exactChange amount (inContext (decimalSum amounts / amounts.length)))
    t.categorySpikeHigh t.categorySpikeMedium).isSome

/-- An amount of a category is lowered, in a month of the history. -/
structure Lowering (currency category : Text) where
  year : Int
  month : Int
  front : List TransactionRow
  row : TransactionRow
  back : List TransactionRow
  amount : ℚ
  spentOn : row.spentOn = some category
  positive : 0 < amount
  lower : amount < row.amount
  inCurrency : ∀ other ∈ front ++ row :: back, other.currency = currency
  nonneg : ∀ other ∈ front ++ row :: back, 0 ≤ other.amount

namespace Lowering

variable {currency category : Text} (lowering : Lowering currency category)

def before : MonthRows currency where
  year := lowering.year
  month := lowering.month
  rows := lowering.front ++ lowering.row :: lowering.back
  inCurrency := lowering.inCurrency
  nonneg := lowering.nonneg

def lowered : TransactionRow := { lowering.row with amount := lowering.amount }

theorem of_mem {p : TransactionRow → Prop} (known : ∀ other ∈ lowering.before.rows, p other)
    (own : p lowering.lowered) :
    ∀ other ∈ lowering.front ++ lowering.lowered :: lowering.back, p other := by
  intro other member
  rcases List.mem_append.mp member with first | rest
  · exact known other (List.mem_append_left _ first)
  · rcases List.mem_cons.mp rest with rfl | later
    · exact own
    · exact known other (List.mem_append_right _ (List.mem_cons_of_mem _ later))

def after : MonthRows currency where
  year := lowering.year
  month := lowering.month
  rows := lowering.front ++ lowering.lowered :: lowering.back
  inCurrency := lowering.of_mem lowering.inCurrency
    (lowering.inCurrency lowering.row (List.mem_append_right _ List.mem_cons_self))
  nonneg := lowering.of_mem lowering.nonneg lowering.positive.le

end Lowering

/-! The top categories, by their labels. -/

section TopLabels

variable {category : Text} {rows : List TransactionRow}

theorem top_entry {top : TopCategory} (member : top ∈ topCategories rows) :
    top.amount = totalOn top.category rows := by
  rw [top_categories_eq] at member
  obtain ⟨entry, inside, rfl⟩ := List.mem_map.mp member
  have known := (List.mem_insertionSort larger).mp (List.mem_of_mem_take inside)
  obtain ⟨label, _, rfl⟩ := List.mem_map.mp known
  rfl

theorem spendings_nodup (rows : List TransactionRow) : (spendings rows).Nodup :=
  (categories_of_nodup rows).map fun _ _ same => congrArg Prod.fst same

theorem top_labels_nodup (rows : List TransactionRow) :
    ((topCategories rows).map TopCategory.category).Nodup := by
  have labels : (spendings rows).map Prod.fst = categoriesOf rows := by
    unfold spendings
    rw [List.map_map]
    exact List.map_id _
  have sorted := (List.perm_insertionSort larger (spendings rows)).map Prod.fst
  rw [labels] at sorted
  rw [top_categories_eq, List.map_map]
  exact (sorted.nodup_iff.mpr (categories_of_nodup rows)).sublist ((List.take_sublist _ _).map _)

theorem drop_while_ne {categories : List Text} (member : category ∈ categories) :
    ∃ back, categories.dropWhile (· ≠ category) = category :: back := by
  induction categories with
  | nil => exact absurd member List.not_mem_nil
  | cons first categories ih =>
      by_cases same : first = category
      · exact ⟨categories, by rw [List.dropWhile_cons_of_neg (by simpa using same), same]⟩
      · have later : category ∈ categories :=
          (List.mem_cons.mp member).resolve_left (Ne.symm same)
        rw [List.dropWhile_cons_of_pos (by simpa using same)]
        exact ih later

theorem ahead_rank (member : category ∈ categoriesOf rows) :
    ∃ front back, spendings rows = front ++ (category, totalOn category rows) :: back ∧
      Ranking.rank larger (category, totalOn category rows) front back =
        (ahead category rows).length := by
  let pair (other : Text) : Text × ℚ := (other, totalOn other rows)
  obtain ⟨back, rest⟩ := drop_while_ne member
  refine ⟨((categoriesOf rows).takeWhile (· ≠ category)).map pair, back.map pair, ?_, ?_⟩
  · calc
      spendings rows = ((categoriesOf rows).takeWhile (· ≠ category) ++
          (categoriesOf rows).dropWhile (· ≠ category)).map pair := by
        rw [List.takeWhile_append_dropWhile]
        rfl
      _ = _ := by rw [rest, List.map_append, List.map_cons]
  · unfold Ranking.rank ahead
    rw [rest, List.length_append, List.filter_map, List.filter_map, List.length_map,
      List.length_map, List.filter_cons, if_neg (by simp)]
    congr 3
    funext other
    simp [pair, larger]

theorem mem_top_labels_iff :
    category ∈ (topCategories rows).map TopCategory.category ↔ Listed category rows := by
  have entries : category ∈ (topCategories rows).map TopCategory.category ↔
      (category, totalOn category rows) ∈ ((spendings rows).insertionSort larger).take 5 := by
    rw [← top_categories_listed]
    constructor
    · intro member
      obtain ⟨top, inside, rfl⟩ := List.mem_map.mp member
      rw [← top_entry inside]
      exact List.mem_map_of_mem inside
    · intro member
      obtain ⟨top, inside, same⟩ := List.mem_map.mp member
      exact List.mem_map.mpr ⟨top, inside, congrArg Prod.fst same⟩
  rw [entries]
  by_cases known : category ∈ categoriesOf rows
  · obtain ⟨front, back, split, rank⟩ := ahead_rank known
    have distinct := spendings_nodup rows
    rw [split] at distinct ⊢
    rw [Ranking.mem_top_iff distinct, rank]
    exact (and_iff_right known).symm
  · constructor
    · intro member
      have inside := (List.mem_insertionSort larger).mp (List.mem_of_mem_take member)
      obtain ⟨other, listed, same⟩ := List.mem_map.mp inside
      have equal : other = category := congrArg Prod.fst same
      exact absurd (equal ▸ listed) known
    · intro listed
      exact absurd listed.1 known

/-- At most one of the month's entries is about the category. -/
theorem top_amounts {tops : List TopCategory} (distinct : (tops.map TopCategory.category).Nodup)
    {amount : ℚ} (known : ∀ top ∈ tops, top.category = category → top.amount = amount) :
    (tops.filterMap fun top => if top.category = category then some top.amount else none) =
      if category ∈ tops.map TopCategory.category then [amount] else [] := by
  induction tops with
  | nil => rfl
  | cons first tops ih =>
      rw [List.map_cons, List.nodup_cons] at distinct
      have rest := ih distinct.2 fun top member => known top (List.mem_cons_of_mem first member)
      by_cases same : first.category = category
      · have absent : category ∉ tops.map TopCategory.category := same ▸ distinct.1
        rw [if_neg absent] at rest
        rw [List.filterMap_cons, if_pos same, rest, known first List.mem_cons_self same,
          List.map_cons, same, if_pos List.mem_cons_self]
      · rw [List.filterMap_cons, if_neg same, rest, List.map_cons]
        simp only [List.mem_cons, Ne.symm same, false_or]

end TopLabels

/-! The pipeline, in terms of the rows. -/

section Pipeline

variable {currency : Text}

theorem aggregate_month (month : MonthRows currency) : month.aggregate =
    if month.rows = [] then [] else
      [aggregateCurrency month.year month.month currency month.rows] := by
  have own : rowsOf currency month.rows = month.rows := by
    apply List.filter_eq_self.mpr
    intro row member
    exact decide_eq_true (month.inCurrency row member)
  unfold MonthRows.aggregate aggregate
  split
  · rename_i empty
    rw [empty]
    rfl
  · rename_i filled
    have single : sortedSet (month.rows.map TransactionRow.currency) = sortedSet [currency] := by
      apply sorted_set_congr
      intro other
      rw [List.mem_singleton, List.mem_map]
      constructor
      · rintro ⟨row, member, rfl⟩
        exact month.inCurrency row member
      · rintro rfl
        obtain ⟨row, rest, rows⟩ := List.exists_cons_of_ne_nil filled
        have member : row ∈ month.rows := rows ▸ List.mem_cons_self
        exact ⟨row, member, month.inCurrency row member⟩
    rw [single]
    change [aggregateCurrency _ _ currency (rowsOf currency month.rows)] = _
    rw [own]

theorem month_amounts (month : MonthRows currency) (category : Text) :
    categoryAmounts month.aggregate category =
      if Listed category month.rows then [totalOn category month.rows] else [] := by
  have tops : (month.aggregate.flatMap MonthlyAggregation.topCategories) =
      topCategories month.rows := by
    rw [aggregate_month]
    split
    · rename_i empty
      rw [empty]
      rfl
    · exact List.append_nil _
  unfold categoryAmounts
  have known : ∀ top ∈ topCategories month.rows, top.category = category →
      top.amount = totalOn category month.rows := by
    intro top member same
    rw [top_entry member, same]
  rw [tops, top_amounts (top_labels_nodup month.rows) known]
  simp only [mem_top_labels_iff]

theorem history_amounts (history : List (MonthRows currency)) (category : Text) :
    categoryAmounts (history.flatMap MonthRows.aggregate) category = baseline category history := by
  induction history with
  | nil => rfl
  | cons month history ih =>
      have parts : categoryAmounts ((month :: history).flatMap MonthRows.aggregate) category =
          categoryAmounts month.aggregate category ++
            categoryAmounts (history.flatMap MonthRows.aggregate) category := by
        unfold categoryAmounts
        rw [List.flatMap_cons, List.flatMap_append, List.filterMap_append]
      rw [parts, ih, month_amounts]
      unfold baseline
      split
      · rename_i listed
        rw [List.filterMap_cons, if_pos listed]
        rfl
      · rename_i unlisted
        rw [List.filterMap_cons, if_neg unlisted]
        rfl

theorem spike_severity_iff (t : ShiftThresholds) (history : List (MonthRows currency))
    (top : TopCategory) :
    (spikeSeverity t (history.flatMap MonthRows.aggregate) top).isSome ↔
      IsSpike t top.amount (baseline top.category history) := by
  unfold spikeSeverity avgCategory IsSpike
  rw [history_amounts]
  cases baseline top.category history with
  | nil => simp
  | cons amount amounts =>
      dsimp only
      split
      · rename_i positive
        simp only [ne_eq, reduceCtorEq, not_false_eq_true, true_and, positive]
      · rename_i low
        simp only [Option.isSome_none, Bool.false_eq_true, low, false_and, and_false]

theorem mem_detect_spikes_iff (t : ShiftThresholds) (current : MonthRows currency)
    (history : List (MonthRows currency)) (category : Text) :
    category ∈ detectSpikes t
      (aggregateCurrency current.year current.month currency current.rows)
      (history.flatMap MonthRows.aggregate) ↔
      2 ≤ (history.flatMap MonthRows.aggregate).length ∧ Listed category current.rows ∧
      IsSpike t (totalOn category current.rows) (baseline category history) := by
  unfold detectSpikes
  split
  · rename_i short
    constructor
    · intro member
      cases member
    · intro enough
      exact absurd enough.1 (not_le.mpr short)
  · rename_i enough
    rw [and_iff_right (not_lt.mp enough), List.mem_filterMap, ← mem_top_labels_iff]
    constructor
    · rintro ⟨top, member, reported⟩
      obtain ⟨severity, found, rfl⟩ := Option.map_eq_some_iff.mp reported
      refine ⟨List.mem_map_of_mem member, ?_⟩
      rw [← top_entry member, ← spike_severity_iff, found]
      rfl
    · rintro ⟨listed, spike⟩
      obtain ⟨top, member, rfl⟩ := List.mem_map.mp listed
      rw [← top_entry member, ← spike_severity_iff] at spike
      obtain ⟨severity, found⟩ := Option.isSome_iff_exists.mp spike
      exact ⟨top, member, by rw [found]; rfl⟩

theorem history_in_currency (history : List (MonthRows currency)) :
    ((history.flatMap MonthRows.aggregate).filter fun aggregation =>
      aggregation.currency = currency) = history.flatMap MonthRows.aggregate := by
  apply List.filter_eq_self.mpr
  intro aggregation member
  obtain ⟨month, _, inside⟩ := List.mem_flatMap.mp member
  rw [aggregate_month] at inside
  split at inside
  · cases inside
  · rw [List.mem_singleton.mp inside]
    exact decide_eq_true rfl

theorem mem_reported_iff (t : ShiftThresholds) (current : MonthRows currency)
    (history : List (MonthRows currency)) (category : Text) :
    category ∈ reportedSpikes t current history ↔
      2 ≤ (history.flatMap MonthRows.aggregate).length ∧ Listed category current.rows ∧
      IsSpike t (totalOn category current.rows) (baseline category history) := by
  unfold reportedSpikes
  by_cases empty : current.rows = []
  · rw [aggregate_month current, if_pos empty]
    constructor
    · intro member
      cases member
    · rintro ⟨_, listed, _⟩
      rw [empty] at listed
      exact absurd listed.1 List.not_mem_nil
  · rw [aggregate_month current, if_neg empty, ← mem_detect_spikes_iff t current]
    change category ∈ detectSpikes t _ ((history.flatMap MonthRows.aggregate).filter
      fun aggregation => aggregation.currency = currency) ↔ _
    rw [history_in_currency]

end Pipeline

/-! Lowering an amount. -/

theorem severity_some_iff {change high medium : ℚ} :
    (severityOf change high medium).isSome ↔ high < change ∨ medium < change := by
  unfold severityOf
  split
  · rename_i above
    simp only [Option.isSome_some, above, true_or]
  · rename_i below
    split
    · rename_i above
      simp only [Option.isSome_some, above, or_true]
    · rename_i low
      simp only [Option.isSome_none, Bool.false_eq_true, below, low, or_self]

theorem exact_change_mono {amount average lower : ℚ} (nonneg : 0 ≤ amount) (positive : 0 < lower)
    (le : lower ≤ average) : exactChange amount average ≤ exactChange amount lower := by
  have larger : 0 < average := positive.trans_le le
  unfold exactChange
  rw [sub_div, sub_div, div_self positive.ne', div_self larger.ne']
  exact sub_le_sub_right (div_le_div_of_nonneg_left nonneg positive le) 1

/-- A lower amount among the others leaves a larger spike. -/
theorem IsSpike.lower {t : ShiftThresholds} {amount value other : ℚ} {front back : List ℚ}
    (spike : IsSpike t amount (front ++ other :: back)) (nonneg : 0 ≤ amount) (positive : 0 < value)
    (le : value ≤ other) (rest : ∀ known ∈ front ++ back, 0 ≤ known) :
    IsSpike t amount (front ++ value :: back) := by
  have count : (front ++ value :: back).length = (front ++ other :: back).length := by
    rw [List.length_append, List.length_append, List.length_cons, List.length_cons]
  have some : (0 : ℚ) < (front ++ other :: back).length := by
    exact_mod_cast List.length_pos_of_ne_nil (List.append_ne_nil_of_right_ne_nil front
      (List.cons_ne_nil other back))
  have members : ∀ known ∈ front ++ value :: back, 0 ≤ known := by
    intro known member
    rcases List.mem_append.mp member with first | later
    · exact rest known (List.mem_append_left back first)
    · rcases List.mem_cons.mp later with rfl | last
      · exact positive.le
      · exact rest known (List.mem_append_right front last)
  have sum : 0 < decimalSum (front ++ value :: back) :=
    decimal_sum_pos members ⟨value, List.mem_append_right front List.mem_cons_self, positive⟩
  have average : 0 < inContext (decimalSum (front ++ value :: back) /
      (front ++ other :: back).length) := in_context_pos (div_pos sum some)
  have lower : inContext (decimalSum (front ++ value :: back) / (front ++ other :: back).length) ≤
      inContext (decimalSum (front ++ other :: back) / (front ++ other :: back).length) :=
    in_context_mono (div_le_div_of_nonneg_right (decimal_sum_mono le front back) some.le)
  obtain ⟨_, _, change⟩ := spike
  unfold IsSpike
  rw [count]
  refine ⟨List.append_ne_nil_of_right_ne_nil front (List.cons_ne_nil value back), average, ?_⟩
  have larger := exact_change_mono nonneg average lower
  rw [severity_some_iff] at change ⊢
  exact change.imp larger.trans_lt' larger.trans_lt'

theorem MonthRows.total_nonneg {currency : Text} (month : MonthRows currency) (category : Text) :
    0 ≤ totalOn category month.rows := by
  apply decimal_sum_nonneg
  intro amount member
  obtain ⟨row, inside, rfl⟩ := List.mem_map.mp member
  exact month.nonneg row (List.mem_of_mem_filter inside)

theorem baseline_nonneg {currency category : Text} {history : List (MonthRows currency)} :
    ∀ amount ∈ baseline category history, 0 ≤ amount := by
  intro amount member
  obtain ⟨month, _, own⟩ := List.mem_filterMap.mp member
  split at own
  · rw [← Option.some.inj own]
    exact month.total_nonneg category
  · cases own

theorem baseline_split {currency : Text} (category : Text) (before after : List (MonthRows currency))
    (month : MonthRows currency) : baseline category (before ++ month :: after) =
      baseline category before ++ (if Listed category month.rows then
        totalOn category month.rows :: baseline category after else baseline category after) := by
  unfold baseline
  rw [List.filterMap_append, List.filterMap_cons]
  congr 1
  split
  · rename_i unlisted
    split at unlisted
    · cases unlisted
    · rename_i out
      rw [if_neg out]
  · rename_i listed
    split at listed
    · rename_i inside
      rw [if_pos inside, ← Option.some.inj listed]
    · cases listed

namespace Lowering

variable {currency category : Text} (lowering : Lowering currency category)

theorem before_rows : lowering.before.rows =
    lowering.front ++ lowering.row :: lowering.back := rfl

theorem after_rows : lowering.after.rows =
    lowering.front ++ lowering.lowered :: lowering.back := rfl

theorem categories_kept :
    categoriesOf lowering.after.rows = categoriesOf lowering.before.rows := by
  have label : lowering.lowered.spentOn = lowering.row.spentOn := rfl
  unfold categoriesOf
  rw [before_rows, after_rows, List.filterMap_append, List.filterMap_append, List.filterMap_cons,
    List.filterMap_cons, label]

theorem total_other {other : Text} (different : other ≠ category) :
    totalOn other lowering.after.rows = totalOn other lowering.before.rows := by
  have elsewhere : ¬ lowering.row.spentOn = some other := by
    rw [lowering.spentOn]
    exact fun same => different (Option.some.inj same).symm
  have moved : ¬ lowering.lowered.spentOn = some other := elsewhere
  unfold totalOn amountsOn
  rw [before_rows, after_rows, List.filter_append, List.filter_append, List.filter_cons, List.filter_cons,
    decide_eq_false elsewhere, decide_eq_false moved]
  rfl

theorem amounts_split : ∃ front back,
    amountsOn category lowering.before.rows = front ++ lowering.row.amount :: back ∧
    amountsOn category lowering.after.rows = front ++ lowering.amount :: back := by
  have own : lowering.row.spentOn = some category := lowering.spentOn
  have moved : lowering.lowered.spentOn = some category := own
  refine ⟨amountsOn category lowering.front, amountsOn category lowering.back, ?_, ?_⟩
  · rw [before_rows, amountsOn, List.filter_append, List.filter_cons, decide_eq_true own,
      if_pos rfl, List.map_append, List.map_cons]
    rfl
  · rw [after_rows, amountsOn, List.filter_append, List.filter_cons, decide_eq_true moved,
      if_pos rfl, List.map_append, List.map_cons]
    rfl

theorem total_le : totalOn category lowering.after.rows ≤ totalOn category lowering.before.rows := by
  obtain ⟨front, back, before, after⟩ := lowering.amounts_split
  unfold totalOn
  rw [before, after]
  exact decimal_sum_mono lowering.lower.le front back

theorem total_pos : 0 < totalOn category lowering.after.rows := by
  apply decimal_sum_pos
  · intro amount member
    obtain ⟨row, inside, rfl⟩ := List.mem_map.mp member
    exact lowering.after.nonneg row (List.mem_of_mem_filter inside)
  · obtain ⟨front, back, _, after⟩ := lowering.amounts_split
    rw [after]
    exact ⟨lowering.amount, List.mem_append_right front List.mem_cons_self, lowering.positive⟩

/-- No category that stood ahead falls behind. -/
theorem ahead_le : (ahead category lowering.before.rows).length ≤
    (ahead category lowering.after.rows).length := by
  have kept (other : Text) : totalOn category lowering.before.rows ≤
      totalOn other lowering.before.rows →
        totalOn category lowering.after.rows ≤ totalOn other lowering.after.rows := by
    intro le
    by_cases same : other = category
    · rw [same]
    · rw [lowering.total_other same]
      exact lowering.total_le.trans le
  have strict (other : Text) : totalOn category lowering.before.rows <
      totalOn other lowering.before.rows →
        totalOn category lowering.after.rows < totalOn other lowering.after.rows := by
    intro less
    by_cases same : other = category
    · exact absurd (same ▸ less) (lt_irrefl _)
    · rw [lowering.total_other same]
      exact lowering.total_le.trans_lt less
  unfold ahead
  rw [lowering.categories_kept, List.length_append, List.length_append]
  apply Nat.add_le_add
  · apply List.Sublist.length_le
    apply List.monotone_filter_right
    intro other le
    exact decide_eq_true (kept other (of_decide_eq_true le))
  · apply List.Sublist.length_le
    apply List.monotone_filter_right
    intro other less
    exact decide_eq_true (strict other (of_decide_eq_true less))

theorem listed_before (listed : Listed category lowering.after.rows) :
    Listed category lowering.before.rows :=
  ⟨lowering.categories_kept ▸ listed.1, lowering.ahead_le.trans_lt listed.2⟩

theorem aggregates_kept (before after : List (MonthRows currency)) :
    ((before ++ lowering.after :: after).flatMap MonthRows.aggregate).length =
      ((before ++ lowering.before :: after).flatMap MonthRows.aggregate).length := by
  have filled (row : TransactionRow) : lowering.front ++ row :: lowering.back ≠ [] :=
    List.append_ne_nil_of_right_ne_nil _ (List.cons_ne_nil row lowering.back)
  have one : lowering.before.aggregate.length = 1 := by
    rw [aggregate_month, before_rows, if_neg (filled lowering.row)]
    rfl
  have other : lowering.after.aggregate.length = 1 := by
    rw [aggregate_month, after_rows, if_neg (filled lowering.lowered)]
    rfl
  rw [List.flatMap_append, List.flatMap_append, List.flatMap_cons, List.flatMap_cons,
    List.length_append, List.length_append, List.length_append, List.length_append, one, other]

end Lowering

/-- A lowered amount keeps the spike, unless it takes the category out of the month's five largest
ones; then the other months decide. -/
theorem spike_kept_iff (t : ShiftThresholds) {currency category : Text}
    (current : MonthRows currency) (before after : List (MonthRows currency))
    (lowering : Lowering currency category)
    (reported : category ∈ reportedSpikes t current (before ++ lowering.before :: after)) :
    category ∈ reportedSpikes t current (before ++ lowering.after :: after) ↔
      (Listed category lowering.before.rows → Listed category lowering.after.rows) ∨
      IsSpike t (totalOn category current.rows) (baseline category (before ++ after)) := by
  rw [mem_reported_iff] at reported ⊢
  obtain ⟨enough, listed, spike⟩ := reported
  rw [lowering.aggregates_kept, and_iff_right enough, and_iff_right listed]
  rw [baseline_split] at spike ⊢
  have others : baseline category (before ++ after) =
      baseline category before ++ baseline category after := List.filterMap_append
  by_cases kept : Listed category lowering.after.rows
  · rw [if_pos (lowering.listed_before kept)] at spike
    rw [if_pos kept]
    have lower := spike.lower (current.total_nonneg category) lowering.total_pos lowering.total_le
      (others ▸ baseline_nonneg)
    exact iff_of_true lower (.inl fun _ => kept)
  · rw [if_neg kept, others]
    constructor
    · exact .inr
    · intro holds
      rcases holds with never | spike
      · rw [if_neg fun listed => kept (never listed)] at spike
        exact spike
      · exact spike

def foodMonth (month : Int) : MonthRows (text "EUR") where
  year := 2026
  month := month
  rows := [euros "Food" 100]
  inCurrency := by decide
  nonneg := by decide +kernel

/-- Fifty for food become thirty, in a month with forty for each of five other categories. -/
def cheaperFood : Lowering (text "EUR") (text "Food") where
  year := 2026
  month := 4
  front := []
  row := euros "Food" 50
  back := [euros "Rent" 40, euros "Fuel" 40, euros "Gifts" 40, euros "Books" 40, euros "Sport" 40]
  amount := 30
  spentOn := rfl
  positive := by decide +kernel
  lower := by decide +kernel
  inCurrency := by decide
  nonneg := by decide +kernel

theorem spike_kept_food :
    text "Food" ∈ reportedSpikes {} (foodMonth 5) ([foodMonth 3] ++ cheaperFood.after :: []) ↔
      (Listed (text "Food") cheaperFood.before.rows →
        Listed (text "Food") cheaperFood.after.rows) ∨
      IsSpike {} (totalOn (text "Food") (foodMonth 5).rows)
        (baseline (text "Food") ([foodMonth 3] ++ [])) :=
  spike_kept_iff {} (foodMonth 5) [foodMonth 3] [] cheaperFood (by decide +kernel)

theorem not_spike_kept : ¬ ∀ (t : ShiftThresholds) (currency category : Text)
    (current : MonthRows currency) (before after : List (MonthRows currency))
    (lowering : Lowering currency category),
    category ∈ reportedSpikes t current (before ++ lowering.before :: after) →
      category ∈ reportedSpikes t current (before ++ lowering.after :: after) := by
  intro claimed
  have kept := claimed {} (text "EUR") (text "Food") (foodMonth 5) [foodMonth 3] [] cheaperFood
    (by decide +kernel)
  revert kept
  decide +kernel

end Yomochi.Insights
