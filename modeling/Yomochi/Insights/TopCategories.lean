import Mathlib.Data.List.Induction
import Yomochi.Foundation.Dict
import Yomochi.Foundation.Ranking
import Yomochi.Insights.Aggregation

/-! The five largest categories of a month: the totals that are ranked, in the order in which the
categories come up. -/

namespace Yomochi.Insights

open Foundation

def TransactionRow.spentOn (row : TransactionRow) : Option Text :=
  match row.categoryLabel with
  | some (c :: label) => if row.type = .EXPENSE then some (c :: label) else none
  | _ => none

theorem spent_on_expense {row : TransactionRow} {category : Text}
    (spent : row.spentOn = some category) : row.type = .EXPENSE := by
  unfold TransactionRow.spentOn at spent
  split at spent
  · split at spent
    · assumption
    · cases spent
  · cases spent

def categoriesOf (rows : List TransactionRow) : List Text :=
  Dict.firstSeen (rows.filterMap TransactionRow.spentOn)

def amountsOn (category : Text) (rows : List TransactionRow) : List ℚ :=
  (rows.filter fun row => row.spentOn = some category).map TransactionRow.amount

def totalOn (category : Text) (rows : List TransactionRow) : ℚ :=
  decimalSum (amountsOn category rows)

def spendings (rows : List TransactionRow) : List (Text × ℚ) :=
  (categoriesOf rows).map fun category => (category, totalOn category rows)

theorem mem_categories_of {category : Text} {rows : List TransactionRow} :
    category ∈ categoriesOf rows ↔ ∃ row ∈ rows, row.spentOn = some category := by
  rw [categoriesOf, Dict.mem_first_seen, List.mem_filterMap]

theorem categories_of_nodup (rows : List TransactionRow) : (categoriesOf rows).Nodup :=
  Dict.first_seen_nodup _

theorem categories_of_concat (rows : List TransactionRow) (row : TransactionRow) :
    categoriesOf (rows ++ [row]) = match row.spentOn with
      | none => categoriesOf rows
      | some category =>
          if category ∈ categoriesOf rows then categoriesOf rows
          else categoriesOf rows ++ [category] := by
  unfold categoriesOf
  rw [List.filterMap_append]
  cases spent : row.spentOn with
  | none => rw [List.filterMap_cons_none spent, List.filterMap_nil, List.append_nil]
  | some category =>
      rw [List.filterMap_cons_some spent, List.filterMap_nil, Dict.first_seen_concat]
      by_cases known : category ∈ rows.filterMap TransactionRow.spentOn
      · rw [if_pos known]
        exact (if_pos (Dict.mem_first_seen.mpr known)).symm
      · rw [if_neg known]
        exact (if_neg fun inside => known (Dict.mem_first_seen.mp inside)).symm

theorem total_on_concat (category : Text) (rows : List TransactionRow) (row : TransactionRow) :
    totalOn category (rows ++ [row]) =
      if row.spentOn = some category then inContext (totalOn category rows + row.amount)
      else totalOn category rows := by
  unfold totalOn amountsOn
  rw [List.filter_append, List.filter_singleton]
  by_cases same : row.spentOn = some category
  · rw [if_pos same, decide_eq_true same]
    simp [decimalSum]
  · rw [if_neg same, decide_eq_false same]
    simp

theorem total_on_absent {category : Text} {rows : List TransactionRow}
    (absent : category ∉ categoriesOf rows) : totalOn category rows = 0 := by
  have nothing : (rows.filter fun row => row.spentOn = some category) = [] := by
    apply List.filter_eq_nil_iff.mpr
    intro row member spent
    exact absent (mem_categories_of.mpr ⟨row, member, of_decide_eq_true spent⟩)
  unfold totalOn amountsOn
  rw [nothing]
  rfl

theorem add_to_map (category : Text) (amount : ℚ) {categories : List Text}
    (distinct : categories.Nodup) (total : Text → ℚ) :
    addTo category amount (categories.map fun other => (other, total other)) =
      if category ∈ categories then
        categories.map fun other =>
          (other, if category = other then inContext (total other + amount) else total other)
      else (categories.map fun other => (other, total other)) ++ [(category, inContext amount)] := by
  induction categories with
  | nil => rfl
  | cons first categories ih =>
      obtain ⟨absent, distinct⟩ := List.nodup_cons.mp distinct
      rw [List.map_cons, addTo]
      by_cases same : first = category
      · subst same
        rw [if_pos rfl, if_pos List.mem_cons_self, List.map_cons, if_pos rfl]
        congr 1
        apply List.map_congr_left
        intro other member
        have different : ¬ first = other := by
          intro equal
          exact absent (equal ▸ member)
        rw [if_neg different]
      · rw [if_neg same, ih distinct]
        by_cases later : category ∈ categories
        · rw [if_pos later, if_pos (List.mem_cons_of_mem first later), List.map_cons,
            if_neg (Ne.symm same)]
        · rw [if_neg later, if_neg (by simp [Ne.symm same, later])]
          rfl

theorem category_totals_concat (rows : List TransactionRow) (row : TransactionRow) :
    categoryTotals (rows ++ [row]) = match row.spentOn with
      | none => categoryTotals rows
      | some category => addTo category row.amount (categoryTotals rows) := by
  unfold categoryTotals
  rw [List.foldl_append, List.foldl_cons, List.foldl_nil]
  obtain ⟨amount, currency, type, label⟩ := row
  rcases label with _ | _ | ⟨c, label⟩
  · rfl
  · rfl
  · cases type with
    | INCOME => rfl
    | EXPENSE => rfl

theorem category_totals_eq (rows : List TransactionRow) : categoryTotals rows = spendings rows := by
  induction rows using List.reverseRecOn with
  | nil => rfl
  | append_singleton rows row ih =>
      rw [category_totals_concat, ih]
      unfold spendings
      rw [categories_of_concat]
      cases spent : row.spentOn with
      | none =>
          apply List.map_congr_left
          intro other _
          rw [total_on_concat, if_neg (by rw [spent]; nofun)]
      | some category =>
          dsimp only
          have added (other : Text) : totalOn other (rows ++ [row]) =
              if category = other then inContext (totalOn other rows + row.amount)
              else totalOn other rows := by
            rw [total_on_concat, spent]
            simp only [Option.some.injEq]
          simp only [added]
          rw [add_to_map category row.amount (categories_of_nodup rows)]
          split
          · rfl
          · rename_i absent
            rw [List.map_append, List.map_singleton, if_pos rfl, total_on_absent absent, zero_add]
            congr 1
            apply List.map_congr_left
            intro other member
            have different : ¬ category = other := by
              intro equal
              exact absent (equal ▸ member)
            rw [if_neg different]

abbrev larger (first second : Text × ℚ) : Prop := second.2 ≤ first.2

instance : IsTrans (Text × ℚ) larger := ⟨fun _ _ _ first second => second.trans first⟩

instance : Std.Total larger := ⟨fun first second => le_total second.2 first.2⟩

theorem top_categories_eq (rows : List TransactionRow) :
    topCategories rows = (((spendings rows).insertionSort larger).take 5).map fun entry =>
      ⟨entry.1, entry.2, ratio entry.2 (decimalSum (amountsOf .EXPENSE rows))⟩ := by
  unfold topCategories
  rw [category_totals_eq]

theorem top_categories_listed (rows : List TransactionRow) :
    (topCategories rows).map (fun top => (top.category, top.amount)) =
      ((spendings rows).insertionSort larger).take 5 := by
  rw [top_categories_eq, List.map_map]
  exact List.map_id _

def euros (category : String) (amount : ℚ) : TransactionRow where
  amount := amount
  currency := text "EUR"
  type := .EXPENSE
  categoryLabel := some (text category)

end Yomochi.Insights
