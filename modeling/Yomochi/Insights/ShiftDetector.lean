import Yomochi.Insights.Aggregation

/-! The behavioral shift detector: a month against the months before it, in one currency. -/

namespace Yomochi.Insights

open Foundation

inductive ShiftType
  | incomeDrop
  | expenseSpike
  | savingsCollapse
  | savingsDecline
  | categorySpike
  deriving DecidableEq, Repr

def ShiftType.value : ShiftType → Text
  | .incomeDrop => text "income_drop"
  | .expenseSpike => text "expense_spike"
  | .savingsCollapse => text "savings_collapse"
  | .savingsDecline => text "savings_decline"
  | .categorySpike => text "category_spike"

inductive Severity
  | high
  | medium
  deriving DecidableEq, Repr

structure DetectedShift where
  type : ShiftType
  severity : Severity
  deltaPct : ℚ
  category : Option Text
  currency : Text
  absChange : ℚ
  deriving DecidableEq

/-- The thresholds are floats. -/
structure ShiftThresholds where
  incomeDropHigh : ℚ := toFloat (20 / 100)
  incomeDropMedium : ℚ := toFloat (10 / 100)
  expenseSpikeHigh : ℚ := toFloat (30 / 100)
  expenseSpikeMedium : ℚ := toFloat (15 / 100)
  savingsRateCollapse : ℚ := toFloat (15 / 100)
  savingsRateDecline : ℚ := toFloat (8 / 100)
  categorySpikeHigh : ℚ := toFloat (40 / 100)
  categorySpikeMedium : ℚ := toFloat (20 / 100)

def decimalMean (values : List ℚ) : ℚ := shortestDecimal (floatMean (values.map toFloat))

/-- `float((value - average) / average)`. -/
def relativeChange (value average : ℚ) : ℚ :=
  toFloat (inContext (inContext (value - average) / average))

/-- `abs(value - average)`. -/
def absoluteChange (value average : ℚ) : ℚ := |inContext (value - average)|

/-- The amounts of a category, one for each month that has it among its top categories. -/
def categoryAmounts (history : List MonthlyAggregation) (category : Text) : List ℚ :=
  (history.flatMap MonthlyAggregation.topCategories).filterMap fun top =>
    if top.category = category then some top.amount else none

def avgCategory (history : List MonthlyAggregation) (category : Text) : Option ℚ :=
  match categoryAmounts history category with
  | [] => none
  | amounts => some (inContext (decimalSum amounts / amounts.length))

def severityOf (change high medium : ℚ) : Option Severity :=
  if high < change then some .high
  else if medium < change then some .medium
  else none

def relativeShift (type : ShiftType) (category : Option Text) (currency : Text) (rises : Bool)
    (high medium value average : ℚ) : List DetectedShift :=
  if 0 < average then
    let delta := relativeChange value average
    match severityOf (if rises then delta else -delta) high medium with
    | some severity =>
        [⟨type, severity, delta, category, currency, absoluteChange value average⟩]
    | none => []
  else []

section Detection

variable (t : ShiftThresholds) (current : MonthlyAggregation)

def incomeShift (avgIncome : ℚ) : List DetectedShift :=
  relativeShift .incomeDrop none current.currency false t.incomeDropHigh t.incomeDropMedium
    current.totalIncome avgIncome

def expenseShift (avgExpenses : ℚ) : List DetectedShift :=
  relativeShift .expenseSpike none current.currency true t.expenseSpikeHigh t.expenseSpikeMedium
    current.totalExpenses avgExpenses

/-- A collapse is of high severity, a decline of medium. -/
def savingsShift (avgSavingsRate avgExpenses : ℚ) : List DetectedShift :=
  let delta := toFloat (avgSavingsRate - current.savingsRate)
  match severityOf delta t.savingsRateCollapse t.savingsRateDecline with
  | some severity =>
      [⟨if severity = .high then .savingsCollapse else .savingsDecline, severity, -delta, none,
        current.currency, inContext (shortestDecimal |delta| * avgExpenses)⟩]
  | none => []

def categoryShift (history : List MonthlyAggregation) (top : TopCategory) : List DetectedShift :=
  match avgCategory history top.category with
  | none => []
  | some average =>
      relativeShift .categorySpike (some top.category) current.currency true t.categorySpikeHigh
        t.categorySpikeMedium top.amount average

def detect (history : List MonthlyAggregation) : List DetectedShift :=
  if history.length < 2 then []
  else
    let avgIncome := decimalMean (history.map MonthlyAggregation.totalIncome)
    let avgExpenses := decimalMean (history.map MonthlyAggregation.totalExpenses)
    let avgSavingsRate := floatMean (history.map MonthlyAggregation.savingsRate)
    incomeShift t current avgIncome ++ expenseShift t current avgExpenses ++
      savingsShift t current avgSavingsRate avgExpenses ++
      current.topCategories.flatMap (categoryShift t current history)

end Detection

theorem relative_shift_currency {type : ShiftType} {category : Option Text} {currency : Text}
    {rises : Bool} {high medium value average : ℚ} {shift : DetectedShift}
    (found : shift ∈ relativeShift type category currency rises high medium value average) :
    shift.currency = currency := by
  unfold relativeShift at found
  split at found
  · dsimp only at found
    split at found
    · rw [List.mem_singleton.mp found]
    · cases found
  · cases found

theorem savings_shift_currency {t : ShiftThresholds} {current : MonthlyAggregation}
    {avgSavingsRate avgExpenses : ℚ} {shift : DetectedShift}
    (found : shift ∈ savingsShift t current avgSavingsRate avgExpenses) :
    shift.currency = current.currency := by
  unfold savingsShift at found
  dsimp only at found
  split at found
  · rw [List.mem_singleton.mp found]
  · cases found

theorem category_shift_currency {t : ShiftThresholds} {current : MonthlyAggregation}
    {history : List MonthlyAggregation} {top : TopCategory} {shift : DetectedShift}
    (found : shift ∈ categoryShift t current history top) : shift.currency = current.currency := by
  unfold categoryShift at found
  split at found
  · cases found
  · exact relative_shift_currency found

theorem detect_currency {t : ShiftThresholds} {current : MonthlyAggregation}
    {history : List MonthlyAggregation} {shift : DetectedShift}
    (found : shift ∈ detect t current history) : shift.currency = current.currency := by
  unfold detect at found
  split at found
  · cases found
  · dsimp only at found
    simp only [List.mem_append, List.mem_flatMap] at found
    rcases found with ((income | expense) | savings) | ⟨top, _, category⟩
    · exact relative_shift_currency income
    · exact relative_shift_currency expense
    · exact savings_shift_currency savings
    · exact category_shift_currency category

theorem detect_short {t : ShiftThresholds} {current : MonthlyAggregation}
    {history : List MonthlyAggregation} (short : history.length < 2) :
    detect t current history = [] := if_pos short

end Yomochi.Insights
