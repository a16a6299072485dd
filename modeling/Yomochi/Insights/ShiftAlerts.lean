import Yomochi.Insights.BudgetReader
import Yomochi.Insights.ShiftDetector

/-! The alerts of behavioral shifts: which currency of a month is looked at, and which alerts are
written. Whether a currency's alerts depend on the rows of another one. -/

namespace Yomochi.Insights

open Foundation
open Recurring (TransactionType)

inductive AlertType
  | SPENDING_SPIKE
  | INCOME_DROP
  | SAVINGS_COLLAPSE
  deriving DecidableEq, Repr

def alertTypeOf : ShiftType → Option AlertType
  | .expenseSpike => some .SPENDING_SPIKE
  | .categorySpike => some .SPENDING_SPIKE
  | .incomeDrop => some .INCOME_DROP
  | .savingsCollapse => some .SAVINGS_COLLAPSE
  | .savingsDecline => none

def minAmounts : List (Text × ℚ) :=
  [(text "JPY", 3000), (text "USD", 20), (text "EUR", 20), (text "GBP", 15), (text "CNY", 150),
    (text "KRW", 30000), (text "SGD", 25), (text "AUD", 30)]

def fallbackMin : ℚ := 20

def isAlertworthy (shift : DetectedShift) : Bool :=
  if shift.severity ≠ .high then false
  else if shift.currency = [] ∨ shift.absChange = 0 then true
  else decide ((minAmounts.lookup shift.currency).getD fallbackMin ≤ shift.absChange)

def namedCategory (shift : DetectedShift) : Option Text :=
  shift.category.filter (· ≠ [])

def subtypeOf (shift : DetectedShift) : Text :=
  match namedCategory shift with
  | some category => shift.type.value ++ text ":" ++ category
  | none => shift.type.value

/-- `f"{value:.0f}"` of a value that is not negative. -/
def wholeText (value : ℚ) : Text := decimal (roundHalfEven value).toNat

/-- `f"{abs(shift.delta_pct * 100):.0f}%"`. -/
def percentText (shift : DetectedShift) : Text :=
  wholeText (toFloat |shift.deltaPct * 100|) ++ text "%"

def buildTitle (shift : DetectedShift) : Text :=
  match shift.type, namedCategory shift with
  | .categorySpike, some category => category ++ text " spending up " ++ percentText shift
  | .expenseSpike, _ => text "Total spending up " ++ percentText shift
  | .incomeDrop, _ => text "Income down " ++ percentText shift
  | .savingsCollapse, _ => text "Savings rate collapsed " ++ percentText shift
  | _, _ => text "Unusual financial activity"

def buildBody (shift : DetectedShift) : Text :=
  let (base, direction) :=
    match shift.type, namedCategory shift with
    | .categorySpike, some category =>
        (category ++ text " up " ++ percentText shift ++ text " vs usual", text "above")
    | .expenseSpike, _ =>
        (text "Total expenses up " ++ percentText shift ++ text " vs usual", text "above")
    | .incomeDrop, _ =>
        (text "Income down " ++ percentText shift ++ text " vs last 3 months", text "below")
    | .savingsCollapse, _ =>
        (text "Savings rate down " ++ percentText shift ++ text " vs usual", text "below")
    | _, _ => (text "Unusual change: " ++ percentText shift, text "above")
  if shift.absChange = 0 ∨ shift.currency = [] then base
  else base ++ text " (" ++ wholeText shift.absChange ++ text " " ++ shift.currency ++ text " " ++
    direction ++ text " usual)"

structure UserAlert where
  userId : UserId
  type : AlertType
  subtype : Text
  title : Text
  body : Text
  metadata : DetectedShift
  period : YearMonth
  deriving DecidableEq

def UserAlert.key (alert : UserAlert) : UserId × Text × YearMonth :=
  (alert.userId, alert.subtype, alert.period)

/-- The column `subtype` holds 100 characters. -/
def subtypeLimit : Nat := 100

/-- Of a text that is too long the database cuts off the excess, if it is only spaces. -/
def cutSubtype (subtype : Text) : Text :=
  if (subtype.drop subtypeLimit).all fun c => decide (c = ' '.toNat) then subtype.take subtypeLimit
  else subtype

def alertOf (userId : UserId) (period : YearMonth) (shift : DetectedShift) : Option UserAlert :=
  (alertTypeOf shift.type).map fun type =>
    ⟨userId, type, cutSubtype (subtypeOf shift), buildTitle shift, buildBody shift, shift, period⟩

def alertsOf (userId : UserId) (period : YearMonth) (shifts : List DetectedShift) :
    List UserAlert :=
  (shifts.filter isAlertworthy).filterMap (alertOf userId period)

/-- `INSERT .. ON CONFLICT DO NOTHING`. -/
def insertAlert (alerts : List UserAlert) (alert : UserAlert) : List UserAlert :=
  if alert.key ∈ alerts.map UserAlert.key then alerts else alerts ++ [alert]

/-- `write_shift_alerts`; `none` is a `StorageError`, with which the transaction ends. -/
def writeShiftAlerts (alerts : List UserAlert) (userId : UserId) (period : YearMonth)
    (shifts : List DetectedShift) : Option (List UserAlert) :=
  let made := alertsOf userId period shifts
  if made.any fun alert => subtypeLimit < alert.subtype.length then none
  else some (made.foldl insertAlert alerts)

/-- A call of `DetectShiftAlertsUseCase`: what the tables hold at the time. Alerts may have been
cleared or purged since the call before. -/
structure Call where
  userId : UserId
  period : YearMonth
  rows : List StoredTransaction
  kept : UserAlert → Bool

variable (t : ShiftThresholds)

def detectedShifts (call : Call) : Option (List DetectedShift) := do
  let current ← readMonth call.rows call.userId call.period
  if current = [] then some []
  else
    let history ← readHistoryMonths call.rows call.userId call.period nHistoryMonths
    let historyAggs := historyAggregations history
    match aggregateMonth call.period current with
    | [] => some []
    | primary :: _ =>
        if historyAggs.length < 2 then some []
        else some (detect t primary
          (historyAggs.filter fun history => history.currency = primary.currency))

/-- `DetectShiftAlertsUseCase.__call__`, in a transaction: what it leaves of the alerts. -/
def Call.run (call : Call) (alerts : List UserAlert) : List UserAlert :=
  let alerts := alerts.filter call.kept
  match detectedShifts t call with
  | some (shift :: shifts) =>
      (writeShiftAlerts alerts call.userId call.period (shift :: shifts)).getD alerts
  | _ => alerts

/-! One currency by itself. -/

def onlyRows (currency : Text) (rows : List StoredTransaction) : List StoredTransaction :=
  rows.filter fun row => row.currency = currency

def Call.only (call : Call) (currency : Text) : Call :=
  { call with rows := onlyRows currency call.rows }

def shiftsOf (currency : Text) (call : Call) : List DetectedShift :=
  ((detectedShifts t call).getD []).filter fun shift => shift.currency = currency

def alertsIn (currency : Text) (alerts : List UserAlert) : List UserAlert :=
  alerts.filter fun alert => alert.metadata.currency = currency

/-- The shifts and the alerts of a currency are the same whether or not there are rows of other
currencies, at each call. The first alerts are those of the run on all rows, the second ones those
of the run on the currency's own rows. -/
def Independent (currency : Text) : List UserAlert → List UserAlert → List Call → Prop
  | _, _, [] => True
  | alerts, own, call :: later =>
      shiftsOf t currency call = shiftsOf t currency (call.only currency) ∧
      alertsIn currency (call.run t alerts) = alertsIn currency ((call.only currency).run t own) ∧
      Independent currency (call.run t alerts) ((call.only currency).run t own) later

def firstCurrency (call : Call) : Option Text :=
  (readMonth call.rows call.userId call.period).bind fun current =>
    (sortedSet (current.map StoredTransaction.currency)).head?

/-- When a call treats the currency as if it were alone: it is the first one of the month, unless
its own rows show no shift; and no alert of another currency has the key of an alert that is to be
written, unless one of the currency has it, or the writer fails. -/
def CoveredCall (currency : Text) (alerts : List UserAlert) (call : Call) : Prop :=
  let own := shiftsOf t currency (call.only currency)
  let made := alertsOf call.userId call.period own
  let alerts := alerts.filter call.kept
  (firstCurrency call = some currency ∨ own = []) ∧
  ((∃ alert ∈ made, subtypeLimit < alert.subtype.length) ∨
    ∀ alert ∈ made, alert.key ∈ alerts.map UserAlert.key →
      alert.key ∈ (alertsIn currency alerts).map UserAlert.key)

def Covered (currency : Text) : List UserAlert → List Call → Prop
  | _, [] => True
  | alerts, call :: later =>
      CoveredCall t currency alerts call ∧ Covered currency (call.run t alerts) later

/-! The rows of a currency are read and aggregated as if they were alone. -/

theorem fetch_only (currency : Text) (rows : List StoredTransaction) (userId : UserId)
    (firstDay lastDay : Date) : fetch (onlyRows currency rows) userId firstDay lastDay =
      onlyRows currency (fetch rows userId firstDay lastDay) := by
  rw [fetch, fetch, onlyRows, onlyRows, List.filter_filter, List.filter_filter]
  congr 1
  funext row
  exact Bool.and_comm _ _

theorem read_month_only (currency : Text) (rows : List StoredTransaction) (userId : UserId)
    (period : YearMonth) : readMonth (onlyRows currency rows) userId period =
      (readMonth rows userId period).map (onlyRows currency) := by
  unfold readMonth
  cases Date.ofNumbers period.1 period.2 1 with
  | none => rfl
  | some first =>
      cases lastDay period with
      | none => rfl
      | some last => exact congrArg some (fetch_only currency rows userId first last)

theorem read_history_only (currency : Text) (rows : List StoredTransaction) (userId : UserId)
    (period : YearMonth) (n : Nat) : readHistoryMonths (onlyRows currency rows) userId period n =
      (readHistoryMonths rows userId period n).map fun history =>
        history.map fun entry => (entry.1, onlyRows currency entry.2) := by
  have months (first last : Date) (keys : List YearMonth) :
      keys.map (fun month => (month, (fetch (onlyRows currency rows) userId first last).filter
        fun row => inMonth month row.date)) =
      (keys.map fun month => (month, (fetch rows userId first last).filter
        fun row => inMonth month row.date)).map fun entry =>
          (entry.1, onlyRows currency entry.2) := by
    rw [List.map_map]
    apply List.map_congr_left
    intro month _
    refine Prod.ext rfl ?_
    change (fetch (onlyRows currency rows) userId first last).filter _ = onlyRows currency _
    rw [fetch_only, onlyRows, onlyRows, List.filter_filter, List.filter_filter]
    congr 1
    funext row
    exact Bool.and_comm _ _
  unfold readHistoryMonths
  dsimp only
  split
  · rename_i earliest latest _ _
    cases Date.ofNumbers earliest.1 earliest.2 1 with
    | none => rfl
    | some first =>
        cases lastDay latest with
        | none => rfl
        | some last => exact congrArg some (months first last _)
  · rfl

theorem rows_of_only (currency : Text) (rows : List StoredTransaction) :
    rowsOf currency ((onlyRows currency rows).map StoredTransaction.row) =
      rowsOf currency (rows.map StoredTransaction.row) := by
  rw [rowsOf, rowsOf, onlyRows, List.filter_map, List.filter_map, List.filter_filter]
  congr 2
  funext row
  exact Bool.and_self _

theorem aggregate_only (currency : Text) (period : YearMonth) (rows : List StoredTransaction) :
    aggregateMonth period (onlyRows currency rows) =
      (aggregateMonth period rows).filter fun aggregation => aggregation.currency = currency := by
  have codes (rows : List StoredTransaction) :
      (rows.map StoredTransaction.row).map TransactionRow.currency =
        rows.map StoredTransaction.currency := by
    rw [List.map_map]
    rfl
  have alone : (sortedSet ((onlyRows currency rows).map StoredTransaction.currency)).filter
      (fun code => code = currency) =
        sortedSet ((onlyRows currency rows).map StoredTransaction.currency) := by
    refine List.filter_eq_self.mpr fun code member => ?_
    obtain ⟨row, inside, rfl⟩ := List.mem_map.mp (mem_sorted_set.mp member)
    exact (List.mem_filter.mp inside).2
  have present : currency ∈ (onlyRows currency rows).map StoredTransaction.currency ↔
      currency ∈ rows.map StoredTransaction.currency := by
    simp [onlyRows]
  have same : (fun aggregation : MonthlyAggregation =>
      decide (aggregation.currency = currency)) ∘ (fun code => aggregateCurrency period.1 period.2
        code (rowsOf code (rows.map StoredTransaction.row))) = fun code => code = currency := rfl
  rw [aggregateMonth, aggregateMonth, aggregate, aggregate, codes, codes, List.filter_map, same,
    ← alone, filter_sorted_set, filter_sorted_set]
  simp only [present]
  split
  · rw [List.map_singleton, List.map_singleton, rows_of_only]
  · rfl

theorem history_only (currency : Text) (history : List (YearMonth × List StoredTransaction)) :
    historyAggregations (history.map fun entry => (entry.1, onlyRows currency entry.2)) =
      (historyAggregations history).filter fun aggregation => aggregation.currency = currency := by
  have sorted : (history.map fun entry => (entry.1, onlyRows currency entry.2)).insertionSort
      (fun first second => earlier first second = true) =
        (history.insertionSort fun first second => earlier first second = true).map
          fun entry => (entry.1, onlyRows currency entry.2) :=
    (List.map_insertionSort _ _ (fun entry => (entry.1, onlyRows currency entry.2)) history
      fun _ _ _ _ => Iff.rfl).symm
  have entries (entry : YearMonth × List StoredTransaction) :
      (if entry.2 = [] then [] else aggregateMonth entry.1 entry.2) =
        aggregateMonth entry.1 entry.2 := by
    split
    · rename_i empty
      rw [empty]
      rfl
    · rfl
  simp only [historyAggregations, entries]
  rw [sorted, List.flatMap_map, List.filter_flatMap]
  simp only [aggregate_only]

/-! The shifts of a currency. -/

section Shifts

variable {t} {call : Call}

/-- The count of the history months is checked again, for the currency, by the detector. -/
theorem gate_redundant (primary : MonthlyAggregation) (history : List MonthlyAggregation)
    (p : MonthlyAggregation → Bool) :
    (if history.length < 2 then some [] else some (detect t primary (history.filter p))) =
      some (detect t primary (history.filter p)) := by
  split
  · rename_i short
    have shorter := List.length_filter_le p history
    rw [detect_short (by omega)]
  · rfl

theorem detected_shifts_primary {current : List StoredTransaction}
    {history : List (YearMonth × List StoredTransaction)} {primary : MonthlyAggregation}
    {others : List MonthlyAggregation}
    (month : readMonth call.rows call.userId call.period = some current)
    (months : readHistoryMonths call.rows call.userId call.period nHistoryMonths = some history)
    (first : aggregateMonth call.period current = primary :: others) :
    detectedShifts t call = some (detect t primary ((historyAggregations history).filter
      fun aggregation => aggregation.currency = primary.currency)) := by
  have nonempty : current ≠ [] := by
    rintro rfl
    cases first
  simp only [detectedShifts, month, months, Option.bind_eq_bind, Option.bind_some, if_neg nonempty,
    first]
  exact gate_redundant primary _ _

theorem detected_no_month
    (month : readMonth call.rows call.userId call.period = none) :
    (detectedShifts t call).getD [] = [] := by
  rw [detectedShifts, month]
  rfl

theorem detected_no_history
    (months : readHistoryMonths call.rows call.userId call.period nHistoryMonths = none) :
    (detectedShifts t call).getD [] = [] := by
  cases month : readMonth call.rows call.userId call.period with
  | none => exact detected_no_month month
  | some current =>
      by_cases empty : current = []
      · simp [detectedShifts, month, empty]
      · simp [detectedShifts, month, empty, months]

theorem aggregate_currencies (period : YearMonth) (current : List StoredTransaction) :
    (aggregateMonth period current).map MonthlyAggregation.currency =
      sortedSet (current.map StoredTransaction.currency) := by
  have names : (current.map StoredTransaction.row).map TransactionRow.currency =
      current.map StoredTransaction.currency := by
    rw [List.map_map]
    rfl
  rw [aggregateMonth, aggregate, names, List.map_map]
  exact List.map_id _

theorem first_currency_of {current : List StoredTransaction} {primary : MonthlyAggregation}
    {others : List MonthlyAggregation}
    (month : readMonth call.rows call.userId call.period = some current)
    (aggregated : aggregateMonth call.period current = primary :: others) :
    firstCurrency call = some primary.currency := by
  rw [firstCurrency, month, Option.bind_some, ← aggregate_currencies call.period, aggregated]
  rfl

/-- Everything that is handed to the writer is of the first currency. -/
theorem detected_currency {shift : DetectedShift}
    (found : shift ∈ (detectedShifts t call).getD []) :
    firstCurrency call = some shift.currency := by
  cases months : readHistoryMonths call.rows call.userId call.period nHistoryMonths with
  | none =>
      rw [detected_no_history months] at found
      cases found
  | some history =>
      cases month : readMonth call.rows call.userId call.period with
      | none =>
          rw [detected_no_month month] at found
          cases found
      | some current =>
          cases aggregated : aggregateMonth call.period current with
          | nil => simp [detectedShifts, month, months, aggregated] at found
          | cons primary others =>
              rw [detected_shifts_primary month months aggregated, Option.getD_some] at found
              rw [detect_currency found, first_currency_of month aggregated]

theorem detected_eq_shifts_of {currency : Text} (first : firstCurrency call = some currency) :
    (detectedShifts t call).getD [] = shiftsOf t currency call := by
  refine (List.filter_eq_self.mpr fun shift member => ?_).symm
  have same := (detected_currency member).symm.trans first
  exact decide_eq_true (Option.some.inj same)

theorem shifts_of_other {currency : Text} (other : firstCurrency call ≠ some currency) :
    shiftsOf t currency call = [] := by
  refine List.filter_eq_nil_iff.mpr fun shift member same => other ?_
  rw [detected_currency member, of_decide_eq_true same]

/-- The shifts of the first currency of the month are those of its own rows. -/
theorem shifts_of_first {currency : Text} (first : firstCurrency call = some currency) :
    shiftsOf t currency call = shiftsOf t currency (call.only currency) := by
  cases months : readHistoryMonths call.rows call.userId call.period nHistoryMonths with
  | none =>
      have alone := read_history_only currency call.rows call.userId call.period nHistoryMonths
      rw [months] at alone
      rw [shiftsOf, shiftsOf, detected_no_history months,
        @detected_no_history t (call.only currency) alone]
  | some history =>
      have ownMonths := read_history_only currency call.rows call.userId call.period
        nHistoryMonths
      rw [months, Option.map_some] at ownMonths
      obtain ⟨current, month, _⟩ := Option.bind_eq_some_iff.mp first
      have ownMonth := read_month_only currency call.rows call.userId call.period
      rw [month, Option.map_some] at ownMonth
      cases aggregated : aggregateMonth call.period current with
      | nil =>
          rw [firstCurrency, month, Option.bind_some, ← aggregate_currencies call.period,
            aggregated] at first
          cases first
      | cons primary others =>
          have named : primary.currency = currency :=
            Option.some.inj ((first_currency_of month aggregated).symm.trans first)
          have alone := aggregate_only currency call.period current
          rw [aggregated, List.filter_cons_of_pos (by simp [named])] at alone
          have own := @detected_shifts_primary t (call.only currency) _ _ _ _ ownMonth ownMonths
            alone
          rw [shiftsOf, shiftsOf, detected_shifts_primary month months aggregated, own,
            history_only, List.filter_filter]
          simp [named]

end Shifts

/-! The alerts of a currency. -/

section Alerts

variable {alerts made : List UserAlert} {p : UserAlert → Bool}

theorem insert_alert_key (alerts : List UserAlert) (alert : UserAlert) :
    alert.key ∈ (insertAlert alerts alert).map UserAlert.key := by
  unfold insertAlert
  split
  · assumption
  · simp

theorem insert_alert_keeps {alert : UserAlert} (inside : alert ∈ alerts) (new : UserAlert) :
    alert ∈ insertAlert alerts new := by
  unfold insertAlert
  split
  · exact inside
  · exact List.mem_append_left _ inside

theorem insert_all_keeps {alert : UserAlert} (inside : alert ∈ alerts) :
    alert ∈ made.foldl insertAlert alerts := by
  induction made generalizing alerts with
  | nil => exact inside
  | cons new made ih => exact ih (insert_alert_keeps inside new)

theorem insert_all_key {alert : UserAlert} (inside : alert ∈ made) :
    alert.key ∈ (made.foldl insertAlert alerts).map UserAlert.key := by
  induction made generalizing alerts with
  | nil => cases inside
  | cons new made ih =>
      rw [List.foldl_cons]
      rcases List.mem_cons.mp inside with rfl | later
      · obtain ⟨stored, member, same⟩ := List.mem_map.mp (insert_alert_key alerts alert)
        exact List.mem_map.mpr ⟨stored, insert_all_keeps member, same⟩
      · exact ih later

theorem mem_insert_all {alert : UserAlert} (inside : alert ∈ made.foldl insertAlert alerts) :
    alert ∈ alerts ∨ alert ∈ made ∧ alert.key ∉ alerts.map UserAlert.key := by
  induction made generalizing alerts with
  | nil => exact .inl inside
  | cons new made ih =>
      rcases ih inside with before | ⟨written, free⟩
      · unfold insertAlert at before
        split at before
        · exact .inl before
        · rename_i absent
          rcases List.mem_append.mp before with old | fresh
          · exact .inl old
          · rw [List.mem_singleton.mp fresh]
            exact .inr ⟨List.mem_cons_self, absent⟩
      · refine .inr ⟨List.mem_cons_of_mem _ written, fun taken => free ?_⟩
        obtain ⟨stored, member, same⟩ := List.mem_map.mp taken
        exact List.mem_map.mpr ⟨stored, insert_alert_keeps member new, same⟩

/-- Of alerts that are written together, a part of the table sees only its own, when keys that are
taken are taken within the part. -/
theorem filter_insert_all_iff (all : ∀ alert ∈ made, p alert = true) :
    (made.foldl insertAlert alerts).filter p = made.foldl insertAlert (alerts.filter p) ↔
      ∀ alert ∈ made, alert.key ∈ alerts.map UserAlert.key →
        alert.key ∈ (alerts.filter p).map UserAlert.key := by
  constructor
  · intro same alert inside taken
    have key := @insert_all_key (alerts.filter p) made alert inside
    rw [← same] at key
    obtain ⟨stored, member, equal⟩ := List.mem_map.mp key
    obtain ⟨stays, part⟩ := List.mem_filter.mp member
    rcases mem_insert_all stays with before | ⟨_, free⟩
    · exact List.mem_map.mpr ⟨stored, List.mem_filter.mpr ⟨before, part⟩, equal⟩
    · exact absurd (equal ▸ taken) free
  · intro covered
    induction made generalizing alerts with
    | nil => rfl
    | cons new made ih =>
        obtain ⟨part, others⟩ := List.forall_mem_cons.mp all
        obtain ⟨first, later⟩ := List.forall_mem_cons.mp covered
        rw [List.foldl_cons, List.foldl_cons]
        by_cases taken : new.key ∈ alerts.map UserAlert.key
        · rw [insertAlert, if_pos taken, insertAlert, if_pos (first taken)]
          exact ih others later
        · have free : new.key ∉ (alerts.filter p).map UserAlert.key := fun member =>
            taken (List.map_subset _ (List.filter_subset_self _) member)
          have appended : (alerts ++ [new]).filter p = alerts.filter p ++ [new] := by
            simp [part]
          rw [insertAlert, if_neg taken, insertAlert, if_neg free, ← appended]
          refine ih others fun alert inside member => ?_
          rw [appended, List.map_append]
          rw [List.map_append] at member
          rcases List.mem_append.mp member with before | fresh
          · exact List.mem_append_left _ (later alert inside before)
          · exact List.mem_append_right _ fresh

theorem filter_insert_none (none : ∀ alert ∈ made, p alert = false) :
    (made.foldl insertAlert alerts).filter p = alerts.filter p := by
  induction made generalizing alerts with
  | nil => rfl
  | cons new made ih =>
      obtain ⟨outside, others⟩ := List.forall_mem_cons.mp none
      rw [List.foldl_cons, ih others, insertAlert]
      split
      · rfl
      · simp [outside]

end Alerts

/-! One call, and then the whole run. -/

section Steps

variable {t} {currency : Text} {call : Call} {alerts : List UserAlert}

theorem run_eq (call : Call) (alerts : List UserAlert) :
    call.run t alerts = (writeShiftAlerts (alerts.filter call.kept) call.userId call.period
      ((detectedShifts t call).getD [])).getD (alerts.filter call.kept) := by
  unfold Call.run
  cases detectedShifts t call with
  | none => rfl
  | some shifts =>
      cases shifts with
      | nil => rfl
      | cons shift shifts => rfl

theorem detected_only (currency : Text) (call : Call) :
    (detectedShifts t (call.only currency)).getD [] = shiftsOf t currency (call.only currency) := by
  refine (List.filter_eq_self.mpr fun shift member => ?_).symm
  obtain ⟨current, month, first⟩ := Option.bind_eq_some_iff.mp (detected_currency member)
  have alone := read_month_only currency call.rows call.userId call.period
  rw [show readMonth (onlyRows currency call.rows) call.userId call.period = some current from
    month] at alone
  obtain ⟨whole, _, rfl⟩ := Option.map_eq_some_iff.mp alone.symm
  obtain ⟨row, inside, same⟩ := List.mem_map.mp (mem_sorted_set.mp (List.mem_of_head? first))
  rw [← same]
  exact (List.mem_filter.mp inside).2

theorem made_metadata {userId : UserId} {period : YearMonth} {shifts : List DetectedShift}
    {alert : UserAlert} (inside : alert ∈ alertsOf userId period shifts) :
    alert.metadata ∈ shifts := by
  obtain ⟨shift, member, made⟩ := List.mem_filterMap.mp inside
  obtain ⟨_, _, rfl⟩ := Option.map_eq_some_iff.mp made
  exact (List.mem_filter.mp member).1

theorem alerts_in_kept (currency : Text) (alerts : List UserAlert) (kept : UserAlert → Bool) :
    (alertsIn currency alerts).filter kept = alertsIn currency (alerts.filter kept) := by
  rw [alertsIn, alertsIn, List.filter_filter, List.filter_filter]
  congr 1
  funext alert
  exact Bool.and_comm _ _

theorem alerts_in_idem (currency : Text) (alerts : List UserAlert) :
    alertsIn currency (alertsIn currency alerts) = alertsIn currency alerts := by
  rw [alertsIn, alertsIn, List.filter_filter]
  simp

theorem write_long {userId : UserId} {period : YearMonth} {shifts : List DetectedShift}
    (long : ∃ alert ∈ alertsOf userId period shifts, subtypeLimit < alert.subtype.length) :
    writeShiftAlerts alerts userId period shifts = none :=
  if_pos (List.any_eq_true.mpr (by simpa using long))

theorem write_short {userId : UserId} {period : YearMonth} {shifts : List DetectedShift}
    (short : ¬ ∃ alert ∈ alertsOf userId period shifts, subtypeLimit < alert.subtype.length) :
    writeShiftAlerts alerts userId period shifts =
      some ((alertsOf userId period shifts).foldl insertAlert alerts) :=
  if_neg fun some => short (by simpa using List.any_eq_true.mp some)

/-- Shifts of other currencies leave the alerts of the currency as they are. -/
theorem write_other {userId : UserId} {period : YearMonth} {shifts : List DetectedShift}
    (other : ∀ shift ∈ shifts, shift.currency ≠ currency) :
    alertsIn currency ((writeShiftAlerts alerts userId period shifts).getD alerts) =
      alertsIn currency alerts := by
  by_cases long : ∃ alert ∈ alertsOf userId period shifts, subtypeLimit < alert.subtype.length
  · rw [write_long long, Option.getD_none]
  · rw [write_short long, Option.getD_some]
    exact filter_insert_none fun alert inside =>
      decide_eq_false (other _ (made_metadata inside))

theorem made_currency {userId : UserId} {period : YearMonth} {alert : UserAlert}
    (inside : alert ∈ alertsOf userId period (shiftsOf t currency call)) :
    decide (alert.metadata.currency = currency) = true :=
  (List.mem_filter.mp (made_metadata inside)).2

theorem own_run_eq (currency : Text) (call : Call) (alerts : List UserAlert) :
    (call.only currency).run t (alertsIn currency alerts) =
      (writeShiftAlerts (alertsIn currency (alerts.filter call.kept)) call.userId call.period
        (shiftsOf t currency (call.only currency))).getD
          (alertsIn currency (alerts.filter call.kept)) := by
  rw [run_eq, detected_only]
  change (writeShiftAlerts ((alertsIn currency alerts).filter call.kept) _ _ _).getD
    ((alertsIn currency alerts).filter call.kept) = _
  rw [alerts_in_kept]
  rfl

theorem own_run_currency :
    alertsIn currency ((call.only currency).run t (alertsIn currency alerts)) =
      (call.only currency).run t (alertsIn currency alerts) := by
  rw [own_run_eq]
  have idem := alerts_in_idem currency (alerts.filter call.kept)
  generalize alertsIn currency (alerts.filter call.kept) = own at idem
  by_cases long : ∃ alert ∈ alertsOf call.userId call.period
      (shiftsOf t currency (call.only currency)), subtypeLimit < alert.subtype.length
  · rw [write_long long]
    exact idem
  · rw [write_short long, Option.getD_some]
    have keys : ∀ alert ∈ alertsOf call.userId call.period
        (shiftsOf t currency (call.only currency)), alert.key ∈ own.map UserAlert.key →
          alert.key ∈ (alertsIn currency own).map UserAlert.key := by
      intro alert _ taken
      rw [idem]
      exact taken
    have separate := (filter_insert_all_iff fun _ => made_currency).mpr keys
    exact separate.trans (congrArg (List.foldl insertAlert · _) idem)

theorem call_independent_iff :
    shiftsOf t currency call = shiftsOf t currency (call.only currency) ∧
      alertsIn currency (call.run t alerts) =
        alertsIn currency ((call.only currency).run t (alertsIn currency alerts)) ↔
      CoveredCall t currency alerts call := by
  rw [own_run_currency, own_run_eq, CoveredCall, run_eq]
  by_cases first : firstCurrency call = some currency
  · have shifts := shifts_of_first (t := t) first
    rw [detected_eq_shifts_of first, ← shifts, and_iff_right rfl, and_iff_right (.inl first)]
    by_cases long : ∃ alert ∈ alertsOf call.userId call.period (shiftsOf t currency call),
        subtypeLimit < alert.subtype.length
    · rw [write_long long, write_long long, Option.getD_none, Option.getD_none]
      exact iff_of_true rfl (.inl long)
    · rw [write_short long, write_short long, Option.getD_some, Option.getD_some,
        or_iff_right long]
      exact filter_insert_all_iff fun _ => made_currency
  · have none : shiftsOf t currency call = [] := shifts_of_other first
    have other : ∀ shift ∈ (detectedShifts t call).getD [], shift.currency ≠ currency :=
      fun shift member same => first (same ▸ detected_currency member)
    rw [write_other other, none, or_iff_right first]
    constructor
    · rintro ⟨own, _⟩
      rw [← own]
      exact ⟨rfl, .inr fun _ inside => absurd inside List.not_mem_nil⟩
    · rintro ⟨own, _⟩
      rw [own]
      exact ⟨rfl, rfl⟩

/-- The alerts of a currency are those of its own rows alone, in every run, exactly when each call
on the way is covered. -/
theorem independent_iff_covered (t : ShiftThresholds) (currency : Text) (alerts : List UserAlert)
    (calls : List Call) :
    Independent t currency alerts (alertsIn currency alerts) calls ↔
      Covered t currency alerts calls := by
  induction calls generalizing alerts with
  | nil => exact Iff.rfl
  | cons call later ih =>
      rw [Independent, Covered, ← and_assoc, call_independent_iff]
      refine and_congr_right fun covered => ?_
      have same := (call_independent_iff.mpr covered).2
      rw [own_run_currency] at same
      rw [← same]
      exact ih (call.run t alerts)

end Steps

/-- An expense spike in dollars, in a month that has an amount in euros as well: the detector
looks at the euros only. -/
theorem not_currency_independent : ¬ ∀ (currency : Text) (alerts : List UserAlert)
    (calls : List Call), Independent {} currency alerts (alertsIn currency alerts) calls := by
  intro independent
  let user : UserId := ⟨1⟩
  let february : Date := ⟨2021, 2, 1, by decide, by decide, by decide⟩
  let march : Date := ⟨2021, 3, 1, by decide, by decide, by decide⟩
  let april : Date := ⟨2021, 4, 1, by decide, by decide, by decide⟩
  let rows : List StoredTransaction :=
    [⟨1, user, february, 100, text "USD", .EXPENSE, none⟩,
      ⟨2, user, march, 100, text "USD", .EXPENSE, none⟩,
      ⟨3, user, april, 900, text "USD", .EXPENSE, none⟩,
      ⟨4, user, april, 5, text "EUR", .EXPENSE, none⟩]
  let call : Call := ⟨user, (2021, 4), rows, fun _ => true⟩
  have shifts := (independent (text "USD") [] [call]).1
  have hidden : shiftsOf {} (text "USD") call = [] := by decide +kernel
  have shown : shiftsOf {} (text "USD") (call.only (text "USD")) ≠ [] := by decide +kernel
  exact shown (shifts.symm.trans hidden)

end Yomochi.Insights
