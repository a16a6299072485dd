import Yomochi.Foundation.IsoCalendar
import Yomochi.Foundation.IsoFormat
import Yomochi.Insights.BudgetReader
import Yomochi.Insights.ShiftDetector
import Yomochi.Insights.Workers

/-! The period of an insight, from the request to the stored snapshot. One number of the command is
the month of a monthly insight and the ISO week of a weekly one. -/

namespace Yomochi.Insights

open Foundation

/-! The texts that name the period. -/

def monthNames : List Text :=
  [[], text "January", text "February", text "March", text "April", text "May", text "June",
    text "July", text "August", text "September", text "October", text "November",
    text "December"]

def monthName (month : Int) : Option Text :=
  if 0 ≤ month then monthNames[month.toNat]?
  else if -13 ≤ month then monthNames[(month + 13).toNat]?
  else none

def intText (n : Int) : Text :=
  if n < 0 then '-'.toNat :: decimal n.natAbs else decimal n.toNat

inductive ChunkType
  | monthlySummary
  | behavioralShift
  deriving DecidableEq, Repr

/-- A chunk of the context: of its content, the sentence that names the month. -/
structure InsightContextChunk where
  opening : Text
  chunkType : ChunkType
  periodLabel : Text
  year : Int
  month : Int
  shifts : List DetectedShift
  deriving DecidableEq

def formatMonthlySummary : List MonthlyAggregation → Option Text
  | [] => some []
  | primary :: _ => (monthName primary.month).map fun name =>
      text "Monthly financial summary: " ++ name ++ text " " ++ intText primary.year ++ text "."

def formatShiftText (current : MonthlyAggregation) : List DetectedShift → Option Text
  | [] => some []
  | _ => (monthName current.month).map fun name =>
      text "Behavioral shift detected in " ++ name ++ text " " ++ intText current.year ++ text ":"

/-! The request. -/

inductive RequestError
  | storage
  | insufficientTransactions (count : Nat) (minimum : Int)
  | valueError (error : ValueError)
  deriving DecidableEq

def isInteger (n : Int) : Bool := decide (-2147483648 ≤ n) && decide (n ≤ 2147483647)

/-- `RequestInsightUseCase.__call__` behind the quota check. -/
def requestInsight (minimum : Int) (rows : List StoredTransaction) (command : RequestInsightCommand)
    (id : InsightId) (now : Timestamp) : Except RequestError Insight :=
  if isInteger command.periodYear && isInteger command.periodMonth then
    let count := countForPeriod rows command.userId (command.periodYear, command.periodMonth)
    if (count : Int) < minimum then .error (.insufficientTransactions count minimum)
    else (newInsight id command now).markQueued.mapError .valueError
  else .error .storage

/-! The processing. -/

structure ClaimedInsight where
  period : Period
  periodYear : Int
  periodMonth : Int
  deriving DecidableEq

def claimed (insight : Insight) : ClaimedInsight :=
  ⟨insight.period, insight.periodYear, insight.periodMonth⟩

def ClaimedInsight.month (claimed : ClaimedInsight) : YearMonth :=
  (claimed.periodYear, claimed.periodMonth)

structure AssembledContext where
  chunks : List InsightContextChunk
  quality : ContextQuality
  deriving DecidableEq

/-- The shifts of the first currency of the month. -/
def primaryShifts (t : ShiftThresholds) (history : List MonthlyAggregation) :
    List MonthlyAggregation → List DetectedShift
  | [] => []
  | primary :: _ => detect t primary
      (history.filter fun history => history.currency = primary.currency)

def shiftChunks (period : YearMonth) (label : Text) (shifts : List DetectedShift) :
    List MonthlyAggregation → Option (List InsightContextChunk)
  | [] => some []
  | primary :: _ =>
      if shifts = [] then some []
      else (formatShiftText primary shifts).map fun opening =>
        [⟨opening, .behavioralShift, label, period.1, period.2, shifts⟩]

/-- `build_insight_context`, on what the table holds at the two reads; `none` is an exception. -/
def buildInsightContext (t : ShiftThresholds) (read earlier : List StoredTransaction)
    (userId : UserId) (period : YearMonth) : Option AssembledContext := do
  let rows ← readMonth read userId period
  if rows = [] then some ⟨[], .NONE⟩
  else
    let history ← readHistoryMonths earlier userId period nHistoryMonths
    let currentAggs := aggregateMonth period rows
    let historyAggs := historyAggregations history
    let label := intText period.1 ++ text "-" ++ padded 2 period.2.toNat
    let summary ← formatMonthlySummary currentAggs
    let shifts := primaryShifts t historyAggs currentAggs
    let shiftChunk ← shiftChunks period label shifts currentAggs
    some ⟨⟨summary, .monthlySummary, label, period.1, period.2, []⟩ :: shiftChunk,
      if shifts = [] then .PARTIAL else .FULL⟩

def requestLabel (claimed : ClaimedInsight) : Option Text :=
  match claimed.period with
  | .MONTHLY => (monthName claimed.periodMonth).map fun name =>
      name ++ text " " ++ intText claimed.periodYear
  | .WEEKLY => some (text "Week " ++ intText claimed.periodMonth ++ text ", " ++
      intText claimed.periodYear)

/-- What the table holds at the reads of one attempt, and whether the AI client answers and the
result is stored. -/
structure Attempt where
  read : List StoredTransaction
  earlier : List StoredTransaction
  snapshot : List StoredTransaction
  answers : Bool

/-- What an attempt has come to; `stored` are the rows that make the stored snapshot. -/
structure Processed where
  quality : ContextQuality
  label : Option Text
  stored : Option (List StoredTransaction)
  deriving DecidableEq

/-- `ProcessInsightUseCase.__call__` behind the claim; `none` is an exception that the period
causes. -/
def Attempt.process (t : ShiftThresholds) (userId : UserId) (claimed : ClaimedInsight)
    (attempt : Attempt) : Option Processed := do
  let context ← buildInsightContext t attempt.read attempt.earlier userId claimed.month
  if context.quality = .NONE then some ⟨.NONE, none, none⟩
  else
    let label ← requestLabel claimed
    if attempt.answers then
      let rows ← readMonth attempt.snapshot userId claimed.month
      some ⟨context.quality, some label, some rows⟩
    else some ⟨context.quality, some label, none⟩

/-! The period that was asked for. -/

def inPeriod : Period → YearMonth → Date → Bool
  | .MONTHLY, month, date => inMonth month date
  | .WEEKLY, week, date => decide (date.isocalendar = week)

def periodRows (rows : List StoredTransaction) (userId : UserId) (claimed : ClaimedInsight) :
    List StoredTransaction :=
  rows.filter fun row =>
    decide (row.userId = userId) && inPeriod claimed.period claimed.month row.date

/-- An attempt reads the rows of the period, for the context and for the snapshot. -/
def Attempt.Exact (t : ShiftThresholds) (userId : UserId) (claimed : ClaimedInsight)
    (attempt : Attempt) : Prop :=
  readMonth attempt.read userId claimed.month = some (periodRows attempt.read userId claimed) ∧
  ∃ processed, attempt.process t userId claimed = some processed ∧
    ∀ rows, processed.stored = some rows → rows = periodRows attempt.snapshot userId claimed

structure InsightRun where
  minimum : Int
  command : RequestInsightCommand
  id : InsightId
  now : Timestamp
  requested : List StoredTransaction
  attempts : List Attempt

namespace InsightRun

variable (run : InsightRun)

def asked : ClaimedInsight :=
  ⟨run.command.period, run.command.periodYear, run.command.periodMonth⟩

/-- The transactions that the request counts are those of the period. -/
def CountsPeriod : Prop :=
  countedRows run.requested run.command.userId run.asked.month =
    periodRows run.requested run.command.userId run.asked

/-- Once the command is accepted, all that is counted or read is of the period, and nothing is
raised because of it. -/
def Exact (t : ShiftThresholds) : Prop :=
  ∀ insight, requestInsight run.minimum run.requested run.command run.id run.now = .ok insight →
    countedRows run.requested run.command.userId run.asked.month =
      periodRows run.requested run.command.userId run.asked ∧
    ∀ attempt ∈ run.attempts, attempt.Exact t insight.userId (claimed insight)

end InsightRun

/-- The user's transactions of the month with the number are those of the week with the number. Of
week 1 some days are in January; no other month has a day of the week. -/
def SameDays (rows : List StoredTransaction) (userId : UserId) (claimed : ClaimedInsight) : Prop :=
  claimed.period = .WEEKLY → ∀ row ∈ rows, row.userId = userId →
    if claimed.periodMonth = 1 then
      (inMonth claimed.month row.date = true ↔ row.date.isocalendar = claimed.month)
    else inMonth claimed.month row.date = false ∧ row.date.isocalendar ≠ claimed.month

def RealMonth (month : YearMonth) : Prop :=
  1 ≤ month.1 ∧ month.1 ≤ maxYear ∧ 1 ≤ month.2 ∧ month.2 ≤ 12

/-- The months before it begin before the year 1. -/
def WithoutHistory (month : YearMonth) : Prop := month.1 = 1 ∧ month.2 ≤ nHistoryMonths

def Attempt.Covered (userId : UserId) (claimed : ClaimedInsight) (attempt : Attempt) : Prop :=
  RealMonth claimed.month ∧ SameDays attempt.read userId claimed ∧
  ((∃ row ∈ attempt.read, row.userId = userId ∧ inMonth claimed.month row.date = true) →
    ¬ WithoutHistory claimed.month ∧
    (attempt.answers = true → SameDays attempt.snapshot userId claimed))

def InsightRun.Covered (run : InsightRun) : Prop :=
  isInteger run.command.periodYear = true → isInteger run.command.periodMonth = true →
  run.minimum ≤ countForPeriod run.requested run.command.userId run.asked.month →
  SameDays run.requested run.command.userId run.asked ∧
  ∀ attempt ∈ run.attempts, attempt.Covered run.command.userId run.asked

/-! A month is read as its rows. -/

section Reads

variable {rows : List StoredTransaction} {userId : UserId} {month : YearMonth}

theorem first_day_of_real (real : RealMonth month) :
    ∃ first : Date, Date.ofNumbers month.1 month.2 1 = some first := by
  obtain ⟨early, late, january, december⟩ := real
  have days := daysInMonth_bounds month.1.toNat month.2.toNat
  exact Date.ofNumbers_of_valid ⟨early, late⟩ ⟨january, december⟩ (by omega)

theorem last_day_of_real (real : RealMonth month) : ∃ last : Date, lastDay month = some last := by
  obtain ⟨early, late, january, december⟩ := real
  have days := daysInMonth_bounds month.1.toNat month.2.toNat
  exact Date.ofNumbers_of_valid ⟨early, late⟩ ⟨january, december⟩ (by omega)

theorem real_of_day {day : Int} {date : Date}
    (made : Date.ofNumbers month.1 month.2 day = some date) : RealMonth month := by
  obtain ⟨year, number, _⟩ := Date.ofNumbers_eq_some made
  have years := date.yearBounds
  have months := date.monthBounds
  unfold RealMonth
  omega

theorem between_iff_in_month {first last : Date}
    (starts : Date.ofNumbers month.1 month.2 1 = some first) (ends : lastDay month = some last)
    (date : Date) : first ≤ date ∧ date ≤ last ↔ inMonth month date = true := by
  obtain ⟨firstYear, firstMonth, firstOfMonth⟩ := Date.ofNumbers_eq_some starts
  obtain ⟨lastYear, lastMonth, lastOfMonth⟩ := Date.ofNumbers_eq_some ends
  have days := daysInMonth_bounds month.1.toNat month.2.toNat
  have day := date.dayBounds
  have short := date.day_le
  simp only [Date.le_def, Date.stamp, inMonth, Bool.and_eq_true, decide_eq_true_eq]
  constructor
  · rintro ⟨after, before⟩
    have years := date.yearBounds
    have months := date.monthBounds
    have monthsFirst := first.monthBounds
    omega
  · rintro ⟨year, number⟩
    have sameYear : date.year = month.1.toNat := by omega
    have sameMonth : date.month = month.2.toNat := by omega
    rw [sameYear, sameMonth] at day
    omega

theorem fetch_between {first last : Date}
    (starts : Date.ofNumbers month.1 month.2 1 = some first) (ends : lastDay month = some last) :
    fetch rows userId first last = countedRows rows userId month := by
  refine List.filter_congr fun row _ => ?_
  have same := between_iff_in_month starts ends row.date
  rw [Bool.eq_iff_iff]
  simp only [Bool.and_eq_true, decide_eq_true_eq]
  exact and_congr_right fun _ => same

theorem read_real (real : RealMonth month) :
    readMonth rows userId month = some (countedRows rows userId month) := by
  obtain ⟨first, starts⟩ := first_day_of_real real
  obtain ⟨last, ends⟩ := last_day_of_real real
  unfold readMonth
  rw [starts, ends, Option.bind_eq_bind, Option.bind_some, Option.bind_some,
    fetch_between starts ends]

theorem read_unreal (unreal : ¬ RealMonth month) : readMonth rows userId month = none := by
  cases starts : Date.ofNumbers month.1 month.2 1 with
  | none =>
      unfold readMonth
      rw [starts]
      rfl
  | some first => exact absurd (real_of_day starts) unreal

theorem history_of_ends {n : Nat} {earliest latest : YearMonth}
    (last : (monthsBefore n month).getLast? = some earliest)
    (head : (monthsBefore n month).head? = some latest) :
    (∃ history, readHistoryMonths rows userId month n = some history) ↔
      RealMonth earliest ∧ RealMonth latest := by
  unfold readHistoryMonths
  simp only [last, head]
  constructor
  · rintro ⟨history, made⟩
    obtain ⟨first, starts, rest⟩ := Option.bind_eq_some_iff.mp made
    obtain ⟨end_, ends, _⟩ := Option.bind_eq_some_iff.mp rest
    exact ⟨real_of_day starts, real_of_day ends⟩
  · rintro ⟨realFirst, realLast⟩
    obtain ⟨first, starts⟩ := first_day_of_real realFirst
    obtain ⟨end_, ends⟩ := last_day_of_real realLast
    rw [starts, ends]
    exact ⟨_, rfl⟩

/-- The history can be read unless it begins before the year 1. -/
theorem history_iff (real : RealMonth month) :
    (∃ history, readHistoryMonths rows userId month nHistoryMonths = some history) ↔
      ¬ WithoutHistory month := by
  obtain ⟨year, number⟩ := month
  unfold RealMonth at real
  dsimp only at real
  by_cases january : number = 1
  · have last : (monthsBefore nHistoryMonths (year, number)).getLast? = some (year - 1, 10) := by
      simp [nHistoryMonths, monthsBefore, january]
    have head : (monthsBefore nHistoryMonths (year, number)).head? = some (year - 1, 12) := by
      simp [nHistoryMonths, monthsBefore, january]
    rw [history_of_ends last head]
    simp only [RealMonth, WithoutHistory, nHistoryMonths]
    omega
  · have head : (monthsBefore nHistoryMonths (year, number)).head? = some (year, number - 1) := by
      simp [nHistoryMonths, monthsBefore, show ¬ number - 1 = 0 by omega]
    by_cases february : number = 2
    · have last : (monthsBefore nHistoryMonths (year, number)).getLast? = some (year - 1, 11) := by
        simp [nHistoryMonths, monthsBefore, february]
      rw [history_of_ends last head]
      simp only [RealMonth, WithoutHistory, nHistoryMonths]
      omega
    · by_cases march : number = 3
      · have last : (monthsBefore nHistoryMonths (year, number)).getLast? =
            some (year - 1, 12) := by
          simp [nHistoryMonths, monthsBefore, march]
        rw [history_of_ends last head]
        simp only [RealMonth, WithoutHistory, nHistoryMonths]
        omega
      · have last : (monthsBefore nHistoryMonths (year, number)).getLast? =
            some (year, number - 1 - 1 - 1) := by
          simp [nHistoryMonths, monthsBefore, show ¬ number - 1 = 0 by omega,
            show ¬ number - 1 - 1 = 0 by omega, show ¬ number - 1 - 1 - 1 = 0 by omega]
        rw [history_of_ends last head]
        simp only [RealMonth, WithoutHistory, nHistoryMonths]
        omega

end Reads

/-! Nothing else is raised. -/

section Texts

variable {month : YearMonth} {rows : List TransactionRow}

theorem month_name_of_real (real : RealMonth month) :
    ∃ name, monthName month.2 = some name := by
  obtain ⟨_, _, january, december⟩ := real
  have inside : month.2.toNat < monthNames.length := by
    change month.2.toNat < 13
    omega
  unfold monthName
  rw [if_pos (by omega), List.getElem?_eq_getElem inside]
  exact ⟨_, rfl⟩

theorem aggregate_month_of {year number : Int} {aggregation : MonthlyAggregation}
    (inside : aggregation ∈ aggregate year number rows) : aggregation.month = number := by
  obtain ⟨currency, _, rfl⟩ := List.mem_map.mp inside
  rfl

theorem summary_of_real {aggregations : List MonthlyAggregation} (real : RealMonth month)
    (all : ∀ aggregation ∈ aggregations, aggregation.month = month.2) :
    ∃ summary, formatMonthlySummary aggregations = some summary := by
  cases aggregations with
  | nil => exact ⟨_, rfl⟩
  | cons primary others =>
      obtain ⟨name, named⟩ := month_name_of_real real
      rw [← all primary List.mem_cons_self] at named
      simp only [formatMonthlySummary, named]
      exact ⟨_, rfl⟩

theorem shift_chunks_of_real {aggregations : List MonthlyAggregation} (real : RealMonth month)
    (all : ∀ aggregation ∈ aggregations, aggregation.month = month.2) (label : Text)
    (shifts : List DetectedShift) :
    ∃ chunks, shiftChunks month label shifts aggregations = some chunks := by
  cases aggregations with
  | nil => exact ⟨_, rfl⟩
  | cons primary others =>
      cases shifts with
      | nil => exact ⟨_, rfl⟩
      | cons shift shifts =>
          obtain ⟨name, named⟩ := month_name_of_real real
          rw [← all primary List.mem_cons_self] at named
          simp only [shiftChunks, formatShiftText, named, if_neg (List.cons_ne_nil _ _)]
          exact ⟨_, rfl⟩

theorem label_of_real {claimed : ClaimedInsight} (real : RealMonth claimed.month) :
    ∃ label, requestLabel claimed = some label := by
  unfold requestLabel
  split
  · obtain ⟨name, named⟩ := month_name_of_real real
    change monthName claimed.periodMonth = some name at named
    rw [named]
    exact ⟨_, rfl⟩
  · exact ⟨_, rfl⟩

end Texts

section Context

variable {t : ShiftThresholds} {read earlier : List StoredTransaction} {userId : UserId}
  {month : YearMonth}

theorem context_empty (real : RealMonth month) (empty : countedRows read userId month = []) :
    buildInsightContext t read earlier userId month = some ⟨[], .NONE⟩ := by
  unfold buildInsightContext
  rw [read_real real, Option.bind_eq_bind, Option.bind_some, if_pos empty]

theorem context_of_history (real : RealMonth month) (nonempty : countedRows read userId month ≠ [])
    {history : List (YearMonth × List StoredTransaction)}
    (months : readHistoryMonths earlier userId month nHistoryMonths = some history) :
    ∃ context, buildInsightContext t read earlier userId month = some context ∧
      context.quality ≠ .NONE := by
  have all : ∀ aggregation ∈ aggregateMonth month (countedRows read userId month),
      aggregation.month = month.2 := fun _ inside => aggregate_month_of inside
  obtain ⟨summary, made⟩ := summary_of_real real all
  obtain ⟨chunks, built⟩ := shift_chunks_of_real real all
    (intText month.1 ++ text "-" ++ padded 2 month.2.toNat)
    (primaryShifts t (historyAggregations history)
      (aggregateMonth month (countedRows read userId month)))
  simp only [buildInsightContext, read_real real, Option.bind_eq_bind, Option.bind_some,
    if_neg nonempty, months, made, built]
  refine ⟨_, rfl, ?_⟩
  dsimp only
  split <;> decide

theorem context_without_history (real : RealMonth month)
    (nonempty : countedRows read userId month ≠ [])
    (none : readHistoryMonths earlier userId month nHistoryMonths = none) :
    buildInsightContext t read earlier userId month = Option.none := by
  unfold buildInsightContext
  rw [read_real real, Option.bind_eq_bind, Option.bind_some, if_neg nonempty, none]
  rfl

end Context

/-! The rows of the period. -/

section Attempts

variable {t : ShiftThresholds} {rows : List StoredTransaction} {userId : UserId}
  {claimed : ClaimedInsight} {attempt : Attempt}

/-- A day that is in the month and in the week of one number is in January. -/
theorem january_of_both {month : YearMonth} {date : Date} (inside : inMonth month date = true)
    (week : date.isocalendar = month) : month.2 = 1 := by
  obtain ⟨year, number⟩ := month
  simp only [inMonth, Bool.and_eq_true, decide_eq_true_eq] at inside
  obtain ⟨sameYear, sameNumber⟩ := inside
  rw [← sameYear, ← sameNumber] at week
  have first := Date.january_of_same_number week
  dsimp only
  omega

theorem counted_eq_period_iff :
    countedRows rows userId claimed.month = periodRows rows userId claimed ↔
      SameDays rows userId claimed := by
  have pointwise : countedRows rows userId claimed.month = periodRows rows userId claimed ↔
      ∀ row ∈ rows, row.userId = userId →
        inMonth claimed.month row.date = inPeriod claimed.period claimed.month row.date := by
    constructor
    · intro same row inside own
      have member : row ∈ countedRows rows userId claimed.month ↔
          row ∈ periodRows rows userId claimed := by rw [same]
      simpa [countedRows, periodRows, inside, own, ← Bool.eq_iff_iff] using member
    · intro same
      refine List.filter_congr fun row inside => ?_
      by_cases own : row.userId = userId
      · rw [same row inside own]
      · rw [decide_eq_false own, Bool.false_and, Bool.false_and]
  rw [pointwise, SameDays]
  cases period : claimed.period with
  | MONTHLY => exact iff_of_true (fun _ _ _ => rfl) nofun
  | WEEKLY =>
      rw [forall_prop_of_true rfl]
      refine forall_congr' fun row => imp_congr_right fun _ => imp_congr_right fun _ => ?_
      rw [inPeriod, Bool.eq_iff_iff, decide_eq_true_eq]
      by_cases first : claimed.periodMonth = 1
      · rw [if_pos first]
      · rw [if_neg first]
        constructor
        · intro same
          have outside : inMonth claimed.month row.date ≠ true := fun inside =>
            first (january_of_both inside (same.mp inside))
          exact ⟨Bool.eq_false_iff.mpr outside, fun week => outside (same.mpr week)⟩
        · rintro ⟨outside, other⟩
          rw [outside]
          exact iff_of_false nofun other

theorem counted_ne_nil_iff {month : YearMonth} : countedRows rows userId month ≠ [] ↔
    ∃ row ∈ rows, row.userId = userId ∧ inMonth month row.date = true := by
  rw [countedRows, ne_eq, List.filter_eq_nil_iff]
  simp

theorem process_empty (real : RealMonth claimed.month)
    (empty : countedRows attempt.read userId claimed.month = []) :
    attempt.process t userId claimed = some ⟨.NONE, none, none⟩ := by
  unfold Attempt.process
  rw [context_empty real empty]
  rfl

theorem process_of_history (real : RealMonth claimed.month)
    (nonempty : countedRows attempt.read userId claimed.month ≠ [])
    {history : List (YearMonth × List StoredTransaction)}
    (months : readHistoryMonths attempt.earlier userId claimed.month nHistoryMonths =
      some history) :
    ∃ processed, attempt.process t userId claimed = some processed ∧
      processed.stored = if attempt.answers then
        some (countedRows attempt.snapshot userId claimed.month) else none := by
  obtain ⟨context, built, quality⟩ := @context_of_history t _ _ _ _ real nonempty _ months
  obtain ⟨label, named⟩ := label_of_real real
  simp only [Attempt.process, built, Option.bind_eq_bind, Option.bind_some, if_neg quality, named,
    read_real real]
  split
  · exact ⟨_, rfl, rfl⟩
  · exact ⟨_, rfl, rfl⟩

theorem process_without_history (real : RealMonth claimed.month)
    (nonempty : countedRows attempt.read userId claimed.month ≠ [])
    (none : readHistoryMonths attempt.earlier userId claimed.month nHistoryMonths = none) :
    attempt.process t userId claimed = Option.none := by
  unfold Attempt.process
  rw [context_without_history real nonempty none]
  rfl

theorem attempt_exact_iff :
    attempt.Exact t userId claimed ↔ attempt.Covered userId claimed := by
  by_cases real : RealMonth claimed.month
  · rw [Attempt.Exact, Attempt.Covered, and_iff_right real, read_real real, Option.some_inj,
      counted_eq_period_iff, ← counted_ne_nil_iff]
    refine and_congr_right fun _ => ?_
    by_cases nonempty : countedRows attempt.read userId claimed.month ≠ []
    · rw [forall_prop_of_true nonempty, ← @history_iff attempt.earlier userId _ real]
      cases months : readHistoryMonths attempt.earlier userId claimed.month nHistoryMonths with
      | none =>
          rw [process_without_history real nonempty months]
          exact iff_of_false nofun nofun
      | some history =>
          obtain ⟨processed, made, stored⟩ :=
            @process_of_history t _ _ _ real nonempty _ months
          simp only [made, Option.some_inj, exists_eq_left', stored]
          rw [← counted_eq_period_iff]
          by_cases answers : attempt.answers = true
          · simp [answers]
          · simp [answers]
    · rw [process_empty real (not_not.mp nonempty)]
      refine iff_of_true ⟨_, rfl, nofun⟩ fun some => absurd some nonempty
  · rw [Attempt.Exact, read_unreal real]
    exact iff_of_false (fun exact => nomatch exact.1) fun covered => real covered.1

end Attempts

/-! The requests. -/

theorem request_eq_ok {minimum : Int} {rows : List StoredTransaction}
    {command : RequestInsightCommand} {id : InsightId} {now : Timestamp} {insight : Insight} :
    requestInsight minimum rows command id now = .ok insight ↔
      (isInteger command.periodYear = true ∧ isInteger command.periodMonth = true) ∧
      minimum ≤ countForPeriod rows command.userId (command.periodYear, command.periodMonth) ∧
      insight = { newInsight id command now with status := .QUEUED } := by
  unfold requestInsight
  by_cases fits : (isInteger command.periodYear && isInteger command.periodMonth) = true
  · rw [if_pos fits, and_iff_right (Bool.and_eq_true_iff.mp fits)]
    dsimp only
    split
    · rename_i few
      exact iff_of_false nofun fun accepted => by omega
    · rename_i enough
      rw [and_iff_right (by omega)]
      constructor
      · rintro ⟨⟩
        rfl
      · rintro rfl
        rfl
  · rw [if_neg fits]
    refine iff_of_false nofun fun accepted => fits (Bool.and_eq_true_iff.mpr accepted.1)

/-- What a run counts, reads and stores is of its period exactly when it is covered. -/
theorem period_exact_iff (t : ShiftThresholds) (run : InsightRun) :
    (run.CountsPeriod ↔ SameDays run.requested run.command.userId run.asked) ∧
      (run.Exact t ↔ run.Covered) := by
  refine ⟨counted_eq_period_iff, ?_⟩
  unfold InsightRun.Exact InsightRun.Covered
  constructor
  · intro exact year month enough
    obtain ⟨counted, attempts⟩ := exact _ (request_eq_ok.mpr ⟨⟨year, month⟩, enough, rfl⟩)
    exact ⟨counted_eq_period_iff.mp counted,
      fun attempt inside => attempt_exact_iff.mp (attempts attempt inside)⟩
  · intro covered insight accepted
    obtain ⟨⟨year, month⟩, enough, rfl⟩ := request_eq_ok.mp accepted
    obtain ⟨same, attempts⟩ := covered year month enough
    exact ⟨counted_eq_period_iff.mpr same,
      fun attempt inside => attempt_exact_iff.mpr (attempts attempt inside)⟩

/-- Week 6, asked for by a user whose transactions are all of June. -/
theorem not_period_exact : ¬ ∀ run : InsightRun, run.Exact {} := by
  intro exact
  let june : Date := ⟨2022, 6, 10, by decide, by decide, by decide⟩
  let rows : List StoredTransaction :=
    [⟨1, ⟨1⟩, june, 10, text "EUR", .EXPENSE, none⟩, ⟨2, ⟨1⟩, june, 20, text "EUR", .EXPENSE, none⟩,
      ⟨3, ⟨1⟩, june, 30, text "EUR", .EXPENSE, none⟩]
  let run : InsightRun := ⟨3, ⟨⟨1⟩, .WEEKLY, 2022, 6⟩, ⟨1⟩, 0, rows, []⟩
  have counted := (exact run _ (request_eq_ok.mpr ⟨⟨rfl, rfl⟩, by decide, rfl⟩)).1
  exact absurd (congrArg List.length counted) (by decide)

end Yomochi.Insights
