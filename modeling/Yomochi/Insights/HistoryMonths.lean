import Yomochi.Insights.Periods

/-! The history of a month is read at once, from the first day of the earliest month to the last
day of the latest one. Cut into its months, it is what the months are read as one by one. -/

namespace Yomochi.Insights

open Foundation

def IsMonth (period : YearMonth) : Prop := 1 ≤ period.2 ∧ period.2 ≤ 12

def monthNumber (period : YearMonth) : Int := period.1 * 12 + (period.2 - 1)

def Precedes (n : Nat) (before period : YearMonth) : Prop :=
  IsMonth period ∧ monthNumber before - n ≤ monthNumber period ∧
    monthNumber period < monthNumber before

def Representable (n : Nat) (before : YearMonth) : Prop :=
  IsMonth before ∧ monthNumber (1, 1) ≤ monthNumber before - n ∧
    monthNumber before - 1 ≤ monthNumber (maxYear, 12)

theorem month_number_injective {first second : YearMonth} (one : IsMonth first)
    (two : IsMonth second) (same : monthNumber first = monthNumber second) : first = second := by
  unfold IsMonth at one two
  unfold monthNumber at same
  apply Prod.ext
  · omega
  · omega

theorem real_of_month_number {period : YearMonth} (month : IsMonth period)
    (early : monthNumber (1, 1) ≤ monthNumber period)
    (late : monthNumber period ≤ monthNumber (maxYear, 12)) : RealMonth period := by
  obtain ⟨january, december⟩ := month
  simp only [monthNumber] at early late
  simp only [RealMonth]
  omega

/-! The walk backwards. -/

section Walk

variable {n : Nat} {before : YearMonth}

theorem months_before_succ (month : IsMonth before) : ∃ latest, IsMonth latest ∧
    monthNumber latest = monthNumber before - 1 ∧
    monthsBefore (n + 1) before = latest :: monthsBefore n latest := by
  obtain ⟨year, number⟩ := before
  refine ⟨_, ?_, ?_, rfl⟩
  · split <;> simp only [IsMonth] at month ⊢ <;> omega
  · split <;> simp only [monthNumber] <;> omega

theorem mem_months_before (month : IsMonth before) (period : YearMonth) :
    period ∈ monthsBefore n before ↔ Precedes n before period := by
  induction n generalizing before with
  | zero =>
      simp only [monthsBefore, List.not_mem_nil, Precedes, false_iff]
      omega
  | succ n ih =>
      obtain ⟨latest, real, number, walk⟩ := months_before_succ (n := n) month
      rw [walk, List.mem_cons, ih real, Precedes, Precedes]
      constructor
      · intro listed
        rcases listed with same | earlier
        · rw [same]
          exact ⟨real, by omega, by omega⟩
        · obtain ⟨inside, early, late⟩ := earlier
          exact ⟨inside, by omega, by omega⟩
      · intro preceding
        obtain ⟨inside, early, late⟩ := preceding
        by_cases last : monthNumber period = monthNumber latest
        · exact .inl (month_number_injective inside real last)
        · exact .inr ⟨inside, by omega, by omega⟩

theorem months_before_nodup (month : IsMonth before) : (monthsBefore n before).Nodup := by
  induction n generalizing before with
  | zero => exact List.nodup_nil
  | succ n ih =>
      obtain ⟨latest, real, number, walk⟩ := months_before_succ (n := n) month
      rw [walk]
      apply List.nodup_cons.mpr
      constructor
      · intro repeated
        obtain ⟨_, _, late⟩ := (mem_months_before real latest).mp repeated
        exact lt_irrefl _ late
      · exact ih real

theorem months_before_length : (monthsBefore n before).length = n := by
  induction n generalizing before with
  | zero => rfl
  | succ n ih => rw [monthsBefore, List.length_cons, ih]

theorem months_before_ends (month : IsMonth before) : ∃ earliest latest,
    (monthsBefore (n + 1) before).getLast? = some earliest ∧
    (monthsBefore (n + 1) before).head? = some latest ∧ IsMonth earliest ∧ IsMonth latest ∧
    monthNumber earliest = monthNumber before - (n + 1) ∧
    monthNumber latest = monthNumber before - 1 := by
  induction n generalizing before with
  | zero =>
      obtain ⟨latest, real, number, walk⟩ := months_before_succ (n := 0) month
      rw [walk]
      exact ⟨latest, latest, rfl, rfl, real, real, by omega, number⟩
  | succ n ih =>
      obtain ⟨latest, real, number, walk⟩ := months_before_succ (n := n + 1) month
      obtain ⟨earliest, _, last, _, start, _, first, _⟩ := ih real
      rw [walk]
      refine ⟨earliest, latest, ?_, rfl, start, real, ?_, number⟩
      · rw [List.getLast?_cons, last]
        rfl
      · push_cast
        omega

end Walk

/-! The window of days. -/

section Window

variable {rows : List StoredTransaction} {userId : UserId}

theorem in_window {earliest latest period : YearMonth} {first last date : Date}
    (starts : Date.ofNumbers earliest.1 earliest.2 1 = some first)
    (ends : lastDay latest = some last)
    (early : monthNumber earliest ≤ monthNumber period)
    (late : monthNumber period ≤ monthNumber latest) (inside : inMonth period date = true) :
    first ≤ date ∧ date ≤ last := by
  obtain ⟨firstYear, firstMonth, firstOfMonth⟩ := Date.ofNumbers_eq_some starts
  obtain ⟨lastYear, lastMonth, lastOfMonth⟩ := Date.ofNumbers_eq_some ends
  simp only [inMonth, Bool.and_eq_true, decide_eq_true_eq] at inside
  obtain ⟨year, number⟩ := inside
  unfold monthNumber at early late
  have days := date.dayBounds
  have short := date.day_le
  simp only [Date.le_def, Date.stamp]
  constructor
  · omega
  · have lastDays := last.dayBounds
    by_cases same : date.year = last.year ∧ date.month = last.month
    · rw [same.1, same.2] at days
      have whole : last.day = daysInMonth last.year last.month := by
        have sameYear : last.year = latest.1.toNat := by omega
        have sameMonth : last.month = latest.2.toNat := by omega
        rw [sameYear, sameMonth]
        omega
      omega
    · have months := date.monthBounds
      have monthsLast := last.monthBounds
      omega

/-- Of what is read between two months, the rows of a month between them are all its rows. -/
theorem filter_window {earliest latest period : YearMonth} {first last : Date}
    (starts : Date.ofNumbers earliest.1 earliest.2 1 = some first)
    (ends : lastDay latest = some last)
    (early : monthNumber earliest ≤ monthNumber period)
    (late : monthNumber period ≤ monthNumber latest) :
    ((fetch rows userId first last).filter fun row => inMonth period row.date) =
      countedRows rows userId period := by
  unfold fetch countedRows
  rw [List.filter_filter]
  apply List.filter_congr
  intro row _
  by_cases inside : inMonth period row.date = true
  · have between := in_window starts ends early late inside
    simp [inside, between]
  · simp [inside]

theorem real_of_precedes {n : Nat} {before period : YearMonth} (dates : Representable n before)
    (inside : Precedes n before period) : RealMonth period := by
  obtain ⟨month, early, late⟩ := dates
  obtain ⟨real, oldest, newest⟩ := inside
  apply real_of_month_number real
  · omega
  · omega

theorem read_history {n : Nat} {before : YearMonth} (dates : Representable n before) :
    readHistoryMonths rows userId before n = some ((monthsBefore n before).map fun period =>
      (period, countedRows rows userId period)) := by
  cases n with
  | zero => rfl
  | succ n =>
      have month := dates.1
      obtain ⟨earliest, latest, last, head, start, end_, oldest, newest⟩ :=
        months_before_ends (n := n) month
      have realFirst : RealMonth earliest :=
        real_of_precedes dates ⟨start, by push_cast; omega, by omega⟩
      have realLast : RealMonth latest :=
        real_of_precedes dates ⟨end_, by push_cast; omega, by omega⟩
      obtain ⟨firstDay, starts⟩ := first_day_of_real realFirst
      obtain ⟨finalDay, ends⟩ := last_day_of_real realLast
      unfold readHistoryMonths
      simp only [last, head, starts, ends]
      apply congrArg some
      apply List.map_congr_left
      intro period inside
      obtain ⟨_, early, late⟩ := (mem_months_before month period).mp inside
      push_cast at early
      rw [filter_window starts ends (by omega) (by omega)]

end Window

/-- The history of a month has the months before it as its keys, and under each of them the rows
that the month is read as; the two reads may find the stored rows in different orders. -/
theorem history_equals_reads {batch stored : List StoredTransaction} {userId : UserId}
    {before : YearMonth} {n : Nat} (same : batch.Perm stored) (dates : Representable n before) :
    ∃ history, readHistoryMonths batch userId before n = some history ∧
      (history.map Prod.fst).Nodup ∧ history.length = n ∧
      (∀ period, period ∈ history.map Prod.fst ↔ Precedes n before period) ∧
      ∀ entry ∈ history, ∃ rows, readMonth stored userId entry.1 = some rows ∧
        entry.2.Perm rows := by
  have keys : ((monthsBefore n before).map fun period =>
      (period, countedRows batch userId period)).map Prod.fst = monthsBefore n before := by
    rw [List.map_map]
    exact List.map_id _
  refine ⟨_, read_history dates, ?_, ?_, fun period => ?_, fun entry listed => ?_⟩
  · rw [keys]
    exact months_before_nodup dates.1
  · rw [List.length_map, months_before_length]
  · rw [keys]
    exact mem_months_before dates.1 period
  · obtain ⟨period, inside, made⟩ := List.mem_map.mp listed
    have preceding := (mem_months_before dates.1 period).mp inside
    rw [← made]
    exact ⟨_, read_real (real_of_precedes dates preceding), same.filter _⟩

/-- A row of New Year's Eve, in a history of fourteen months. -/
theorem history_equals_reads_eve : ∃ history,
    readHistoryMonths [⟨1, ⟨7⟩, ⟨2025, 12, 31, by decide, by decide, by decide⟩, 12,
      text "EUR", .EXPENSE, none⟩] ⟨7⟩ (2026, 2) 14 = some history ∧
    (history.map Prod.fst).Nodup ∧ history.length = 14 ∧
    (∀ period, period ∈ history.map Prod.fst ↔ Precedes 14 (2026, 2) period) ∧
    ∀ entry ∈ history, ∃ rows,
      readMonth [⟨1, ⟨7⟩, ⟨2025, 12, 31, by decide, by decide, by decide⟩, 12,
        text "EUR", .EXPENSE, none⟩] ⟨7⟩ entry.1 = some rows ∧ entry.2.Perm rows :=
  history_equals_reads (List.Perm.refl _) (by
    unfold Representable IsMonth monthNumber
    decide)

end Yomochi.Insights
