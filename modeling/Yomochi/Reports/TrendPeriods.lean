import Yomochi.Reports.Trend

/-! The server and the web client have the same periods: the days from the floor date on are those
of as many weeks or months as were asked for, and the labels that the client makes are theirs. -/

namespace Yomochi.Reports

open Foundation

def bucketNumber : Granularity → Date → Nat
  | .week, date => date.weekNumber
  | .month, date => date.year * 12 + (date.month - 1)

theorem bucket_mono {granularity : Granularity} {first second : Date} (le : first ≤ second) :
    bucketNumber granularity first ≤ bucketNumber granularity second := by
  cases granularity with
  | week =>
      have ordinals := Date.ordinal_strict.le_iff_le.mpr le
      simp only [bucketNumber, Date.weekNumber]
      omega
  | month =>
      have firstMonth := first.monthBounds
      have secondMonth := second.monthBounds
      have firstDay := first.dayBounds.1
      have secondDay := second.day_le
      simp only [Date.le_def, Date.stamp] at le
      simp only [bucketNumber]
      omega

/-! The labels. -/

section Labels

theorem to_char_week_eq {date thursday : Date}
    (same : thursday.ordinal + 3 = 7 * date.weekNumber) : toCharWeek date =
      padded 4 thursday.year ++ text "-W" ++ padded 2 ((thursday.dayOfYear - 1) / 7 + 1) := by
  unfold toCharWeek
  rw [Date.isocalendar_eq same]
  rfl

theorem label_of_bucket {granularity : Granularity} {first second : Date}
    (same : bucketNumber granularity first = bucketNumber granularity second) :
    bucketLabel granularity first = bucketLabel granularity second := by
  cases granularity with
  | week =>
      obtain ⟨thursday, number⟩ := first.exists_thursday
      have other : thursday.ordinal + 3 = 7 * second.weekNumber := by
        rw [number]
        exact congrArg (7 * ·) same
      change toCharWeek first = toCharWeek second
      rw [to_char_week_eq number, to_char_week_eq other]
  | month =>
      have firstMonth := first.monthBounds
      have secondMonth := second.monthBounds
      simp only [bucketNumber] at same
      have year : first.year = second.year := by omega
      have month : first.month = second.month := by omega
      change toCharMonth first = toCharMonth second
      rw [toCharMonth, toCharMonth, year, month]

theorem text_lt_self (source : Text) : textLt source source = false := by
  cases less : textLt source source with
  | false => rfl
  | true => exact absurd ((text_lt_iff source source).mp less) (lt_irrefl source)

theorem text_lt_label (separator : Text) {firstYear secondYear first second : Nat}
    (oneYear : firstYear < Nat.pow 10 4) (twoYear : secondYear < Nat.pow 10 4)
    (one : first < Nat.pow 10 2) (two : second < Nat.pow 10 2) :
    textLt (padded 4 firstYear ++ separator ++ padded 2 first)
      (padded 4 secondYear ++ separator ++ padded 2 second) =
      decide (firstYear < secondYear ∨ firstYear = secondYear ∧ first < second) := by
  have years : (padded 4 firstYear).length = (padded 4 secondYear).length := by
    rw [padded_length (by decide) oneYear, padded_length (by decide) twoYear]
  have equal : padded 4 firstYear = padded 4 secondYear ↔ firstYear = secondYear :=
    ⟨padded_injective, congrArg (padded 4)⟩
  rw [List.append_assoc, List.append_assoc, text_lt_append years, text_lt_append rfl,
    text_lt_self, text_lt_padded (by decide) oneYear twoYear,
    text_lt_padded (by decide) one two]
  simp [equal]

theorem week_fits (date : Date) : (date.dayOfYear - 1) / 7 + 1 < Nat.pow 10 2 := by
  have days := date.day_of_year_bounds
  change _ < 100
  omega

/-- The text order of the labels is the order of the periods. -/
theorem text_lt_bucket_label (granularity : Granularity) (first second : Date) :
    textLt (bucketLabel granularity first) (bucketLabel granularity second) =
      decide (bucketNumber granularity first < bucketNumber granularity second) := by
  cases granularity with
  | week =>
      obtain ⟨one, firstNumber⟩ := first.exists_thursday
      obtain ⟨two, secondNumber⟩ := second.exists_thursday
      change textLt (toCharWeek first) (toCharWeek second) = _
      rw [to_char_week_eq firstNumber, to_char_week_eq secondNumber,
        text_lt_label _ one.year_fits two.year_fits (week_fits one) (week_fits two),
        decide_eq_decide]
      have forth := @Date.year_le_of_ordinal one two
      have back := @Date.year_le_of_ordinal two one
      have oneStart := one.year_start_lt
      have twoStart := two.year_start_lt
      simp only [bucketNumber, Date.dayOfYear]
      by_cases years : one.year = two.year
      · rw [years] at oneStart ⊢
        omega
      · omega
  | month =>
      have firstMonth := first.monthBounds
      have secondMonth := second.monthBounds
      change textLt (toCharMonth first) (toCharMonth second) = _
      rw [toCharMonth, toCharMonth, text_lt_label _ first.year_fits second.year_fits
        first.month_fits second.month_fits, decide_eq_decide]
      simp only [bucketNumber]
      omega

end Labels

/-! The floor date. -/

section Floor

/-- The first day of the oldest of the periods that the window counts. -/
def TrendWindow.Opens (window : TrendWindow) (floor : Date) : Prop :=
  (∀ date, floor ≤ date ↔
    bucketNumber window.granularity floor ≤ bucketNumber window.granularity date) ∧
  bucketNumber window.granularity window.end_ + 1 =
    bucketNumber window.granularity floor + window.bucketCount

theorem wrap_month_spec (year month : Int) :
    (wrapMonth year month).1 * 12 + (wrapMonth year month).2 = year * 12 + month ∧
      1 ≤ (wrapMonth year month).2 ∧ (month ≤ 12 → (wrapMonth year month).2 ≤ 12) := by
  fun_induction wrapMonth year month with
  | case1 year month low ih =>
      obtain ⟨sum, positive, small⟩ := ih
      exact ⟨by omega, positive, fun _ => small (by omega)⟩
  | case2 year month high => exact ⟨rfl, by omega, fun below => below⟩

theorem exists_ordinal {date : Date} {days : Nat} (less : days < date.ordinal) :
    ∃ before : Date, before.ordinal + days = date.ordinal := by
  obtain ⟨before, number⟩ : ∃ before : Date, before.ordinal = date.ordinal - days := by
    apply @Date.exists_of_between Date.first date
    · rw [Date.ordinal_first]
      omega
    · omega
  exact ⟨before, by omega⟩

theorem modern_ordinal {date : Date} (modern : 1900 ≤ date.year) : 693595 < date.ordinal := by
  have start : yearStart 1900 = 693595 := by decide
  have mono := @year_start_mono 1900 date.year (by decide) modern
  have after := date.year_start_lt
  omega

theorem floor_date_spec {window : TrendWindow} (modern : 1900 ≤ window.end_.year) :
    ∃ floor, window.floorDate = some floor ∧ window.Opens floor := by
  obtain ⟨granularity, count, end_, least, most⟩ := window
  unfold TrendWindow.floorDate TrendWindow.Opens
  cases granularity with
  | week =>
      have recent := modern_ordinal modern
      dsimp only at recent ⊢
      obtain ⟨back, weeks⟩ := @exists_ordinal end_ (7 * (count - 1)) (by omega)
      have weekday := back.weekday_eq
      have small : back.weekday < 7 := Nat.mod_lt _ (by decide)
      obtain ⟨monday, days⟩ := @exists_ordinal back back.weekday (by omega)
      refine ⟨monday, ?_, fun date => ?_, ?_⟩
      · rw [Date.minusDays_of_ordinal weeks, Option.bind_eq_bind, Option.bind_some,
          Date.minusDays_of_ordinal days]
      · rw [← Date.ordinal_strict.le_iff_le]
        simp only [bucketNumber, Date.weekNumber] at weekday ⊢
        omega
      · simp only [bucketNumber, Date.weekNumber] at weekday ⊢
        omega
  | month =>
      have endMonth := end_.monthBounds
      have endYear := end_.yearBounds
      obtain ⟨sum, positive, small⟩ :=
        wrap_month_spec end_.year ((end_.month : Int) - ((count : Int) - 1))
      have months := small (by omega)
      dsimp only at modern ⊢
      generalize wrapMonth end_.year ((end_.month : Int) - ((count : Int) - 1)) = wrapped at *
      have days := daysInMonth_bounds wrapped.1.toNat wrapped.2.toNat
      obtain ⟨floor, made⟩ : ∃ floor, Date.ofNumbers wrapped.1 wrapped.2 1 = some floor :=
        Date.ofNumbers_of_valid (by omega) ⟨positive, months⟩ (by omega)
      obtain ⟨year, month, day⟩ := Date.ofNumbers_eq_some made
      refine ⟨floor, made, fun date => ?_, ?_⟩
      · have bounds := date.monthBounds
        have one := date.dayBounds.1
        have last := date.day_le
        simp only [bucketNumber, Date.le_def, Date.stamp]
        omega
      · simp only [bucketNumber]
        omega

theorem exists_in_bucket (granularity : Granularity) {low high : Date} {number : Nat}
    (after : bucketNumber granularity low ≤ number)
    (before : number ≤ bucketNumber granularity high) :
    ∃ date, bucketNumber granularity date = number := by
  cases granularity with
  | week =>
      have lowWeek := low.weekday_eq
      have lowSmall : low.weekday < 7 := Nat.mod_lt _ (by decide)
      have lowOne := low.one_le_ordinal
      simp only [bucketNumber, Date.weekNumber] at after before ⊢
      obtain ⟨monday, at_⟩ : ∃ monday : Date, monday.ordinal = 7 * number - 6 := by
        apply @Date.exists_of_between Date.first high
        · rw [Date.ordinal_first]
          omega
        · omega
      exact ⟨monday, by omega⟩
  | month =>
      have lowYears := low.yearBounds
      have lowMonths := low.monthBounds
      have highYears := high.yearBounds
      have highMonths := high.monthBounds
      simp only [bucketNumber] at after before ⊢
      have days := daysInMonth_bounds ((number / 12 : Nat) : Int).toNat
        ((number % 12 + 1 : Nat) : Int).toNat
      obtain ⟨date, made⟩ : ∃ date,
          Date.ofNumbers (number / 12 : Nat) (number % 12 + 1 : Nat) 1 = some date :=
        Date.ofNumbers_of_valid (by omega) (by omega) (by omega)
      obtain ⟨year, month, _⟩ := Date.ofNumbers_eq_some made
      exact ⟨date, by omega⟩

/-- From the floor date to the end date are days of as many periods in a row as were counted. -/
theorem opens_meets {window : TrendWindow} {floor : Date} (opens : window.Opens floor)
    (number : Nat) :
    (∃ date, floor ≤ date ∧ date ≤ window.end_ ∧
      bucketNumber window.granularity date = number) ↔
      bucketNumber window.granularity floor ≤ number ∧
        number < bucketNumber window.granularity floor + window.bucketCount := by
  obtain ⟨first, counted⟩ := opens
  constructor
  · intro met
    obtain ⟨date, after, before, same⟩ := met
    have low := (first date).mp after
    have high := @bucket_mono window.granularity _ _ before
    omega
  · intro inside
    obtain ⟨low, high⟩ := inside
    by_cases last : number = bucketNumber window.granularity window.end_
    · refine ⟨window.end_, (first window.end_).mpr (by omega), Date.le_refl _, last.symm⟩
    · obtain ⟨date, same⟩ := @exists_in_bucket window.granularity floor window.end_ number low
        (by omega)
      refine ⟨date, (first date).mpr (by omega), ?_, same⟩
      apply Date.not_lt.mp
      intro later
      have more := @bucket_mono window.granularity _ _ (Date.le_of_lt later)
      omega

end Floor

/-! The client. -/

section Client

theorem set_date_eq_some {date other : Date} {day : Int} :
    setDate date day = some other ↔ (other.ordinal : Int) = date.ordinal + (day - date.day) := by
  have months := date.monthBounds
  have days := daysInMonth_bounds ((date.year : Int) + ((date.month : Int) - 1) / 12).toNat
    (((date.month : Int) - 1) % 12 + 1).toNat
  have years := date.yearBounds
  obtain ⟨first, made⟩ : ∃ first, Date.ofNumbers ((date.year : Int) + ((date.month : Int) - 1) / 12)
      (((date.month : Int) - 1) % 12 + 1) 1 = some first :=
    Date.ofNumbers_of_valid (by omega) (by omega) (by omega)
  obtain ⟨year, month, one⟩ := Date.ofNumbers_eq_some made
  have sameYear : first.year = date.year := by omega
  have sameMonth : first.month = date.month := by omega
  have number : first.ordinal + date.day = date.ordinal + 1 := by
    rw [Date.ordinal_eq, Date.ordinal_eq, sameYear, sameMonth]
    omega
  rw [setDate, makeDay, made, Option.bind_some, Date.addDays_eq_some]
  omega

theorem full_year_late {year : Int} (late : 100 ≤ year) : fullYear year = year :=
  if_neg (by omega)

theorem new_date_self {date : Date} (late : 100 ≤ date.year) :
    newDate date.year (date.month - 1) date.day = some date := by
  rw [newDate, full_year_late (by omega)]
  exact set_date_eq_some.mpr (by omega)

theorem new_year {year : Nat} (late : 100 ≤ year) (known : year ≤ maxYear) :
    ∃ first, newDate year 0 1 = some first ∧ first.ordinal = yearStart year + 1 := by
  have days := daysInMonth_bounds (year : Int).toNat (1 : Int).toNat
  obtain ⟨first, made⟩ : ∃ first, Date.ofNumbers year 1 1 = some first :=
    Date.ofNumbers_of_valid (by omega) (by omega) (by omega)
  obtain ⟨sameYear, january, one⟩ := Date.ofNumbers_eq_some made
  have number : first.ordinal = yearStart year + 1 := by
    rw [Date.ordinal_eq, show first.year = year by omega, show first.month = 1 by omega,
      show first.day = 1 by omega]
    rfl
  have own := @new_date_self first (by omega)
  rw [sameYear, january, one] at own
  exact ⟨first, own, number⟩

theorem ceil_sevenths {days : Nat} (positive : 1 ≤ days) :
    ⌈((days : Int) : ℚ) / 7⌉ = (((days - 1) / 7 + 1 : Nat) : Int) := by
  rw [Int.ceil_eq_iff]
  have low : ((days - 1) / 7) * 7 < days := by omega
  have high : days ≤ ((days - 1) / 7 + 1) * 7 := by omega
  constructor
  · rw [lt_div_iff₀ (by norm_num)]
    push_cast
    rw [add_sub_cancel_right]
    exact_mod_cast low
  · rw [div_le_iff₀ (by norm_num)]
    exact_mod_cast high

theorem iso_year_week_eq {date : Date} (late : 1001 ≤ date.year) :
    isoYearWeek date = some (toCharWeek date) := by
  obtain ⟨thursday, number⟩ := date.exists_thursday
  have week := date.weekday_eq
  have small : date.weekday < 7 := Nat.mod_lt _ (by decide)
  have near := @Date.year_lt_two thursday date (by omega)
  have years := thursday.yearBounds
  have after := thursday.year_start_lt
  have days := thursday.day_of_year_bounds
  obtain ⟨newYear, starts, first⟩ := @new_year thursday.year (by omega) years.2
  have moved : setDate date (date.day + 4 - dayNumber date) = some thursday := by
    rw [set_date_eq_some]
    unfold dayNumber
    unfold Date.weekday at week small
    split <;> omega
  have begun : (thursday.ordinal : Int) - newYear.ordinal + 1 = (thursday.dayOfYear : Int) := by
    unfold Date.dayOfYear
    omega
  have long : padded 4 thursday.year = decimal thursday.year := by
    apply padded_long
    change 1000 ≤ _
    omega
  unfold isoYearWeek
  rw [new_date_self (by omega), Option.bind_eq_bind, Option.bind_some, moved, Option.bind_some,
    starts, Option.bind_some, to_char_week_eq number, long]
  dsimp only
  rw [begun, ceil_sevenths days.1]
  rfl

/-- The label of the period that lies `i` periods before that of a date. -/
def PeriodBack (granularity : Granularity) (now : Date) (i : Nat) (label : Text) : Prop :=
  ∃ date, bucketNumber granularity date + i = bucketNumber granularity now ∧
    label = bucketLabel granularity date

theorem month_back {now : Date} {i : Nat} (modern : 1900 ≤ now.year) (few : i < 52) :
    ∃ label, (do
      let d ← newDate now.year ((now.month : Int) - 1 - i) 1
      some (decimal d.year ++ text "-" ++ padStart 2 (decimal d.month))) = some label ∧
      PeriodBack .month now i label := by
  have years := now.yearBounds
  have months := now.monthBounds
  have days := daysInMonth_bounds ((now.year : Int) + ((now.month : Int) - 1 - i) / 12).toNat
    (((now.month : Int) - 1 - i) % 12 + 1).toNat
  obtain ⟨first, made⟩ : ∃ first,
      Date.ofNumbers ((now.year : Int) + ((now.month : Int) - 1 - i) / 12)
        (((now.month : Int) - 1 - i) % 12 + 1) 1 = some first :=
    Date.ofNumbers_of_valid (by omega) (by omega) (by omega)
  obtain ⟨year, month, one⟩ := Date.ofNumbers_eq_some made
  have day : newDate now.year ((now.month : Int) - 1 - i) 1 = some first := by
    rw [newDate, full_year_late (by omega), makeDay, made]
    rfl
  have long : padded 4 first.year = decimal first.year := by
    apply padded_long
    change 1000 ≤ _
    omega
  rw [day]
  refine ⟨_, rfl, first, ?_, ?_⟩
  · simp only [bucketNumber]
    omega
  · rw [← long]
    rfl

theorem week_back {now monday : Date} {i : Nat} (modern : 1900 ≤ now.year) (few : i < 52)
    (starts : monday.ordinal + 6 = 7 * now.weekNumber) :
    ∃ label, (do
      let d ← setDate monday ((monday.day : Int) - i * 7)
      isoYearWeek d) = some label ∧ PeriodBack .week now i label := by
  have recent := modern_ordinal modern
  have week := now.weekday_eq
  have small : now.weekday < 7 := Nat.mod_lt _ (by decide)
  obtain ⟨back, days⟩ := @exists_ordinal monday (i * 7) (by omega)
  have moved : setDate monday ((monday.day : Int) - i * 7) = some back := by
    rw [set_date_eq_some]
    omega
  have late : 1001 ≤ back.year := by
    have start : yearStart 1002 = 365607 := by decide
    by_contra early
    have mono := @year_start_mono (back.year + 1) 1002 (by omega) (by omega)
    have before := back.ordinal_le_year
    omega
  rw [moved]
  refine ⟨_, iso_year_week_eq late, back, ?_, rfl⟩
  simp only [bucketNumber, Date.weekNumber] at starts ⊢
  omega

theorem map_m_spec {α β : Type} {f : α → Option β} {holds : α → β → Prop} {items : List α}
    (each : ∀ a ∈ items, ∃ b, f a = some b ∧ holds a b) :
    ∃ found, items.mapM f = some found ∧ List.Forall₂ holds items found := by
  induction items with
  | nil => exact ⟨[], rfl, .nil⟩
  | cons a items ih =>
      obtain ⟨b, one, first⟩ := each a List.mem_cons_self
      obtain ⟨found, more, rest⟩ := ih fun c member => each c (List.mem_cons_of_mem a member)
      refine ⟨b :: found, ?_, .cons first rest⟩
      rw [List.mapM_cons, one, more]
      rfl

theorem last_n_periods_spec {granularity : Granularity} {now : Date} {n : Nat}
    (modern : 1900 ≤ now.year) (few : n ≤ 52) :
    ∃ periods, lastNPeriods n granularity now = some periods ∧
      List.Forall₂ (PeriodBack granularity now) (List.range n).reverse periods := by
  have below : ∀ i ∈ (List.range n).reverse, i < 52 := by
    intro i member
    rw [List.mem_reverse, List.mem_range] at member
    omega
  cases granularity with
  | month => exact map_m_spec fun i member => month_back modern (below i member)
  | week =>
      have recent := modern_ordinal modern
      have week := now.weekday_eq
      have small : now.weekday < 7 := Nat.mod_lt _ (by decide)
      obtain ⟨monday, days⟩ := @exists_ordinal now now.weekday (by omega)
      have moved : setDate now ((now.day : Int) - dayNumber now + 1) = some monday := by
        rw [set_date_eq_some]
        unfold dayNumber
        unfold Date.weekday at days
        split <;> omega
      unfold lastNPeriods
      dsimp only
      rw [moved, Option.bind_eq_bind, Option.bind_some]
      exact map_m_spec fun i member => week_back modern (below i member) (by omega)

end Client

/-! The periods of both. -/

section Agreement

variable {window : TrendWindow} {floor : Date} {periods : List Text}

/-- The label of a day from the floor date on stands at the place of its period. -/
theorem periods_at (opens : window.Opens floor)
    (each : List.Forall₂ (PeriodBack window.granularity window.end_)
      (List.range window.bucketCount).reverse periods)
    {date : Date} (after : floor ≤ date) (before : date ≤ window.end_) :
    periods[bucketNumber window.granularity date - bucketNumber window.granularity floor]? =
      some (bucketLabel window.granularity date) := by
  have length : periods.length = window.bucketCount := by
    rw [← each.length_eq, List.length_reverse, List.length_range]
  have inside := (opens_meets opens _).mp ⟨date, after, before, rfl⟩
  have counted := opens.2
  have index : bucketNumber window.granularity date - bucketNumber window.granularity floor <
      periods.length := by
    omega
  obtain ⟨day, back, label⟩ := each.get (by simpa [length] using index) index
  rw [List.getElem?_eq_getElem index]
  simp only [List.get_eq_getElem, List.getElem_reverse, List.getElem_range, List.length_range]
    at back label
  have same : bucketNumber window.granularity day = bucketNumber window.granularity date := by
    omega
  rw [label, label_of_bucket same]

theorem periods_ascend (opens : window.Opens floor)
    (each : List.Forall₂ (PeriodBack window.granularity window.end_)
      (List.range window.bucketCount).reverse periods) : periods.Pairwise (· < ·) := by
  have length : periods.length = window.bucketCount := by
    rw [← each.length_eq, List.length_reverse, List.length_range]
  -- every place is that of a day
  have placed : ∀ i < periods.length, ∃ date,
      bucketNumber window.granularity date = bucketNumber window.granularity floor + i ∧
        periods[i]? = some (bucketLabel window.granularity date) := by
    intro i inside
    obtain ⟨date, after, before, number⟩ := (opens_meets opens
      (bucketNumber window.granularity floor + i)).mpr ⟨by omega, by omega⟩
    have label := periods_at opens each after before
    rw [number, Nat.add_sub_cancel_left] at label
    exact ⟨date, number, label⟩
  apply List.pairwise_iff_getElem.mpr
  intro i j first second less
  obtain ⟨one, oneNumber, oneLabel⟩ := placed i first
  obtain ⟨two, twoNumber, twoLabel⟩ := placed j second
  rw [List.getElem?_eq_getElem first] at oneLabel
  rw [List.getElem?_eq_getElem second] at twoLabel
  rw [Option.some.inj oneLabel, Option.some.inj twoLabel, ← text_lt_iff, text_lt_bucket_label]
  exact decide_eq_true (by omega)

theorem read_listed {rows : List Insights.StoredTransaction} {userId : UserId} {currency : Text}
    {type : Recurring.TransactionType} (modern : 1900 ≤ window.end_.year) :
    ∃ buckets periods, read rows userId currency type window = some buckets ∧
      lastNPeriods window.bucketCount window.granularity window.end_ = some periods ∧
      (buckets.map TrendBucket.label).Sublist periods := by
  obtain ⟨floor, floors, opens⟩ := floor_date_spec modern
  obtain ⟨periods, listed, each⟩ :=
    @last_n_periods_spec window.granularity window.end_ window.bucketCount modern window.counts.2
  refine ⟨_, periods, by rw [read, floors]; rfl, listed, ?_⟩
  rw [List.map_map]
  change ((sortedSet _).map id).Sublist periods
  rw [List.map_id]
  apply List.sublist_of_subperm_of_pairwise _ (sorted_set_sorted _) (periods_ascend opens each)
  apply List.subperm_of_subset (sorted_set_nodup _)
  intro label member
  obtain ⟨row, found, same⟩ := List.mem_map.mp (mem_sorted_set.mp member)
  obtain ⟨_, matching⟩ := List.mem_filter.mp found
  simp only [Bool.and_eq_true, decide_eq_true_eq] at matching
  rw [← same]
  exact List.mem_of_getElem? (periods_at opens each matching.1.2 matching.2)

end Agreement

/-- The server and the client agree on the periods of a window: from the floor date on there are
days of exactly as many periods in a row as were counted, and the client lists their labels in
their order. -/
theorem trend_window_agrees {window : TrendWindow} (modern : 1900 ≤ window.end_.year) :
    ∃ floor periods, window.floorDate = some floor ∧
      lastNPeriods window.bucketCount window.granularity window.end_ = some periods ∧
      (∀ number, (∃ date, floor ≤ date ∧ date ≤ window.end_ ∧
          bucketNumber window.granularity date = number) ↔
        bucketNumber window.granularity floor ≤ number ∧
          number < bucketNumber window.granularity floor + window.bucketCount) ∧
      periods.length = window.bucketCount ∧
      (∀ date, floor ≤ date → date ≤ window.end_ →
        periods[bucketNumber window.granularity date - bucketNumber window.granularity floor]? =
          some (bucketLabel window.granularity date)) ∧
      ∀ first second, textLt (bucketLabel window.granularity first)
        (bucketLabel window.granularity second) =
          decide (bucketNumber window.granularity first < bucketNumber window.granularity second) := by
  obtain ⟨floor, floors, opens⟩ := floor_date_spec modern
  obtain ⟨periods, listed, each⟩ :=
    @last_n_periods_spec window.granularity window.end_ window.bucketCount modern window.counts.2
  have length : periods.length = window.bucketCount := by
    rw [← each.length_eq, List.length_reverse, List.length_range]
  exact ⟨floor, periods, floors, listed, opens_meets opens, length,
    fun _ after before => periods_at opens each after before,
    text_lt_bucket_label window.granularity⟩

/-- The last five weeks of a date in the week 53 of the year before. -/
theorem trend_window_agrees_new_year : ∃ floor periods,
    TrendWindow.floorDate ⟨.week, 5, ⟨2021, 1, 3, by decide, by decide, by decide⟩, by decide⟩ =
      some floor ∧
    lastNPeriods 5 .week ⟨2021, 1, 3, by decide, by decide, by decide⟩ = some periods ∧
    (∀ number, (∃ date, floor ≤ date ∧ date ≤ ⟨2021, 1, 3, by decide, by decide, by decide⟩ ∧
        bucketNumber .week date = number) ↔
      bucketNumber .week floor ≤ number ∧ number < bucketNumber .week floor + 5) ∧
    periods.length = 5 ∧
    (∀ date, floor ≤ date → date ≤ ⟨2021, 1, 3, by decide, by decide, by decide⟩ →
      periods[bucketNumber .week date - bucketNumber .week floor]? =
        some (bucketLabel .week date)) ∧
    ∀ first second, textLt (bucketLabel .week first) (bucketLabel .week second) =
      decide (bucketNumber .week first < bucketNumber .week second) :=
  @trend_window_agrees ⟨.week, 5, ⟨2021, 1, 3, by decide, by decide, by decide⟩, by decide⟩
    (by decide)

end Yomochi.Reports
