import Yomochi.Foundation.Enumeration
import Yomochi.Foundation.Ordinals
import Yomochi.Recurring.Schedule

/-! The dates of a schedule, and that the fire dates enumerate them. -/

namespace Yomochi.Recurring

open Foundation

def ValidSchedule (recurrence : Recurrence) (dayOfMonth dayOfWeek month : Option Int) : Prop :=
  match recurrence with
  | .WEEKLY => ∃ day, dayOfWeek = some day ∧ 0 ≤ day ∧ day ≤ 6
  | .MONTHLY => ∃ day, dayOfMonth = some day ∧ 1 ≤ day ∧ day ≤ 31
  | .YEARLY =>
      (∃ day, dayOfMonth = some day ∧ 1 ≤ day ∧ day ≤ 31) ∧
      ∃ number, month = some number ∧ 1 ≤ number ∧ number ≤ 12
  | .NONE => False

/-- The date is on the day of its month, or on the last one if the month is shorter. -/
def OnDay (day : Int) (date : Date) : Prop :=
  (date.day : Int) = min day (daysInMonth date.year date.month)

instance (day : Int) (date : Date) : Decidable (OnDay day date) :=
  inferInstanceAs (Decidable (_ = _))

def Scheduled (recurrence : Recurrence) (dayOfMonth dayOfWeek month : Option Int) (date : Date) :
    Prop :=
  match recurrence with
  | .WEEKLY => dayOfWeek = some (date.weekday : Int)
  | .MONTHLY => ∃ day, dayOfMonth = some day ∧ OnDay day date
  | .YEARLY => ∃ day, dayOfMonth = some day ∧ month = some (date.month : Int) ∧ OnDay day date
  | .NONE => False

structure Schedule where
  recurrence : Recurrence
  dayOfMonth : Option Int
  dayOfWeek : Option Int
  month : Option Int
  valid : ValidSchedule recurrence dayOfMonth dayOfWeek month

namespace Schedule

variable (schedule : Schedule)

def has (date : Date) : Prop :=
  Scheduled schedule.recurrence schedule.dayOfMonth schedule.dayOfWeek schedule.month date

def first (start : Date) : Except ScheduleError Date :=
  computeFirstFireDate start schedule.recurrence schedule.dayOfMonth schedule.dayOfWeek
    schedule.month

def advance (current : Date) : Except ScheduleError Date :=
  advanceNextFireDate current schedule.recurrence schedule.dayOfMonth schedule.dayOfWeek
    schedule.month

def fireDates (start : Date) : Nat → Except ScheduleError Date
  | 0 => schedule.first start
  | n + 1 => (fireDates start n).bind schedule.advance

end Schedule

theorem toOption_eq_some {ε α : Type} {made : Except ε α} {a : α} :
    made.toOption = some a ↔ made = .ok a := by
  cases made with
  | error error => exact iff_of_false nofun nofun
  | ok b => exact ⟨fun same => congrArg _ (Option.some.inj same), fun same => by cases same; rfl⟩

theorem dateOf_toOption (date : Option Date) : (dateOf date).toOption = date := by
  cases date with
  | none => rfl
  | some date => rfl

/-! The weekday. -/

section Weekly

variable {day : Int} {date : Date}

theorem weekly_first (start : Date) (bounds : 0 ≤ day ∧ day ≤ 6) :
    LeastOf (fun date => some day = some (date.weekday : Int) ∧ start ≤ date)
      (start.plusDays ((day - start.weekday) % 7).toNat) := by
  apply least_of_restrict (Date.plusDays_least start _)
  · rintro date ⟨same, after⟩
    have ordinal := Date.ordinal_strict.monotone after
    have weekday := Option.some.inj same
    unfold Date.weekday at weekday ⊢
    omega
  · intro date made
    have ordinal := Date.ordinal_plusDays made
    constructor
    · apply congrArg some
      unfold Date.weekday at ordinal ⊢
      omega
    · exact Date.le_plusDays made

theorem weekly_advance (current : Date) (inside : some day = some (current.weekday : Int)) :
    LeastOf (fun date => some day = some (date.weekday : Int) ∧ current < date)
      (current.plusDays 7) := by
  apply least_of_restrict (Date.plusDays_least current 7)
  · rintro date ⟨same, after⟩
    have ordinal := Date.ordinal_strict after
    have weekday := Option.some.inj (inside.symm.trans same)
    unfold Date.weekday at weekday
    omega
  · intro date made
    have ordinal := Date.ordinal_plusDays made
    constructor
    · rw [inside]
      apply congrArg some
      unfold Date.weekday
      omega
    · exact Date.lt_plusDays made

end Weekly

/-! The day of a month. -/

section Clamped

variable {year month day : Int}

theorem clamped_of_valid (years : 1 ≤ year ∧ year ≤ maxYear) (months : 1 ≤ month ∧ month ≤ 12)
    (positive : 1 ≤ day) : ∃ date, clampedDate year month day = .ok date := by
  have days := daysInMonth_bounds year.toNat month.toNat
  obtain ⟨date, made⟩ := Date.ofNumbers_of_valid years months
    (show 1 ≤ min day (daysInMonth year.toNat month.toNat) ∧ _ by omega)
  unfold clampedDate
  rw [made]
  exact ⟨date, rfl⟩

theorem clamped_on_day {date : Date} (made : clampedDate year month day = .ok date) :
    (date.year : Int) = year ∧ (date.month : Int) = month ∧ OnDay day date := by
  obtain ⟨years, months, days⟩ := Date.ofNumbers_eq_some (dateOf_eq_ok made)
  refine ⟨years, months, ?_⟩
  have sameYear : year.toNat = date.year := by omega
  have sameMonth : month.toNat = date.month := by omega
  rw [sameYear, sameMonth] at days
  exact days

theorem months_le {left right : Date} (le : left ≤ right) :
    (left.year : Int) * 12 + left.month ≤ (right.year : Int) * 12 + right.month := by
  have later := Date.not_lt.mpr le
  have months := left.monthBounds
  have others := right.monthBounds
  rw [Date.lt_iff] at later
  omega

theorem year_le {left right : Date} (le : left ≤ right) : left.year ≤ right.year := by
  have months := left.monthBounds
  have others := right.monthBounds
  have between := months_le le
  omega

theorem lt_of_months {left right : Date}
    (less : (left.year : Int) * 12 + left.month < (right.year : Int) * 12 + right.month) :
    left < right :=
  Date.not_le.mp fun le => not_lt.mpr (months_le le) less

theorem on_day_unique {left right : Date} (one : OnDay day left) (two : OnDay day right)
    (same : (left.year : Int) * 12 + left.month = (right.year : Int) * 12 + right.month) :
    left = right := by
  have months := left.monthBounds
  have others := right.monthBounds
  have year : left.year = right.year := by omega
  have month : left.month = right.month := by omega
  unfold OnDay at one two
  rw [year, month] at one
  have days : left.day = right.day := by omega
  cases left
  cases right
  simp_all

theorem clamped_least_month (late : 1 ≤ year) (months : 1 ≤ month ∧ month ≤ 12)
    (positive : 1 ≤ day) :
    LeastOf (fun date => OnDay day date ∧
      year * 12 + month ≤ (date.year : Int) * 12 + date.month)
      (clampedDate year month day).toOption := by
  cases made : clampedDate year month day with
  | error error =>
      rintro other ⟨_, after⟩
      have years := other.yearBounds
      have numbers := other.monthBounds
      obtain ⟨date, there⟩ := clamped_of_valid ⟨late, by omega⟩ months positive
      rw [made] at there
      cases there
  | ok date =>
      obtain ⟨sameYear, sameMonth, onDay⟩ := clamped_on_day made
      refine ⟨⟨onDay, by omega⟩, ?_⟩
      rintro other ⟨otherDay, after⟩
      rcases eq_or_ne ((date.year : Int) * 12 + date.month) (other.year * 12 + other.month) with
        same | different
      · exact (on_day_unique onDay otherDay same).le
      · exact (lt_of_months (by omega)).le

theorem clamped_least_year (late : 1 ≤ year) (months : 1 ≤ month ∧ month ≤ 12)
    (positive : 1 ≤ day) :
    LeastOf (fun date => ((date.month : Int) = month ∧ OnDay day date) ∧ year ≤ (date.year : Int))
      (clampedDate year month day).toOption := by
  apply least_of_restrict (clamped_least_month late months positive)
  · rintro date ⟨⟨sameMonth, onDay⟩, after⟩
    exact ⟨onDay, by omega⟩
  · intro date made
    obtain ⟨sameYear, sameMonth, onDay⟩ := clamped_on_day (toOption_eq_some.mp made)
    exact ⟨⟨sameMonth, onDay⟩, sameYear.ge⟩

end Clamped

section Monthly

variable {day : Int} {dayOfWeek month : Option Int}

theorem next_month_least (date : Date) (positive : 1 ≤ day) :
    LeastOf (fun other => OnDay day other ∧
      (date.year : Int) * 12 + date.month + 1 ≤ (other.year : Int) * 12 + other.month)
      (advanceNextFireDate date .MONTHLY (some day) dayOfWeek month).toOption := by
  have years := date.yearBounds
  have months := date.monthBounds
  simp only [advanceNextFireDate]
  split
  · apply least_of_restrict
      (@clamped_least_month (date.year + 1) 1 day (by omega) (by omega) positive)
    · rintro other ⟨onDay, after⟩
      exact ⟨onDay, by omega⟩
    · intro other made
      obtain ⟨sameYear, sameMonth, onDay⟩ := clamped_on_day (toOption_eq_some.mp made)
      exact ⟨onDay, by omega⟩
  · exact @clamped_least_month date.year (date.month + 1) day (by omega) (by omega) positive

theorem monthly_first (start : Date) (positive : 1 ≤ day) :
    LeastOf (fun date => OnDay day date ∧ start ≤ date)
      (computeFirstFireDate start .MONTHLY (some day) dayOfWeek month).toOption := by
  have years := start.yearBounds
  have months := start.monthBounds
  obtain ⟨candidate, made⟩ := @clamped_of_valid start.year start.month day (by omega) (by omega)
    positive
  obtain ⟨sameYear, sameMonth, onDay⟩ := clamped_on_day made
  simp only [computeFirstFireDate, made]
  split
  · -- The day of the start's month is over, and the rule of the start moves on to the next one.
    rename_i before
    apply least_of_restrict (@next_month_least day dayOfWeek month start positive)
    · rintro other ⟨otherDay, after⟩
      have notSooner := months_le after
      refine ⟨otherDay, ?_⟩
      by_contra sooner
      have same : candidate = other := on_day_unique onDay otherDay (by omega)
      rw [same] at before
      exact not_le.mpr before after
    · intro other made
      have moved : advanceNextFireDate start .MONTHLY (some day) dayOfWeek month = .ok other :=
        toOption_eq_some.mp made
      have least := @next_month_least day dayOfWeek month start positive
      rw [moved] at least
      exact ⟨least.1.1, (advance_lt moved).le⟩
  · rename_i notBefore
    have least := @clamped_least_month start.year start.month day (by omega) (by omega) positive
    rw [made] at least
    apply least_of_restrict least
    · rintro other ⟨otherDay, after⟩
      exact ⟨otherDay, months_le after⟩
    · rintro other ⟨⟩
      exact ⟨onDay, Date.not_lt.mp notBefore⟩

theorem monthly_advance (current : Date) (positive : 1 ≤ day) (inside : OnDay day current) :
    LeastOf (fun date => OnDay day date ∧ current < date)
      (advanceNextFireDate current .MONTHLY (some day) dayOfWeek month).toOption := by
  have least := @next_month_least day dayOfWeek month current positive
  apply least_of_restrict least
  · rintro other ⟨otherDay, after⟩
    have notSooner := months_le after.le
    refine ⟨otherDay, ?_⟩
    by_contra sooner
    have same : current = other := on_day_unique inside otherDay (by omega)
    exact after.ne same
  · intro other made
    rw [made] at least
    exact ⟨least.1.1, advance_lt (toOption_eq_some.mp made)⟩

end Monthly

section Yearly

variable {day number : Int} {dayOfWeek : Option Int}

theorem next_year_least (date : Date) (positive : 1 ≤ day) (months : 1 ≤ number ∧ number ≤ 12) :
    LeastOf (fun other => ((other.month : Int) = number ∧ OnDay day other) ∧
      (date.year : Int) + 1 ≤ other.year)
      (advanceNextFireDate date .YEARLY (some day) dayOfWeek (some number)).toOption :=
  clamped_least_year (by omega) months positive

theorem yearly_first (start : Date) (positive : 1 ≤ day) (months : 1 ≤ number ∧ number ≤ 12) :
    LeastOf (fun date => ((date.month : Int) = number ∧ OnDay day date) ∧ start ≤ date)
      (computeFirstFireDate start .YEARLY (some day) dayOfWeek (some number)).toOption := by
  have years := start.yearBounds
  obtain ⟨candidate, made⟩ := @clamped_of_valid start.year number day (by omega) months positive
  obtain ⟨sameYear, sameMonth, onDay⟩ := clamped_on_day made
  simp only [computeFirstFireDate, made]
  split
  · rename_i before
    apply least_of_restrict (@next_year_least day number dayOfWeek start positive months)
    · rintro other ⟨⟨otherMonth, otherDay⟩, after⟩
      have notSooner := year_le after
      refine ⟨⟨otherMonth, otherDay⟩, ?_⟩
      by_contra sooner
      have same : candidate = other := on_day_unique onDay otherDay (by omega)
      rw [same] at before
      exact not_le.mpr before after
    · intro other made
      have moved : advanceNextFireDate start .YEARLY (some day) dayOfWeek (some number) =
          .ok other := toOption_eq_some.mp made
      have least := @next_year_least day number dayOfWeek start positive months
      rw [moved] at least
      exact ⟨least.1.1, (advance_lt moved).le⟩
  · rename_i notBefore
    have least := @clamped_least_year start.year number day (by omega) months positive
    rw [made] at least
    apply least_of_restrict least
    · rintro other ⟨onTheDay, after⟩
      have notSooner := year_le after
      exact ⟨onTheDay, by omega⟩
    · rintro other ⟨⟩
      exact ⟨⟨sameMonth, onDay⟩, Date.not_lt.mp notBefore⟩

theorem yearly_advance (current : Date) (positive : 1 ≤ day) (months : 1 ≤ number ∧ number ≤ 12)
    (inside : (current.month : Int) = number ∧ OnDay day current) :
    LeastOf (fun date => ((date.month : Int) = number ∧ OnDay day date) ∧ current < date)
      (advanceNextFireDate current .YEARLY (some day) dayOfWeek (some number)).toOption := by
  have least := @next_year_least day number dayOfWeek current positive months
  apply least_of_restrict least
  · rintro other ⟨⟨otherMonth, otherDay⟩, after⟩
    have notSooner := year_le after.le
    refine ⟨⟨otherMonth, otherDay⟩, ?_⟩
    by_contra sooner
    have same : current = other := on_day_unique inside.2 otherDay (by omega)
    exact after.ne same
  · intro other made
    rw [made] at least
    exact ⟨least.1.1, advance_lt (toOption_eq_some.mp made)⟩

end Yearly

namespace Schedule

variable (schedule : Schedule)

/-- The first date is the least one from the start on, and every next one the least one that is
later. -/
theorem enumerates (start : Date) :
    Enumerates schedule.has start (schedule.first start).toOption
      fun current => (schedule.advance current).toOption := by
  obtain ⟨recurrence, dayOfMonth, dayOfWeek, month, valid⟩ := schedule
  cases recurrence with
  | NONE => exact valid.elim
  | WEEKLY =>
      obtain ⟨day, rfl, bounds⟩ := valid
      constructor
      · change LeastOf _ (dateOf _).toOption
        rw [dateOf_toOption]
        exact weekly_first start bounds
      · intro current inside
        change LeastOf _ (dateOf _).toOption
        rw [dateOf_toOption]
        exact weekly_advance current inside
  | MONTHLY =>
      obtain ⟨day, rfl, positive, _⟩ := valid
      have on (date : Date) : Scheduled .MONTHLY (some day) dayOfWeek month date ↔
          OnDay day date := by
        simp [Scheduled]
      constructor
      · simp only [has, on]
        exact monthly_first start positive
      · intro current inside
        simp only [has, on] at inside ⊢
        exact monthly_advance current positive inside
  | YEARLY =>
      obtain ⟨⟨day, rfl, positive, _⟩, number, rfl, months⟩ := valid
      have on (date : Date) : Scheduled .YEARLY (some day) dayOfWeek (some number) date ↔
          (date.month : Int) = number ∧ OnDay day date := by
        simp [Scheduled, eq_comm]
      constructor
      · simp only [has, on]
        exact yearly_first start positive months
      · intro current inside
        simp only [has, on] at inside ⊢
        exact yearly_advance current positive months inside

theorem fire_dates_enumerate (start : Date) (n : Nat) :
    (schedule.fireDates start n).toOption = enumerate (schedule.first start).toOption
      (fun current => (schedule.advance current).toOption) n := by
  induction n with
  | zero => rfl
  | succ n ih =>
      rw [enumerate, ← ih, fireDates]
      cases schedule.fireDates start n with
      | error error => rfl
      | ok date => rfl

/-- The fire dates are the dates of the schedule from the start on, and each is later than all
before it. -/
theorem fire_dates_exact (start : Date) :
    (∀ date, (∃ n, schedule.fireDates start n = .ok date) ↔
      schedule.has date ∧ start ≤ date) ∧
    ∀ n m date, n < m → schedule.fireDates start m = .ok date →
      ∃ earlier, schedule.fireDates start n = .ok earlier ∧ earlier < date := by
  have enumerates := schedule.enumerates start
  simp only [← toOption_eq_some, fire_dates_enumerate]
  constructor
  · exact enumerate_iff enumerates Date.ordinal Date.ordinal_strict
  · intro n m date later made
    exact enumerate_lt enumerates later made

end Schedule

end Yomochi.Recurring
