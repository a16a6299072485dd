import Yomochi.Foundation.Ordinals

/-! Days before a date, and the date with a given number. -/

namespace Yomochi.Foundation

namespace Date

def yesterday (date : Date) : Option Date :=
  if earlier : 1 < date.day then
    some { date with day := date.day - 1, dayBounds := ⟨by omega, by
      have days := date.dayBounds
      omega⟩ }
  else if 1 < date.month then
    ofNumbers date.year (date.month - 1 : Nat) (daysInMonth date.year (date.month - 1))
  else ofNumbers (date.year - 1 : Nat) 12 31

def minusDays (date : Date) : Nat → Option Date
  | 0 => some date
  | days + 1 => date.yesterday.bind fun before => before.minusDays days

def addDays (date : Date) : Int → Option Date
  | .ofNat days => date.plusDays days
  | .negSucc days => date.minusDays (days + 1)

theorem ordinal_yesterday {date before : Date} (made : date.yesterday = some before) :
    before.ordinal + 1 = date.ordinal := by
  have days := date.dayBounds.1
  have months := date.monthBounds
  have years := date.yearBounds
  unfold yesterday at made
  split at made
  · cases made
    rw [ordinal_eq, ordinal_eq]
    dsimp only
    omega
  · rename_i first
    have day : date.day = 1 := by omega
    split at made
    · rename_i later
      obtain ⟨year, month, last⟩ := ofNumbers_eq_some made
      obtain ⟨n, number⟩ : ∃ n, date.month = n + 2 := ⟨date.month - 2, by omega⟩
      have sameYear : before.year = date.year := by omega
      have sameMonth : before.month = n + 1 := by omega
      have whole : before.day = daysInMonth date.year (n + 1) := by
        rw [number] at last
        exact Nat.cast_inj.mp last
      have month_ : daysInMonths date.year (n + 1) =
        daysInMonths date.year n + daysInMonth date.year (n + 1) := rfl
      have back : n + 2 - 1 = n + 1 := rfl
      rw [ordinal_eq, ordinal_eq, day, number, sameYear, sameMonth, whole, back, month_,
        Nat.add_sub_cancel]
      omega
    · rename_i january
      obtain ⟨year, month, last⟩ := ofNumbers_eq_some made
      obtain ⟨before', number⟩ : ∃ n, date.year = n + 1 := ⟨date.year - 1, by omega⟩
      have sameYear : before.year = before' := by omega
      have december : before.month = 12 := by omega
      have eve : before.day = 31 := by omega
      have one : date.month = 1 := by omega
      have positive : 1 ≤ before' := by
        have bounds := before.yearBounds
        omega
      have year_ : daysInMonths before' 12 = daysInMonths before' (12 - 1) + 31 := rfl
      have none_ : daysInMonths (before' + 1) (1 - 1) = 0 := rfl
      rw [ordinal_eq, ordinal_eq, day, number, one, sameYear, december, eve,
        year_start_succ positive, year_, none_]
      omega

/-- A date that is not the first one has a day before it. -/
theorem yesterday_of_lt {earlier date : Date} (less : earlier < date) :
    ∃ before, date.yesterday = some before := by
  have years := date.yearBounds
  have months := date.monthBounds
  have days := date.dayBounds
  have earlierYears := earlier.yearBounds
  have earlierMonths := earlier.monthBounds
  have earlierDays := earlier.dayBounds
  rw [lt_iff] at less
  unfold yesterday
  split
  · exact ⟨_, rfl⟩
  · split
    · have bounds := daysInMonth_bounds date.year (date.month - 1)
      apply ofNumbers_of_valid
      · omega
      · omega
      · rw [Int.toNat_natCast, Int.toNat_natCast]
        omega
    · have bounds : daysInMonth ((date.year - 1 : Nat) : Int).toNat (12 : Int).toNat = 31 := rfl
      apply ofNumbers_of_valid
      · omega
      · omega
      · rw [bounds]
        omega

theorem ordinal_minusDays {date before : Date} {days : Nat}
    (made : date.minusDays days = some before) : before.ordinal + days = date.ordinal := by
  induction days generalizing date with
  | zero =>
      cases made
      rfl
  | succ days ih =>
      obtain ⟨yesterday, step, rest⟩ := Option.bind_eq_some_iff.mp made
      have one := ordinal_yesterday step
      have more := ih rest
      omega

theorem minusDays_of_ordinal {date before : Date} {days : Nat}
    (same : before.ordinal + days = date.ordinal) : date.minusDays days = some before := by
  induction days generalizing date with
  | zero => exact congrArg some (ordinal_injective same.symm)
  | succ days ih =>
      have less : before < date := ordinal_strict.lt_iff_lt.mp (by omega)
      obtain ⟨yesterday, step⟩ := yesterday_of_lt less
      have one := ordinal_yesterday step
      exact Option.bind_eq_some_iff.mpr ⟨yesterday, step, ih (by omega)⟩

theorem minusDays_eq_some {date before : Date} {days : Nat} :
    date.minusDays days = some before ↔ before.ordinal + days = date.ordinal :=
  ⟨ordinal_minusDays, minusDays_of_ordinal⟩

theorem addDays_eq_some {date other : Date} {days : Int} :
    date.addDays days = some other ↔ (other.ordinal : Int) = date.ordinal + days := by
  cases days with
  | ofNat days =>
      rw [Int.ofNat_eq_natCast]
      constructor
      · intro made
        have sum := ordinal_plusDays made
        omega
      · intro sum
        apply plusDays_of_ordinal
        omega
  | negSucc days =>
      have difference : date.addDays (.negSucc days) = some other ↔
          other.ordinal + (days + 1) = date.ordinal := minusDays_eq_some
      rw [difference, Int.negSucc_eq]
      omega

theorem exists_of_between {first last : Date} {number : Nat} (after : first.ordinal ≤ number)
    (before : number ≤ last.ordinal) : ∃ date : Date, date.ordinal = number := by
  induction after with
  | refl => exact ⟨first, rfl⟩
  | step _ ih =>
      obtain ⟨date, reached⟩ := ih (Nat.le_of_succ_le before)
      have less : date < last := ordinal_strict.lt_iff_lt.mp (by omega)
      obtain ⟨next, step⟩ := tomorrow_of_lt less
      exact ⟨next, by rw [ordinal_tomorrow step, reached]⟩

theorem january_bounds : 1 ≤ 1 ∧ 1 ≤ 12 := by decide

theorem december_bounds : 1 ≤ 12 ∧ 12 ≤ 12 := by decide

def first : Date := ⟨1, 1, 1, by decide, january_bounds, by decide⟩

def last : Date := ⟨maxYear, 12, 31, by decide, december_bounds, by decide⟩

theorem ordinal_first : first.ordinal = 1 := rfl

theorem ordinal_last : last.ordinal = 3652059 := by decide

theorem one_le_ordinal (date : Date) : 1 ≤ date.ordinal := by
  rw [ordinal_eq]
  have day := date.dayBounds.1
  omega

theorem ordinal_le_last (date : Date) : date.ordinal ≤ last.ordinal := by
  apply ordinal_strict.le_iff_le.mpr
  apply not_lt.mp
  rw [lt_iff]
  have years := date.yearBounds
  have months := date.monthBounds
  have days := date.day_le
  simp only [last]
  omega

end Date

end Yomochi.Foundation
