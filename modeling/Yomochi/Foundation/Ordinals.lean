import Yomochi.Foundation.DateTime
import Yomochi.Foundation.Enumeration

/-! The numbers of the days: they grow with the date, by one from a day to the next. -/

namespace Yomochi.Foundation

def yearStart (year : Nat) : Nat :=
  (year - 1) * 365 + (year - 1) / 4 - (year - 1) / 100 + (year - 1) / 400

def daysInMonths (year : Nat) : Nat → Nat
  | 0 => 0
  | n + 1 => daysInMonths year n + daysInMonth year (n + 1)

theorem days_in_months_fold (year start n : Nat) :
    (List.range n).foldl (fun days month => days + daysInMonth year (month + 1)) start =
      start + daysInMonths year n := by
  induction n with
  | zero => rfl
  | succ n ih =>
      rw [List.range_succ, List.foldl_append, List.foldl_cons, List.foldl_nil, ih, daysInMonths,
        Nat.add_assoc]

theorem days_in_months_mono {year n m : Nat} (le : n ≤ m) :
    daysInMonths year n ≤ daysInMonths year m := by
  induction le with
  | refl => exact Nat.le_refl _
  | step _ ih => exact ih.trans (Nat.le_add_right _ _)

theorem days_in_year (year : Nat) :
    daysInMonths year 12 = 365 + if isLeap year then 1 else 0 := by
  cases leap : isLeap year with
  | true => simp [daysInMonths, daysInMonth, leap]
  | false => simp [daysInMonths, daysInMonth, leap]

theorem year_start_succ {year : Nat} (positive : 1 ≤ year) :
    yearStart (year + 1) = yearStart year + daysInMonths year 12 := by
  obtain ⟨before, rfl⟩ : ∃ before, year = before + 1 := ⟨year - 1, by omega⟩
  rw [days_in_year]
  simp only [yearStart, isLeap, Nat.add_sub_cancel, Nat.succ_div, Nat.dvd_iff_mod_eq_zero]
  by_cases four : (before + 1) % 4 = 0
  · by_cases century : (before + 1) % 100 = 0
    · by_cases era : (before + 1) % 400 = 0
      · simp [four, century, era]
        omega
      · simp [four, century, era]
        omega
    · have era : (before + 1) % 400 ≠ 0 := by omega
      simp [four, century, era]
      omega
  · have century : (before + 1) % 100 ≠ 0 := by omega
    have era : (before + 1) % 400 ≠ 0 := by omega
    simp [four, century, era]
    omega

theorem year_start_mono {first second : Nat} (positive : 1 ≤ first) (le : first ≤ second) :
    yearStart first ≤ yearStart second := by
  induction le with
  | refl => exact Nat.le_refl _
  | step later ih =>
      rw [year_start_succ (positive.trans later)]
      exact ih.trans (Nat.le_add_right _ _)

namespace Date

theorem ordinal_eq (date : Date) :
    date.ordinal = yearStart date.year + daysInMonths date.year (date.month - 1) + date.day := by
  unfold ordinal
  dsimp only
  rw [days_in_months_fold]
  rfl

theorem ordinal_le (date : Date) :
    date.ordinal ≤ yearStart date.year + daysInMonths date.year date.month := by
  obtain ⟨n, month⟩ : ∃ n, date.month = n + 1 := ⟨date.month - 1, by
    have months := date.monthBounds
    omega⟩
  have days := date.dayBounds.2
  rw [ordinal_eq, month, daysInMonths, Nat.add_sub_cancel]
  rw [month] at days
  omega

theorem ordinal_strict : StrictMono ordinal := by
  intro left right less
  have upper := left.ordinal_le
  have months := left.monthBounds
  have day := right.dayBounds.1
  rw [lt_iff] at less
  rw [right.ordinal_eq]
  rcases less with year | ⟨year, month | ⟨month, day⟩⟩
  · have within := @days_in_months_mono left.year _ _ months.2
    have next := year_start_succ left.yearBounds.1
    have later := @year_start_mono (left.year + 1) right.year (by omega) year
    omega
  · have within := @days_in_months_mono left.year left.month (right.month - 1) (by omega)
    rw [← year]
    omega
  · rw [left.ordinal_eq, year, month]
    omega

theorem ordinal_injective {left right : Date} (same : left.ordinal = right.ordinal) :
    left = right :=
  ordinal_strict.injective same

theorem ordinal_tomorrow {date next : Date} (made : date.tomorrow = some next) :
    next.ordinal = date.ordinal + 1 := by
  obtain ⟨n, month⟩ : ∃ n, date.month = n + 1 := ⟨date.month - 1, by
    have months := date.monthBounds
    omega⟩
  have days := date.dayBounds.2
  rw [month] at days
  unfold tomorrow at made
  split at made
  · cases made
    rw [ordinal_eq, ordinal_eq]
    exact (Nat.add_assoc _ _ _).symm
  · rename_i last
    rw [month] at last
    have end_ : date.ordinal = yearStart date.year + daysInMonths date.year date.month := by
      rw [ordinal_eq, month, daysInMonths, Nat.add_sub_cancel]
      omega
    rw [end_]
    split at made
    · obtain ⟨years, months, day⟩ := ofNumbers_eq_some made
      have year : next.year = date.year := by omega
      have following : next.month = date.month + 1 := by omega
      have first : next.day = 1 := by omega
      rw [ordinal_eq, year, following, first, Nat.add_sub_cancel]
    · obtain ⟨years, months, day⟩ := ofNumbers_eq_some made
      have year : next.year = date.year + 1 := by omega
      have january : next.month = 1 := by omega
      have first : next.day = 1 := by omega
      have december : date.month = 12 := by
        have bounds := date.monthBounds
        omega
      rw [ordinal_eq, year, january, first, december, year_start_succ date.yearBounds.1]
      rfl

theorem tomorrow_of_lt {date later : Date} (less : date < later) :
    ∃ next, date.tomorrow = some next := by
  have years := date.yearBounds
  have months := date.monthBounds
  have laterYears := later.yearBounds
  have laterMonths := later.monthBounds
  have laterDay := later.dayBounds
  rw [lt_iff] at less
  unfold tomorrow
  split
  · exact ⟨_, rfl⟩
  · rename_i last
    split
    · have days := daysInMonth_bounds (date.year : Int).toNat ((date.month : Int) + 1).toNat
      exact ofNumbers_of_valid (by omega) (by omega) (by omega)
    · have december : date.month = 12 := by omega
      have year : date.year < later.year := by
        rcases less with year | ⟨year, month | ⟨month, day⟩⟩
        · exact year
        · omega
        · rw [← year, ← month] at laterDay
          omega
      have days := daysInMonth_bounds ((date.year : Int) + 1).toNat (1 : Int).toNat
      exact ofNumbers_of_valid (by omega) (by omega) (by omega)

theorem ordinal_plusDays {date next : Date} {days : Nat} (made : date.plusDays days = some next) :
    next.ordinal = date.ordinal + days := by
  induction days generalizing date with
  | zero =>
      cases made
      rfl
  | succ days ih =>
      obtain ⟨tomorrow, step, rest⟩ := Option.bind_eq_some_iff.mp made
      rw [ih rest, ordinal_tomorrow step]
      omega

theorem plusDays_of_ordinal {date later : Date} {days : Nat}
    (same : later.ordinal = date.ordinal + days) : date.plusDays days = some later := by
  induction days generalizing date with
  | zero => exact congrArg some (ordinal_injective same.symm)
  | succ days ih =>
      have less : date < later := ordinal_strict.lt_iff_lt.mp (by omega)
      obtain ⟨next, step⟩ := tomorrow_of_lt less
      have one := ordinal_tomorrow step
      refine Option.bind_eq_some_iff.mpr ⟨next, step, ih (by omega)⟩

theorem plusDays_add (date : Date) (first second : Nat) :
    date.plusDays (first + second) = (date.plusDays first).bind fun next => next.plusDays second := by
  induction first generalizing date with
  | zero => rw [Nat.zero_add]; rfl
  | succ first ih =>
      rw [Nat.succ_add, plusDays, plusDays]
      cases date.tomorrow with
      | none => rfl
      | some next => exact ih next

theorem plusDays_least (date : Date) (days : Nat) :
    LeastOf (fun other => date.ordinal + days ≤ other.ordinal) (date.plusDays days) := by
  cases made : date.plusDays days with
  | none =>
      intro other after
      have reached : date.plusDays (days + (other.ordinal - date.ordinal - days)) = some other :=
        plusDays_of_ordinal (by omega)
      rw [plusDays_add, made] at reached
      cases reached
  | some next =>
      have ordinal := ordinal_plusDays made
      refine ⟨ordinal.ge, fun other after => ?_⟩
      apply ordinal_strict.le_iff_le.mp
      omega

end Date

end Yomochi.Foundation
