import Yomochi.Foundation.Calendar
import Yomochi.Foundation.Text

/-! Dates as texts, and the days of ISO weeks. -/

namespace Yomochi.Foundation

/-- `f"{n:0{width}d}"`. -/
def padded (width n : Nat) : Text :=
  List.replicate (width - (decimal n).length) '0'.toNat ++ decimal n

def parseDigits (count : Nat) (source : Text) : Option (Nat × Text) :=
  let digits := source.take count
  if digits.length = count ∧ digits.all isDigit then some (digitsValue digits, source.drop count)
  else none

theorem decimal_short {width n : Nat} (positive : 0 < width) (fits : n < Nat.pow 10 width) :
    (decimal n).length ≤ width := by
  rw [decimal, List.length_map]
  exact (Nat.length_toDigits_le_iff (by decide) positive).mpr fits

theorem padded_length {width n : Nat} (positive : 0 < width) (fits : n < Nat.pow 10 width) :
    (padded width n).length = width := by
  have short := decimal_short positive fits
  rw [padded, List.length_append, List.length_replicate]
  omega

theorem padded_digits {width n c : Nat} (member : c ∈ padded width n) : isDigit c = true := by
  rcases List.mem_append.mp member with zero | digit
  · rw [List.eq_of_mem_replicate zero]
    decide
  · exact decimal_digits digit

theorem digits_value_padded (width n : Nat) : digitsValue (padded width n) = n := by
  rw [padded, digits_value_zeros, digits_value_decimal]

theorem parse_padded {width n : Nat} (positive : 0 < width) (fits : n < Nat.pow 10 width) (rest : Text) :
    parseDigits width (padded width n ++ rest) = some (n, rest) := by
  have length := padded_length positive fits
  have front : (padded width n ++ rest).take width = padded width n := by
    rw [List.take_append_of_le_length (Nat.le_of_eq length.symm),
      List.take_of_length_le (Nat.le_of_eq length)]
  have back : (padded width n ++ rest).drop width = rest := List.drop_left' length
  have digits : (padded width n).all isDigit = true :=
    List.all_eq_true.mpr fun c member => padded_digits member
  rw [parseDigits, front, back, if_pos ⟨length, digits⟩, digits_value_padded]

/-! Numbers of one width are ordered as their texts. -/

theorem of_digits_start (start : Nat) (digits : List Nat) :
    digits.foldl (fun value digit => value * 10 + digit) start =
      start * Nat.pow 10 digits.length + ofDigits 10 digits := by
  unfold ofDigits
  induction digits generalizing start with
  | nil =>
      change start = start * 1 + 0
      omega
  | cons digit digits ih =>
      rw [List.foldl_cons, List.foldl_cons, ih, ih (0 * 10 + digit), List.length_cons]
      change _ = start * (Nat.pow 10 digits.length * 10) + _
      rw [Nat.add_mul, Nat.zero_mul, Nat.zero_add, Nat.mul_assoc, Nat.mul_comm 10]
      omega

theorem digits_value_cons (c : Nat) (rest : Text) :
    digitsValue (c :: rest) = (c - '0'.toNat) * Nat.pow 10 rest.length + digitsValue rest := by
  have front := of_digits_start (c - '0'.toNat) (rest.map fun c => c - '0'.toNat)
  rw [List.length_map] at front
  rw [digitsValue, ofDigits, List.map_cons, List.foldl_cons, Nat.zero_mul, Nat.zero_add]
  exact front

theorem digits_value_lt {digits : Text} (valid : ∀ c ∈ digits, isDigit c = true) :
    digitsValue digits < Nat.pow 10 digits.length := by
  induction digits with
  | nil => exact Nat.one_pos
  | cons c rest ih =>
      have small := ih fun d member => valid d (List.mem_cons_of_mem c member)
      have digit := valid c List.mem_cons_self
      simp only [isDigit, Bool.and_eq_true, decide_eq_true_eq] at digit
      have nine : c - '0'.toNat ≤ 9 := by
        have last := digit.2
        change c ≤ 57 at last
        change c - 48 ≤ 9
        omega
      have scaled := Nat.mul_le_mul_right (Nat.pow 10 rest.length) nine
      rw [digits_value_cons, List.length_cons]
      change _ < Nat.pow 10 rest.length * 10
      omega

theorem text_lt_digits {first second : Text} (same : first.length = second.length)
    (one : ∀ c ∈ first, isDigit c = true) (two : ∀ c ∈ second, isDigit c = true) :
    textLt first second = decide (digitsValue first < digitsValue second) := by
  induction first generalizing second with
  | nil =>
      cases second with
      | nil => rfl
      | cons => cases same
  | cons c first ih =>
      cases second with
      | nil => cases same
      | cons d second =>
          have lengths : first.length = second.length := Nat.succ.inj same
          have oneRest := fun e member => one e (List.mem_cons_of_mem c member)
          have twoRest := fun e member => two e (List.mem_cons_of_mem d member)
          have oneSmall := digits_value_lt oneRest
          have twoSmall := digits_value_lt twoRest
          have oneDigit := one c List.mem_cons_self
          have twoDigit := two d List.mem_cons_self
          simp only [isDigit, Bool.and_eq_true, decide_eq_true_eq] at oneDigit twoDigit
          rw [textLt, ih lengths oneRest twoRest, digits_value_cons, digits_value_cons, lengths]
          rw [lengths] at oneSmall
          rcases Nat.lt_trichotomy c d with less | equal | greater
          · have scaled := Nat.mul_le_mul_right (Nat.pow 10 second.length)
              (show c - '0'.toNat + 1 ≤ d - '0'.toNat by omega)
            rw [Nat.add_mul] at scaled
            simp only [less, decide_true, Bool.true_or]
            exact (decide_eq_true (by omega)).symm
          · simp [equal]
          · have scaled := Nat.mul_le_mul_right (Nat.pow 10 second.length)
              (show d - '0'.toNat + 1 ≤ c - '0'.toNat by omega)
            rw [Nat.add_mul] at scaled
            have apart : (c == d) = false := beq_eq_false_iff_ne.mpr (by omega)
            have notLess : ¬ c < d := by omega
            simp only [notLess, apart, decide_false, Bool.false_and, Bool.or_false]
            exact (decide_eq_false (by omega)).symm

theorem text_lt_padded {width one two : Nat} (positive : 0 < width)
    (oneFits : one < Nat.pow 10 width) (twoFits : two < Nat.pow 10 width) :
    textLt (padded width one) (padded width two) = decide (one < two) := by
  rw [text_lt_digits, digits_value_padded, digits_value_padded]
  · rw [padded_length positive oneFits, padded_length positive twoFits]
  · exact fun _ => padded_digits
  · exact fun _ => padded_digits

theorem padded_injective {width one two : Nat} (same : padded width one = padded width two) :
    one = two := by
  rw [← digits_value_padded width one, same, digits_value_padded]

/-- A number that has the width already is not padded. -/
theorem padded_long {width n : Nat} (long : Nat.pow 10 width ≤ n) :
    padded (width + 1) n = decimal n := by
  have length : ¬ (decimal n).length ≤ width := by
    rw [decimal, List.length_map]
    cases width with
    | zero =>
        have nonempty := List.length_pos_of_ne_nil (@Nat.toDigits_ne_nil n 10)
        omega
    | succ width =>
        rw [Nat.length_toDigits_le_iff (by decide) (by omega)]
        exact Nat.not_lt.mpr long
  rw [padded, show width + 1 - (decimal n).length = 0 by omega]
  rfl

namespace Date

def isoformat (date : Date) : Text :=
  padded 4 date.year ++ '-'.toNat :: padded 2 date.month ++ '-'.toNat :: padded 2 date.day

/-- Whether the ISO year has a 53rd week: it starts on a Thursday, or on a Wednesday and is a
leap year. -/
def hasWeek53 (firstDay : Date) : Bool :=
  firstDay.weekday = 3 || (firstDay.weekday = 2 && isLeap firstDay.year)

/-- The day of an ISO week, Monday being 1. Week 1 holds the year's first Thursday. -/
def ofIsoWeek (year week day : Nat) : Option Date :=
  match ofNumbers year 1 1 with
  | none => none
  | some firstDay =>
      if week = 0 ∨ 53 < week ∨ (week = 53 ∧ !firstDay.hasWeek53) ∨ day = 0 ∨ 7 < day then none
      else
        let days := (week - 1) * 7 + (day - 1)
        if firstDay.weekday ≤ 3 then
          if firstDay.weekday ≤ days then firstDay.plusDays (days - firstDay.weekday)
          else ofNumbers (year - 1) 12 (32 - (firstDay.weekday - days : Nat))
        else firstDay.plusDays (days + (7 - firstDay.weekday))

/-- A month and a day, with a dash between them where the year has one behind it. -/
def monthDayFormat (year : Nat) (dashed : Bool) (source : Text) : Option Date := do
  let (month, rest) ← parseDigits 2 source
  let rest ←
    if dashed then
      match rest with
      | c :: rest => if c = '-'.toNat then some rest else none
      | [] => none
    else some rest
  let (day, rest) ← parseDigits 2 rest
  if rest = [] then ofNumbers year month day else none

def weekFormat (year : Nat) (dashed : Bool) (source : Text) : Option Date := do
  let (week, rest) ← parseDigits 2 source
  if rest = [] then ofIsoWeek year week 1
  else
    let rest ←
      if dashed then
        match rest with
        | c :: rest => if c = '-'.toNat then some rest else none
        | [] => none
      else some rest
    let (day, _) ← parseDigits 1 rest
    ofIsoWeek year week day

def fromIsoformat (source : Text) : Option Date :=
  if source.length ∈ [7, 8, 10] then
    match parseDigits 4 source with
    | none => none
    | some (year, rest) =>
        let dashed := decide (rest.head? = some '-'.toNat)
        let rest := if dashed then rest.drop 1 else rest
        if rest.head? = some 'W'.toNat then weekFormat year dashed (rest.drop 1)
        else monthDayFormat year dashed rest
  else none

theorem ofNumbers_self (date : Date) : ofNumbers date.year date.month date.day = some date :=
  dif_pos ⟨date.yearBounds, date.monthBounds, date.dayBounds⟩

theorem year_fits (date : Date) : date.year < Nat.pow 10 4 := by
  obtain ⟨_, year⟩ := date.yearBounds
  exact Nat.lt_succ_of_le year

theorem month_fits (date : Date) : date.month < Nat.pow 10 2 := by
  obtain ⟨_, month⟩ := date.monthBounds
  exact Nat.lt_of_le_of_lt month (by decide)

theorem day_fits (date : Date) : date.day < Nat.pow 10 2 :=
  Nat.lt_of_le_of_lt date.day_le (by decide)

theorem isoformat_length (date : Date) : date.isoformat.length = 10 := by
  rw [isoformat, List.length_append, List.length_cons, List.length_append, List.length_cons,
    padded_length (by decide) date.year_fits, padded_length (by decide) date.month_fits,
    padded_length (by decide) date.day_fits]

theorem from_isoformat_isoformat (date : Date) : fromIsoformat date.isoformat = some date := by
  have year := parse_padded (by decide) date.year_fits
    ('-'.toNat :: padded 2 date.month ++ '-'.toNat :: padded 2 date.day)
  have month := parse_padded (by decide) date.month_fits ('-'.toNat :: padded 2 date.day)
  have day := parse_padded (by decide) date.day_fits []
  rw [List.append_nil] at day
  -- no digit of the month stands for a week
  have noWeek : (padded 2 date.month ++ '-'.toNat :: padded 2 date.day).head? ≠
      some 'W'.toNat := by
    have length := padded_length (by decide) date.month_fits
    cases digits : padded 2 date.month with
    | nil =>
        rw [digits] at length
        cases length
    | cons c rest =>
        have digit : isDigit c = true := padded_digits (digits ▸ List.mem_cons_self)
        intro same
        cases same
        exact absurd digit (by decide)
  rw [fromIsoformat, if_pos (by rw [isoformat_length]; decide), isoformat, List.append_assoc, year]
  simp only [List.cons_append, List.head?_cons, decide_true, if_true, List.drop_succ_cons,
    List.drop_zero, if_neg noWeek]
  rw [monthDayFormat, month]
  simp [day, ofNumbers_self]

end Date

end Yomochi.Foundation
