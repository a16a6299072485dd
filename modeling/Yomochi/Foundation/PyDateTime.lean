import Yomochi.Foundation.DateTime

/-! `datetime.fromisoformat`: points in time with a zone, or with none. -/

namespace Yomochi.Foundation

/-- What a `timezone` lies off UTC, in microseconds: less than a day. -/
abbrev Zone := { offset : Int // offset.natAbs < 86400000000 }

/-- A `datetime`: a date, the microseconds of the day, and the zone; without one it is naive. -/
structure PyDateTime where
  date : Date
  microseconds : Nat
  bounded : microseconds < 86400000000
  zone : Option Zone

structure Clock where
  hour : Nat
  minute : Nat
  second : Nat
  microsecond : Nat
  deriving DecidableEq

namespace Clock

def total (clock : Clock) : Nat :=
  ((clock.hour * 60 + clock.minute) * 60 + clock.second) * 1000000 + clock.microsecond

/-- Up to so many numbers of two digits, with colons between all of them or none. -/
def numbers (colons : Bool) : Nat → Text → Option (List Nat × Text)
  | 0, source => some ([], source)
  | count + 1, source => do
      let (number, rest) ← parseDigits 2 source
      if rest = [] ∨ count = 0 then some ([number], rest)
      else
        let rest ← if colons then DateTime.expect ':'.toNat rest else some rest
        let (others, rest) ← numbers colons count rest
        some (number :: others, rest)

def fraction : Text → Option Nat
  | [] => some 0
  | c :: digits =>
      if (c = '.'.toNat ∨ c = ','.toNat) ∧ digits ≠ [] ∧ digits.all isDigit then
        let first := digits.take 6
        some (digitsValue first * Nat.pow 10 (6 - first.length))
      else none

/-- `HH[:?MM[:?SS[{.,}f+]]]` -/
def parse (source : Text) : Option Clock := do
  let (read, rest) ← numbers (decide ((source.drop 2).head? = some ':'.toNat)) 3 source
  let microsecond ← fraction rest
  some ⟨read.getD 0 0, read.getD 1 0, read.getD 2 0, microsecond⟩

end Clock

namespace PyDateTime

def separatorAt (source : Text) : Option Nat :=
  if source.length < 7 then none
  else if source.length = 7 then some 7
  else if source[4]? = some '-'.toNat then
    if source[5]? = some 'W'.toNat then
      if source[8]? = some '-'.toNat then
        if source.length = 9 then none
        -- a dash behind the week separates, when a digit stands where a day would have ended
        else if source[10]?.any isDigit then some 8
        else some 10
      else some 8
    else some 10
  else if source[4]? = some 'W'.toNat then
    let digits := 7 + ((source.drop 7).takeWhile isDigit).length
    if digits < 9 then some digits else if digits % 2 = 0 then some 7 else some 8
  else some 8

def isZoneMark (c : Nat) : Bool := c = '+'.toNat || c = '-'.toNat || c = 'Z'.toNat

def parseZone : Text → Option (Option Zone)
  | [] => some none
  | mark :: zone =>
      if mark = 'Z'.toNat then if zone = [] then some (some ⟨0, by decide⟩) else none
      else if zone.length ∈ [0, 1, 3] then none
      else do
        let clock ← Clock.parse zone
        let offset : Int := if mark = '-'.toNat then -(clock.total : Int) else clock.total
        if bounded : offset.natAbs < 86400000000 then some (some ⟨offset, bounded⟩) else none

/-- What stands behind the date. Without a separator it is midnight. -/
def parseTime (date : Date) : Text → Option PyDateTime
  | [] => some ⟨date, 0, by decide, none⟩
  | _ :: source =>
      let time := source.takeWhile fun c => !isZoneMark c
      do
        let clock ← Clock.parse time
        let zone ← parseZone (source.drop time.length)
        if clock.minute < 60 ∧ clock.second < 60 then
          if bounded : clock.total < 86400000000 then some ⟨date, clock.total, bounded, zone⟩
          else none
        else none

def fromIsoformat (source : Text) : Option PyDateTime := do
  let separator ← separatorAt source
  let date ← Date.fromIsoformat (source.take separator)
  parseTime date (source.drop separator)

def isAware (time : PyDateTime) : Bool := time.zone.isSome

def ofUtc (time : DateTime) : PyDateTime where
  date := time.date
  microseconds := time.microseconds
  bounded := time.bounded
  zone := some ⟨0, by decide⟩

example : (fromIsoformat (text "2026-W07-3 09:30:05,25-0330")).map (·.zone.map (·.val)) =
    some (some (-12600000000)) := by
  decide +kernel

example : (fromIsoformat (text "20260211T0930")).map isAware = some false := by
  decide +kernel

example : (fromIsoformat (text "20260211T")).isNone = true := by decide +kernel

/-! The text of a point in time of UTC. -/

theorem date_dash (date : Date) (rest : Text) :
    (date.isoformat ++ rest)[4]? = some '-'.toNat := by
  have year := padded_length (by decide) date.year_fits
  rw [Date.isoformat, List.append_assoc, List.append_assoc,
    List.getElem?_append_right (Nat.le_of_eq year), year]
  rfl

theorem date_month (date : Date) (rest : Text) :
    (date.isoformat ++ rest)[5]? ≠ some 'W'.toNat := by
  have year := padded_length (by decide) date.year_fits
  have month := padded_length (by decide) date.month_fits
  rw [Date.isoformat, List.append_assoc, List.append_assoc,
    List.getElem?_append_right (by omega), year]
  cases digits : padded 2 date.month with
  | nil =>
      rw [digits] at month
      cases month
  | cons c others =>
      have digit : isDigit c = true := padded_digits (digits ▸ List.mem_cons_self)
      intro week
      cases week
      exact absurd digit (by decide)

theorem separator_isoformat (date : Date) {rest : Text} (some : rest ≠ []) :
    separatorAt (date.isoformat ++ rest) = .some 10 := by
  have length : 10 < (date.isoformat ++ rest).length := by
    rw [List.length_append, date.isoformat_length]
    have positive := List.length_pos_iff.mpr some
    omega
  rw [separatorAt, if_neg (by omega), if_neg (by omega), if_pos (date_dash date rest),
    if_neg (date_month date rest)]

def clockText (clock : Clock) : Text :=
  padded 2 clock.hour ++ ':'.toNat :: (padded 2 clock.minute ++ ':'.toNat ::
    (padded 2 clock.second ++ DateTime.fractionText clock.microsecond))

theorem fraction_text {fraction : Nat} (fits : fraction < Nat.pow 10 6) :
    Clock.fraction (DateTime.fractionText fraction) = some fraction := by
  unfold DateTime.fractionText
  split
  · rename_i zero
    rw [zero]
    rfl
  · have length := padded_length (by decide) fits
    have some : padded 6 fraction ≠ [] := fun empty => by
      rw [empty] at length
      cases length
    have digits : (padded 6 fraction).all isDigit = true :=
      List.all_eq_true.mpr fun c member => padded_digits member
    have first : (padded 6 fraction).take 6 = padded 6 fraction :=
      List.take_of_length_le (Nat.le_of_eq length)
    rw [Clock.fraction, if_pos ⟨.inl rfl, some, digits⟩, first]
    change Option.some (digitsValue _ * Nat.pow 10 (6 - (padded 6 fraction).length)) = _
    rw [length, digits_value_padded]
    exact congrArg Option.some (Nat.mul_one fraction)

theorem parse_clock {clock : Clock} (hour : clock.hour < Nat.pow 10 2)
    (minute : clock.minute < Nat.pow 10 2) (second : clock.second < Nat.pow 10 2)
    (microsecond : clock.microsecond < Nat.pow 10 6) :
    Clock.parse (clockText clock) = some clock := by
  have colon : ((clockText clock).drop 2).head? = some ':'.toNat := by
    rw [clockText, List.drop_left' (padded_length (by decide) hour)]
    rfl
  have last := parse_padded (by decide) second (DateTime.fractionText clock.microsecond)
  have read : Clock.numbers true 3 (clockText clock) =
      some ([clock.hour, clock.minute, clock.second],
        DateTime.fractionText clock.microsecond) := by
    simp [Clock.numbers, clockText, parse_padded (by decide) hour,
      parse_padded (by decide) minute, last]
  rw [Clock.parse, colon, decide_eq_true rfl, read]
  simp only [Option.bind_eq_bind, Option.bind_some, fraction_text microsecond]
  rfl

theorem clock_text_unmarked (clock : Clock) : ∀ c ∈ clockText clock, isZoneMark c = false := by
  have digit {width n : Nat} : ∀ c ∈ padded width n, isZoneMark c = false := by
    intro c member
    have bounds := padded_digits member
    simp only [isDigit, Bool.and_eq_true, decide_eq_true_eq] at bounds
    have marks : ∀ c ≤ '9'.toNat, '0'.toNat ≤ c → isZoneMark c = false := by decide
    exact marks c bounds.2 bounds.1
  have fraction : ∀ c ∈ DateTime.fractionText clock.microsecond, isZoneMark c = false := by
    unfold DateTime.fractionText
    split
    · intro c member
      cases member
    · exact List.forall_mem_cons.mpr ⟨by decide, digit⟩
  simp only [clockText, List.forall_mem_append, List.forall_mem_cons]
  exact ⟨digit, by decide, digit, by decide, digit, fraction⟩

theorem from_isoformat_isoformat (time : DateTime) :
    fromIsoformat time.isoformat = some (ofUtc time) := by
  have bounded := time.bounded
  let clock : Clock := ⟨time.microseconds / 1000000 / 3600,
    time.microseconds / 1000000 / 60 % 60, time.microseconds / 1000000 % 60,
    time.microseconds % 1000000⟩
  have total : clock.total = time.microseconds := by
    simp only [Clock.total, clock]
    omega
  have parsed : Clock.parse (clockText clock) = some clock :=
    parse_clock (by simp only [Nat.pow_eq, clock]; omega) (by simp only [Nat.pow_eq, clock]; omega)
      (by simp only [Nat.pow_eq, clock]; omega) (by simp only [Nat.pow_eq, clock]; omega)
  have whole : time.isoformat = time.date.isoformat ++ 'T'.toNat ::
      (clockText clock ++ text "+00:00") := by
    simp [DateTime.isoformat, clockText, clock]
  have unmarked : (clockText clock ++ text "+00:00").takeWhile (fun c => !isZoneMark c) =
      clockText clock := by
    rw [List.takeWhile_append_of_pos fun c member => by simp [clock_text_unmarked clock c member]]
    exact List.append_nil _
  have utc : parseZone (text "+00:00") = .some (.some ⟨0, by decide⟩) := rfl
  have length := time.date.isoformat_length
  rw [fromIsoformat, whole, separator_isoformat _ (List.cons_ne_nil _ _)]
  simp only [Option.bind_eq_bind, Option.bind_some]
  rw [List.take_left' length, Date.from_isoformat_isoformat, Option.bind_some,
    List.drop_left' length, parseTime]
  simp only [unmarked, parsed, List.drop_left, utc, Option.bind_eq_bind, Option.bind_some]
  rw [if_pos (by simp only [clock]; omega), dif_pos (total ▸ bounded)]
  simp only [total, ofUtc]

end PyDateTime

end Yomochi.Foundation
