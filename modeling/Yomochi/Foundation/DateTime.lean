import Mathlib.Data.Prod.Lex
import Yomochi.Foundation.IsoFormat
import Yomochi.Foundation.Utf8

/-! Dates and points in time: their order, and the texts that hold them. -/

namespace Yomochi.Foundation

/-- Points in time of UTC, as the `timestamptz` columns hold them: a date and the microseconds of
the day. -/
structure DateTime where
  date : Date
  microseconds : Nat
  bounded : microseconds < 86400000000
  deriving DecidableEq

theorem padded_ascii (width n : Nat) : Ascii (padded width n) := by
  intro c member
  have digit := padded_digits member
  simp only [isDigit, Bool.and_eq_true, decide_eq_true_eq] at digit
  exact Nat.lt_of_le_of_lt digit.2 (by decide)

namespace Date

theorem stamp_injective {left right : Date} (same : left.stamp = right.stamp) : left = right := by
  have notLeft := not_lt.mpr (le_of_eq same.symm : right ≤ left)
  have notRight := not_lt.mpr (le_of_eq same : left ≤ right)
  rw [lt_iff] at notLeft notRight
  have year : left.year = right.year := by omega
  have month : left.month = right.month := by omega
  have day : left.day = right.day := by omega
  cases left
  cases right
  simp_all

theorem isoformat_ascii (date : Date) : Ascii date.isoformat :=
  ascii_append (ascii_append (padded_ascii _ _) (ascii_cons (by decide) (padded_ascii _ _)))
    (ascii_cons (by decide) (padded_ascii _ _))

instance : LinearOrder Date where
  le_refl := Date.le_refl
  le_trans _ _ _ := Date.le_trans
  le_antisymm _ _ one two := stamp_injective (Nat.le_antisymm one two)
  le_total left right := Nat.le_total left.stamp right.stamp
  lt_iff_le_not_ge left right := @lt_iff_le_not_ge Nat _ left.stamp right.stamp
  toDecidableLE := inferInstance
  toDecidableLT := inferInstance

end Date

namespace DateTime

def ordered (time : DateTime) : Date ×ₗ Nat := toLex (time.date, time.microseconds)

theorem ordered_injective : Function.Injective ordered := by
  rintro ⟨date, microseconds, _⟩ ⟨date', microseconds', _⟩ same
  cases same
  rfl

instance : LinearOrder DateTime := LinearOrder.lift' ordered ordered_injective

/-- The microseconds of a second, where it has some. -/
def fractionText (fraction : Nat) : Text :=
  if fraction = 0 then [] else '.'.toNat :: padded 6 fraction

def isoformat (time : DateTime) : Text :=
  let seconds := time.microseconds / 1000000
  time.date.isoformat ++ 'T'.toNat :: padded 2 (seconds / 3600) ++
    ':'.toNat :: padded 2 (seconds / 60 % 60) ++ ':'.toNat :: padded 2 (seconds % 60) ++
    fractionText (time.microseconds % 1000000) ++ text "+00:00"

def expect (wanted : Nat) : Text → Option Text
  | c :: rest => if c = wanted then some rest else none
  | [] => none

def parseFraction (source : Text) : Option (Nat × Text) :=
  match source with
  | c :: digits => if c = '.'.toNat then parseDigits 6 digits else some (0, source)
  | [] => some (0, source)

def fromIsoformat (source : Text) : Option DateTime := do
  let date ← Date.fromIsoformat (source.take 10)
  let rest ← expect 'T'.toNat (source.drop 10)
  let (hour, rest) ← parseDigits 2 rest
  let rest ← expect ':'.toNat rest
  let (minute, rest) ← parseDigits 2 rest
  let rest ← expect ':'.toNat rest
  let (second, rest) ← parseDigits 2 rest
  let (fraction, rest) ← parseFraction rest
  if rest = text "+00:00" ∧ minute < 60 ∧ second < 60 then
    let microseconds := ((hour * 60 + minute) * 60 + second) * 1000000 + fraction
    if bounded : microseconds < 86400000000 then some ⟨date, microseconds, bounded⟩ else none
  else none

@[simp] theorem expect_cons (c : Nat) (rest : Text) : expect c (c :: rest) = some rest := if_pos rfl

theorem parse_fraction {fraction : Nat} (fits : fraction < Nat.pow 10 6) :
    parseFraction (fractionText fraction ++ text "+00:00") = some (fraction, text "+00:00") := by
  unfold fractionText
  split
  · rename_i zero
    subst zero
    rfl
  · rw [List.cons_append, parseFraction, if_pos rfl, parse_padded (by decide) fits]

theorem from_isoformat_isoformat (time : DateTime) : fromIsoformat time.isoformat = some time := by
  have bounded := time.bounded
  have day := time.date.isoformat_length
  have hour (rest : Text) := parse_padded (by decide)
    (show time.microseconds / 1000000 / 3600 < Nat.pow 10 2 by rw [Nat.pow_eq]; omega) rest
  have minute (rest : Text) := parse_padded (by decide)
    (show time.microseconds / 1000000 / 60 % 60 < Nat.pow 10 2 by rw [Nat.pow_eq]; omega) rest
  have second (rest : Text) := parse_padded (by decide)
    (show time.microseconds / 1000000 % 60 < Nat.pow 10 2 by rw [Nat.pow_eq]; omega) rest
  have fraction := parse_fraction
    (show time.microseconds % 1000000 < Nat.pow 10 6 by rw [Nat.pow_eq]; omega)
  have total : ((time.microseconds / 1000000 / 3600 * 60 + time.microseconds / 1000000 / 60 % 60) *
      60 + time.microseconds / 1000000 % 60) * 1000000 + time.microseconds % 1000000 =
        time.microseconds := by omega
  have whole : time.isoformat = time.date.isoformat ++ ('T'.toNat ::
      (padded 2 (time.microseconds / 1000000 / 3600) ++ (':'.toNat ::
        (padded 2 (time.microseconds / 1000000 / 60 % 60) ++ (':'.toNat ::
          (padded 2 (time.microseconds / 1000000 % 60) ++
            (fractionText (time.microseconds % 1000000) ++ text "+00:00"))))))) := by
    simp [isoformat]
  rw [fromIsoformat, whole, List.take_left' day, List.drop_left' day,
    Date.from_isoformat_isoformat]
  simp only [Option.bind_eq_bind, Option.bind_some, expect_cons, hour, minute, second, fraction,
    total]
  rw [if_pos ⟨trivial, by omega, by omega⟩, dif_pos bounded]

theorem isoformat_ascii (time : DateTime) : Ascii time.isoformat := by
  have fraction : Ascii (fractionText (time.microseconds % 1000000)) := by
    unfold fractionText
    split
    · exact nofun
    · exact ascii_cons (by decide) (padded_ascii _ _)
  have mark {c : Nat} (small : c < 0x80) (n : Nat) : Ascii (c :: padded 2 n) :=
    ascii_cons small (padded_ascii _ _)
  exact ascii_append (ascii_append (ascii_append (ascii_append (ascii_append
    time.date.isoformat_ascii (mark (by decide) _)) (mark (by decide) _)) (mark (by decide) _))
    fraction) (by decide)

end DateTime

end Yomochi.Foundation
