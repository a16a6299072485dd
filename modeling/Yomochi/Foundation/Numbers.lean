import Yomochi.Foundation.Float
import Yomochi.Foundation.Text

/-! Python's numbers: `int` of a text, the arithmetic of `decimal` in its default context, and
floats that stay finite. -/

namespace Yomochi.Foundation

/-! `int(text)`. -/

def decimalZeros : List Nat :=
  [0x30, 0x660, 0x6F0, 0x7C0, 0x966, 0x9E6, 0xA66, 0xAE6, 0xB66, 0xBE6, 0xC66, 0xCE6, 0xD66, 0xDE6,
    0xE50, 0xED0, 0xF20, 0x1040, 0x1090, 0x17E0, 0x1810, 0x1946, 0x19D0, 0x1A80, 0x1A90, 0x1B50,
    0x1BB0, 0x1C40, 0x1C50, 0xA620, 0xA8D0, 0xA900, 0xA9D0, 0xA9F0, 0xAA50, 0xABF0, 0xFF10,
    0x104A0, 0x10D30, 0x11066, 0x110F0, 0x11136, 0x111D0, 0x112F0, 0x11450, 0x114D0, 0x11650,
    0x116C0, 0x11730, 0x118E0, 0x11950, 0x11C50, 0x11D50, 0x11DA0, 0x11F50, 0x16A60, 0x16AC0,
    0x16B50, 0x1D7CE, 0x1D7D8, 0x1D7E2, 0x1D7EC, 0x1D7F6, 0x1E140, 0x1E2F0, 0x1E4F0, 0x1E950,
    0x1FBF0]

/-- In a text that is not ASCII, digits and blanks of other scripts stand for the ASCII ones. -/
def asciiNumeral (source : Text) : Text :=
  if source.all (· < 128) then source
  else source.map fun c =>
    if c < 127 then c
    else if isSpace c then 32
    else
      match decimalZeros.find? fun first => first ≤ c && c < first + 10 with
      | some first => '0'.toNat + (c - first)
      | none => '?'.toNat

def isAsciiBlank (c : Nat) : Bool := c = 32 || (9 ≤ c && c ≤ 13)

/-- Digits with single underscores between them; `behind` says that a digit came last. -/
def numeralDigits (behind : Bool) : Text → Option Text
  | [] => if behind then some [] else none
  | c :: rest =>
      if isDigit c then (numeralDigits true rest).map (c :: ·)
      else if c = '_'.toNat ∧ behind then numeralDigits false rest
      else none

def maxStrDigits : Nat := 4300

def unsignedOfText (source : Text) : Option Nat :=
  match numeralDigits false source with
  | some digits => if maxStrDigits < digits.length then none else some (digitsValue digits)
  | none => none

/-- `int(text)`; `none` is a `ValueError`. -/
def intOfText (source : Text) : Option Int :=
  let body := (asciiNumeral source).dropWhile isAsciiBlank
  match (body.reverse.dropWhile isAsciiBlank).reverse with
  | c :: rest =>
      if c = '-'.toNat then (unsignedOfText rest).map fun value => -(value : Int)
      else if c = '+'.toNat then (unsignedOfText rest).map fun value => (value : Int)
      else (unsignedOfText (c :: rest)).map fun value => (value : Int)
  | [] => none

/-! `decimal.Decimal`, by its values: the exponents show in texts only. -/

def significant (digits : Nat) (value : ℚ) : ℚ :=
  let unit : ℚ := 10 ^ (Int.log 10 |value| + 1 - digits)
  roundHalfEven (value / unit) * unit

def inContext (value : ℚ) : ℚ := significant 28 value

def decimalSum (values : List ℚ) : ℚ :=
  values.foldl (fun total value => inContext (total + value)) 0

/-! `float`, by its values. -/

def toFloat (value : ℚ) : ℚ :=
  let unit : ℚ := 2 ^ lastPlace value
  roundHalfEven (value / unit) * unit

/-- The value of `str(float)`: of the shortest decimals that are read as the float, the nearest
one. -/
def shortestDecimal (value : ℚ) : ℚ :=
  let candidate (digits : Nat) : Option ℚ :=
    let unit : ℚ := 10 ^ (Int.log 10 |value| - digits)
    let below : ℚ := ⌊value / unit⌋ * unit
    let above : ℚ := below + unit
    match decide (toFloat below = value), decide (toFloat above = value) with
    | true, true => some (if value - below ≤ above - value then below else above)
    | true, false => some below
    | false, true => some above
    | false, false => none
  ((List.range 17).findSome? candidate).getD value

/-- `statistics.mean` of floats: the exact mean, rounded once. -/
def floatMean (values : List ℚ) : ℚ :=
  toFloat (values.foldl (· + ·) 0 / values.length)

end Yomochi.Foundation
