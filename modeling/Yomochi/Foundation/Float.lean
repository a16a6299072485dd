import Mathlib.Data.Int.Log
import Mathlib.Data.Rat.Floor

/-! Python's `float`: rationals with 53 significant bits, the infinities and NaN. The two
zeros are one. -/

namespace Yomochi.Foundation

inductive PyFloat
  | finite (value : ℚ)
  | infinity (negative : Bool)
  | nan
  deriving DecidableEq, Repr

def roundHalfEven (value : ℚ) : Int :=
  let below := ⌊value⌋
  let rest := value - below
  if rest < 1 / 2 ∨ (rest = 1 / 2 ∧ below % 2 = 0) then below else below + 1

def lastPlace (value : ℚ) : Int :=
  max (Int.log 2 |value| - 52) (-1074)

def PyFloat.ofRat (value : ℚ) : PyFloat :=
  let unit : ℚ := 2 ^ lastPlace value
  let rounded := roundHalfEven (value / unit) * unit
  if 2 ^ 1024 ≤ |rounded| then .infinity (decide (rounded < 0)) else .finite rounded

end Yomochi.Foundation
