import Mathlib.Data.Nat.Log
import Yomochi.Foundation.Rounding

/-! Python's `decimal.Decimal`, and the rounding of a context. -/

namespace Yomochi.Foundation

/-- The payload of a NaN has no digits when it is zero. -/
inductive Decimal
  | finite (negative : Bool) (coefficient : Nat) (exponent : Int)
  | infinity (negative : Bool)
  | nan (negative signaling : Bool) (payload : Nat)
  deriving DecidableEq, Repr

namespace Decimal

def isFinite : Decimal → Bool
  | .finite _ _ _ => true
  | _ => false

def value : Decimal → Option ℚ
  | .finite negative coefficient exponent =>
      some ((if negative then -1 else 1) * (coefficient * 10 ^ exponent))
  | _ => none

def numDigits (coefficient : Nat) : Nat := Nat.log 10 coefficient + 1

end Decimal

/-- A context that rounds half to even. -/
structure DecimalContext where
  prec : Nat
  emin : Int
  emax : Int
  positive : 0 < prec
  ordered : emin ≤ 0 ∧ 0 ≤ emax

inductive Signal
  | overflow
  | invalidOperation
  | divisionByZero
  deriving DecidableEq, Repr

namespace DecimalContext

variable (context : DecimalContext)

def etiny : Int := context.emin - context.prec + 1

def etop : Int := context.emax - context.prec + 1

def fixNonzero (negative : Bool) (coefficient : Nat) (exponent : Int) : Except Signal Decimal :=
  let least := exponent + Decimal.numDigits coefficient - context.prec
  if context.etop < least then .error .overflow
  else
    let unit := max least context.etiny
    if exponent < unit then
      let rounded := (roundHalfEven (coefficient / 10 ^ (unit - exponent))).toNat
      if context.prec < Decimal.numDigits rounded then
        -- The carry makes a digit more.
        if context.etop < unit + 1 then .error .overflow
        else .ok (.finite negative (rounded / 10) (unit + 1))
      else .ok (.finite negative rounded unit)
    else .ok (.finite negative coefficient exponent)

def fix : Decimal → Except Signal Decimal
  | .finite negative coefficient exponent =>
      if coefficient = 0 then
        .ok (.finite negative 0 (min (max exponent context.etiny) context.emax))
      else context.fixNonzero negative coefficient exponent
  | .infinity negative => .ok (.infinity negative)
  | .nan negative signaling payload => .ok (.nan negative signaling (payload % Nat.pow 10 context.prec))

/-- The zeros at the end of a coefficient move into its exponent, until that is `emax`. -/
def stripZeros : Nat → Nat → Int → Nat × Int
  | 0, coefficient, exponent => (coefficient, exponent)
  | fuel + 1, coefficient, exponent =>
      if coefficient % 10 = 0 ∧ exponent < context.emax then
        stripZeros fuel (coefficient / 10) (exponent + 1)
      else (coefficient, exponent)

def normalize (decimal : Decimal) : Except Signal Decimal :=
  match decimal with
  | .nan _ true _ => .error .invalidOperation
  | decimal =>
      match context.fix decimal with
      | .ok (.finite negative coefficient exponent) =>
          if coefficient = 0 then .ok (.finite negative 0 0)
          else
            let (stripped, place) :=
              context.stripZeros (Decimal.numDigits coefficient) coefficient exponent
            .ok (.finite negative stripped place)
      | fixed => fixed

end DecimalContext

/-! What the rounding of a context does to the magnitude of a number. -/

theorem ten_zpow_pos (exponent : Int) : (0 : ℚ) < 10 ^ exponent := zpow_pos (by norm_num) exponent

theorem ten_zpow_le {low high : Int} : (10 : ℚ) ^ low ≤ 10 ^ high ↔ low ≤ high :=
  zpow_le_zpow_iff_right₀ (by norm_num)

theorem ten_zpow_lt {low high : Int} : (10 : ℚ) ^ low < 10 ^ high ↔ low < high :=
  zpow_lt_zpow_iff_right₀ (by norm_num)

theorem ten_zpow_add (left right : Int) : (10 : ℚ) ^ (left + right) = 10 ^ left * 10 ^ right :=
  zpow_add₀ (by norm_num) left right

theorem ten_zpow_sub (left right : Int) : (10 : ℚ) ^ (left - right) = 10 ^ left / 10 ^ right :=
  zpow_sub₀ (by norm_num) left right

theorem ten_zpow_int {exponent : Int} (whole : 0 ≤ exponent) :
    ∃ n : Int, (n : ℚ) = 10 ^ exponent ∧ (0 < exponent → n % 10 = 0) := by
  obtain ⟨k, rfl⟩ := Int.eq_ofNat_of_zero_le whole
  refine ⟨10 ^ k, by push_cast; rw [zpow_natCast], ?_⟩
  intro positive
  have nonzero : k ≠ 0 := by omega
  exact Int.emod_eq_zero_of_dvd (dvd_pow_self 10 nonzero)

theorem whole_at {q : ℚ} {n exponent low : Int} (whole : q = n * 10 ^ exponent)
    (le : low ≤ exponent) : ∃ m : Int, q = m * 10 ^ low := by
  obtain ⟨power, cast, _⟩ := ten_zpow_int (sub_nonneg.mpr le)
  refine ⟨n * power, ?_⟩
  push_cast
  rw [cast, mul_assoc, ← ten_zpow_add, sub_add_cancel]
  exact whole

theorem zpow_le_iff_le_log {q : ℚ} (positive : 0 < q) {exponent : Int} :
    10 ^ exponent ≤ q ↔ exponent ≤ Int.log 10 q := by
  have known := @Int.zpow_le_iff_le_log ℚ _ _ _ _ 10 (by norm_num) exponent q positive
  exact_mod_cast known

theorem lt_zpow_iff_log_lt {q : ℚ} (positive : 0 < q) {exponent : Int} :
    q < 10 ^ exponent ↔ Int.log 10 q < exponent := by
  rw [← not_le, zpow_le_iff_le_log positive, not_le]

theorem magnitude_pos {coefficient : Nat} (nonzero : coefficient ≠ 0) (exponent : Int) :
    0 < (coefficient : ℚ) * 10 ^ exponent :=
  mul_pos (Nat.cast_pos.mpr (Nat.pos_of_ne_zero nonzero)) (ten_zpow_pos exponent)

theorem log_magnitude {coefficient : Nat} (nonzero : coefficient ≠ 0) (exponent : Int) :
    Int.log 10 ((coefficient : ℚ) * 10 ^ exponent) = Nat.log 10 coefficient + exponent := by
  have positive := magnitude_pos nonzero exponent
  have low : (10 : ℚ) ^ (Nat.log 10 coefficient : Int) ≤ coefficient := by
    rw [zpow_natCast]
    exact_mod_cast Nat.pow_log_le_self 10 nonzero
  have high : (coefficient : ℚ) < 10 ^ ((Nat.log 10 coefficient : Int) + 1) := by
    have bound := Nat.lt_pow_succ_log_self (by norm_num : 1 < 10) coefficient
    have cast : (coefficient : ℚ) < 10 ^ (Nat.log 10 coefficient + 1) := by exact_mod_cast bound
    exact_mod_cast cast
  apply le_antisymm
  · apply Int.lt_add_one_iff.mp
    apply (lt_zpow_iff_log_lt positive).mp
    rw [add_right_comm, ten_zpow_add]
    exact mul_lt_mul_of_pos_right high (ten_zpow_pos exponent)
  · apply (zpow_le_iff_le_log positive).mp
    rw [ten_zpow_add]
    exact mul_le_mul_of_nonneg_right low (ten_zpow_pos exponent).le

namespace DecimalContext

variable (context : DecimalContext)

/-- The place of the last digit that the context keeps. -/
def place (q : ℚ) : Int := max (Int.log 10 q + 1 - context.prec) context.etiny

def rounded (q : ℚ) : ℚ := roundHalfEven (q / 10 ^ context.place q) * 10 ^ context.place q

def limit : ℚ := 10 ^ (context.emax + 1)

theorem etiny_le_etop : context.etiny ≤ context.etop := by
  have := context.ordered
  unfold etiny etop
  omega

theorem rounded_near (q : ℚ) : |q - context.rounded q| ≤ 10 ^ context.place q / 2 := by
  have unit := ten_zpow_pos (context.place q)
  have near := round_half_even_near (q / 10 ^ context.place q)
  have scaled : q - context.rounded q =
      (q / 10 ^ context.place q - roundHalfEven (q / 10 ^ context.place q)) *
        10 ^ context.place q := by
    unfold rounded
    field_simp
  rw [scaled, abs_mul, abs_of_pos unit]
  linarith [mul_le_mul_of_nonneg_right near unit.le]

theorem zpow_le_rounded {q : ℚ} {exponent : Int} (le : 10 ^ exponent ≤ q)
    (kept : context.place q ≤ exponent) : 10 ^ exponent ≤ context.rounded q := by
  have unit := ten_zpow_pos (context.place q)
  obtain ⟨n, cast, _⟩ := ten_zpow_int (sub_nonneg.mpr kept)
  have below : (n : ℚ) ≤ q / 10 ^ context.place q := by
    rw [cast, ten_zpow_sub]
    exact (div_le_div_iff_of_pos_right unit).mpr le
  have rounded : (n : ℚ) ≤ roundHalfEven (q / 10 ^ context.place q) := by
    exact_mod_cast le_round_half_even below
  calc
    10 ^ exponent = (n : ℚ) * 10 ^ context.place q := by
      rw [cast, ← ten_zpow_add, sub_add_cancel]
    _ ≤ context.rounded q := mul_le_mul_of_nonneg_right rounded unit.le

theorem rounded_exact {q : ℚ} {n : Int} (exact : q = n * 10 ^ context.place q) :
    context.rounded q = q := by
  have unit := (ten_zpow_pos (context.place q)).ne'
  have whole : q / 10 ^ context.place q = n := by
    rw [div_eq_iff unit]
    exact exact
  unfold rounded
  rw [whole, round_half_even_int]
  exact exact.symm

theorem rounded_zero : context.rounded 0 = 0 := by
  have exact : (0 : ℚ) = (0 : Int) * 10 ^ context.place 0 := by simp
  exact context.rounded_exact exact

theorem limit_pos : 0 < context.limit := ten_zpow_pos _

/-- What `_fix` returns for a number of this magnitude: it keeps the sign. -/
structure Fixed (q : ℚ) (negative : Bool) (coefficient : Nat) (exponent : Int)
    (fixed : Decimal) : Prop where
  below : context.rounded q < context.limit
  finite : fixed = .finite negative coefficient exponent
  kept : (coefficient : ℚ) * 10 ^ exponent = context.rounded q
  digits : Decimal.numDigits coefficient ≤ context.prec
  low : context.etiny ≤ exponent
  high : Nat.log 10 coefficient + exponent ≤ context.emax

def FixesTo (q : ℚ) (negative : Bool) : Except Signal Decimal → Prop
  | .error signal => signal = .overflow ∧ context.limit ≤ context.rounded q
  | .ok fixed => ∃ coefficient exponent, context.Fixed q negative coefficient exponent fixed

theorem round_le_prec {coefficient : Nat} {exponent : Int} (nonzero : coefficient ≠ 0) {unit : Int}
    (least : exponent + Decimal.numDigits coefficient - context.prec ≤ unit) :
    roundHalfEven (coefficient / 10 ^ (unit - exponent)) ≤ 10 ^ context.prec := by
  apply round_half_even_le
  have positive := magnitude_pos nonzero exponent
  have bound : (coefficient : ℚ) * 10 ^ exponent < 10 ^ (unit + context.prec) := by
    rw [lt_zpow_iff_log_lt positive, log_magnitude nonzero]
    unfold Decimal.numDigits at least
    omega
  rw [ten_zpow_sub, div_div_eq_mul_div]
  push_cast
  rw [div_le_iff₀ (ten_zpow_pos unit), mul_comm (10 ^ context.prec : ℚ), ← zpow_natCast,
    ← ten_zpow_add]
  exact bound.le

theorem log_lt_of_lt {n digits : Nat} (positive : 0 < digits) (less : n < 10 ^ digits) :
    Decimal.numDigits n ≤ digits := by
  unfold Decimal.numDigits
  by_cases zero : n = 0
  · rw [zero, Nat.log_zero_right]
    omega
  · have := (Nat.log_lt_iff_lt_pow (by norm_num : 1 < 10) zero).mpr less
    omega

theorem lt_of_num_digits {n digits : Nat} (fits : Decimal.numDigits n ≤ digits) :
    n < 10 ^ digits :=
  (Nat.lt_pow_succ_log_self (by norm_num) n).trans_le (Nat.pow_le_pow_right (by norm_num) fits)

theorem limit_le_rounded {q : ℚ} (positive : 0 < q) (large : context.emax < Int.log 10 q) :
    context.limit ≤ context.rounded q := by
  have order := context.ordered
  have prec := context.positive
  have reached : (10 : ℚ) ^ Int.log 10 q ≤ q := (zpow_le_iff_le_log positive).mpr le_rfl
  have kept : context.place q ≤ Int.log 10 q := by
    unfold place etiny
    omega
  exact (ten_zpow_le.mpr (by omega)).trans (context.zpow_le_rounded reached kept)

theorem rounded_coefficient (coefficient : Nat) (exponent : Int) {unit : Int}
    (placed : context.place (coefficient * 10 ^ exponent) = unit) :
    ((roundHalfEven (coefficient / 10 ^ (unit - exponent))).toNat : ℚ) * 10 ^ unit =
      context.rounded (coefficient * 10 ^ exponent) := by
  have positive : (0 : ℚ) ≤ coefficient / 10 ^ (unit - exponent) :=
    div_nonneg (Nat.cast_nonneg _) (ten_zpow_pos _).le
  have nonneg : 0 ≤ roundHalfEven (coefficient / 10 ^ (unit - exponent)) :=
    le_round_half_even (by exact_mod_cast positive)
  have cast : ((roundHalfEven (coefficient / 10 ^ (unit - exponent))).toNat : ℚ) =
      roundHalfEven (coefficient / 10 ^ (unit - exponent)) := by
    exact_mod_cast congrArg (Int.cast : Int → ℚ) (Int.toNat_of_nonneg nonneg)
  unfold rounded
  rw [placed, cast, ten_zpow_sub, div_div_eq_mul_div]

theorem fixed_of_kept {q : ℚ} {coefficient : Nat} {exponent : Int} (negative : Bool)
    (kept : (coefficient : ℚ) * 10 ^ exponent = context.rounded q)
    (digits : Decimal.numDigits coefficient ≤ context.prec) (low : context.etiny ≤ exponent)
    (high : Nat.log 10 coefficient + exponent ≤ context.emax) :
    context.Fixed q negative coefficient exponent (.finite negative coefficient exponent) := by
  refine ⟨?_, rfl, kept, digits, low, high⟩
  rw [← kept]
  by_cases zero : coefficient = 0
  · rw [zero, Nat.cast_zero, zero_mul]
    exact context.limit_pos
  · apply (lt_zpow_iff_log_lt (magnitude_pos zero exponent)).mpr
    rw [log_magnitude zero]
    exact Int.lt_add_one_of_le high

/-- A rounding that gains a digit ends at a power of ten. -/
theorem carry_exact {n : Nat} (capped : n ≤ 10 ^ context.prec)
    (carry : context.prec < Decimal.numDigits n) : n = 10 ^ context.prec := by
  apply le_antisymm capped
  by_contra less
  exact absurd (log_lt_of_lt context.positive (not_le.mp less)) (not_le.mpr carry)

theorem fixed_carried {q : ℚ} {unit : Int} (negative : Bool)
    (kept : ((10 ^ context.prec : Nat) : ℚ) * 10 ^ unit = context.rounded q)
    (low : context.etiny ≤ unit) (inside : unit + 1 ≤ context.etop) :
    context.Fixed q negative (10 ^ context.prec / 10) (unit + 1)
      (.finite negative (10 ^ context.prec / 10) (unit + 1)) := by
  have prec := context.positive
  obtain ⟨k, digits⟩ : ∃ k, context.prec = k + 1 := ⟨context.prec - 1, by omega⟩
  have tenth : 10 ^ context.prec / 10 = 10 ^ k := by
    rw [digits, pow_succ, Nat.mul_div_cancel _ (by norm_num)]
  rw [tenth]
  apply context.fixed_of_kept negative
  · rw [← kept, digits, ten_zpow_add, zpow_one]
    push_cast
    ring
  · exact log_lt_of_lt prec (Nat.pow_lt_pow_right (by norm_num) (by omega))
  · omega
  · rw [Nat.log_pow (by norm_num)]
    unfold etop at inside
    omega

section

variable {coefficient : Nat} (nonzero : coefficient ≠ 0) (exponent : Int)

include nonzero

theorem place_magnitude : context.place (coefficient * 10 ^ exponent) =
    max (exponent + Decimal.numDigits coefficient - context.prec) context.etiny := by
  unfold place Decimal.numDigits
  rw [log_magnitude nonzero exponent]
  congr 1
  push_cast
  ring

theorem fixed_unchanged (negative : Bool) (small : exponent + Decimal.numDigits coefficient -
      context.prec ≤ context.etop)
    (places : context.place (coefficient * 10 ^ exponent) ≤ exponent) :
    context.Fixed (coefficient * 10 ^ exponent) negative coefficient exponent
      (.finite negative coefficient exponent) := by
  have natural : (coefficient : ℚ) * 10 ^ exponent = (coefficient : Int) * 10 ^ exponent := rfl
  obtain ⟨n, whole⟩ := whole_at natural places
  have kept := context.rounded_exact whole
  rw [context.place_magnitude nonzero] at places
  have log : Nat.log 10 coefficient + exponent ≤ context.emax := by
    unfold Decimal.numDigits etop at small
    omega
  exact context.fixed_of_kept negative kept.symm (by omega) (by omega) log

theorem fix_nonzero_spec (negative : Bool) :
    context.FixesTo (coefficient * 10 ^ exponent) negative
      (context.fixNonzero negative coefficient exponent) := by
  have positive := magnitude_pos nonzero exponent
  have prec := context.positive
  have order := context.ordered
  have placed := context.place_magnitude nonzero exponent
  have bound := @round_le_prec context coefficient exponent nonzero
    (max (exponent + Decimal.numDigits coefficient - context.prec) context.etiny)
    (le_max_left _ _)
  have kept := context.rounded_coefficient coefficient exponent placed
  unfold fixNonzero
  dsimp only
  generalize unitDef :
    max (exponent + Decimal.numDigits coefficient - context.prec) context.etiny = unit at *
  split
  · rename_i large
    refine ⟨rfl, context.limit_le_rounded positive ?_⟩
    rw [log_magnitude nonzero]
    unfold etop Decimal.numDigits at large
    omega
  · rename_i small
    have low : context.etiny ≤ unit := unitDef ▸ le_max_right _ _
    have top : unit ≤ context.etop := unitDef ▸ max_le (not_lt.mp small) context.etiny_le_etop
    split
    · have capped : (roundHalfEven (coefficient / 10 ^ (unit - exponent))).toNat ≤
          10 ^ context.prec := by
        apply Int.toNat_le.mpr
        exact_mod_cast bound
      generalize (roundHalfEven (coefficient / 10 ^ (unit - exponent))).toNat = rounded at *
      split
      · rename_i carry
        rw [context.carry_exact capped carry] at kept ⊢
        split
        · rename_i large
          refine ⟨rfl, ?_⟩
          rw [← kept, Nat.cast_pow, ← zpow_natCast, Nat.cast_ofNat, ← ten_zpow_add]
          apply ten_zpow_le.mpr
          unfold etop at large
          omega
        · rename_i inside
          exact ⟨_, _, context.fixed_carried negative kept low (not_lt.mp inside)⟩
      · rename_i fits
        have digits := not_lt.mp fits
        have high : Nat.log 10 rounded + unit ≤ context.emax := by
          unfold Decimal.numDigits at digits
          unfold etop at top
          omega
        exact ⟨_, _, context.fixed_of_kept negative kept digits low high⟩
    · rename_i places
      exact ⟨_, _, context.fixed_unchanged nonzero exponent negative (not_lt.mp small)
        (placed ▸ not_lt.mp places)⟩

end

theorem strip_zeros_spec {fuel coefficient : Nat} (nonzero : coefficient ≠ 0)
    (enough : coefficient < 10 ^ fuel) (exponent : Int) :
    let stripped := context.stripZeros fuel coefficient exponent
    (stripped.1 : ℚ) * 10 ^ stripped.2 = coefficient * 10 ^ exponent ∧
      (stripped.2 < context.emax → stripped.1 % 10 ≠ 0) := by
  induction fuel generalizing coefficient exponent with
  | zero => omega
  | succ fuel ih =>
      unfold stripZeros
      split
      · rename_i zero
        have tenth : coefficient / 10 * 10 = coefficient :=
          Nat.div_mul_cancel (Nat.dvd_of_mod_eq_zero zero.1)
        obtain ⟨same, last⟩ := @ih (coefficient / 10) (by omega) (by omega) (exponent + 1)
        refine ⟨?_, last⟩
        rw [same]
        calc
          ((coefficient / 10 : Nat) : ℚ) * 10 ^ (exponent + 1) =
              ((coefficient / 10 * 10 : Nat) : ℚ) * 10 ^ exponent := by
            rw [ten_zpow_add]
            push_cast
            ring
          _ = coefficient * 10 ^ exponent := by rw [tenth]
      · rename_i stop
        refine ⟨rfl, ?_⟩
        intro less zero
        exact stop ⟨zero, less⟩

/-- What `normalize` answers for a number of this magnitude: a place after the point is the last
one that a digit needs. -/
def NormalizesTo (q : ℚ) (negative : Bool) : Except Signal Decimal → Prop
  | .error signal => signal = .overflow ∧ context.limit ≤ context.rounded q
  | .ok normal => context.rounded q < context.limit ∧ ∃ coefficient exponent,
      normal = .finite negative coefficient exponent ∧
      (coefficient : ℚ) * 10 ^ exponent = context.rounded q ∧
      (exponent < 0 → coefficient % 10 ≠ 0)

theorem normalize_spec (negative : Bool) (coefficient : Nat) (exponent : Int) :
    context.NormalizesTo (coefficient * 10 ^ exponent) negative
      (context.normalize (.finite negative coefficient exponent)) := by
  unfold normalize fix
  dsimp only
  by_cases zero : coefficient = 0
  · subst zero
    rw [if_pos rfl]
    simp only [↓reduceIte, Nat.cast_zero, zero_mul]
    unfold NormalizesTo
    rw [context.rounded_zero]
    exact ⟨context.limit_pos, 0, 0, rfl, by simp, nofun⟩
  · rw [if_neg zero]
    have spec := context.fix_nonzero_spec zero exponent negative
    cases made : context.fixNonzero negative coefficient exponent with
    | error signal =>
        rw [made] at spec
        exact spec
    | ok fixed =>
        rw [made] at spec
        obtain ⟨c, e, fits⟩ := spec
        have shape := fits.finite
        subst shape
        dsimp only
        split
        · rename_i none
          subst none
          refine ⟨fits.below, 0, 0, rfl, ?_, nofun⟩
          rw [← fits.kept]
          simp
        · rename_i some
          obtain ⟨same, last⟩ := context.strip_zeros_spec some (lt_of_num_digits le_rfl) e
          refine ⟨fits.below, _, _, rfl, same.trans fits.kept, ?_⟩
          intro place
          exact last (lt_of_lt_of_le place context.ordered.2)

end DecimalContext

def defaultContext : DecimalContext where
  prec := 28
  emin := -999999
  emax := 999999
  positive := Nat.succ_pos 27
  ordered := ⟨by decide, by decide⟩

end Yomochi.Foundation
