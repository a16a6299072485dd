import Yomochi.Foundation.DecimalPlaces
import Yomochi.Foundation.DecimalText

/-! `+` of decimals: the exact sum, as the context keeps it, and the values of sums. -/

namespace Yomochi.Foundation

namespace Decimal

def signed (negative : Bool) (n : Nat) : Int := if negative then -n else n

def exactSum (negative other : Bool) (c d : Nat) (e f : Int) : Decimal :=
  let total := signed negative (c * Nat.pow 10 (e - min e f).toNat) +
    signed other (d * Nat.pow 10 (f - min e f).toNat)
  .finite (if total = 0 then negative && other else decide (total < 0)) total.natAbs (min e f)

end Decimal

namespace DecimalContext

variable (context : DecimalContext)

def add (left right : Decimal) : Except Signal Decimal :=
  match left, right with
  | .finite negative c e, .finite other d f => context.fix (Decimal.exactSum negative other c d e f)
  | .nan _ true _, _ => .error .invalidOperation
  | _, .nan _ true _ => .error .invalidOperation
  | .nan negative false payload, _ => context.fix (.nan negative false payload)
  | _, .nan negative false payload => context.fix (.nan negative false payload)
  | .infinity negative, .infinity other =>
      if negative = other then .ok (.infinity negative) else .error .invalidOperation
  | .infinity negative, _ => .ok (.infinity negative)
  | _, .infinity negative => .ok (.infinity negative)

/-- A sum that is less than half a unit above a power of ten is kept at the power. -/
theorem rounded_absorbs {q : ℚ} {exponent : Int} (positive : 0 < q)
    (normal : context.etiny ≤ exponent + 1 - context.prec)
    (less : q < 10 ^ exponent + 10 ^ (exponent + 1 - context.prec) / 2) :
    context.rounded q ≤ 10 ^ exponent := by
  have prec := context.positive
  by_cases le : q ≤ 10 ^ exponent
  · apply context.rounded_le_zpow le
    have log : Int.log 10 q ≤ exponent := by
      apply Int.lt_add_one_iff.mp
      apply (lt_zpow_iff_log_lt positive).mp
      exact le.trans_lt (ten_zpow_lt.mpr (Int.lt_succ exponent))
    unfold place
    omega
  · have above := not_le.mp le
    have low : exponent ≤ Int.log 10 q := (zpow_le_iff_le_log positive).mp above.le
    have unitLe : (10 : ℚ) ^ (exponent + 1 - context.prec) ≤ 10 ^ exponent :=
      ten_zpow_le.mpr (by omega)
    have high : Int.log 10 q < exponent + 1 := by
      apply (lt_zpow_iff_log_lt positive).mp
      have base := ten_zpow_pos exponent
      rw [ten_zpow_add, zpow_one]
      linarith
    have placed : context.place q = exponent + 1 - context.prec := by
      unfold place
      omega
    have unit := ten_zpow_pos (context.place q)
    obtain ⟨n, cast, _⟩ := ten_zpow_int (show 0 ≤ exponent - context.place q by omega)
    have whole : (n : ℚ) * 10 ^ context.place q = 10 ^ exponent := by
      rw [cast, ← ten_zpow_add, sub_add_cancel]
    have near : |q / 10 ^ context.place q - n| < 1 / 2 := by
      have scaled : q / 10 ^ context.place q - n = (q - 10 ^ exponent) / 10 ^ context.place q := by
        rw [← whole, sub_div, mul_div_cancel_right₀ _ unit.ne']
      rw [scaled, abs_of_nonneg (div_nonneg (sub_nonneg.mpr above.le) unit.le), div_lt_iff₀ unit,
        placed]
      linarith
    unfold rounded
    rw [round_half_even_of_near near, whole]

end DecimalContext

/-! The default context and its rounding of numbers. -/

theorem in_context_zero : inContext 0 = 0 := by
  unfold inContext significant
  dsimp only
  rw [zero_div, show roundHalfEven 0 = 0 from round_half_even_int 0, Int.cast_zero, zero_mul]

theorem in_context_neg (q : ℚ) : inContext (-q) = -inContext q := by
  unfold inContext significant
  dsimp only
  rw [abs_neg, neg_div, round_half_even_neg, Int.cast_neg, neg_mul]

/-- Where the context has places enough, it keeps what 28 significant digits keep. -/
theorem rounded_eq_in_context {q : ℚ} (nonneg : 0 ≤ q) {n : Int}
    (whole : q = n * 10 ^ defaultContext.etiny) : defaultContext.rounded q = inContext q := by
  have significantIs : inContext q =
      roundHalfEven (q / 10 ^ (Int.log 10 q + 1 - 28)) * 10 ^ (Int.log 10 q + 1 - 28) := by
    unfold inContext significant
    rw [abs_of_nonneg nonneg]
    rfl
  by_cases normal : defaultContext.etiny ≤ Int.log 10 q + 1 - 28
  · have placed : defaultContext.place q = Int.log 10 q + 1 - 28 := max_eq_left normal
    unfold DecimalContext.rounded
    rw [placed, significantIs]
  · have deep := not_le.mp normal
    have placed : defaultContext.place q = defaultContext.etiny := max_eq_right deep.le
    have unit := (ten_zpow_pos (Int.log 10 q + 1 - 28)).ne'
    obtain ⟨m, exact⟩ := whole_at whole deep.le
    rw [defaultContext.rounded_exact (placed.symm ▸ whole), significantIs,
      (div_eq_iff unit).mpr exact, round_half_even_int]
    exact exact

theorem abs_in_context {q : ℚ} {n : Int} (whole : q = n * 10 ^ defaultContext.etiny) :
    |inContext q| = defaultContext.rounded |q| := by
  rcases le_total 0 q with nonneg | below
  · rw [abs_of_nonneg nonneg, ← rounded_eq_in_context nonneg whole,
      abs_of_nonneg (defaultContext.rounded_nonneg nonneg)]
  · have mirrored : -q = (-n : Int) * 10 ^ defaultContext.etiny := by
      rw [whole]
      push_cast
      ring
    have nonneg : 0 ≤ -q := neg_nonneg.mpr below
    rw [abs_of_nonpos below, ← abs_neg, ← in_context_neg, ← rounded_eq_in_context nonneg mirrored,
      abs_of_nonneg (defaultContext.rounded_nonneg nonneg)]

structure Held (decimal : Decimal) (q : ℚ) : Prop where
  value : decimal.value = some q
  finite : ∃ negative coefficient exponent, decimal = .finite negative coefficient exponent ∧
    defaultContext.etiny ≤ exponent

theorem Held.whole {decimal : Decimal} {q : ℚ} (held : Held decimal q) :
    ∃ n : Int, q = n * 10 ^ defaultContext.etiny := by
  obtain ⟨negative, coefficient, exponent, rfl, low⟩ := held.finite
  have value := Option.some.inj held.value
  have natural : q = ((if negative then -1 else 1) * coefficient : Int) * 10 ^ exponent := by
    rw [← value]
    push_cast
    rw [mul_assoc]
  exact whole_at natural low

theorem magnitude_abs (negative : Bool) (coefficient : Nat) (exponent : Int) :
    |(if negative then -1 else 1) * ((coefficient : ℚ) * 10 ^ exponent)| =
      coefficient * 10 ^ exponent := by
  have nonneg : 0 ≤ (coefficient : ℚ) * 10 ^ exponent :=
    mul_nonneg (Nat.cast_nonneg _) (ten_zpow_pos _).le
  cases negative with
  | false => rw [if_neg Bool.false_ne_true, one_mul, abs_of_nonneg nonneg]
  | true => rw [if_pos rfl, neg_one_mul, abs_neg, abs_of_nonneg nonneg]

theorem in_context_sign (negative : Bool) (q : ℚ) :
    inContext ((if negative then -1 else 1) * q) = (if negative then -1 else 1) * inContext q := by
  cases negative with
  | false => rw [if_neg Bool.false_ne_true, one_mul, one_mul]
  | true => rw [if_pos rfl, neg_one_mul, neg_one_mul, in_context_neg]

theorem representable_of {coefficient : Nat} {exponent : Int}
    (high : Nat.log 10 coefficient + exponent ≤ defaultContext.emax)
    (low : defaultContext.etiny ≤ exponent)
    (digits : Decimal.numDigits coefficient ≤ defaultContext.prec) :
    Decimal.representable coefficient exponent = true := by
  change (_ : Int) ≤ 999999 at high
  change -999999 - 28 + 1 ≤ exponent at low
  change _ ≤ 28 at digits
  unfold Decimal.representable
  simp only [Bool.and_eq_true, decide_eq_true_eq]
  omega

theorem fix_held {decimal : Decimal} {q : ℚ} (held : Held decimal q)
    (small : defaultContext.rounded |q| < defaultContext.limit) :
    ∃ fixed, defaultContext.fix decimal = .ok fixed ∧ Held fixed (inContext q) ∧
      ∃ negative coefficient exponent, fixed = .finite negative coefficient exponent ∧
        Decimal.representable coefficient exponent := by
  have integral := held.whole
  obtain ⟨negative, coefficient, exponent, rfl, low⟩ := held.finite
  have value := Option.some.inj held.value
  have magnitude : |q| = coefficient * 10 ^ exponent := by
    rw [← value]
    exact magnitude_abs negative coefficient exponent
  have kept : inContext q =
      (if negative then -1 else 1) * defaultContext.rounded (coefficient * 10 ^ exponent) := by
    have natural : (coefficient : ℚ) * 10 ^ exponent = (coefficient : Int) * 10 ^ exponent := rfl
    obtain ⟨n, whole⟩ := whole_at natural low
    rw [rounded_eq_in_context (mul_nonneg (Nat.cast_nonneg _) (ten_zpow_pos _).le) whole, ← value,
      in_context_sign]
  by_cases zero : coefficient = 0
  · subst zero
    have bottom : defaultContext.etiny ≤ min (max exponent defaultContext.etiny) defaultContext.emax :=
      le_min (le_max_right _ _) (by decide)
    refine ⟨.finite negative 0 (min (max exponent defaultContext.etiny) defaultContext.emax), rfl,
      ⟨?_, _, _, _, rfl, bottom⟩, _, _, _, rfl, ?_⟩
    · rw [kept]
      simp [Decimal.value, DecimalContext.rounded_zero]
    · apply representable_of _ bottom
      · decide
      · rw [Nat.log_zero_right, Nat.cast_zero, zero_add]
        exact min_le_right _ _
  · have spec := defaultContext.fix_nonzero_spec zero exponent negative
    have made : defaultContext.fix (.finite negative coefficient exponent) =
      defaultContext.fixNonzero negative coefficient exponent := if_neg zero
    rw [made]
    cases result : defaultContext.fixNonzero negative coefficient exponent with
    | error signal =>
        rw [result] at spec
        rw [magnitude] at small
        exact absurd spec.2 (not_le.mpr small)
    | ok fixed =>
        rw [result] at spec
        obtain ⟨c, e, fits⟩ := spec
        refine ⟨fixed, rfl, ⟨?_, _, _, _, fits.finite, fits.low⟩, _, _, _, fits.finite, ?_⟩
        · rw [fits.finite, kept, ← fits.kept]
          rfl
        · exact representable_of fits.high fits.low fits.digits

theorem signed_cast (negative : Bool) (n : Nat) :
    (Decimal.signed negative n : ℚ) = (if negative then -1 else 1) * n := by
  cases negative with
  | false => simp [Decimal.signed]
  | true => simp [Decimal.signed]

theorem shifted_cast {low exponent : Int} (le : low ≤ exponent) (coefficient : Nat) :
    ((coefficient * Nat.pow 10 (exponent - low).toNat : Nat) : ℚ) * 10 ^ low =
      coefficient * 10 ^ exponent := by
  have power : ((Nat.pow 10 (exponent - low).toNat : Nat) : ℚ) = 10 ^ (exponent - low) := by
    change ((10 ^ (exponent - low).toNat : Nat) : ℚ) = _
    rw [Nat.cast_pow, ← zpow_natCast, Int.toNat_of_nonneg (sub_nonneg.mpr le)]
    rfl
  rw [Nat.cast_mul, power, mul_assoc, ← ten_zpow_add, sub_add_cancel]

theorem exact_sum_held {left right : Decimal} {p q : ℚ} (one : Held left p) (two : Held right q) :
    ∃ sum, Held sum (p + q) ∧ defaultContext.add left right = defaultContext.fix sum := by
  obtain ⟨negative, c, e, rfl, low⟩ := one.finite
  obtain ⟨other, d, f, rfl, floor⟩ := two.finite
  refine ⟨Decimal.exactSum negative other c d e f, ⟨?_, _, _, _, rfl, le_min low floor⟩, rfl⟩
  have first := Option.some.inj one.value
  have second := Option.some.inj two.value
  unfold Decimal.exactSum Decimal.value
  dsimp only
  generalize totalDef : Decimal.signed negative (c * Nat.pow 10 (e - min e f).toNat) +
    Decimal.signed other (d * Nat.pow 10 (f - min e f).toNat) = total
  have exact : (total : ℚ) * 10 ^ min e f = p + q := by
    rw [← totalDef, ← first, ← second, Int.cast_add, signed_cast, signed_cast, add_mul, mul_assoc,
      mul_assoc, shifted_cast (min_le_left e f), shifted_cast (min_le_right e f)]
  rw [← exact, ← mul_assoc]
  congr 2
  by_cases zero : total = 0
  · rw [zero]
    simp
  · rw [if_neg zero, Nat.cast_natAbs]
    by_cases below : total < 0
    · rw [decide_eq_true below, if_pos rfl, abs_of_neg below]
      push_cast
      ring
    · rw [decide_eq_false below, if_neg Bool.false_ne_true, abs_of_nonneg (not_lt.mp below), one_mul]

/-- The total of any number of amounts below a bound stays below another one: a large total absorbs
what is added to it. -/
theorem add_held {left right : Decimal} {p q : ℚ} (one : Held left p) (two : Held right q)
    (total : |p| ≤ 10 ^ (44 : Int)) (amount : |q| < 10 ^ (15 : Int)) :
    ∃ sum, defaultContext.add left right = .ok sum ∧ Held sum (inContext (p + q)) ∧
      |inContext (p + q)| ≤ 10 ^ (44 : Int) ∧
      ∃ negative coefficient exponent, sum = .finite negative coefficient exponent ∧
        Decimal.representable coefficient exponent := by
  obtain ⟨exact, held, added⟩ := exact_sum_held one two
  have absorbed : defaultContext.rounded |p + q| ≤ 10 ^ (44 : Int) := by
    rcases eq_or_lt_of_le (abs_nonneg (p + q)) with zero | positive
    · rw [← zero, defaultContext.rounded_zero]
      exact (ten_zpow_pos 44).le
    · apply defaultContext.rounded_absorbs positive (by decide)
      have half : (10 : ℚ) ^ (15 : Int) < 10 ^ ((44 : Int) + 1 - defaultContext.prec) / 2 := by
        change (10 : ℚ) ^ (15 : Int) < 10 ^ (17 : Int) / 2
        norm_num
      linarith [abs_add_le p q]
  have inside : (10 : ℚ) ^ (44 : Int) < defaultContext.limit := ten_zpow_lt.mpr (by decide)
  obtain ⟨fixed, made, kept, shape⟩ := fix_held held (absorbed.trans_lt inside)
  refine ⟨fixed, added.trans made, kept, ?_, shape⟩
  obtain ⟨n, whole⟩ := held.whole
  rw [abs_in_context whole]
  exact absorbed

end Yomochi.Foundation
