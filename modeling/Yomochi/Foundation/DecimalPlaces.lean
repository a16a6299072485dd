import Yomochi.Foundation.Decimal

/-! The places after the point that a context keeps, and the numbers that are too large for it. -/

namespace Yomochi.Foundation

def HasPlaces (q : ℚ) (places : Nat) : Prop :=
  ∃ n : Int, q = n * 10 ^ (-places : Int)

theorem has_places_iff {coefficient : Nat} {exponent : Int}
    (last : exponent < 0 → coefficient % 10 ≠ 0) (places : Nat) :
    HasPlaces (coefficient * 10 ^ exponent) places ↔ -exponent ≤ places := by
  constructor
  · rintro ⟨n, same⟩
    by_contra deeper
    have whole : (0 : Int) < -exponent - places := by omega
    obtain ⟨power, cast, tens⟩ := ten_zpow_int whole.le
    -- The last digit would be a zero.
    have digits : (coefficient : Int) = n * power := by
      have scaled : (coefficient : ℚ) = n * power := by
        calc
          (coefficient : ℚ) = coefficient * 10 ^ exponent * 10 ^ (-exponent) := by
            rw [mul_assoc, ← ten_zpow_add, add_neg_cancel, zpow_zero, mul_one]
          _ = n * power := by
            rw [same, mul_assoc, ← ten_zpow_add, cast]
            congr 2
            ring
      exact_mod_cast scaled
    have zero := tens whole
    have nonzero := last (by omega)
    have divides : (10 : Int) ∣ coefficient :=
      digits ▸ Dvd.dvd.mul_left (Int.dvd_of_emod_eq_zero zero) n
    omega
  · intro shallow
    obtain ⟨power, cast, _⟩ := ten_zpow_int (show (0 : Int) ≤ exponent + places by omega)
    refine ⟨coefficient * power, ?_⟩
    push_cast
    rw [cast, mul_assoc, ← ten_zpow_add, add_neg_cancel_right]

namespace DecimalContext

variable (context : DecimalContext)

/-- What is kept has so many places exactly when such a number is at most half a unit of the last
kept digit away. -/
theorem rounded_has_places_iff (q : ℚ) (places : Nat) : HasPlaces (context.rounded q) places ↔
    ∃ n : Int, |q - n * 10 ^ (-places : Int)| ≤ 10 ^ context.place q / 2 := by
  have unit := ten_zpow_pos (context.place q)
  constructor
  · rintro ⟨n, same⟩
    refine ⟨n, ?_⟩
    rw [← same]
    exact context.rounded_near q
  · rintro ⟨n, near⟩
    by_cases coarse : -(places : Int) ≤ context.place q
    · obtain ⟨power, cast, _⟩ := ten_zpow_int (sub_nonneg.mpr coarse)
      refine ⟨roundHalfEven (q / 10 ^ context.place q) * power, ?_⟩
      unfold rounded
      push_cast
      rw [cast, mul_assoc, ← ten_zpow_add, sub_add_cancel]
    · have finer : 0 < -(places : Int) - context.place q := by omega
      obtain ⟨power, cast, tens⟩ := ten_zpow_int finer.le
      have whole : ((n * power : Int) : ℚ) * 10 ^ context.place q = n * 10 ^ (-places : Int) := by
        push_cast
        rw [cast, mul_assoc, ← ten_zpow_add, sub_add_cancel]
      have even : n * power % 2 = 0 := by
        have divides : (10 : Int) ∣ n * power :=
          Dvd.dvd.mul_left (Int.dvd_of_emod_eq_zero (tens finer)) n
        omega
      have half : |q / 10 ^ context.place q - (n * power : Int)| ≤ 1 / 2 := by
        have scaled : q - n * 10 ^ (-places : Int) =
            (q / 10 ^ context.place q - (n * power : Int)) * 10 ^ context.place q := by
          rw [← whole, sub_mul, div_mul_cancel₀ q unit.ne']
        rw [scaled, abs_mul, abs_of_pos unit] at near
        apply le_of_mul_le_mul_right _ unit
        linarith
      refine ⟨n, ?_⟩
      unfold rounded
      rw [round_half_even_of_even half even, whole]

theorem rounded_le_zpow {q : ℚ} {exponent : Int} (le : q ≤ 10 ^ exponent)
    (kept : context.place q ≤ exponent) : context.rounded q ≤ 10 ^ exponent := by
  have unit := ten_zpow_pos (context.place q)
  obtain ⟨n, cast, _⟩ := ten_zpow_int (sub_nonneg.mpr kept)
  have above : q / 10 ^ context.place q ≤ n := by
    rw [cast, ten_zpow_sub]
    exact (div_le_div_iff_of_pos_right unit).mpr le
  have rounded : (roundHalfEven (q / 10 ^ context.place q) : ℚ) ≤ n := by
    exact_mod_cast round_half_even_le above
  calc
    context.rounded q ≤ n * 10 ^ context.place q := mul_le_mul_of_nonneg_right rounded unit.le
    _ = 10 ^ exponent := by rw [cast, ← ten_zpow_add, sub_add_cancel]

theorem rounded_nonneg {q : ℚ} (nonneg : 0 ≤ q) : 0 ≤ context.rounded q := by
  have scaled : ((0 : Int) : ℚ) ≤ q / 10 ^ context.place q := by
    rw [Int.cast_zero]
    exact div_nonneg nonneg (ten_zpow_pos _).le
  exact mul_nonneg (by exact_mod_cast le_round_half_even scaled) (ten_zpow_pos _).le

theorem rounded_multiple (q : ℚ) : ∃ n : Int, context.rounded q = n * 10 ^ context.place q :=
  ⟨roundHalfEven (q / 10 ^ context.place q), rfl⟩

theorem rounded_tiny {q : ℚ} (positive : 0 < q) (tiny : Int.log 10 q + 1 < context.place q) :
    context.rounded q = 0 := by
  have unit := ten_zpow_pos (context.place q)
  have below : q < 10 ^ (context.place q - 1) :=
    (lt_zpow_iff_log_lt positive).mpr (by omega)
  have near : |q / 10 ^ context.place q - (0 : Int)| < 1 / 2 := by
    rw [Int.cast_zero, sub_zero, abs_of_pos (div_pos positive unit), div_lt_iff₀ unit]
    rw [ten_zpow_sub, zpow_one] at below
    linarith
  unfold rounded
  rw [round_half_even_of_near near, Int.cast_zero, zero_mul]

/-- What the context keeps, it keeps as it is. -/
theorem rounded_idem {q : ℚ} (nonneg : 0 ≤ q) :
    context.rounded (context.rounded q) = context.rounded q := by
  have prec := context.positive
  rcases (context.rounded_nonneg nonneg).eq_or_lt with zero | some
  · rw [← zero, context.rounded_zero]
  · have positive : 0 < q := by
      apply nonneg.lt_of_ne
      rintro rfl
      exact some.ne' context.rounded_zero
    have kept : context.place q ≤ Int.log 10 q + 1 := by
      by_contra tiny
      exact some.ne' (context.rounded_tiny positive (not_le.mp tiny))
    have upper : context.rounded q ≤ 10 ^ (Int.log 10 q + 1) :=
      context.rounded_le_zpow ((lt_zpow_iff_log_lt positive).mpr (Int.lt_succ _)).le kept
    rcases upper.eq_or_lt with full | below
    · -- The next power of ten has one place less to keep, and is a multiple of it.
      have log : Int.log 10 (context.rounded q) = Int.log 10 q + 1 := by
        rw [full]
        exact Int.log_zpow (by norm_num) _
      have whole : context.rounded q = (1 : Int) * 10 ^ (Int.log 10 q + 1) := by
        rw [full, Int.cast_one, one_mul]
      have le : context.place (context.rounded q) ≤ Int.log 10 q + 1 := by
        unfold place at kept ⊢
        rw [log]
        omega
      obtain ⟨n, exact⟩ := whole_at whole le
      exact context.rounded_exact exact
    · have log := (lt_zpow_iff_log_lt some).mp below
      have le : context.place (context.rounded q) ≤ context.place q := by
        unfold place
        omega
      obtain ⟨n, multiple⟩ := context.rounded_multiple q
      obtain ⟨m, exact⟩ := whole_at multiple le
      exact context.rounded_exact exact

/-- From here on the rounding leaves the range of the context. -/
def overflowsFrom : ℚ := context.limit - 10 ^ context.etop / 2

theorem place_le_etop {q : ℚ} (inside : Int.log 10 q ≤ context.emax) :
    context.place q ≤ context.etop := by
  unfold place
  apply max_le _ context.etiny_le_etop
  unfold etop
  omega

theorem limit_eq : context.limit = 10 ^ (context.prec : Int) * 10 ^ context.etop := by
  rw [← ten_zpow_add]
  unfold limit etop
  congr 1
  ring

/-- Just below the limit, the limit is the nearest number: the tie goes to the even one. -/
theorem rounded_up {q : ℚ} (close : context.overflowsFrom ≤ q) (inside : q < context.limit) :
    context.rounded q = context.limit := by
  have prec := context.positive
  have order := context.ordered
  have unit := ten_zpow_pos context.etop
  have low : 10 ^ context.emax ≤ q := by
    have tenth : context.limit = 10 ^ context.emax * 10 := by
      unfold limit
      rw [ten_zpow_add, zpow_one]
    have below : (10 : ℚ) ^ context.etop ≤ 10 ^ context.emax := by
      apply ten_zpow_le.mpr
      unfold etop
      omega
    unfold overflowsFrom at close
    linarith
  have positive : 0 < q := (ten_zpow_pos _).trans_le low
  have bottom : context.emax ≤ Int.log 10 q := (zpow_le_iff_le_log positive).mp low
  have top : Int.log 10 q < context.emax + 1 := (lt_zpow_iff_log_lt positive).mp inside
  have exact : context.place q = context.etop := by
    apply le_antisymm (context.place_le_etop (by omega))
    apply le_max_of_le_left
    unfold etop
    omega
  obtain ⟨power, cast, tens⟩ := ten_zpow_int (Int.natCast_nonneg context.prec)
  have even : power % 2 = 0 := by
    have := tens (by omega)
    omega
  have near : |q / 10 ^ context.place q - power| ≤ 1 / 2 := by
    have scaled : q / 10 ^ context.place q - power = (q - context.limit) / 10 ^ context.etop := by
      rw [exact, context.limit_eq, cast, sub_div, mul_div_cancel_right₀ _ unit.ne']
    unfold overflowsFrom at close
    rw [scaled, abs_div, abs_of_pos unit, div_le_iff₀ unit, abs_le]
    constructor
    · linarith
    · linarith
  unfold rounded
  rw [round_half_even_of_even near even, cast, exact, ← context.limit_eq]

theorem overflows_from_pos : 0 < context.overflowsFrom := by
  have half : (10 : ℚ) ^ context.etop ≤ context.limit := by
    have prec := context.positive
    apply ten_zpow_le.mpr
    unfold etop
    omega
  have limit := context.limit_pos
  unfold overflowsFrom
  linarith

theorem overflows_iff {q : ℚ} (nonneg : 0 ≤ q) :
    context.limit ≤ context.rounded q ↔ context.overflowsFrom ≤ q := by
  rcases eq_or_lt_of_le nonneg with rfl | positive
  · rw [context.rounded_zero]
    exact iff_of_false context.limit_pos.not_ge context.overflows_from_pos.not_ge
  · by_cases large : context.emax < Int.log 10 q
    · apply iff_of_true (context.limit_le_rounded positive large)
      have reached : context.limit ≤ q :=
        (ten_zpow_le.mpr large).trans ((zpow_le_iff_le_log positive).mpr le_rfl)
      have unit := ten_zpow_pos context.etop
      unfold overflowsFrom
      linarith
    · have inside : q < context.limit := (lt_zpow_iff_log_lt positive).mpr (by omega)
      constructor
      · intro beyond
        have near := (abs_le.mp (context.rounded_near q)).1
        have unit := ten_zpow_le.mpr (context.place_le_etop (not_lt.mp large))
        unfold overflowsFrom
        linarith
      · intro close
        exact (context.rounded_up close inside).ge

end DecimalContext

end Yomochi.Foundation
