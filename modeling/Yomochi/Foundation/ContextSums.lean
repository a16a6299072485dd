import Mathlib.Data.List.Induction
import Yomochi.Foundation.DecimalSum

/-! What the default context does to sums: it keeps their order, and it keeps those that need no
more digits than it has. -/

namespace Yomochi.Foundation

theorem round_half_even_mono {p q : ℚ} (le : p ≤ q) : roundHalfEven p ≤ roundHalfEven q := by
  by_contra above
  have apart : (roundHalfEven q : ℚ) + 1 ≤ roundHalfEven p := by
    exact_mod_cast Int.add_one_le_of_lt (not_le.mp above)
  have first := (abs_le.mp (round_half_even_near p)).1
  have second := (abs_le.mp (round_half_even_near q)).2
  have same : p = q := by linarith
  exact above (same ▸ le_rfl)

theorem in_context_eq (q : ℚ) : inContext q =
    roundHalfEven (q / 10 ^ (Int.log 10 |q| + 1 - 28)) * 10 ^ (Int.log 10 |q| + 1 - 28) := rfl

theorem in_context_exact {q : ℚ} {n exponent : Int} (whole : q = n * 10 ^ exponent)
    (small : |q| < 10 ^ (exponent + 28)) : inContext q = q := by
  rcases eq_or_ne q 0 with rfl | nonzero
  · exact in_context_zero
  · have low : Int.log 10 |q| < exponent + 28 :=
      (lt_zpow_iff_log_lt (abs_pos.mpr nonzero)).mp small
    have unit := (ten_zpow_pos (Int.log 10 |q| + 1 - 28)).ne'
    have coarse : Int.log 10 |q| + 1 - 28 ≤ exponent := by omega
    obtain ⟨m, exact⟩ := whole_at whole coarse
    rw [in_context_eq, (div_eq_iff unit).mpr exact, round_half_even_int]
    exact exact.symm

/-- Rounding does not leave the decade. -/
theorem in_context_decade {q : ℚ} (positive : 0 < q) :
    10 ^ Int.log 10 q ≤ inContext q ∧ inContext q ≤ 10 ^ (Int.log 10 q + 1) := by
  have unit := ten_zpow_pos (Int.log 10 q + 1 - 28)
  have scaled (exponent : Int) (n : Int) (count : (n : ℚ) = 10 ^ (exponent - (Int.log 10 q + 1 - 28))) :
      (n : ℚ) * 10 ^ (Int.log 10 q + 1 - 28) = 10 ^ exponent := by
    rw [count, ← ten_zpow_add, sub_add_cancel]
  rw [in_context_eq, abs_of_pos positive]
  constructor
  · obtain ⟨n, count, _⟩ := ten_zpow_int
      (show 0 ≤ Int.log 10 q - (Int.log 10 q + 1 - 28) by omega)
    have below : (n : ℚ) ≤ q / 10 ^ (Int.log 10 q + 1 - 28) := by
      rw [le_div_iff₀ unit, scaled _ n count]
      exact (zpow_le_iff_le_log positive).mpr le_rfl
    rw [← scaled _ n count]
    exact mul_le_mul_of_nonneg_right (by exact_mod_cast le_round_half_even below) unit.le
  · obtain ⟨n, count, _⟩ := ten_zpow_int
      (show 0 ≤ Int.log 10 q + 1 - (Int.log 10 q + 1 - 28) by omega)
    have above : q / 10 ^ (Int.log 10 q + 1 - 28) ≤ n := by
      rw [div_le_iff₀ unit, scaled _ n count]
      exact ((lt_zpow_iff_log_lt positive).mpr (Int.lt_succ _)).le
    rw [← scaled _ n count]
    exact mul_le_mul_of_nonneg_right (by exact_mod_cast round_half_even_le above) unit.le

theorem in_context_pos {q : ℚ} (positive : 0 < q) : 0 < inContext q :=
  (ten_zpow_pos _).trans_le (in_context_decade positive).1

theorem in_context_nonneg {q : ℚ} (nonneg : 0 ≤ q) : 0 ≤ inContext q := by
  rcases eq_or_lt_of_le nonneg with rfl | positive
  · exact in_context_zero.ge
  · exact (in_context_pos positive).le

theorem in_context_mono_pos {p q : ℚ} (positive : 0 < p) (le : p ≤ q) :
    inContext p ≤ inContext q := by
  have larger : 0 < q := positive.trans_le le
  rcases lt_or_eq_of_le (Int.log_mono_right positive le) with less | same
  · calc
      inContext p ≤ 10 ^ (Int.log 10 p + 1) := (in_context_decade positive).2
      _ ≤ 10 ^ Int.log 10 q := ten_zpow_le.mpr (Int.add_one_le_of_lt less)
      _ ≤ inContext q := (in_context_decade larger).1
  · rw [in_context_eq, in_context_eq, abs_of_pos positive, abs_of_pos larger, same]
    have unit := ten_zpow_pos (Int.log 10 q + 1 - 28)
    have rounded := round_half_even_mono ((div_le_div_iff_of_pos_right unit).mpr le)
    exact mul_le_mul_of_nonneg_right (by exact_mod_cast rounded) unit.le

theorem in_context_mono {p q : ℚ} (le : p ≤ q) : inContext p ≤ inContext q := by
  rcases lt_or_ge 0 p with positive | below
  · exact in_context_mono_pos positive le
  · have low : inContext p ≤ 0 := by
      rw [← neg_neg p, in_context_neg, neg_nonpos]
      exact in_context_nonneg (neg_nonneg.mpr below)
    rcases lt_or_ge q 0 with negative | above
    · have mirrored := in_context_mono_pos (neg_pos.mpr negative) (neg_le_neg le)
      rw [in_context_neg, in_context_neg] at mirrored
      exact neg_le_neg_iff.mp mirrored
    · exact low.trans (in_context_nonneg above)

/-! Sums. -/

theorem decimal_sum_concat (values : List ℚ) (value : ℚ) :
    decimalSum (values ++ [value]) = inContext (decimalSum values + value) := by
  unfold decimalSum
  rw [List.foldl_append]
  rfl

def total (values : List ℚ) : ℚ := values.foldr (fun value rest => value + rest) 0

theorem total_concat (values : List ℚ) (value : ℚ) :
    total (values ++ [value]) = total values + value := by
  induction values with
  | nil => exact add_comm value 0
  | cons first values ih =>
      change first + total (values ++ [value]) = first + total values + value
      rw [ih, add_assoc]

theorem total_perm {values others : List ℚ} (permuted : values.Perm others) :
    total values = total others := by
  induction permuted with
  | nil => rfl
  | cons value _ ih => exact congrArg (value + ·) ih
  | swap first second rest => exact add_left_comm second first (total rest)
  | trans _ _ first second => exact first.trans second

/-- Every sum of some of the values has at most as many digits as the context. -/
def SumsExact (values : List ℚ) : Prop :=
  ∀ part, part.Subperm values → inContext (total part) = total part

theorem SumsExact.part {values part : List ℚ} (exact : SumsExact values)
    (inside : part.Subperm values) : SumsExact part :=
  fun smaller within => exact smaller (within.trans inside)

theorem SumsExact.decimal_sum {values : List ℚ} (exact : SumsExact values) :
    decimalSum values = total values := by
  induction values using List.reverseRecOn with
  | nil => rfl
  | append_singleton values value ih =>
      have front := exact.part (List.sublist_append_left values [value]).subperm
      rw [decimal_sum_concat, ih front, ← total_concat]
      exact exact _ (List.Subperm.refl _)

theorem SumsExact.perm {values others : List ℚ} (exact : SumsExact values)
    (permuted : values.Perm others) : decimalSum values = decimalSum others := by
  rw [exact.decimal_sum, (exact.part permuted.symm.subperm).decimal_sum, total_perm permuted]

theorem total_nonneg {values : List ℚ} (nonneg : ∀ value ∈ values, 0 ≤ value) :
    0 ≤ total values := by
  induction values with
  | nil => exact le_rfl
  | cons first values ih =>
      have rest := ih fun value member => nonneg value (List.mem_cons_of_mem first member)
      exact add_nonneg (nonneg first List.mem_cons_self) rest

theorem total_sublist {part values : List ℚ} (inside : part.Sublist values)
    (nonneg : ∀ value ∈ values, 0 ≤ value) : total part ≤ total values := by
  induction inside with
  | slnil => exact le_rfl
  | cons value _ ih =>
      have rest := ih fun other member => nonneg other (List.mem_cons_of_mem value member)
      exact rest.trans (le_add_of_nonneg_left (nonneg value List.mem_cons_self))
  | cons_cons value _ ih =>
      have rest := ih fun other member => nonneg other (List.mem_cons_of_mem value member)
      exact add_le_add_right rest value

theorem total_whole {exponent : Int} {values : List ℚ}
    (whole : ∀ value ∈ values, ∃ n : Int, value = n * 10 ^ exponent) :
    ∃ n : Int, total values = n * 10 ^ exponent := by
  induction values with
  | nil => exact ⟨0, by simp [total]⟩
  | cons first values ih =>
      obtain ⟨n, one⟩ := whole first List.mem_cons_self
      obtain ⟨m, rest⟩ := ih fun value member => whole value (List.mem_cons_of_mem first member)
      refine ⟨n + m, ?_⟩
      change first + total values = _
      rw [one, rest]
      push_cast
      ring

/-- Amounts with a fixed number of places: their sums are exact as long as all of them together
need no more digits than the context has. -/
theorem sums_exact {exponent : Int} {values : List ℚ} (nonneg : ∀ value ∈ values, 0 ≤ value)
    (whole : ∀ value ∈ values, ∃ n : Int, value = n * 10 ^ exponent)
    (small : total values < 10 ^ (exponent + 28)) : SumsExact values := by
  intro part inside
  obtain ⟨list, permuted, sublist⟩ := inside
  obtain ⟨n, places⟩ := total_whole fun value member => whole value (sublist.subset member)
  rw [← total_perm permuted]
  apply in_context_exact places
  rw [abs_of_nonneg (total_nonneg fun value member => nonneg value (sublist.subset member))]
  exact (total_sublist sublist nonneg).trans_lt small

theorem sum_from_mono {p q : ℚ} (le : p ≤ q) (values : List ℚ) :
    values.foldl (fun total value => inContext (total + value)) p ≤
      values.foldl (fun total value => inContext (total + value)) q := by
  induction values generalizing p q with
  | nil => exact le
  | cons value values ih => exact ih (in_context_mono (add_le_add_left le value))

theorem decimal_sum_mono {value other : ℚ} (le : value ≤ other) (front back : List ℚ) :
    decimalSum (front ++ value :: back) ≤ decimalSum (front ++ other :: back) := by
  unfold decimalSum
  rw [List.foldl_append, List.foldl_append]
  exact sum_from_mono (in_context_mono (add_le_add_right le _)) back

theorem decimal_sum_nonneg {values : List ℚ} (nonneg : ∀ value ∈ values, 0 ≤ value) :
    0 ≤ decimalSum values := by
  induction values using List.reverseRecOn with
  | nil => exact le_rfl
  | append_singleton values value ih =>
      rw [decimal_sum_concat]
      apply in_context_nonneg
      exact add_nonneg (ih fun other member => nonneg other (List.mem_append_left _ member))
        (nonneg value (List.mem_append_right _ List.mem_cons_self))

theorem decimal_sum_pos {values : List ℚ} (nonneg : ∀ value ∈ values, 0 ≤ value)
    (some : ∃ value ∈ values, 0 < value) : 0 < decimalSum values := by
  induction values using List.reverseRecOn with
  | nil =>
      obtain ⟨value, member, _⟩ := some
      exact absurd member List.not_mem_nil
  | append_singleton values value ih =>
      have front : ∀ other ∈ values, 0 ≤ other := by
        intro other member
        exact nonneg other (List.mem_append_left _ member)
      have last : 0 ≤ value := nonneg value (List.mem_append_right _ List.mem_cons_self)
      obtain ⟨other, member, positive⟩ := some
      rw [decimal_sum_concat]
      apply in_context_pos
      rcases List.mem_append.mp member with inside | equal
      · exact add_pos_of_pos_of_nonneg (ih front ⟨other, inside, positive⟩) last
      · rw [← List.mem_singleton.mp equal]
        exact add_pos_of_nonneg_of_pos (decimal_sum_nonneg front) positive

end Yomochi.Foundation
