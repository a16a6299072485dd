import Yomochi.Foundation.Float

/-! Rounding to the nearest integer, halves to the even one. -/

namespace Yomochi.Foundation

theorem round_half_even_near (value : ℚ) : |value - roundHalfEven value| ≤ 1 / 2 := by
  have below := Int.floor_le value
  have above := Int.lt_floor_add_one value
  unfold roundHalfEven
  dsimp only
  split
  · rename_i down
    rw [abs_of_nonneg (by linarith)]
    rcases down with less | ⟨half, _⟩
    · exact less.le
    · exact half.le
  · rename_i up
    have half : 1 / 2 ≤ value - ⌊value⌋ := by
      by_contra less
      exact up (.inl (not_le.mp less))
    push_cast
    rw [abs_of_nonpos (by linarith)]
    linarith

/-- The even integer wins when it is half a unit away, and so it does when it is nearer. -/
theorem round_half_even_of_even {value : ℚ} {n : Int} (near : |value - n| ≤ 1 / 2)
    (even : n % 2 = 0) : roundHalfEven value = n := by
  obtain ⟨low, high⟩ := abs_le.mp near
  unfold roundHalfEven
  dsimp only
  by_cases reached : (n : ℚ) ≤ value
  · have floor : ⌊value⌋ = n := Int.floor_eq_iff.mpr ⟨reached, by linarith⟩
    rw [floor, if_pos]
    rcases lt_or_eq_of_le high with less | half
    · exact .inl less
    · exact .inr ⟨half, even⟩
  · have floor : ⌊value⌋ = n - 1 := by
      apply Int.floor_eq_iff.mpr
      push_cast
      constructor
      · linarith
      · linarith
    rw [floor, if_neg]
    · omega
    · push_cast
      rintro (less | ⟨half, odd⟩)
      · linarith
      · omega

theorem round_half_even_of_near {value : ℚ} {n : Int} (near : |value - n| < 1 / 2) :
    roundHalfEven value = n := by
  have other := round_half_even_near value
  have apart : |(n : ℚ) - roundHalfEven value| < 1 := by
    calc
      |(n : ℚ) - roundHalfEven value| = |(value - roundHalfEven value) - (value - n)| := by
        congr 1
        ring
      _ ≤ |value - roundHalfEven value| + |value - n| := abs_sub _ _
      _ < 1 := by linarith
  have whole : |n - roundHalfEven value| < 1 := by exact_mod_cast apart
  exact (sub_eq_zero.mp (Int.abs_lt_one_iff.mp whole)).symm

theorem round_half_even_int (n : Int) : roundHalfEven n = n := by
  unfold roundHalfEven
  dsimp only
  rw [Int.floor_intCast, sub_self, if_pos]
  exact .inl (by norm_num)

theorem le_round_half_even {value : ℚ} {n : Int} (le : (n : ℚ) ≤ value) :
    n ≤ roundHalfEven value := by
  have floor : n ≤ ⌊value⌋ := Int.le_floor.mpr le
  unfold roundHalfEven
  dsimp only
  split
  · exact floor
  · omega

theorem round_half_even_le {value : ℚ} {n : Int} (le : value ≤ n) : roundHalfEven value ≤ n := by
  have near := (abs_le.mp (round_half_even_near value)).1
  have floor : (⌊value⌋ : ℚ) ≤ value := Int.floor_le value
  have below : ⌊value⌋ ≤ n := by exact_mod_cast floor.trans le
  rcases lt_or_eq_of_le below with less | same
  · unfold roundHalfEven
    dsimp only
    split
    · exact below
    · omega
  · have exact : value = n := le_antisymm le (same ▸ floor)
    rw [exact, round_half_even_int]

theorem round_half_even_tie {value : ℚ} (tie : |value - roundHalfEven value| = 1 / 2) :
    roundHalfEven value % 2 = 0 := by
  have below := Int.floor_le value
  have above := Int.lt_floor_add_one value
  unfold roundHalfEven at tie ⊢
  dsimp only at tie ⊢
  split at tie
  · rename_i down
    rw [if_pos down]
    rw [abs_of_nonneg (by linarith)] at tie
    rcases down with less | ⟨_, even⟩
    · linarith
    · exact even
  · rename_i up
    rw [if_neg up]
    push_cast at tie
    rw [abs_of_nonpos (by linarith)] at tie
    have half : value - ⌊value⌋ = 1 / 2 := by linarith
    have odd : ¬ ⌊value⌋ % 2 = 0 := fun even => up (.inr ⟨half, even⟩)
    omega

theorem round_half_even_neg (value : ℚ) : roundHalfEven (-value) = -roundHalfEven value := by
  have near := round_half_even_near value
  have mirrored : |-value - (-roundHalfEven value : Int)| = |value - roundHalfEven value| := by
    push_cast
    rw [← abs_neg]
    congr 1
    ring
  rcases lt_or_eq_of_le near with less | tie
  · exact round_half_even_of_near (mirrored ▸ less)
  · have even := round_half_even_tie tie
    exact round_half_even_of_even (mirrored ▸ near) (by omega)

end Yomochi.Foundation
