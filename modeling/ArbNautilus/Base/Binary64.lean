import ArbNautilus.Base.Context

/-! Decimals of fifteen digits and the doubles next to them. -/

namespace ArbNautilus.Base.Binary64

open Context (HasDigits)

/-- The exponent of the last binary digit kept of a number. -/
def quantum (x : ℚ) : ℤ := max (Int.log 2 |x| - 52) (-1074)

/-- The double nearest to a number. Nothing here is large enough to become infinite. -/
def nearest (x : ℚ) : ℚ := nearestEven (x / 2 ^ quantum x) * 2 ^ quantum x

section Error

theorem quantum_neg (x : ℚ) : quantum (-x) = quantum x := by rw [quantum, abs_neg, quantum]

theorem nearest_neg (x : ℚ) : nearest (-x) = -nearest x := by
  rw [nearest, quantum_neg, neg_div, nearestEven_neg, Int.cast_neg, neg_mul, nearest]

theorem nearest_zero : nearest 0 = 0 := by simp [nearest, nearestEven]

/-- A number keeps 53 binary digits unless it is too small for them. -/
theorem two_zpow_quantum_le {x : ℚ} (some : x ≠ 0) :
    (2 : ℚ) ^ quantum x ≤ 2 ^ (-52 : ℤ) * max |x| (2 ^ (-1022 : ℤ)) := by
  rcases max_cases (Int.log 2 |x| - 52) (-1074) with ⟨level, -⟩ | ⟨level, -⟩
  · have below : (2 : ℚ) ^ Int.log 2 |x| ≤ |x| := by
      exact_mod_cast Int.zpow_log_le_self (b := 2) (by norm_num) (abs_pos.2 some)
    rw [quantum, level, sub_eq_add_neg, zpow_add₀ (by norm_num), mul_comm]
    exact mul_le_mul_of_nonneg_left (below.trans (le_max_left _ _)) (by positivity)
  · have least : (2 : ℚ) ^ (-1074 : ℤ) = 2 ^ (-52 : ℤ) * 2 ^ (-1022 : ℤ) := by
      rw [← zpow_add₀ (by norm_num)]
      norm_num
    rw [quantum, level, least]
    exact mul_le_mul_of_nonneg_left (le_max_right _ _) (by positivity)

theorem abs_sub_nearest_le (x : ℚ) :
    |x - nearest x| ≤ 2 ^ (-53 : ℤ) * max |x| (2 ^ (-1022 : ℤ)) := by
  by_cases zero : x = 0
  · rw [zero, nearest_zero, sub_self, abs_zero]
    positivity
  · have unit : (0 : ℚ) < 2 ^ quantum x := by positivity
    have near := abs_sub_nearestEven_le (x / 2 ^ quantum x)
    have split : x - nearest x =
        (x / 2 ^ quantum x - nearestEven (x / 2 ^ quantum x)) * 2 ^ quantum x := by
      rw [sub_mul, div_mul_cancel₀ _ unit.ne']
      rfl
    have half : (2 : ℚ) ^ (-52 : ℤ) = 2 * 2 ^ (-53 : ℤ) := by norm_num
    have coarse := two_zpow_quantum_le zero
    rw [half] at coarse
    generalize (2 : ℚ) ^ (-53 : ℤ) = fine at *
    rw [split, abs_mul, abs_of_pos unit]
    linarith [mul_le_mul_of_nonneg_right near unit.le]

/-- A normal double has the sign of what it is near. -/
theorem nearest_pos {x : ℚ} (normal : 2 ^ (-1022 : ℤ) ≤ x) : 0 < nearest x := by
  have positive : 0 < x := lt_of_lt_of_le (by positivity) normal
  have near := (abs_le.1 (abs_sub_nearest_le x)).2
  rw [abs_of_pos positive, max_eq_left normal] at near
  have small : (2 : ℚ) ^ (-53 : ℤ) * x < 1 * x := mul_lt_mul_of_pos_right (by norm_num) positive
  linarith

/-- What is too small for half the least double is near zero. -/
theorem nearest_tiny {x : ℚ} (some : x ≠ 0) (tiny : |x| < 2 ^ (-1075 : ℤ)) : nearest x = 0 := by
  have level : quantum x = -1074 := by
    apply max_eq_right
    have low : Int.log 2 |x| < -1075 := by
      rw [← Int.lt_zpow_iff_log_lt (by norm_num) (abs_pos.2 some)]
      exact_mod_cast tiny
    omega
  have close : |x / 2 ^ (-1074 : ℤ)| < 1 / 2 := by
    have half : (2 : ℚ) ^ (-1075 : ℤ) = 1 / 2 * 2 ^ (-1074 : ℤ) := by
      rw [show (-1075 : ℤ) = -1 + -1074 by norm_num, zpow_add₀ (by norm_num)]
      norm_num
    rw [half] at tiny
    rw [abs_div, abs_of_pos (show (0 : ℚ) < 2 ^ (-1074 : ℤ) by positivity),
      div_lt_iff₀ (by positivity)]
    exact tiny
  have zero : nearestEven (x / 2 ^ (-1074 : ℤ)) = 0 :=
    nearestEven_eq_of_close (by simpa using close)
  rw [nearest, level, zero, Int.cast_zero, zero_mul]

end Error

section Apart

/-- Numbers of different digits at most so far apart are multiples of the smaller place. -/
theorem place_le {m k m' k' : ℤ} (order : k ≤ k') (apart : (m : ℚ) * 10 ^ k ≠ m' * 10 ^ k') :
    (10 : ℚ) ^ k ≤ |(m : ℚ) * 10 ^ k - m' * 10 ^ k'| := by
  obtain ⟨d, split⟩ := Int.le.dest order
  have whole : (m : ℚ) * 10 ^ k - m' * 10 ^ k' = ((m - m' * 10 ^ d : ℤ) : ℚ) * 10 ^ k := by
    rw [← split, zpow_add₀ (by norm_num : (10 : ℚ) ≠ 0), zpow_natCast]
    push_cast
    ring
  have some : m - m' * 10 ^ d ≠ 0 := by
    intro zero
    rw [zero, Int.cast_zero, zero_mul, sub_eq_zero] at whole
    exact apart whole
  have one : (1 : ℚ) ≤ |((m - m' * 10 ^ d : ℤ) : ℚ)| := by exact_mod_cast Int.one_le_abs some
  rw [whole, abs_mul, abs_of_pos (show (0 : ℚ) < 10 ^ k by positivity)]
  exact le_mul_of_one_le_left (by positivity) one

/-- Of two numbers near one double, neither is half a fifteenth digit from the other. -/
theorem gap_le {x y : ℚ} (same : nearest x = nearest y) (normal : 2 ^ (-1022 : ℤ) ≤ |x|) :
    |x - y| ≤ 2 ^ (-51 : ℤ) * |x| ∧ |x - y| ≤ 2 ^ (-51 : ℤ) * |y| := by
  have nearX := abs_sub_nearest_le x
  have nearY := abs_sub_nearest_le y
  have fine : (2 : ℚ) ^ (-51 : ℤ) = 4 * 2 ^ (-53 : ℤ) := by norm_num
  have small : (2 : ℚ) ^ (-53 : ℤ) ≤ 1 / 4 := by norm_num
  have positive : (0 : ℚ) < 2 ^ (-53 : ℤ) := by positivity
  have wide : max |y| (2 ^ (-1022 : ℤ)) ≤ max |y| |x| := max_le_max le_rfl normal
  rw [max_eq_left normal, same] at nearX
  rw [fine]
  generalize (2 : ℚ) ^ (-53 : ℤ) = u at *
  have nearY := nearY.trans (mul_le_mul_of_nonneg_left wide positive.le)
  have near : |x - y| ≤ u * |x| + u * max |y| |x| := by
    have split : x - y = (x - nearest y) - (y - nearest y) := by ring
    rw [split]
    exact (abs_sub _ _).trans (add_le_add nearX nearY)
  have back : u * |x| ≤ u * |y| + u * |x - y| := by
    rw [← mul_add]
    refine mul_le_mul_of_nonneg_left ?_ positive.le
    have := abs_sub_abs_le_abs_sub x y
    linarith
  have forth : u * |y| ≤ u * |x| + u * |x - y| := by
    rw [← mul_add, abs_sub_comm]
    refine mul_le_mul_of_nonneg_left ?_ positive.le
    have := abs_sub_abs_le_abs_sub y x
    linarith
  have part : u * |x - y| ≤ 1 / 4 * |x - y| := mul_le_mul_of_nonneg_right small (abs_nonneg _)
  have first := mul_nonneg positive.le (abs_nonneg x)
  have second := mul_nonneg positive.le (abs_nonneg y)
  have gap := abs_nonneg (x - y)
  rcases max_cases |y| |x| with ⟨larger, order⟩ | ⟨larger, order⟩
  · rw [larger] at near
    have order : u * |x| ≤ u * |y| := mul_le_mul_of_nonneg_left order positive.le
    constructor <;> linarith
  · rw [larger] at near
    constructor <;> linarith

/-- Two numbers of fifteen digits near one normal double are one number. -/
theorem nearest_injective {x y : ℚ} (left : HasDigits 15 x) (right : HasDigits 15 y)
    (normal : 2 ^ (-1022 : ℤ) ≤ |x|) (same : nearest x = nearest y) : x = y := by
  by_contra apart
  have gap := gap_le same normal
  obtain ⟨m, k, short, rfl⟩ := left
  obtain ⟨m', k', short', rfl⟩ := right
  have size {m k : ℤ} (short : |m| < 10 ^ 15) : 2 ^ (-51 : ℤ) * |(m : ℚ) * 10 ^ k| < 10 ^ k := by
    have unit : (0 : ℚ) < 10 ^ k := by positivity
    have short : |(m : ℚ)| < 10 ^ 15 := by exact_mod_cast short
    rw [abs_mul, abs_of_pos unit, ← mul_assoc]
    have fine : (2 : ℚ) ^ (-51 : ℤ) * |(m : ℚ)| < 1 := by
      have scaled := mul_lt_mul_of_pos_left short (show (0 : ℚ) < 2 ^ (-51 : ℤ) by positivity)
      have room : (2 : ℚ) ^ (-51 : ℤ) * 10 ^ 15 < 1 := by norm_num
      exact scaled.trans room
    linarith [mul_lt_mul_of_pos_right fine unit]
  rcases le_total k k' with order | order
  · exact absurd ((place_le order apart).trans gap.1) (not_le.2 (size short))
  · have place := place_le order (Ne.symm apart)
    rw [abs_sub_comm] at place
    exact absurd (place.trans gap.2) (not_le.2 (size short'))

end Apart

end ArbNautilus.Base.Binary64
