import ArbNautilus.Base.Decimal
import Mathlib.Algebra.BigOperators.Group.List.Basic
import Mathlib.Data.Nat.Log
import Mathlib.Data.Nat.Prime.Basic
import Mathlib.Data.Rat.Lemmas

/-! The numbers a `Decimal` can hold, and a text for each. -/

namespace ArbNautilus.Base.Decimal

/-- A power of ten clears the denominator. -/
def IsFraction (q : ℚ) : Prop := ∃ k, q.den ∣ 10 ^ k

/-- A decimal of a given value, with digits enough behind the point. -/
def ofRat (q : ℚ) : Decimal :=
  let places := Nat.log 2 q.den
  ⟨q < 0, q.num.natAbs * (10 ^ places / q.den), -places⟩

theorem dvd_of_isFraction {q : ℚ} (fraction : IsFraction q) : q.den ∣ 10 ^ Nat.log 2 q.den := by
  obtain ⟨k, divides⟩ := fraction
  have split (n : ℕ) : (10 : ℕ) ^ n = 2 ^ n * 5 ^ n := by rw [← Nat.mul_pow]
  rw [split] at divides
  obtain ⟨twos, fives, two, five, whole⟩ := (Nat.dvd_mul).1 divides
  obtain ⟨a, -, rfl⟩ := (Nat.dvd_prime_pow Nat.prime_two).1 two
  obtain ⟨b, -, rfl⟩ := (Nat.dvd_prime_pow Nat.prime_five).1 five
  have first : a ≤ Nat.log 2 q.den := by
    apply Nat.le_log_of_pow_le (by norm_num)
    rw [← whole]
    exact Nat.le_mul_of_pos_right _ (Nat.pow_pos (by norm_num))
  have second : b ≤ Nat.log 2 q.den := by
    apply Nat.le_log_of_pow_le (by norm_num)
    calc 2 ^ b ≤ 5 ^ b := Nat.pow_le_pow_left (by omega) b
      _ ≤ 2 ^ a * 5 ^ b := Nat.le_mul_of_pos_left _ (Nat.pow_pos (by norm_num))
      _ = q.den := whole
  rw [split (Nat.log 2 q.den), ← whole]
  exact Nat.mul_dvd_mul (Nat.pow_dvd_pow 2 (whole ▸ first)) (Nat.pow_dvd_pow 5 (whole ▸ second))

theorem magnitude_neg (coefficient places : ℕ) :
    magnitude coefficient (-places) = coefficient / 10 ^ places := by
  cases places with
  | zero => simp [magnitude]
  | succ places =>
    have code : -((places + 1 : ℕ) : ℤ) = Int.negSucc places := rfl
    rw [code, magnitude]
    push_cast
    rfl

/-- The decimal has the value it was made of. -/
theorem value_ofRat {q : ℚ} (fraction : IsFraction q) : (ofRat q).value = q := by
  obtain ⟨rest, whole⟩ := dvd_of_isFraction fraction
  have some : (q.den : ℚ) ≠ 0 := by exact_mod_cast q.den_nz
  have size : magnitude (q.num.natAbs * (10 ^ Nat.log 2 q.den / q.den)) (-(Nat.log 2 q.den)) =
      (q.num.natAbs : ℚ) / q.den := by
    have more : (10 : ℚ) ^ Nat.log 2 q.den = q.den * rest := by exact_mod_cast whole
    have left : (rest : ℚ) ≠ 0 := by
      intro none
      rw [none, mul_zero] at more
      exact absurd more (pow_ne_zero _ (by norm_num))
    rw [magnitude_neg, more, whole, Nat.mul_div_cancel_left _ q.den_pos]
    push_cast
    field_simp
  have number := q.num_div_den
  unfold ofRat value
  dsimp only
  rw [size]
  by_cases sign : q < 0
  · have below := Rat.num_neg.2 sign
    have flip : ((q.num.natAbs : ℤ) : ℚ) = -q.num := by
      rw [Int.ofNat_natAbs_of_nonpos below.le]
      push_cast
      rfl
    rw [if_pos (by simpa using sign), ← Int.cast_natCast, flip, neg_div, neg_neg, number]
  · have above := Rat.num_nonneg.2 (not_lt.1 sign)
    have same : ((q.num.natAbs : ℤ) : ℚ) = q.num := by rw [Int.natAbs_of_nonneg above]
    rw [if_neg (by simpa using sign), ← Int.cast_natCast, same, number]

section Closed

variable {q r : ℚ}

theorem isFraction_intCast (n : ℤ) : IsFraction n := ⟨0, by simp⟩

theorem isFraction_zero : IsFraction 0 := isFraction_intCast 0

theorem isFraction_neg (fraction : IsFraction q) : IsFraction (-q) := by
  obtain ⟨k, divides⟩ := fraction
  exact ⟨k, by rwa [Rat.neg_den]⟩

theorem isFraction_add (first : IsFraction q) (second : IsFraction r) : IsFraction (q + r) := by
  obtain ⟨k, divides⟩ := first
  obtain ⟨l, more⟩ := second
  refine ⟨k + l, ?_⟩
  rw [Nat.pow_add]
  exact (Rat.add_den_dvd q r).trans (Nat.mul_dvd_mul divides more)

theorem isFraction_sum {values : List ℚ} (all : ∀ q ∈ values, IsFraction q) :
    IsFraction values.sum := by
  induction values with
  | nil => exact isFraction_zero
  | cons q values ih =>
    rw [List.sum_cons]
    exact isFraction_add (all q (by simp)) (ih fun r member => all r (by simp [member]))

theorem isFraction_magnitude (coefficient : ℕ) (exponent : ℤ) :
    IsFraction (magnitude coefficient exponent) := by
  cases exponent with
  | ofNat places => exact isFraction_intCast (coefficient * 10 ^ places : ℕ)
  | negSucc places =>
    refine ⟨places + 1, ?_⟩
    have ratio : magnitude coefficient (Int.negSucc places) =
        Rat.divInt coefficient ((10 ^ (places + 1) : ℕ) : ℤ) := by
      rw [Rat.divInt_eq_div, magnitude]
      push_cast
      rfl
    rw [ratio]
    exact Int.natCast_dvd_natCast.1 (Rat.den_dvd _ _)

theorem isFraction_value (d : Decimal) : IsFraction d.value := by
  unfold value
  split
  · exact isFraction_neg (isFraction_magnitude _ _)
  · exact isFraction_magnitude _ _

end Closed

/-- What is written of a fraction reads back as it. -/
theorem parse_ofRat {q : ℚ} (fraction : IsFraction q) :
    ∃ d, parse (ofRat q).format = some (.finite d) ∧ d.value = q :=
  ⟨_, parse_format _, (value_settled _).trans (value_ofRat fraction)⟩

end ArbNautilus.Base.Decimal
