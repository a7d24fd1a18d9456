import ArbNautilus.Base.Raise
import ArbNautilus.Base.Rounding
import Mathlib.Algebra.Field.Rat
import Mathlib.Algebra.Order.Field.Power
import Mathlib.Algebra.Order.Ring.Unbundled.Rat
import Mathlib.Data.Int.Log
import Mathlib.Data.Rat.Floor
import Mathlib.Tactic.FieldSimp
import Mathlib.Tactic.Positivity

namespace ArbNautilus.Base

/-- What the traps of decimal arithmetic raise. -/
inductive DecimalError
  | overflow
  | divisionByZero
  | invalidOperation
deriving DecidableEq, Repr

/-- The precision and the exponents of decimal arithmetic that rounds half to even. -/
structure Context where
  prec : ℕ
  emin : ℤ
  emax : ℤ
deriving DecidableEq, Repr

namespace Context

variable (c : Context)

/-- The last exponent of a subnormal result. -/
def etiny : ℤ := c.emin - (c.prec - 1)

/-- The exponent of the last digit kept of a number. -/
def quantum (x : ℚ) : ℤ := max (Int.log 10 |x| - (c.prec - 1)) c.etiny

def nearest (x : ℚ) : ℚ := nearestEven (x / 10 ^ c.quantum x) * 10 ^ c.quantum x

/-- What an operation makes of its exact result. `Overflow` is trapped, `Underflow` is not. -/
def finish (x : ℚ) : Except DecimalError ℚ := do
  raiseIf (10 ^ (c.emax + 1) ≤ |c.nearest x|) .overflow
  pure (c.nearest x)

def add (a b : ℚ) : Except DecimalError ℚ := c.finish (a + b)

def sub (a b : ℚ) : Except DecimalError ℚ := c.finish (a - b)

def mul (a b : ℚ) : Except DecimalError ℚ := c.finish (a * b)

/-- Zero over zero is undefined, which is an invalid operation. -/
def div (a b : ℚ) : Except DecimalError ℚ := do
  raiseIf (a = 0 ∧ b = 0) .invalidOperation
  raiseIf (b = 0) .divisionByZero
  c.finish (a / b)

theorem div_eq {b : ℚ} (divisor : b ≠ 0) (a : ℚ) : c.div a b = c.finish (a / b) := by
  rw [div, raiseIf, if_neg fun both => divisor both.2, raiseIf, if_neg divisor]
  rfl

def abs (a : ℚ) : Except DecimalError ℚ := c.finish |a|

/-- A number of at most so many significant digits. -/
def HasDigits (count : ℕ) (x : ℚ) : Prop := ∃ m k : ℤ, |m| < 10 ^ count ∧ x = m * 10 ^ k

/-- A result that neither underflows nor overflows. -/
def Normal (x : ℚ) : Prop := x ≠ 0 → 10 ^ c.emin ≤ |x| ∧ |x| < 10 ^ (c.emax + 1)

section Exact

variable {c}

theorem HasDigits.mono {count more : ℕ} (le : count ≤ more) {x : ℚ} (h : HasDigits count x) :
    HasDigits more x := by
  obtain ⟨m, k, short, rfl⟩ := h
  exact ⟨m, k, short.trans_le (pow_le_pow_right₀ (by norm_num) le), rfl⟩

theorem HasDigits.mul {count more : ℕ} {x y : ℚ} (h : HasDigits count x) (h' : HasDigits more y) :
    HasDigits (count + more) (x * y) := by
  obtain ⟨m, k, short, rfl⟩ := h
  obtain ⟨m', k', short', rfl⟩ := h'
  refine ⟨m * m', k + k', ?_, ?_⟩
  · rw [abs_mul, pow_add]
    exact mul_lt_mul'' short short' (abs_nonneg m) (abs_nonneg m')
  · push_cast
    rw [zpow_add₀ (by norm_num : (10 : ℚ) ≠ 0)]
    ring

theorem HasDigits.intCast {count : ℕ} {n : ℤ} (short : |n| < 10 ^ count) :
    HasDigits count (n : ℚ) :=
  ⟨n, 0, short, by simp⟩

theorem quantum_le {x : ℚ} {m k : ℤ} (short : |m| < 10 ^ c.prec) (eq : x = m * 10 ^ k)
    (some' : x ≠ 0) (normal : 10 ^ c.emin ≤ |x|) : c.quantum x ≤ k := by
  have positive : 0 < |x| := abs_pos.2 some'
  have above : Int.log 10 |x| < c.prec + k := by
    rw [← Int.lt_zpow_iff_log_lt (by norm_num) positive, eq, abs_mul,
      abs_of_pos (show (0 : ℚ) < 10 ^ k by positivity)]
    push_cast
    rw [zpow_add₀ (by norm_num : (10 : ℚ) ≠ 0), zpow_natCast]
    have short : |(m : ℚ)| < 10 ^ c.prec := by exact_mod_cast short
    exact mul_lt_mul_of_pos_right short (by positivity)
  have below : c.emin ≤ Int.log 10 |x| := by
    rw [← Int.zpow_le_iff_le_log (by norm_num) positive]
    exact_mod_cast normal
  unfold quantum etiny
  omega

theorem nearest_zero : c.nearest 0 = 0 := by simp [nearest, nearestEven]

/-- A number with few enough digits is kept. -/
theorem nearest_of_hasDigits {x : ℚ} (digits : HasDigits c.prec x) (normal : c.Normal x) :
    c.nearest x = x := by
  by_cases zero : x = 0
  · rw [zero, nearest_zero]
  · obtain ⟨m, k, short, eq⟩ := digits
    have le := quantum_le short eq zero (normal zero).1
    obtain ⟨d, split⟩ := Int.le.dest le
    have whole : x / 10 ^ c.quantum x = ((m * 10 ^ d : ℤ) : ℚ) := by
      rw [div_eq_iff (by positivity)]
      conv_lhs => rw [eq, ← split]
      push_cast
      rw [zpow_add₀ (by norm_num : (10 : ℚ) ≠ 0), zpow_natCast]
      ring
    rw [nearest, whole, nearestEven_intCast, ← whole, div_mul_cancel₀ _ (by positivity)]

theorem finish_of_hasDigits {x : ℚ} (digits : HasDigits c.prec x) (normal : c.Normal x) :
    c.finish x = .ok x := by
  unfold finish
  rw [nearest_of_hasDigits digits normal]
  by_cases zero : x = 0
  · rw [zero, raiseIf, if_neg (by simp; positivity)]
    rfl
  · rw [raiseIf, if_neg (not_le.2 (normal zero).2)]
    rfl

end Exact

section Floor

variable {c}

theorem abs_nearest_sub_le (x : ℚ) : |x - c.nearest x| ≤ 10 ^ c.quantum x / 2 := by
  have unit : (0 : ℚ) < 10 ^ c.quantum x := by positivity
  have near := abs_sub_nearestEven_le (x / 10 ^ c.quantum x)
  have split : x - c.nearest x =
      (x / 10 ^ c.quantum x - nearestEven (x / 10 ^ c.quantum x)) * 10 ^ c.quantum x := by
    rw [sub_mul, div_mul_cancel₀ _ unit.ne']
    rfl
  rw [split, abs_mul, abs_of_pos unit]
  linarith [mul_le_mul_of_nonneg_right near unit.le]

theorem nearest_eq {x : ℚ} {m k : ℤ} (level : c.quantum x = k) (close : |x / 10 ^ k - m| < 1 / 2) :
    c.nearest x = m * 10 ^ k := by
  rw [nearest, level, nearestEven_eq_of_close close]

/-- Rounding passes no integer while digits after the point are kept. -/
theorem intCast_le_nearest {x : ℚ} {n : ℤ} (small : c.quantum x ≤ 0) (le : n ≤ x) :
    n ≤ c.nearest x := by
  have unit : (0 : ℚ) < 10 ^ c.quantum x := by positivity
  obtain ⟨d, split⟩ := Int.le.dest small
  have whole : (n : ℚ) = ((n * 10 ^ d : ℤ) : ℚ) * 10 ^ c.quantum x := by
    push_cast
    rw [mul_assoc, ← zpow_natCast, ← zpow_add₀ (by norm_num : (10 : ℚ) ≠ 0), add_comm, split]
    simp
  have below : ((n * 10 ^ d : ℤ) : ℚ) ≤ x / 10 ^ c.quantum x := by
    rw [le_div_iff₀ unit, ← whole]
    exact le
  have rounded := nearestEven_mono below
  rw [nearestEven_intCast] at rounded
  rw [whole, nearest]
  exact mul_le_mul_of_nonneg_right (by exact_mod_cast rounded) unit.le

/-- A negative number that does not underflow stays negative. -/
theorem nearest_neg {x : ℚ} (prec : 1 ≤ c.prec) (normal : c.Normal x) (neg : x < 0) :
    c.nearest x < 0 := by
  have unit : (0 : ℚ) < 10 ^ c.quantum x := by positivity
  have positive : 0 < |x| := abs_pos.2 neg.ne
  have below : c.emin ≤ Int.log 10 |x| := by
    rw [← Int.zpow_le_iff_le_log (by norm_num) positive]
    exact_mod_cast (normal neg.ne).1
  have kept : c.quantum x ≤ Int.log 10 |x| := by
    unfold quantum etiny
    omega
  have one : 10 ^ c.quantum x ≤ -x := by
    rw [← abs_of_neg neg]
    exact (zpow_le_zpow_right₀ (by norm_num) kept).trans
      (Int.zpow_log_le_self (by norm_num) positive)
  have rounded : nearestEven (x / 10 ^ c.quantum x) ≤ -1 := by
    have := nearestEven_mono (show x / 10 ^ c.quantum x ≤ ((-1 : ℤ) : ℚ) by
      rw [div_le_iff₀ unit]
      push_cast
      linarith)
    rwa [nearestEven_intCast] at this
  have rounded : (nearestEven (x / 10 ^ c.quantum x) : ℚ) ≤ -1 := by exact_mod_cast rounded
  unfold nearest
  exact mul_neg_of_neg_of_pos (by linarith) unit

/-- Rounding then keeps the floor of a number that no integer above comes close to. -/
theorem floor_nearest {x : ℚ} (prec : 1 ≤ c.prec) (small : c.quantum x ≤ 0) (normal : c.Normal x)
    (apart : ∀ n : ℤ, n ≠ 0 → x < n → 10 ^ c.quantum x / 2 < n - x) : ⌊c.nearest x⌋ = ⌊x⌋ := by
  rw [Int.floor_eq_iff]
  refine ⟨intCast_le_nearest small (Int.floor_le x), ?_⟩
  have next := Int.lt_floor_add_one x
  by_cases zero : ⌊x⌋ + 1 = 0
  · have zero' : (⌊x⌋ : ℚ) + 1 = 0 := by exact_mod_cast zero
    rw [zero'] at next ⊢
    exact nearest_neg prec normal next
  · have gap := apart (⌊x⌋ + 1) zero (by exact_mod_cast next)
    have near := (abs_le.1 (abs_nearest_sub_le (c := c) x)).1
    push_cast at gap
    linarith

/-- A quotient of small integers keeps its distance from every integer but zero. -/
theorem quotient_apart {N M n j : ℤ} {B : ℚ} (positive : 0 < M) (two : 2 ≤ B) (above : (M : ℚ) ≤ B)
    (twice : 2 * |(N : ℚ)| ≤ B) (some' : n ≠ 0) (apart : (N : ℚ) / M * 10 ^ j ≠ n) :
    1 / B ≤ |n - (N : ℚ) / M * 10 ^ j| := by
  have M0 : (0 : ℚ) < M := by exact_mod_cast positive
  have B0 : 0 < B := by linarith
  by_cases up : 0 ≤ j
  · obtain ⟨d, rfl⟩ := Int.eq_ofNat_of_zero_le up
    have split : (n : ℚ) - (N : ℚ) / M * 10 ^ (d : ℤ) = ((n * M - N * 10 ^ d : ℤ) : ℚ) / M := by
      push_cast
      rw [zpow_natCast]
      field_simp
    have step : (1 : ℚ) ≤ |((n * M - N * 10 ^ d : ℤ) : ℚ)| := by
      have gap : n * M - N * 10 ^ d ≠ 0 := by
        intro zero
        apply apart
        have := split
        rw [zero, Int.cast_zero, zero_div, sub_eq_zero] at this
        exact this.symm
      exact_mod_cast Int.one_le_abs gap
    rw [split, abs_div, abs_of_pos M0, div_le_div_iff₀ B0 M0]
    nlinarith
  · obtain ⟨d, hd⟩ := Int.eq_ofNat_of_zero_le (show 0 ≤ -j by omega)
    have scale : (10 : ℚ) ^ j = (10 ^ d)⁻¹ := by
      rw [← zpow_natCast, ← hd, zpow_neg, inv_inv]
    have D0 : (0 : ℚ) < 10 ^ d := by positivity
    have split : (n : ℚ) - (N : ℚ) / M * 10 ^ j =
        ((n * (M * 10 ^ d) - N : ℤ) : ℚ) / (M * 10 ^ d) := by
      push_cast
      rw [scale]
      field_simp
    by_cases near : (M : ℚ) * 10 ^ d ≤ 2 * |(N : ℚ)|
    · have step : (1 : ℚ) ≤ |((n * (M * 10 ^ d) - N : ℤ) : ℚ)| := by
        have gap : n * (M * 10 ^ d) - N ≠ 0 := by
          intro zero
          apply apart
          have := split
          rw [zero, Int.cast_zero, zero_div, sub_eq_zero] at this
          exact this.symm
        exact_mod_cast Int.one_le_abs gap
      rw [split, abs_div, abs_of_pos (mul_pos M0 D0), div_le_div_iff₀ B0 (mul_pos M0 D0)]
      nlinarith
    · -- A quotient below one half is far from every integer but zero.
      have half : |(N : ℚ) / M * 10 ^ j| ≤ 1 / 2 := by
        rw [scale, ← div_eq_mul_inv, div_div, abs_div, abs_of_pos (mul_pos M0 D0),
          div_le_div_iff₀ (mul_pos M0 D0) (by norm_num)]
        linarith
      have one : (1 : ℚ) ≤ |(n : ℚ)| := by exact_mod_cast Int.one_le_abs some'
      have gap := abs_sub_abs_le_abs_sub (n : ℚ) ((N : ℚ) / M * 10 ^ j)
      have inverse : 1 / B ≤ 1 / 2 := one_div_le_one_div_of_le (by norm_num) two
      linarith

end Floor

end Context

end ArbNautilus.Base
