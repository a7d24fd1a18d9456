import ArbNautilus.Base.Binary64
import ArbNautilus.Base.Lines

/-! The text ECMAScript prints a Number by. -/

namespace ArbNautilus.Base

open Context (HasDigits)

/-- A positive Number has this many digits, their number and the place of the point: as few
digits as name it. -/
structure Shortest (x : ℚ) (s k : ℕ) (n : ℤ) : Prop where
  some : 1 ≤ k
  low : 10 ^ (k - 1) ≤ s
  high : s < 10 ^ k
  names : Binary64.nearest (s * 10 ^ (n - k)) = x
  least : ∀ (s' k' : ℕ) (n' : ℤ), 1 ≤ k' → 10 ^ (k' - 1) ≤ s' → s' < 10 ^ k' →
    Binary64.nearest (s' * 10 ^ (n' - k')) = x → k ≤ k'

/-- How the digits are laid out. -/
def numberLayout (s k : ℕ) (n : ℤ) : Text :=
  let digits := Nat.toDigits 10 s
  if -5 ≤ n ∧ n ≤ 21 then
    if k ≤ n then digits ++ List.replicate (n - k).toNat '0'
    else if 0 < n then digits.take n.toNat ++ '.' :: digits.drop n.toNat
    else '0' :: '.' :: (List.replicate (-n).toNat '0' ++ digits)
  else
    let exponent := 'e' :: (if n < 0 then '-' else '+') :: Nat.toDigits 10 (n - 1).natAbs
    if k = 1 then digits ++ exponent else digits.take 1 ++ '.' :: (digits.drop 1 ++ exponent)

/-- `Number::toString` of a finite Number. -/
inductive NumberText : ℚ → Text → Prop
  | zero : NumberText 0 ['0']
  | positive {x : ℚ} {s k : ℕ} {n : ℤ} :
    0 < x → Shortest x s k n → NumberText x (numberLayout s k n)
  | negative {x : ℚ} {s k : ℕ} {n : ℤ} : 0 < x → Shortest x s k n →
    NumberText (-x) ('-' :: numberLayout s k n)

section Unique

/-- Two ways to write one number, the first without a zero at its end. -/
theorem coefficient_le {s s' : ℕ} {e e' : ℤ} (trimmed : ¬10 ∣ s)
    (same : (s : ℚ) * 10 ^ e = s' * 10 ^ e') : ∃ j : ℕ, s' = s * 10 ^ j ∧ e = e' + j := by
  rcases le_or_gt e' e with order | order
  · obtain ⟨j, split⟩ := Int.le.dest order
    refine ⟨j, ?_, split.symm⟩
    rw [← split, zpow_add₀ (by norm_num : (10 : ℚ) ≠ 0), zpow_natCast, ← mul_assoc,
      mul_right_comm] at same
    exact_mod_cast (mul_right_cancel₀ (by positivity) same).symm
  · obtain ⟨j, split⟩ := Int.le.dest order.le
    rw [← split, zpow_add₀ (by norm_num : (10 : ℚ) ≠ 0), zpow_natCast, ← mul_assoc,
      mul_right_comm] at same
    have whole : s = s' * 10 ^ j := by exact_mod_cast mul_right_cancel₀ (by positivity) same
    have more : j ≠ 0 := by omega
    exact absurd (whole ▸ Dvd.dvd.mul_left (dvd_pow_self 10 more) s') trimmed

variable {s k : ℕ} {n : ℤ}

theorem hasDigits_of_lt {s k : ℕ} {e : ℤ} (high : s < 10 ^ k) (short : k ≤ 15) :
    HasDigits 15 ((s : ℚ) * 10 ^ e) := by
  refine ⟨s, e, ?_, by push_cast; rfl⟩
  rw [Nat.abs_cast]
  exact_mod_cast high.trans_le (Nat.pow_le_pow_right (by norm_num) short)

/-- A decimal of fifteen digits is the shortest name of its double, and the only one as short. -/
theorem shortest_iff (trimmed : ¬10 ∣ s) (low : 10 ^ (k - 1) ≤ s) (high : s < 10 ^ k) (some : 1 ≤ k)
    (short : k ≤ 15) (normal : 2 ^ (-1022 : ℤ) ≤ (s : ℚ) * 10 ^ (n - k)) {s' k' : ℕ} {n' : ℤ} :
    Shortest (Binary64.nearest (s * 10 ^ (n - k))) s' k' n' ↔ s' = s ∧ k' = k ∧ n' = n := by
  have normal : 2 ^ (-1022 : ℤ) ≤ |(s : ℚ) * 10 ^ (n - k)| := normal.trans (le_abs_self _)
  have value {s' k' : ℕ} {n' : ℤ} (few : k' ≤ k) (high' : s' < 10 ^ k')
      (names : Binary64.nearest (s' * 10 ^ (n' - k')) = Binary64.nearest (s * 10 ^ (n - k))) :
      ∃ j : ℕ, s' = s * 10 ^ j ∧ n - k = n' - k' + j :=
    coefficient_le trimmed (Binary64.nearest_injective (hasDigits_of_lt high short)
      (hasDigits_of_lt high' (few.trans short)) normal names.symm)
  have least {s' k' : ℕ} {n' : ℤ} (high' : s' < 10 ^ k')
      (names : Binary64.nearest (s' * 10 ^ (n' - k')) = Binary64.nearest (s * 10 ^ (n - k))) :
        k ≤ k' := by
    by_contra fewer
    obtain ⟨j, rfl, -⟩ := value (not_le.1 fewer).le high' names
    have grows : s ≤ s * 10 ^ j := Nat.le_mul_of_pos_right s (by positivity)
    have less : 10 ^ k' ≤ 10 ^ (k - 1) := Nat.pow_le_pow_right (by norm_num) (by omega)
    omega
  constructor
  · intro found
    have same : k' = k :=
      le_antisymm (found.least s k n some low high rfl) (least found.high found.names)
    subst same
    obtain ⟨j, rfl, places⟩ := value le_rfl found.high found.names
    cases j with
    | zero => exact ⟨by simp, rfl, by push_cast at places; omega⟩
    | succ j =>
      have step : 10 * 10 ^ (k' - 1) = 10 ^ k' := by
        rw [← Nat.pow_succ', Nat.succ_eq_add_one, Nat.sub_add_cancel some]
      have grows : s * 10 ≤ s * 10 ^ (j + 1) :=
        Nat.mul_le_mul_left s (Nat.le_self_pow (Nat.succ_ne_zero j) 10)
      have full := found.high
      omega
  · rintro ⟨rfl, rfl, rfl⟩
    exact ⟨some, low, high, rfl, fun s' k' n' _ _ high' names => least high' names⟩

/-- What is printed for a number of fifteen digits. -/
theorem numberText_iff (trimmed : ¬10 ∣ s) (low : 10 ^ (k - 1) ≤ s) (high : s < 10 ^ k)
    (some : 1 ≤ k)
    (short : k ≤ 15) (normal : 2 ^ (-1022 : ℤ) ≤ (s : ℚ) * 10 ^ (n - k)) (text : Text) :
    (NumberText (Binary64.nearest (s * 10 ^ (n - k))) text ↔ text = numberLayout s k n) ∧
      (NumberText (Binary64.nearest (-(s * 10 ^ (n - k)))) text ↔ text =
        '-' :: numberLayout s k n) := by
  have positive := Binary64.nearest_pos normal
  have unique {s' k' : ℕ} {n' : ℤ} :
      Shortest (Binary64.nearest (s * 10 ^ (n - k))) s' k' n' ↔ s' = s ∧ k' = k ∧ n' = n :=
    shortest_iff trimmed low high some short normal
  rw [Binary64.nearest_neg]
  generalize Binary64.nearest (s * 10 ^ (n - k)) = x at *
  constructor
  · constructor
    · intro printed
      cases printed with
      | zero => exact absurd positive (lt_irrefl 0)
      | positive _ found =>
        obtain ⟨rfl, rfl, rfl⟩ := unique.1 found
        rfl
      | negative below => linarith
    · rintro rfl
      exact .positive positive (unique.2 ⟨rfl, rfl, rfl⟩)
  · constructor
    · intro printed
      generalize same : -x = y at printed
      cases printed with
      | zero => linarith
      | positive above => linarith
      | negative above found =>
        rw [neg_inj] at same
        subst same
        obtain ⟨rfl, rfl, rfl⟩ := unique.1 found
        rfl
    · rintro rfl
      exact .negative positive (unique.2 ⟨rfl, rfl, rfl⟩)

end Unique

end ArbNautilus.Base
