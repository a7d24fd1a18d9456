import ArbNautilus.Base.DecimalContext
import Mathlib.Tactic.Ring

/-! What is made of a decimal is made of the same one with a zero fewer at its end. -/

namespace ArbNautilus.Base.Decimal

section Digits

/-- The digits of a number and a zero behind them. -/
theorem toDigits_mul_ten {n : ℕ} (some : n ≠ 0) :
    Nat.toDigits 10 (10 * n) = Nat.toDigits 10 n ++ ['0'] :=
  (Nat.toDigits_append_toDigits (by norm_num) (Nat.pos_of_ne_zero some) (d := 0) (by norm_num)).symm

theorem magnitude_eq (coefficient : ℕ) (exponent : ℤ) :
    magnitude coefficient exponent = coefficient * 10 ^ exponent := by
  cases exponent with
  | ofNat places =>
    rw [magnitude, Int.ofNat_eq_natCast, zpow_natCast]
    push_cast
    rfl
  | negSucc places =>
    rw [magnitude, zpow_negSucc, div_eq_mul_inv]
    push_cast
    rfl

theorem digitChar_ne_zero {digit : ℕ} (small : digit < 10) (some : digit ≠ 0) :
    Nat.digitChar digit ≠ '0' := by
  intro same
  have code := congrArg Char.toNat same
  rw [Nat.toNat_digitChar_of_lt_ten small] at code
  change _ = 48 at code
  omega

/-- The last digit is the remainder by ten. -/
theorem toDigits_last (n : ℕ) : ∃ init, Nat.toDigits 10 n = init ++ [Nat.digitChar (n % 10)] := by
  by_cases small : n < 10
  · exact ⟨[], by rw [Nat.toDigits_of_lt_base small, Nat.mod_eq_of_lt small, List.nil_append]⟩
  · refine ⟨Nat.toDigits 10 (n / 10), ?_⟩
    have split := Nat.toDigits_append_toDigits (b := 10) (n := n / 10) (d := n % 10) (by norm_num)
      (Nat.div_pos (not_lt.1 small) (by norm_num)) (Nat.mod_lt n (by norm_num))
    rw [Nat.div_add_mod, Nat.toDigits_of_lt_base (Nat.mod_lt n (by norm_num))] at split
    exact split.symm

/-- No digits of a number but zero start with a zero. -/
theorem toDigits_first {n : ℕ} (some : n ≠ 0) :
    ∃ c rest, Nat.toDigits 10 n = c :: rest ∧ c ≠ '0' := by
  induction n using Nat.strong_induction_on with
  | _ n ih =>
    by_cases small : n < 10
    · exact ⟨_, [], Nat.toDigits_of_lt_base small, digitChar_ne_zero small some⟩
    · have shrinks : n / 10 < n := Nat.div_lt_self (Nat.pos_of_ne_zero some) (by norm_num)
      obtain ⟨c, rest, digits, front⟩ := ih (n / 10) shrinks (by omega)
      refine ⟨c, rest ++ [Nat.digitChar (n % 10)], ?_, front⟩
      rw [Nat.toDigits_of_base_le (by norm_num) (not_lt.1 small), digits]
      rfl

end Digits

section Shift

variable {negative : Bool} {n : ℕ} {e : ℤ}

theorem adjusted_shift (some : n ≠ 0) :
    adjusted ⟨negative, 10 * n, e⟩ = adjusted ⟨negative, n, e + 1⟩ := by
  simp only [adjusted, toDigits_mul_ten some, List.length_append, List.length_singleton]
  push_cast
  ring

theorem isWhole_shift : IsWhole ⟨negative, 10 * n, e⟩ ↔ IsWhole ⟨negative, n, e + 1⟩ := by
  match e with
  | .ofNat places => exact Iff.rfl
  | .negSucc 0 => exact iff_of_true (Nat.dvd_mul_right 10 n) trivial
  | .negSucc (places + 1) =>
    change 10 ^ (places + 1 + 1) ∣ 10 * n ↔ 10 ^ (places + 1) ∣ n
    rw [Nat.pow_succ', Nat.mul_dvd_mul_iff_left (by norm_num)]

theorem format_shift_whole (some : n ≠ 0) (places : ℕ) :
    format ⟨negative, 10 * n, .ofNat places⟩ = format ⟨negative, n, .ofNat (places + 1)⟩ := by
  have more : 10 * n ≠ 0 := by omega
  simp only [format, toDigits_mul_ten some, if_neg some, if_neg more, List.append_assoc,
    List.singleton_append, List.replicate_succ]

/-- The last place is printed behind a point. -/
theorem format_shift_point (some : n ≠ 0) :
    format ⟨negative, 10 * n, .negSucc 0⟩ = format ⟨negative, n, .ofNat 0⟩ ++ ['.', '0'] := by
  have long : 1 + 1 - ((Nat.toDigits 10 n).length + 1) = 0 := by
    have := Nat.length_toDigits_pos (b := 10) (n := n)
    omega
  simp only [format, padded, toDigits_mul_ten some, if_neg some, List.length_append,
    List.length_singleton, List.replicate_zero, List.append_nil, Nat.zero_add, long,
    List.nil_append, Nat.add_sub_cancel, List.take_left', List.drop_left']
  cases negative <;> simp

/-- A zero behind the point is printed. -/
theorem format_shift (some : n ≠ 0) (places : ℕ) :
    format ⟨negative, 10 * n, .negSucc (places + 1)⟩ =
      format ⟨negative, n, .negSucc places⟩ ++ ['0'] := by
  have pad : padded (places + 1 + 1) (Nat.toDigits 10 n ++ ['0']) =
      padded (places + 1) (Nat.toDigits 10 n) ++ ['0'] := by
    rw [padded, padded, List.length_append, List.length_singleton, Nat.add_sub_add_right,
      List.append_assoc]
  simp only [format, toDigits_mul_ten some, pad]
  generalize padded (places + 1) (Nat.toDigits 10 n) = digits
  rw [List.length_append, List.length_singleton, Nat.add_sub_add_right,
    List.take_append_of_le_length (Nat.sub_le _ _), List.drop_append_of_le_length (Nat.sub_le _ _)]
  cases negative <;> simp

end Shift

section Normalize

variable {c : Context} {negative : Bool} {n : ℕ} {e : ℤ}

theorem lastKept_shift (some : n ≠ 0) :
    lastKept c ⟨negative, 10 * n, e⟩ = lastKept c ⟨negative, n, e + 1⟩ := by
  rw [lastKept, adjusted_shift some, lastKept]

/-- Where the zero is rounded away, the same is kept of both. -/
theorem roundTo_shift (some : n ≠ 0) (precise : 0 < c.prec) {last : ℤ}
    (level : lastKept c ⟨negative, n, e + 1⟩ = last) (above : e < last) :
    roundTo c ⟨negative, 10 * n, e⟩ last =
      if last ≤ e + 1 then ⟨negative, n, e + 1⟩ else roundTo c ⟨negative, n, e + 1⟩ last := by
  split
  · have next : last = e + 1 := by omega
    have one : (last - e).toNat = 1 := by omega
    have whole : ((10 * n : ℕ) : ℚ) / 10 ^ 1 = ((n : ℤ) : ℚ) := by
      push_cast
      field_simp
    have short : n < 10 ^ c.prec := by
      rw [← Nat.length_toDigits_le_iff (by norm_num) precise]
      unfold lastKept adjusted at level
      dsimp only at level
      omega
    rw [roundTo, one, whole, nearestEven_intCast, Int.toNat_natCast, if_neg (by omega), next]
  · have more : (last - e).toNat = (last - (e + 1)).toNat + 1 := by omega
    have ratio : ((10 * n : ℕ) : ℚ) / 10 ^ (last - e).toNat =
        (n : ℚ) / 10 ^ (last - (e + 1)).toNat := by
      rw [more, pow_succ]
      push_cast
      field_simp
    rw [roundTo, roundTo, ratio]

theorem normalize_shift (some : n ≠ 0) (precise : 0 < c.prec) (room : e < c.emax) :
    normalize c ⟨negative, 10 * n, e⟩ = normalize c ⟨negative, n, e + 1⟩ := by
  have more : 10 * n ≠ 0 := by omega
  have level : lastKept c ⟨negative, 10 * n, e⟩ = lastKept c ⟨negative, n, e + 1⟩ :=
    lastKept_shift some
  by_cases kept : lastKept c ⟨negative, n, e + 1⟩ ≤ e
  · have trim : trimZeros c.emax (Nat.toDigits 10 (10 * n)).length (10 * n) e =
        trimZeros c.emax (Nat.toDigits 10 n).length n (e + 1) := by
      rw [toDigits_mul_ten some, List.length_append, List.length_singleton, trimZeros,
        if_pos ⟨Nat.mul_mod_right 10 n, room⟩, Nat.mul_div_cancel_left n (by norm_num)]
    have first : finish c ⟨negative, 10 * n, e⟩ =
        (raiseIf (c.emax < adjusted ⟨negative, n, e + 1⟩) .overflow >>=
          fun _ => pure ⟨negative, 10 * n, e⟩) := by
      rw [finish, level, if_pos kept, if_neg more, adjusted_shift some]
    have second : finish c ⟨negative, n, e + 1⟩ =
        (raiseIf (c.emax < adjusted ⟨negative, n, e + 1⟩) .overflow >>=
          fun _ => pure ⟨negative, n, e + 1⟩) := by
      rw [finish, if_pos (show _ ≤ e + 1 by omega), if_neg some]
    rw [normalize, normalize, first, second]
    simp only [bind_assoc, pure_bind, if_neg more, if_neg some, trim]
  · have rounded := roundTo_shift some precise rfl (not_le.1 kept)
    have same : finish c ⟨negative, 10 * n, e⟩ = finish c ⟨negative, n, e + 1⟩ := by
      rw [finish, finish, level, if_neg kept, rounded]
    rw [normalize, normalize, same]

end Normalize

end ArbNautilus.Base.Decimal
