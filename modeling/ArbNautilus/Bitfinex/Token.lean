import ArbNautilus.Base.NumberText
import ArbNautilus.Base.Trimmed
import ArbNautilus.Bitfinex.Book
import Mathlib.Data.List.TakeWhile
import Mathlib.Data.Nat.Factorization.Basic

/-! The checksum hashes what the venue prints. -/

namespace ArbNautilus.Bitfinex.Book

open Base

section Texts

theorem stripEnd_append (c : Char) (text : Text) : stripEnd c (text ++ [c]) = stripEnd c text := by
  simp [stripEnd]

theorem stripEnd_of_last {c d : Char} {text : Text} (other : d ≠ c) :
    stripEnd c (text ++ [d]) = text ++ [d] := by
  simp [stripEnd, other]

theorem takeWhile_point (text : Text) (rest : Text) :
    (text ++ '.' :: rest).takeWhile (· ≠ '.') = text.takeWhile (· ≠ '.') := by
  induction text with
  | nil => rfl
  | cons c text ih =>
    rw [List.cons_append, List.takeWhile_cons, List.takeWhile_cons, ih]

theorem takeWhile_append_point {text : Text} (inside : '.' ∈ text) (rest : Text) :
    (text ++ rest).takeWhile (· ≠ '.') = text.takeWhile (· ≠ '.') := by
  obtain ⟨first, second, rfl⟩ := List.append_of_mem inside
  rw [List.append_assoc, List.cons_append, takeWhile_point, takeWhile_point]

theorem point_mem_format (negative : Bool) (n places : ℕ) :
    '.' ∈ Decimal.format ⟨negative, n, .negSucc places⟩ := by
  cases negative <;> simp [Decimal.format]

end Texts

section Canonical

variable {negative : Bool} {n : ℕ} {e : ℤ}

theorem exponent_le_adjusted (d : Decimal) : d.exponent ≤ d.adjusted := by
  have := Nat.length_toDigits_pos (b := 10) (n := d.coefficient)
  unfold Decimal.adjusted
  omega

theorem crcToken_whole {d : Decimal} (whole : d.IsWhole) :
    crcToken d = .ok (d.format.takeWhile (· ≠ '.')) := if_pos whole

theorem crcToken_plain {d : Decimal} (broken : ¬d.IsWhole) (level : -6 ≤ d.adjusted) :
    crcToken d = .ok (stripEnd '.' (stripEnd '0' d.format)) := (if_neg broken).trans (if_pos level)

theorem crcToken_small {d : Decimal} (broken : ¬d.IsWhole) (level : ¬-6 ≤ d.adjusted) :
    crcToken d = match d.normalize defaultContext with
      | .error error => throw (.decimal error)
      | .ok normal => pure (shortenPlus (shortenZero (normal.toText.map lower))) :=
  (if_neg broken).trans (if_neg level)

/-- A zero at the end of a decimal does not show. -/
theorem crcToken_shift (some : n ≠ 0) :
    crcToken ⟨negative, 10 * n, e⟩ = crcToken ⟨negative, n, e + 1⟩ := by
  have adjusted : Decimal.adjusted ⟨negative, 10 * n, e⟩ = Decimal.adjusted ⟨negative, n, e + 1⟩ :=
    Decimal.adjusted_shift some
  have whole : Decimal.IsWhole ⟨negative, 10 * n, e⟩ ↔ Decimal.IsWhole ⟨negative, n, e + 1⟩ :=
    Decimal.isWhole_shift
  by_cases integral : Decimal.IsWhole ⟨negative, n, e + 1⟩
  · have text : (Decimal.format ⟨negative, 10 * n, e⟩).takeWhile (· ≠ '.') =
        (Decimal.format ⟨negative, n, e + 1⟩).takeWhile (· ≠ '.') := by
      match e with
      | .ofNat places => rw [Decimal.format_shift_whole some]; rfl
      | .negSucc 0 => rw [Decimal.format_shift_point some, takeWhile_point]; rfl
      | .negSucc (places + 1) =>
        rw [Decimal.format_shift some, takeWhile_append_point (point_mem_format negative n places)]
        rfl
    rw [crcToken_whole (whole.2 integral), crcToken_whole integral, text]
  have broken := mt whole.1 integral
  by_cases level : -6 ≤ Decimal.adjusted ⟨negative, n, e + 1⟩
  · have text : stripEnd '0' (Decimal.format ⟨negative, 10 * n, e⟩) =
        stripEnd '0' (Decimal.format ⟨negative, n, e + 1⟩) := by
      match e with
      | .ofNat places => exact absurd trivial integral
      | .negSucc 0 => exact absurd trivial integral
      | .negSucc (places + 1) =>
        rw [Decimal.format_shift some, stripEnd_append]
        rfl
    rw [crcToken_plain broken (by rwa [adjusted]), crcToken_plain integral level, text]
  · have room : e < defaultContext.emax := by
      have below := exponent_le_adjusted ⟨negative, n, e + 1⟩
      dsimp only at below
      change e < 999999
      omega
    rw [crcToken_small broken (by rwa [adjusted]), crcToken_small integral level,
      Decimal.normalize_shift some (by decide) room]

theorem crcToken_scale (some : n ≠ 0) (j : ℕ) :
    crcToken ⟨negative, n * 10 ^ j, e⟩ = crcToken ⟨negative, n, e + j⟩ := by
  induction j generalizing e with
  | zero => simp
  | succ j ih =>
    have more : n * 10 ^ j ≠ 0 := Nat.mul_ne_zero some (by positivity)
    have split : n * 10 ^ (j + 1) = 10 * (n * 10 ^ j) := by ring
    have places : e + 1 + j = e + (j + 1 : ℕ) := by push_cast; ring
    rw [split, crcToken_shift more, ih, places]

/-- A decimal without the zeros at its end. -/
theorem exists_trimmed {n : ℕ} (some : n ≠ 0) : ∃ s j, ¬10 ∣ s ∧ n = s * 10 ^ j := by
  obtain ⟨j, s, trimmed, split⟩ := Nat.exists_eq_pow_mul_and_not_dvd some 10 (by norm_num)
  exact ⟨s, j, trimmed, by rw [split, mul_comm]⟩

end Canonical

section Value

theorem value_eq (negative : Bool) (n : ℕ) (e : ℤ) :
    Decimal.value ⟨negative, n, e⟩ = (if negative then -1 else 1) * ((n : ℚ) * 10 ^ e) := by
  cases negative <;> simp [Decimal.value, Decimal.magnitude_eq]

theorem coefficient_ne_zero {d : Decimal} (some : d.value ≠ 0) : d.coefficient ≠ 0 := by
  intro zero
  apply some
  rw [show d = ⟨d.negative, d.coefficient, d.exponent⟩ from rfl, value_eq, zero]
  simp

/-- Every decimal but zero has the token of a trimmed one of its value. -/
theorem crcToken_trimmed {d : Decimal} (some : d.value ≠ 0) : ∃ (s : ℕ) (e : ℤ), ¬10 ∣ s ∧ s ≠ 0 ∧
    d.value = (if d.negative then -1 else 1) * ((s : ℚ) * 10 ^ e) ∧
    crcToken d = crcToken ⟨d.negative, s, e⟩ := by
  obtain ⟨s, j, trimmed, split⟩ := exists_trimmed (coefficient_ne_zero some)
  have more : s ≠ 0 := by
    rintro rfl
    exact trimmed (dvd_zero 10)
  refine ⟨s, d.exponent + j, trimmed, more, ?_, ?_⟩
  · rw [show d = ⟨d.negative, d.coefficient, d.exponent⟩ from rfl, value_eq, split,
      zpow_add₀ (by norm_num : (10 : ℚ) ≠ 0), zpow_natCast]
    push_cast
    ring
  · rw [← crcToken_scale more, ← split]

/-- Decimals that compare equal have one token. -/
theorem crcToken_eq_of_value {d d' : Decimal} (some : d.value ≠ 0) (same : d.value = d'.value) :
    crcToken d = crcToken d' := by
  obtain ⟨s, e, trimmed, more, value, token⟩ := crcToken_trimmed some
  obtain ⟨s', e', trimmed', more', value', token'⟩ := crcToken_trimmed (same ▸ some)
  have positive {s : ℕ} (more : s ≠ 0) (e : ℤ) : (0 : ℚ) < s * 10 ^ e := by
    have : 0 < s := Nat.pos_of_ne_zero more
    positivity
  have left := positive more e
  have right := positive more' e'
  rw [value, value'] at same
  have sign : d.negative = d'.negative := by
    revert same
    cases d.negative <;> cases d'.negative <;> simp only [Bool.false_eq_true, if_true, if_false] <;>
      intro same <;> first | trivial | linarith
  have size : (s : ℚ) * 10 ^ e = s' * 10 ^ e' := by
    rw [sign] at same
    exact mul_left_cancel₀ (by split <;> norm_num) same
  obtain ⟨j, digits, places⟩ := coefficient_le trimmed size
  obtain ⟨j', digits', places'⟩ := coefficient_le trimmed' size.symm
  have none : j = 0 := by omega
  subst none
  rw [token, token', sign, digits, places]
  simp

end Value

section Printed

variable {s : ℕ} {e : ℤ}

theorem digit_plain {c : Char} (digit : c.isDigit = true) : c ≠ '.' ∧ c ≠ 'e' ∧ lower c = c := by
  simp only [Char.isDigit, Bool.and_eq_true, decide_eq_true_eq, UInt32.le_iff_toNat_le] at digit
  have range : 48 ≤ c.toNat ∧ c.toNat ≤ 57 := digit
  refine ⟨?_, ?_, ?_⟩
  · rintro rfl
    revert range
    decide
  · rintro rfl
    revert range
    decide
  · rw [lower, if_neg]
    rintro ⟨low, -⟩
    have low : 65 ≤ c.toNat := low
    omega

theorem shortenZero_plain {text : Text} (plain : ∀ c ∈ text, c ≠ 'e') (rest : Text) :
    shortenZero (text ++ rest) = text ++ shortenZero rest := by
  induction text with
  | nil => rfl
  | cons c text ih =>
    have other := plain c (by simp)
    rw [List.cons_append, shortenZero, ih fun d member => plain d (List.mem_cons_of_mem c member)]
    · rfl
    · rintro tail rfl
      exact absurd rfl other

theorem shortenPlus_plain {text : Text} (plain : ∀ c ∈ text, c ≠ 'e') (rest : Text) :
    shortenPlus (text ++ rest) = text ++ shortenPlus rest := by
  induction text with
  | nil => rfl
  | cons c text ih =>
    have other := plain c (by simp)
    rw [List.cons_append, shortenPlus, ih fun d member => plain d (List.mem_cons_of_mem c member)]
    · rfl
    · rintro tail rfl
      exact absurd rfl other

def sign (negative : Bool) : Text := if negative then ['-'] else []

/-- How many digits a number has. -/
def digitCount (n : ℕ) : ℕ := (Nat.toDigits 10 n).length

variable {negative : Bool}

/-- A whole number is printed in full. -/
theorem crcToken_of_whole (some : s ≠ 0) (places : ℕ) (high : places + digitCount s ≤ 21) :
    crcToken ⟨negative, s, .ofNat places⟩ =
      .ok (sign negative ++ numberLayout s (digitCount s) (.ofNat places + digitCount s)) := by
  have text : Decimal.format ⟨negative, s, .ofNat places⟩ =
      sign negative ++ (Nat.toDigits 10 s ++ List.replicate places '0') := by
    cases negative <;> simp [Decimal.format, sign, some]
  have layout : numberLayout s (digitCount s) (.ofNat places + digitCount s) =
      Nat.toDigits 10 s ++ List.replicate places '0' := by
    unfold numberLayout
    rw [Int.ofNat_eq_natCast, if_pos (by omega), if_pos (by omega)]
    congr 2
    omega
  have plain : ∀ c ∈ sign negative ++ (Nat.toDigits 10 s ++ List.replicate places '0'),
      c ≠ '.' := by
    intro c member
    simp only [List.mem_append, List.mem_replicate] at member
    rcases member with front | digit | ⟨-, rfl⟩
    · cases negative
      · cases front
      · rw [List.mem_singleton.1 front]
        decide
    · exact (digit_plain (Decimal.isDigit_toDigits s c digit)).1
    · decide
  have whole : Decimal.IsWhole ⟨negative, s, .ofNat places⟩ := trivial
  rw [crcToken_whole whole, text, layout, List.takeWhile_eq_self_iff.2 (by simpa using plain)]

/-- The last digit of a trimmed number is none to strip. -/
theorem stripEnd_trimmed (trimmed : ¬10 ∣ s) (front : Text) {from' : ℕ}
    (inside : from' < digitCount s) :
    stripEnd '.' (stripEnd '0' (front ++ (Nat.toDigits 10 s).drop from')) =
      front ++ (Nat.toDigits 10 s).drop from' := by
  obtain ⟨init, digits⟩ := Decimal.toDigits_last s
  have last :=
    Nat.isDigit_of_mem_toDigits (b := 10) (n := s) (c := Nat.digitChar (s % 10)) (by norm_num)
    (by norm_num) (by rw [digits]; simp)
  have zero : Nat.digitChar (s % 10) ≠ '0' :=
    Decimal.digitChar_ne_zero (Nat.mod_lt s (by norm_num)) fun none =>
      trimmed (Nat.dvd_of_mod_eq_zero none)
  rw [digitCount, digits, List.length_append, List.length_singleton] at inside
  rw [digits, List.drop_append_of_le_length (by omega), ← List.append_assoc, stripEnd_of_last zero,
    stripEnd_of_last (digit_plain last).1]

theorem broken_of_trimmed (trimmed : ¬10 ∣ s) (places : ℕ) :
    ¬Decimal.IsWhole ⟨negative, s, .negSucc places⟩ := by
  intro whole
  have scale : 10 ^ (places + 1) ∣ s := whole
  exact trimmed ((dvd_pow_self 10 (Nat.succ_ne_zero places)).trans scale)

theorem adjusted_eq (places : ℕ) :
    Decimal.adjusted ⟨negative, s, .negSucc places⟩ = digitCount s - (places + 1) - 1 := by
  rw [Decimal.adjusted, Int.negSucc_eq, digitCount]
  ring

/-- A number with a fraction, not below a millionth, is printed with a point. -/
theorem crcToken_of_fraction (trimmed : ¬10 ∣ s) (places : ℕ)
    (high : digitCount s ≤ 21 + (places + 1))
    (level : (places : ℤ) + 1 ≤ 5 + digitCount s) :
    crcToken ⟨negative, s, .negSucc places⟩ =
      .ok (sign negative ++ numberLayout s (digitCount s) (.negSucc places + digitCount s)) := by
  have text : Decimal.format ⟨negative, s, .negSucc places⟩ =
      sign negative ++ numberLayout s (digitCount s) (.negSucc places + digitCount s) ∧
        ∃ front from', from' < digitCount s ∧
          sign negative ++ numberLayout s (digitCount s) (.negSucc places + digitCount s) =
            front ++ (Nat.toDigits 10 s).drop from' := by
    have layout : numberLayout s (digitCount s) (.negSucc places + digitCount s) =
        if places + 1 < digitCount s then
          (Nat.toDigits 10 s).take (digitCount s - (places + 1)) ++
            '.' :: (Nat.toDigits 10 s).drop (digitCount s - (places + 1))
        else '0' :: '.' ::
          (List.replicate (places + 1 - digitCount s) '0' ++ Nat.toDigits 10 s) := by
      unfold numberLayout
      rw [Int.negSucc_eq, if_pos (by omega), if_neg (by omega)]
      split
      · rw [if_pos (by omega)]
        congr 3 <;> omega
      · rw [if_neg (by omega)]
        congr 4
        omega
    rw [layout]
    by_cases whole : places + 1 < digitCount s
    · have kept : Decimal.padded (places + 1) (Nat.toDigits 10 s) = Nat.toDigits 10 s := by
        have none : places + 1 + 1 - (Nat.toDigits 10 s).length = 0 := Nat.sub_eq_zero_of_le whole
        rw [Decimal.padded, none]
        rfl
      rw [if_pos whole]
      constructor
      · unfold Decimal.format
        simp only [kept]
        cases negative <;> rfl
      · exact ⟨sign negative ++ ((Nat.toDigits 10 s).take (digitCount s - (places + 1)) ++ ['.']),
          digitCount s - (places + 1), by omega, by simp⟩
    · have front : Decimal.padded (places + 1) (Nat.toDigits 10 s) =
          '0' :: (List.replicate (places + 1 - digitCount s) '0' ++ Nat.toDigits 10 s) := by
        have more : places + 1 + 1 - (Nat.toDigits 10 s).length =
            places + 1 - digitCount s + 1 := by
          unfold digitCount at *
          omega
        rw [Decimal.padded, more, List.replicate_succ, List.cons_append]
      have long : (List.replicate (places + 1 - digitCount s) '0' ++ Nat.toDigits 10 s).length =
          places + 1 := by
        rw [List.length_append, List.length_replicate, ← digitCount]
        omega
      rw [if_neg whole]
      constructor
      · unfold Decimal.format
        simp only [front, List.length_cons, long, Nat.add_sub_cancel_left]
        cases negative <;> rfl
      · exact ⟨sign negative ++ '0' :: '.' :: List.replicate (places + 1 - digitCount s) '0', 0,
          Nat.length_toDigits_pos, by simp⟩
  obtain ⟨format, front, from', inside, split⟩ := text
  rw [crcToken_plain (broken_of_trimmed trimmed places) (by rw [adjusted_eq]; omega), format, split,
    stripEnd_trimmed trimmed front inside]

/-- Neither replacement finds anything in an exponent without a leading zero. -/
theorem shorten_exponent {front figures : Text} (plain : ∀ c ∈ front, c ≠ 'e') {d : Char}
    (more : d ≠ '0')
    (digits : ∀ c ∈ d :: figures, c ≠ 'e') :
    shortenPlus (shortenZero (front ++ 'e' :: '-' :: d :: figures)) =
      front ++ 'e' :: '-' :: d :: figures := by
  have tail : ∀ c ∈ '-' :: d :: figures, c ≠ 'e' := by
    intro c member
    rcases List.mem_cons.1 member with rfl | member
    · decide
    · exact digits c member
  have zero : shortenZero ('e' :: '-' :: d :: figures) = 'e' :: '-' :: d :: figures := by
    have rest : shortenZero ('-' :: d :: figures) = '-' :: d :: figures := by
      rw [← List.append_nil ('-' :: d :: figures), shortenZero_plain tail]
      rfl
    rw [shortenZero, rest]
    exact fun text _ same => more (List.cons.inj (List.cons.inj same).2).1
  have plus : shortenPlus ('e' :: '-' :: d :: figures) = 'e' :: '-' :: d :: figures := by
    have rest : shortenPlus ('-' :: d :: figures) = '-' :: d :: figures := by
      rw [← List.append_nil ('-' :: d :: figures), shortenPlus_plain tail]
      rfl
    rw [shortenPlus, rest]
    exact fun text _ same => absurd (List.cons.inj same).1 (by decide)
  rw [shortenZero_plain plain, zero, shortenPlus_plain plain, plus]

theorem normalize_trimmed (trimmed : ¬10 ∣ s) (small : s < 10 ^ 15) (places : ℕ)
    (low : places < 1000) :
    Decimal.normalize defaultContext ⟨negative, s, .negSucc places⟩ =
      .ok ⟨negative, s, .negSucc places⟩ := by
  have some : s ≠ 0 := by
    rintro rfl
    exact trimmed (dvd_zero 10)
  have few : digitCount s ≤ 15 := (Nat.length_toDigits_le_iff (by norm_num) (by norm_num)).2 small
  have fits : Decimal.Fits defaultContext ⟨negative, s, .negSucc places⟩ := by
    refine ⟨some, small.trans (by decide), ?_, ?_⟩
    · change (-999999 - (28 - 1) : ℤ) ≤ .negSucc places
      rw [Int.negSucc_eq]
      omega
    · rw [adjusted_eq]
      change _ ≤ (999999 : ℤ)
      omega
  have fuel : (Nat.toDigits 10 s).length = digitCount s - 1 + 1 := by
    have := Nat.length_toDigits_pos (b := 10) (n := s)
    unfold digitCount
    omega
  rw [Decimal.normalize, Decimal.finish_of_fits fits]
  simp only [bind, Except.bind, if_neg some, fuel, Decimal.trimZeros]
  rw [if_neg fun both => trimmed (Nat.dvd_of_mod_eq_zero both.1)]
  rfl

/-- A smaller number is printed with an exponent. -/
theorem crcToken_of_exponent (trimmed : ¬10 ∣ s) (small : s < 10 ^ 15) (places : ℕ)
    (low : places < 1000)
    (level : 5 + (digitCount s : ℤ) < places + 1) :
    crcToken ⟨negative, s, .negSucc places⟩ =
      .ok (sign negative ++ numberLayout s (digitCount s) (.negSucc places + digitCount s)) := by
  obtain ⟨d, figures, exponent, front⟩ := Decimal.toDigits_first
    (n := (Int.negSucc places + digitCount s - 1).natAbs) (by rw [Int.negSucc_eq]; omega)
  have plain : ∀ c ∈ sign negative ++ (if digitCount s = 1 then Nat.toDigits 10 s
      else (Nat.toDigits 10 s).take 1 ++ '.' :: (Nat.toDigits 10 s).drop 1), c ≠ 'e' ∧
        lower c = c := by
    intro c member
    have cases : c ∈ sign negative ∨ c = '.' ∨ c ∈ Nat.toDigits 10 s := by
      rw [List.mem_append] at member
      rcases member with front | body
      · exact .inl front
      split at body
      · exact .inr (.inr body)
      · rw [List.mem_append, List.mem_cons] at body
        rcases body with first | rfl | rest
        · exact .inr (.inr (List.mem_of_mem_take first))
        · exact .inr (.inl rfl)
        · exact .inr (.inr (List.mem_of_mem_drop rest))
    rcases cases with front | rfl | digit
    · cases negative
      · cases front
      · rw [List.mem_singleton.1 front]
        decide
    · decide
    · exact (digit_plain (Decimal.isDigit_toDigits s c digit)).2
  have mantissa : ∃ front : Text, (∀ c ∈ front, c ≠ 'e') ∧ front.map lower = front ∧
      Decimal.toText ⟨negative, s, .negSucc places⟩ = front ++ 'E' :: '-' :: d :: figures ∧
      sign negative ++ numberLayout s (digitCount s) (.negSucc places + digitCount s) =
        front ++ 'e' :: '-' :: d :: figures := by
    refine ⟨sign negative ++ if digitCount s = 1 then Nat.toDigits 10 s
      else (Nat.toDigits 10 s).take 1 ++ '.' :: (Nat.toDigits 10 s).drop 1, ?_, ?_, ?_, ?_⟩
    · exact fun c member => (plain c member).1
    · exact (List.map_congr_left fun c member => (plain c member).2).trans (List.map_id _)
    · have count : (Nat.toDigits 10 s).length = digitCount s := rfl
      have place : ¬(Int.negSucc places ≤ 0 ∧ -6 < Int.negSucc places + (digitCount s : ℤ)) := by
        rw [Int.negSucc_eq]
        omega
      have away : ¬Int.negSucc places + (digitCount s : ℤ) = 1 := by
        rw [Int.negSucc_eq]
        omega
      have below : Int.negSucc places + (digitCount s : ℤ) - 1 < 0 := by
        rw [Int.negSucc_eq]
        omega
      have point : ¬(1 : ℤ) ≤ 0 := by norm_num
      have some : 1 ≤ digitCount s := Nat.length_toDigits_pos
      unfold Decimal.toText
      simp only [count, if_neg place, if_neg away, if_neg point, Decimal.signed, if_pos below,
        exponent]
      by_cases one : digitCount s = 1
      · have single : (digitCount s : ℤ) ≤ 1 := by omega
        rw [if_pos single, if_pos one, one]
        simp [sign]
      · have several : ¬(digitCount s : ℤ) ≤ 1 := by omega
        rw [if_neg several, if_neg one]
        simp [sign]
    · have outside :
          ¬(-5 ≤ Int.negSucc places + (digitCount s : ℤ) ∧
          Int.negSucc places + (digitCount s : ℤ) ≤ 21) := by
        rw [Int.negSucc_eq]
        omega
      have below : Int.negSucc places + (digitCount s : ℤ) < 0 := by
        rw [Int.negSucc_eq]
        omega
      unfold numberLayout
      simp only [if_neg outside, if_pos below, exponent]
      split <;> simp
  obtain ⟨mantissa, plain, kept, text, layout⟩ := mantissa
  have figuresPlain : ∀ c ∈ d :: figures, c ≠ 'e' ∧ lower c = c := by
    rw [← exponent]
    exact fun c member => (digit_plain (Decimal.isDigit_toDigits _ c member)).2
  have lowered : (Decimal.toText ⟨negative, s, .negSucc places⟩).map lower =
      mantissa ++ 'e' :: '-' :: d :: figures := by
    have same : (d :: figures).map lower = d :: figures :=
      (List.map_congr_left fun c member => (figuresPlain c member).2).trans (List.map_id _)
    rw [text, List.map_append, kept, List.map_cons, List.map_cons, same]
    rfl
  rw [crcToken_small (broken_of_trimmed trimmed places) (by rw [adjusted_eq]; omega),
    normalize_trimmed trimmed small places low]
  simp only [lowered, shorten_exponent plain front fun c member => (figuresPlain c member).1,
    layout]
  rfl

/-- A trimmed number of fifteen digits, neither too large nor too small, is printed like a
Number. -/
theorem crcToken_layout (trimmed : ¬10 ∣ s) (small : s < 10 ^ 15) (low : -1000 ≤ e)
    (high : e + digitCount s ≤ 21) :
    crcToken ⟨negative, s, e⟩ =
      .ok (sign negative ++ numberLayout s (digitCount s) (e + digitCount s)) := by
  have some : s ≠ 0 := by
    rintro rfl
    exact trimmed (dvd_zero 10)
  cases e with
  | ofNat places =>
    rw [Int.ofNat_eq_natCast] at high
    exact crcToken_of_whole some places (by omega)
  | negSucc places =>
    rw [Int.negSucc_eq] at high low
    by_cases level : (places : ℤ) + 1 ≤ 5 + digitCount s
    · exact crcToken_of_fraction trimmed places (by omega) level
    · exact crcToken_of_exponent trimmed small places (by omega) (by omega)

theorem digitCount_bounds (some : s ≠ 0) :
    1 ≤ digitCount s ∧ 10 ^ (digitCount s - 1) ≤ s ∧ s < 10 ^ digitCount s := by
  have more : 1 ≤ digitCount s := Nat.length_toDigits_pos
  refine ⟨more, ?_, (Nat.length_toDigits_le_iff (by norm_num) more).1 le_rfl⟩
  by_cases one : digitCount s = 1
  · rw [one]
    exact Nat.pos_of_ne_zero some
  · by_contra less
    have short := (Nat.length_toDigits_le_iff (b := 10) (by norm_num) (by omega)).2 (not_le.1 less)
    change digitCount s ≤ _ at short
    omega

end Printed

section Claimed

/-- Three binary places are more than a decimal one. -/
theorem ten_zpow_le_two (n : ℕ) : (10 : ℚ) ^ (-n : ℤ) ≤ 2 ^ (-(3 * n) : ℤ) := by
  have size : (2 : ℚ) ^ (3 * n) ≤ 10 ^ n := by
    rw [pow_mul]
    exact pow_le_pow_left₀ (by norm_num) (by norm_num) n
  rw [zpow_neg, zpow_neg]
  exact inv_anti₀ (by positivity) (by exact_mod_cast size)

/-- The token of a number that is a normal Number of fifteen digits is what ECMAScript prints for
it. -/
theorem crcToken_prints {d : Decimal} (digits : Context.HasDigits 15 d.value)
    (normal : 2 ^ (-1022 : ℤ) ≤ |d.value|) (small : |d.value| < 10 ^ 21) :
    ∃ token, crcToken d = .ok token ∧
      ∀ text, NumberText (Binary64.nearest d.value) text ↔ text = token := by
  have some : d.value ≠ 0 := by
    intro zero
    rw [zero, abs_zero] at normal
    exact absurd normal (not_le.2 (by positivity))
  obtain ⟨s, e, trimmed, more, value, token⟩ := crcToken_trimmed some
  have positive : (0 : ℚ) < s * 10 ^ e := by
    have : 0 < s := Nat.pos_of_ne_zero more
    positivity
  have size : |d.value| = s * 10 ^ e := by
    rw [value, abs_mul, abs_of_pos positive]
    split <;> simp
  obtain ⟨count, least, most⟩ := digitCount_bounds more
  have few : s < 10 ^ 15 := by
    obtain ⟨m, k, short, same⟩ := digits
    have equal : (s : ℚ) * 10 ^ e = (m.natAbs : ℕ) * 10 ^ k := by
      rw [← size, same, abs_mul, abs_of_pos (show (0 : ℚ) < 10 ^ k by positivity), Nat.cast_natAbs,
        Int.cast_abs]
    obtain ⟨j, whole, -⟩ := coefficient_le trimmed equal
    have grows : s ≤ s * 10 ^ j := Nat.le_mul_of_pos_right s (by positivity)
    rw [Int.abs_eq_natAbs] at short
    omega
  have short : digitCount s ≤ 15 := (Nat.length_toDigits_le_iff (by norm_num) (by norm_num)).2 few
  rw [size] at normal small
  have high : e + digitCount s ≤ 21 := by
    have low : (10 : ℚ) ^ ((digitCount s - 1 : ℕ) + e) ≤ s * 10 ^ e := by
      rw [zpow_add₀ (by norm_num), zpow_natCast]
      exact mul_le_mul_of_nonneg_right (by exact_mod_cast least) (by positivity)
    have below : (10 : ℚ) ^ ((digitCount s - 1 : ℕ) + e) < 10 ^ (21 : ℤ) :=
      low.trans_lt (by exact_mod_cast small)
    have := (zpow_lt_zpow_iff_right₀ (by norm_num)).1 below
    omega
  have low : -1000 ≤ e := by
    by_contra deep
    have bound : (s : ℚ) * 10 ^ e ≤ 10 ^ (15 : ℤ) * 10 ^ (-1000 : ℤ) :=
      mul_le_mul (by exact_mod_cast few.le) (zpow_le_zpow_right₀ (by norm_num) (by omega))
        (by positivity)
        (by positivity)
    have apart : (10 : ℚ) ^ (15 : ℤ) * 10 ^ (-1000 : ℤ) < 10 ^ (-341 : ℤ) := by
      rw [← zpow_add₀ (by norm_num)]
      exact zpow_lt_zpow_right₀ (by norm_num) (by norm_num)
    have least : (2 : ℚ) ^ (-(3 * 341) : ℤ) ≤ 2 ^ (-1022 : ℤ) :=
      zpow_le_zpow_right₀ (by norm_num) (by norm_num)
    have binary : (10 : ℚ) ^ (-341 : ℤ) ≤ 2 ^ (-(3 * 341) : ℤ) := by
      simpa only [Nat.cast_ofNat] using ten_zpow_le_two 341
    exact absurd (normal.trans bound) (not_le.2 (apart.trans_le (binary.trans least)))
  have places : e = e + digitCount s - digitCount s := by ring
  have printed :=
    numberText_iff (n := e + digitCount s) trimmed least most count short (by rwa [← places])
  rw [← places] at printed
  refine ⟨_, token.trans (crcToken_layout trimmed few low high), fun text => ?_⟩
  rw [value]
  cases d.negative
  · simpa [sign] using (printed text).1
  · simpa [sign] using (printed text).2

/-- The token is a function of the value, and of a value that is a normal Number of fifteen
digits it is the text ECMAScript prints. -/
theorem crc_token_canonical :
    (∀ d d' : Decimal, d.value ≠ 0 → d.value = d'.value → crcToken d = crcToken d') ∧
    ∀ d : Decimal, Context.HasDigits 15 d.value →
    2 ^ (-1022 : ℤ) ≤ |d.value| → |d.value| < 10 ^ 21 →
      ∃ token, crcToken d = .ok token ∧
        ∀ text, NumberText (Binary64.nearest d.value) text ↔ text = token :=
  ⟨fun _ _ => crcToken_eq_of_value, fun _ => crcToken_prints⟩

theorem crc_token_canonical_thousand :
    crcToken ⟨false, 1, 3⟩ = crcToken ⟨false, 10000, -1⟩ ∧
      ∃ token, crcToken ⟨false, 1, 3⟩ = .ok token ∧
        ∀ text, NumberText (Binary64.nearest (Decimal.value ⟨false, 1, 3⟩)) text ↔ text =
        token := by
  have value : Decimal.value ⟨false, 1, 3⟩ = 1000 := by
    rw [value_eq]
    norm_num
  refine ⟨crc_token_canonical.1 _ _ (by rw [value]; norm_num) ?_, crc_token_canonical.2 _ ?_ ?_ ?_⟩
  · rw [value, value_eq]
    norm_num
  · exact ⟨1, 3, by norm_num, by rw [value]; norm_num⟩
  · rw [value, abs_of_pos (by norm_num)]
    exact (zpow_le_one_of_nonpos₀ (by norm_num) (by norm_num)).trans (by norm_num)
  · rw [value, abs_of_pos (by norm_num)]
    norm_num

/-- Far below the least Number the token still shows the decimal. -/
theorem crc_token_underflow : ¬∀ d : Decimal, d.value ≠ 0 → Context.HasDigits 15 d.value →
    |d.value| < 10 ^ 21 → ∃ token, crcToken d = .ok token ∧
      NumberText (Binary64.nearest d.value) token := by
  intro claim
  have value : Decimal.value ⟨false, 1, -400⟩ = 10 ^ (-400 : ℤ) := by
    rw [value_eq]
    simp
  have positive : (0 : ℚ) < 10 ^ (-400 : ℤ) := by positivity
  have small : (10 : ℚ) ^ (-400 : ℤ) < 1 := zpow_lt_one_of_neg₀ (by norm_num) (by norm_num)
  have tiny : |(10 : ℚ) ^ (-400 : ℤ)| < 2 ^ (-1075 : ℤ) := by
    have binary : (10 : ℚ) ^ (-400 : ℤ) ≤ 2 ^ (-(3 * 400) : ℤ) := by
      simpa only [Nat.cast_ofNat] using ten_zpow_le_two 400
    rw [abs_of_pos positive]
    exact binary.trans_lt (zpow_lt_zpow_right₀ (by norm_num) (by norm_num))
  obtain ⟨token, printed, number⟩ := claim ⟨false, 1, -400⟩ (by rw [value]; exact positive.ne')
    ⟨1, -400, by norm_num, by rw [value]; simp⟩ (by rw [value, abs_of_pos positive]; linarith)
  have text : crcToken ⟨false, 1, -400⟩ = .ok "1e-400".toList := by decide +kernel
  obtain rfl := Except.ok.inj (text.symm.trans printed)
  rw [value, Binary64.nearest_tiny positive.ne' tiny] at number
  generalize zero : (0 : ℚ) = x at number
  generalize shown : "1e-400".toList = token at number
  cases number with
  | zero => exact absurd shown (by decide)
  | positive above => linarith
  | negative above => linarith

end Claimed

end ArbNautilus.Bitfinex.Book
