import ArbNautilus.Base.Context
import ArbNautilus.Base.Decimal

namespace ArbNautilus.Base.Decimal

section Arithmetic

/-- The exponent of the first digit. -/
def adjusted (d : Decimal) : ℤ := d.exponent + ((Nat.toDigits 10 d.coefficient).length - 1)

/-- The exponent of the last digit that a context keeps. -/
def lastKept (c : Context) (d : Decimal) : ℤ := max (d.adjusted - (c.prec - 1)) c.etiny

/-- The coefficient at a greater exponent, half to even; a carry costs no digit more. -/
def roundTo (c : Context) (d : Decimal) (last : ℤ) : Decimal :=
  let rounded := (nearestEven ((d.coefficient : ℚ) / 10 ^ (last - d.exponent).toNat)).toNat
  if 10 ^ c.prec ≤ rounded then ⟨d.negative, 10 ^ (c.prec - 1), last + 1⟩
  else ⟨d.negative, rounded, last⟩

/-- What the context makes of an exact result. -/
def finish (c : Context) (d : Decimal) : Except DecimalError Decimal := do
  let rounded := if d.lastKept c ≤ d.exponent then d else d.roundTo c (d.lastKept c)
  if rounded.coefficient = 0 then pure { rounded with exponent := min rounded.exponent c.emax }
  else do
    raiseIf (c.emax < rounded.adjusted) .overflow
    pure rounded

/-- `abs(value)` rounds. -/
def abs (c : Context) (d : Decimal) : Except DecimalError Decimal :=
  finish c { d with negative := false }

/-- A coefficient without its trailing zeros, as far as the exponent goes. -/
def trimZeros (greatest : ℤ) : ℕ → ℕ → ℤ → ℕ × ℤ
  | 0, coefficient, exponent => (coefficient, exponent)
  | fuel + 1, coefficient, exponent =>
    if coefficient % 10 = 0 ∧ exponent < greatest then
      trimZeros greatest fuel (coefficient / 10) (exponent + 1)
    else (coefficient, exponent)

/-- `value.normalize()`. -/
def normalize (c : Context) (d : Decimal) : Except DecimalError Decimal := do
  let rounded ← finish c d
  if rounded.coefficient = 0 then pure ⟨rounded.negative, 0, 0⟩
  else
    let (coefficient, exponent) := trimZeros c.emax (Nat.toDigits 10 rounded.coefficient).length
      rounded.coefficient rounded.exponent
    pure ⟨rounded.negative, coefficient, exponent⟩

/-- `value == value.to_integral_value()`. -/
def IsWhole (d : Decimal) : Prop :=
  match d.exponent with
  | .ofNat _ => True
  | .negSucc places => 10 ^ (places + 1) ∣ d.coefficient

instance (d : Decimal) : Decidable d.IsWhole := by
  unfold IsWhole
  split <;> infer_instance

end Arithmetic

section Scientific

def signed (number : ℤ) : Text :=
  (if number < 0 then '-' else '+') :: Nat.toDigits 10 number.natAbs

/-- `str(value)`. -/
def toText (d : Decimal) : Text :=
  let digits := Nat.toDigits 10 d.coefficient
  let left := d.exponent + digits.length
  let place := if d.exponent ≤ 0 ∧ -6 < left then left else 1
  let body :=
    if place ≤ 0 then '0' :: '.' :: (List.replicate (-place).toNat '0' ++ digits)
    else if digits.length ≤ place then
      digits ++ List.replicate (place - digits.length).toNat '0'
    else digits.take place.toNat ++ '.' :: digits.drop place.toNat
  let exponent := if left = place then [] else 'E' :: signed (left - place)
  (if d.negative then ['-'] else []) ++ body ++ exponent

end Scientific

section Rounded

variable {c : Context} {d : Decimal}

/-- A number of few enough digits, clear of both ends of the exponents. -/
structure Fits (c : Context) (d : Decimal) : Prop where
  some : d.coefficient ≠ 0
  digits : d.coefficient < 10 ^ c.prec
  low : c.etiny ≤ d.exponent
  high : d.adjusted ≤ c.emax

theorem finish_of_fits (h : Fits c d) : finish c d = .ok d := by
  have prec : 0 < c.prec := by
    by_contra none
    have digits := h.digits
    rw [Nat.eq_zero_of_not_pos none, pow_zero] at digits
    exact h.some (Nat.lt_one_iff.1 digits)
  have short : (Nat.toDigits 10 d.coefficient).length ≤ c.prec :=
    (Nat.length_toDigits_le_iff (by norm_num) prec).2 h.digits
  have kept : d.lastKept c ≤ d.exponent := by
    have := h.low
    unfold lastKept adjusted
    omega
  simp [finish, kept, h.some, raiseIf, not_lt.2 h.high]

theorem abs_of_fits (h : Fits c d) : abs c d = .ok { d with negative := false } :=
  finish_of_fits ⟨h.some, h.digits, h.low, h.high⟩

end Rounded

end ArbNautilus.Base.Decimal
