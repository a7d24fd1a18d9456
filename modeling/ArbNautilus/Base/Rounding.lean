import Mathlib.Algebra.Order.Floor.Ring
import Mathlib.Algebra.Order.BigOperators.Group.List
import Mathlib.Algebra.Order.Field.Basic
import Mathlib.Data.Int.ConditionallyCompleteOrder
import Mathlib.Tactic.Linarith
import Mathlib.Tactic.Ring
import Mathlib.Tactic.Push

namespace ArbNautilus.Base

section Nearest

variable {K : Type*} [Field K] [LinearOrder K] [IsStrictOrderedRing K] [FloorRing K]

/-- The nearest integer, a tie going to the even neighbour. -/
def nearestEven (x : K) : ℤ :=
  if x - ⌊x⌋ < 1 / 2 then ⌊x⌋
  else if 1 / 2 < x - ⌊x⌋ then ⌊x⌋ + 1
  else if Even ⌊x⌋ then ⌊x⌋ else ⌊x⌋ + 1

theorem abs_sub_nearestEven_le (x : K) : |x - nearestEven x| ≤ 1 / 2 := by
  have lower := Int.floor_le x
  have upper := Int.lt_floor_add_one x
  unfold nearestEven
  rw [abs_le]
  split_ifs <;> push_cast <;> constructor <;> linarith

theorem nearestEven_intCast (n : ℤ) : nearestEven (n : K) = n := by
  simp [nearestEven]

theorem nearestEven_eq_of_close {x : K} {m : ℤ} (close : |x - m| < 1 / 2) : nearestEven x = m := by
  have near := abs_sub_nearestEven_le x
  have gap : |((nearestEven x - m : ℤ) : K)| < 1 := by
    rw [abs_le] at near
    rw [abs_lt] at close ⊢
    push_cast
    constructor <;> linarith
  have zero : |nearestEven x - m| < 1 := by exact_mod_cast gap
  have := Int.abs_lt_one_iff.1 zero
  omega

omit [IsStrictOrderedRing K] in
theorem floor_le_nearestEven (x : K) : ⌊x⌋ ≤ nearestEven x := by
  unfold nearestEven
  split_ifs <;> omega

omit [IsStrictOrderedRing K] in
theorem nearestEven_le_succ (x : K) : nearestEven x ≤ ⌊x⌋ + 1 := by
  unfold nearestEven
  split_ifs <;> omega

theorem nearestEven_mono : Monotone (nearestEven : K → ℤ) := by
  intro x y le
  rcases (Int.floor_mono le).eq_or_lt with same | apart
  · unfold nearestEven
    rw [same]
    split_ifs <;> first | omega | (exfalso; linarith)
  · have above := nearestEven_le_succ x
    have below := floor_le_nearestEven y
    omega

/-- Ties are broken alike on both sides of zero. -/
theorem nearestEven_neg (x : K) : nearestEven (-x) = -nearestEven x := by
  have lower := Int.floor_le x
  have upper := Int.lt_floor_add_one x
  rcases lower.eq_or_lt with whole | broken
  · rw [← whole, ← Int.cast_neg, nearestEven_intCast, nearestEven_intCast]
  · have floor : ⌊-x⌋ = -⌊x⌋ - 1 := by
      rw [Int.floor_eq_iff]
      push_cast
      constructor <;> linarith
    unfold nearestEven
    rw [floor]
    push_cast
    have parity : Even (-⌊x⌋ - 1) ↔ ¬Even ⌊x⌋ := by
      rw [Int.even_sub_one, even_neg]
    simp only [parity]
    split_ifs <;> first | omega | (exfalso; linarith)

end Nearest

section Carry

variable {K : Type*} [Field K] [LinearOrder K] [FloorRing K]

/-- What a residual keeps of an arriving amount once its nearest integer is emitted. -/
def carry (r x : K) : K := r + x - nearestEven (r + x)

def carryAll (r : K) (xs : List K) : K := xs.foldl carry r

/-- The integers emitted while the amounts arrive in order. -/
def emits : K → List K → List ℤ
  | _, [] => []
  | r, x :: xs => nearestEven (r + x) :: emits (carry r x) xs

@[simp] theorem carryAll_nil (r : K) : carryAll r [] = r := rfl

@[simp] theorem carryAll_cons (r x : K) (xs : List K) :
    carryAll r (x :: xs) = carryAll (carry r x) xs := rfl

theorem carryAll_append (r : K) (xs ys : List K) :
    carryAll r (xs ++ ys) = carryAll (carryAll r xs) ys := by
  simp [carryAll]

variable [IsStrictOrderedRing K]

theorem abs_carry_le (r x : K) : |carry r x| ≤ 1 / 2 := abs_sub_nearestEven_le _

theorem abs_carryAll_le {r : K} (h : |r| ≤ 1 / 2) (xs : List K) : |carryAll r xs| ≤ 1 / 2 := by
  induction xs generalizing r with
  | nil => exact h
  | cons x xs ih => exact ih (abs_carry_le r x)

/-- Nothing is created or lost: what came in is what went out plus what remains. -/
theorem carryAll_add_emits (r : K) (xs : List K) :
    carryAll r xs + ((emits r xs).sum : ℤ) = r + xs.sum := by
  induction xs generalizing r with
  | nil => simp [emits]
  | cons x xs ih =>
    have step := ih (carry r x)
    simp only [carryAll_cons, emits, List.sum_cons, Int.cast_add]
    have kept : carry r x = r + x - nearestEven (r + x) := rfl
    linarith

omit [IsStrictOrderedRing K] in
theorem emits_getElem? {r : K} {xs : List K} {k : ℕ} {n : ℤ} (h : (emits r xs)[k]? = some n) :
    ∃ x, xs[k]? = some x ∧ n = nearestEven (carryAll r (xs.take k) + x) := by
  induction xs generalizing r k with
  | nil => simp [emits] at h
  | cons x xs ih =>
    cases k with
    | zero => simpa [emits, eq_comm] using h
    | succ k => simpa using ih (by simpa [emits] using h)

theorem carry_neg (r x : K) : carry (-r) (-x) = -carry r x := by
  have sum : -r + -x = -(r + x) := by ring
  unfold carry
  rw [sum, nearestEven_neg]
  push_cast
  ring

/-- Mirrored amounts emit mirrored integers. -/
theorem emits_neg (r : K) (xs : List K) :
    emits (-r) (xs.map (- ·)) = (emits r xs).map (- ·) := by
  induction xs generalizing r with
  | nil => rfl
  | cons x xs ih =>
    have sum : -r + -x = -(r + x) := by ring
    simp only [List.map_cons, emits, carry_neg, ih]
    rw [sum, nearestEven_neg]

end Carry

end ArbNautilus.Base
