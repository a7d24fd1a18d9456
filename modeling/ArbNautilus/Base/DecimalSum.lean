import ArbNautilus.Base.Context
import Mathlib.Algebra.Order.BigOperators.Group.List
import Mathlib.Algebra.BigOperators.Group.List.Basic

namespace ArbNautilus.Base.Context

variable (c : Context)

/-- `sum(values, Decimal(0))`. -/
def sum (values : List ℚ) : Except DecimalError ℚ := values.foldlM c.add 0

/-- `sum((a * b for a, b in pairs), Decimal(0))`. -/
def sumProducts (pairs : List (ℚ × ℚ)) : Except DecimalError ℚ :=
  pairs.foldlM (fun total pair => do c.add total (← c.mul pair.1 pair.2)) 0

/-- A whole number of units. -/
def Counted (k : ℤ) (x : ℚ) : Prop := ∃ m : ℤ, x = m * 10 ^ k

/-- Numbers that one unit counts, few enough of it for every sum of them to keep its digits. -/
def Exact (values : List ℚ) : Prop :=
  ∃ k : ℤ, c.emin ≤ k ∧ k + c.prec ≤ c.emax + 1 ∧ (∀ x ∈ values, Counted k x) ∧
    (values.map fun x => |x|).sum < 10 ^ (k + c.prec)

section Units

variable {k : ℤ} {x y : ℚ}

theorem Counted.add (h : Counted k x) (h' : Counted k y) : Counted k (x + y) := by
  obtain ⟨m, rfl⟩ := h
  obtain ⟨n, rfl⟩ := h'
  exact ⟨m + n, by push_cast; ring⟩

theorem Counted.neg (h : Counted k x) : Counted k (-x) := by
  obtain ⟨m, rfl⟩ := h
  exact ⟨-m, by push_cast; ring⟩

theorem counted_zero : Counted k 0 := ⟨0, by simp⟩

theorem Counted.sum {values : List ℚ} (counted : ∀ x ∈ values, Counted k x) :
    Counted k values.sum := by
  induction values with
  | nil => exact counted_zero
  | cons x rest ih =>
    rw [List.sum_cons]
    exact (counted x List.mem_cons_self).add
      (ih fun y member => counted y (List.mem_cons_of_mem x member))

variable {c}

/-- A number of so few units is kept. -/
theorem Counted.finish (h : Counted k x) (low : c.emin ≤ k) (high : k + c.prec ≤ c.emax + 1)
    (short : |x| < 10 ^ (k + c.prec)) : c.finish x = .ok x := by
  obtain ⟨m, rfl⟩ := h
  have unit : (0 : ℚ) < 10 ^ k := by positivity
  have size : |(m : ℚ)| * 10 ^ k = |(m : ℚ) * 10 ^ k| := by rw [abs_mul, abs_of_pos unit]
  apply finish_of_hasDigits
  · refine ⟨m, k, ?_, rfl⟩
    rw [← size, add_comm k, zpow_add₀ (by norm_num), zpow_natCast] at short
    have digits := lt_of_mul_lt_mul_right short unit.le
    exact_mod_cast digits
  · intro some
    constructor
    · have one : (1 : ℚ) ≤ |(m : ℚ)| := by
        have apart : m ≠ 0 := by
          rintro rfl
          simp at some
        exact_mod_cast Int.one_le_abs apart
      calc (10 : ℚ) ^ c.emin ≤ 10 ^ k := zpow_le_zpow_right₀ (by norm_num) low
        _ ≤ |(m : ℚ)| * 10 ^ k := le_mul_of_one_le_left unit.le one
        _ = |(m : ℚ) * 10 ^ k| := size
    · exact short.trans_le (zpow_le_zpow_right₀ (by norm_num) high)

theorem abs_sum_le (values : List ℚ) : |values.sum| ≤ (values.map fun x => |x|).sum := by
  induction values with
  | nil => simp
  | cons x rest ih =>
    rw [List.sum_cons, List.map_cons, List.sum_cons]
    exact (abs_add_le x rest.sum).trans (by linarith)

theorem foldlM_add {values : List ℚ} (low : c.emin ≤ k) (high : k + c.prec ≤ c.emax + 1)
    (counted : ∀ x ∈ values, Counted k x) : ∀ {total : ℚ}, Counted k total →
    |total| + (values.map fun x => |x|).sum < 10 ^ (k + c.prec) →
    values.foldlM c.add total = .ok (total + values.sum) := by
  induction values with
  | nil =>
    intro total _ _
    rw [List.sum_nil, add_zero]
    rfl
  | cons x rest ih =>
    intro total whole short
    rw [List.map_cons, List.sum_cons] at short
    have rest' : 0 ≤ (rest.map fun x => |x|).sum := (abs_nonneg _).trans (abs_sum_le rest)
    have near := abs_add_le total x
    have sum := whole.add (counted x List.mem_cons_self)
    rw [List.foldlM_cons, add, sum.finish low high (by linarith)]
    refine (ih (fun y member => counted y (List.mem_cons_of_mem x member)) sum (by linarith)).trans
      ?_
    rw [List.sum_cons, add_assoc]

end Units

section Exact

variable {c} {values : List ℚ}

theorem Exact.sum (exact' : c.Exact values) : c.sum values = .ok values.sum := by
  obtain ⟨k, low, high, counted, short⟩ := exact'
  rw [Context.sum, foldlM_add low high counted counted_zero (by simpa using short), zero_add]

theorem Exact.sumProducts {pairs : List (ℚ × ℚ)} (exact' : c.Exact (pairs.map fun p => p.1 * p.2)) :
    c.sumProducts pairs = .ok (pairs.map fun p => p.1 * p.2).sum := by
  have same : c.sumProducts pairs = c.sum (pairs.map fun p => p.1 * p.2) := by
    obtain ⟨k, low, high, counted, short⟩ := exact'
    rw [Context.sumProducts, Context.sum, List.foldlM_map]
    have each : ∀ p ∈ pairs, c.mul p.1 p.2 = .ok (p.1 * p.2) := by
      intro p member
      have listed : p.1 * p.2 ∈ pairs.map fun p => p.1 * p.2 := List.mem_map_of_mem member
      refine (counted _ listed).finish low high (lt_of_le_of_lt ?_ short)
      refine List.single_le_sum (fun size sizes => ?_) _ (List.mem_map_of_mem listed)
      obtain ⟨x, -, rfl⟩ := List.mem_map.1 sizes
      exact abs_nonneg x
    clear counted short
    generalize (0 : ℚ) = total
    induction pairs generalizing total with
    | nil => rfl
    | cons p rest ih =>
      rw [List.foldlM_cons, List.foldlM_cons, each p List.mem_cons_self]
      refine bind_congr fun total => ?_
      exact ih (fun q member => each q (List.mem_cons_of_mem p member)) total
  rw [same, exact'.sum]

theorem Exact.perm {values' : List ℚ} (exact' : c.Exact values) (perm : values.Perm values') :
    c.Exact values' := by
  obtain ⟨k, low, high, counted, short⟩ := exact'
  refine ⟨k, low, high, fun x member => counted x (perm.mem_iff.2 member), ?_⟩
  rwa [← (perm.map _).sum_eq]

/-- The difference of two sums is exact as well. -/
theorem Exact.sub {values' : List ℚ} (exact' : c.Exact (values ++ values')) :
    c.sum values = .ok values.sum ∧ c.sum values' = .ok values'.sum ∧
      c.sub values.sum values'.sum = .ok (values.sum - values'.sum) := by
  obtain ⟨k, low, high, counted, short⟩ := exact'
  rw [List.map_append, List.sum_append] at short
  have first := fun x member => counted x (List.mem_append_left values' member)
  have second := fun x member => counted x (List.mem_append_right values member)
  have left := abs_sum_le values
  have right := abs_sum_le values'
  have leftNonneg := abs_nonneg values.sum
  have rightNonneg := abs_nonneg values'.sum
  refine ⟨Exact.sum ⟨k, low, high, first, by linarith⟩,
    Exact.sum ⟨k, low, high, second, by linarith⟩, ?_⟩
  have difference := (Counted.sum first).add (Counted.sum second).neg
  rw [Context.sub, sub_eq_add_neg]
  refine difference.finish low high ?_
  have near := abs_add_le values.sum (-values'.sum)
  rw [abs_neg] at near
  linarith

end Exact

end ArbNautilus.Base.Context
