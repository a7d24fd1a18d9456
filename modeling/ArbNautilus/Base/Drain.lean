import Mathlib.Algebra.Order.Field.Basic
import Mathlib.Tactic.Linarith

namespace ArbNautilus.Base

variable {α K : Type*} [Field K] [LinearOrder K]

/-- Take an amount from capacities in turn: what each gave, and what none could. -/
def drain (capacity : α → K) : K → List α → List (α × K) × K
  | amount, [] => ([], amount)
  | amount, x :: xs =>
    if amount ≤ capacity x then ([(x, amount)], 0)
    else
      let (taken, left) := drain capacity (amount - capacity x) xs
      ((x, capacity x) :: taken, left)

/-- What draining promises: nothing is lost, the capacities serve in order, and only the
last one that served keeps something. -/
structure Drained (capacity : α → K) (amount : K) (xs : List α) (taken : List (α × K))
    (left : K) : Prop where
  sum : (taken.map Prod.snd).sum + left = amount
  served : taken.map Prod.fst <+: xs
  within : ∀ t ∈ taken, 0 < t.2 ∧ t.2 ≤ capacity t.1
  whole : ∀ front t back, taken = front ++ t :: back → back ≠ [] ∨ 0 < left → t.2 = capacity t.1
  nonneg : 0 ≤ left
  exhausted : 0 < left → taken.map Prod.fst = xs

theorem drained [IsStrictOrderedRing K] (capacity : α → K) {amount : K} (positive : 0 < amount)
    (xs : List α) (capacities : ∀ x ∈ xs, 0 < capacity x) :
    Drained capacity amount xs (drain capacity amount xs).1 (drain capacity amount xs).2 := by
  induction xs generalizing amount with
  | nil => exact ⟨by simp [drain], by simp [drain], by simp [drain], by simp [drain], positive.le,
      fun _ => rfl⟩
  | cons x xs ih =>
    by_cases enough : amount ≤ capacity x
    · simp only [drain, if_pos enough]
      refine ⟨by simp, ⟨xs, rfl⟩, by simpa using ⟨positive, enough⟩, ?_, le_rfl, by simp⟩
      rintro front t back split (later | rest)
      · have lengths := congrArg List.length split
        have some' := List.length_pos_iff.2 later
        simp only [List.length_append, List.length_cons, List.length_nil] at lengths
        omega
      · exact absurd rest (lt_irrefl _)
    · have step := ih (sub_pos.2 (not_le.1 enough)) fun y member => capacities y (by simp [member])
      simp only [drain, if_neg enough]
      refine ⟨?_, ?_, ?_, ?_, step.nonneg, fun rest => by simp [step.exhausted rest]⟩
      · rw [List.map_cons, List.sum_cons]
        have sum := step.sum
        linarith
      · rw [List.map_cons, List.cons_prefix_cons]
        exact ⟨rfl, step.served⟩
      · rw [List.forall_mem_cons]
        exact ⟨⟨capacities x (by simp), le_rfl⟩, step.within⟩
      · intro front t back split more
        cases front with
        | nil =>
          obtain ⟨rfl, -⟩ := List.cons.inj split
          rfl
        | cons _ front => exact step.whole front t back (List.cons.inj split).2 more

end ArbNautilus.Base
