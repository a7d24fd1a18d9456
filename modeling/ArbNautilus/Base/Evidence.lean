import Mathlib.Data.Set.Insert

namespace ArbNautilus.Base

section Evidence

variable {α ι : Type*} (subject : α → ι) (final : α → Prop)

/-- The evidence that counts: what is final, and what nothing final is known about. -/
def Best (seen : Set α) : Set α :=
  {a | a ∈ seen ∧ (¬final a → ∀ b ∈ seen, subject b = subject a → ¬final b)}

/-- Evidence of one strength about one subject is the same evidence. -/
def Coherent (seen : Set α) : Prop :=
  ∀ a ∈ seen, ∀ b ∈ seen, subject a = subject b → (final a ↔ final b) → a = b

variable {subject final} {seen : Set α} {a b c : α}

theorem Coherent.subset {more : Set α} (coherent : Coherent subject final more)
    (subset : seen ⊆ more) : Coherent subject final seen :=
  fun a ha b hb => coherent a (subset ha) b (subset hb)

theorem best_unique (coherent : Coherent subject final seen) (ha : a ∈ Best subject final seen)
    (hb : b ∈ Best subject final seen) (same : subject a = subject b) : a = b := by
  refine coherent a ha.1 b hb.1 same ⟨fun strong => ?_, fun strong => ?_⟩
  · by_contra weak
    exact hb.2 weak a ha.1 same strong
  · by_contra weak
    exact ha.2 weak b hb.1 same.symm strong

section Insert

variable (coherent : Coherent subject final (insert a seen))

/-- Nothing that counts is lost about another subject. -/
theorem best_insert_of_ne (other : subject b ≠ subject a) :
    b ∈ Best subject final (insert a seen) ↔ b ∈ Best subject final seen := by
  constructor
  · rintro ⟨rfl | hb, open'⟩
    · exact absurd rfl other
    · exact ⟨hb, fun weak c hc => open' weak c (.inr hc)⟩
  · rintro ⟨hb, open'⟩
    refine ⟨.inr hb, fun weak c hc same => ?_⟩
    obtain rfl | hc := hc
    · exact absurd same.symm other
    · exact open' weak c hc same

include coherent

/-- What is final stays what counts. -/
theorem best_insert_final (known : c ∈ Best subject final seen) (same : subject c = subject a)
    (strong : final c) : Best subject final (insert a seen) = Best subject final seen := by
  ext b
  by_cases other : subject b = subject a
  · have kept : c ∈ Best subject final (insert a seen) :=
      ⟨.inr known.1, fun weak => absurd strong weak⟩
    constructor
    · intro hb
      rw [best_unique coherent hb kept (other.trans same.symm)]
      exact known
    · intro hb
      rw [best_unique (coherent.subset (Set.subset_insert a seen)) hb known
        (other.trans same.symm)]
      exact kept
  · exact best_insert_of_ne other

/-- Where nothing final was known, the new evidence is what counts. -/
theorem mem_best_insert (unsure : ∀ c ∈ Best subject final seen, subject c = subject a → ¬final c) :
    b ∈ Best subject final (insert a seen) ↔
      b = a ∨ b ∈ Best subject final seen ∧ subject b ≠ subject a := by
  have weak : ∀ c ∈ seen, subject c = subject a → ¬final c := fun c hc same strong =>
    unsure c ⟨hc, fun weak => absurd strong weak⟩ same strong
  have counts : a ∈ Best subject final (insert a seen) := by
    refine ⟨Set.mem_insert a seen, fun weakly c hc same => ?_⟩
    obtain rfl | hc := hc
    · exact weakly
    · exact weak c hc same
  by_cases other : subject b = subject a
  · simp only [ne_eq, other, not_true_eq_false, and_false, or_false]
    constructor
    · exact fun hb => best_unique coherent hb counts other
    · rintro rfl
      exact counts
  · rw [best_insert_of_ne other]
    constructor
    · exact fun hb => .inr ⟨hb, other⟩
    · rintro (rfl | hb)
      · exact absurd rfl other
      · exact hb.1

end Insert

end Evidence

end ArbNautilus.Base
