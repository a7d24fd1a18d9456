import Mathlib.Data.List.Induction
import Mathlib.Tactic.Common

namespace ArbNautilus.Base

section Along

variable {σ ι : Type} {step : σ → ι → σ} {Q R : σ → ι → Prop} {P : σ → Prop} {s : σ}
  {is js : List ι}

/-- Every step of a run is a `Q` step of the state it is taken in. -/
def Along (step : σ → ι → σ) (Q : σ → ι → Prop) : σ → List ι → Prop
  | _, [] => True
  | s, i :: is => Q s i ∧ Along step Q (step s i) is

@[simp] theorem along_nil : Along step Q s [] := trivial

@[simp] theorem along_cons {i : ι} :
    Along step Q s (i :: is) ↔ Q s i ∧ Along step Q (step s i) is := Iff.rfl

theorem along_append :
    Along step Q s (is ++ js) ↔ Along step Q s is ∧ Along step Q (is.foldl step s) js := by
  induction is generalizing s with
  | nil => simp
  | cons i is ih =>
    rw [List.cons_append, along_cons, along_cons, ih, and_assoc]
    rfl

theorem Along.imp (h : Along step Q s is) (weaker : ∀ t i, Q t i → R t i) : Along step R s is := by
  induction is generalizing s with
  | nil => exact along_nil
  | cons i is ih => exact ⟨weaker s i h.1, ih h.2⟩

theorem along_of_forall (h : ∀ i ∈ is, ∀ t, Q t i) : Along step Q s is := by
  induction is generalizing s with
  | nil => exact along_nil
  | cons i is ih =>
    exact ⟨h i List.mem_cons_self s, ih fun j member => h j (List.mem_cons_of_mem i member)⟩

/-- What every `Q` step keeps holds where the run ends. -/
theorem Along.keeps (h : Along step Q s is) (start : P s)
    (kept : ∀ t i, P t → Q t i → P (step t i)) :
    P (is.foldl step s) := by
  induction is generalizing s with
  | nil => exact start
  | cons i is ih => exact ih h.2 (kept s i start h.1)

/-- A stamp that no step lowers and every other step raises is still the same only after `Q`
steps. -/
theorem along_of_stamp {stamp : σ → ℕ} (grows : ∀ t i, stamp t ≤ stamp (step t i))
    (marks : ∀ t i, ¬Q t i → stamp t < stamp (step t i))
    (same : stamp (is.foldl step s) = stamp s) :
    Along step Q s is := by
  have after : ∀ t (ks : List ι), stamp t ≤ stamp (ks.foldl step t) := by
    intro t ks
    induction ks generalizing t with
    | nil => exact Nat.le_refl _
    | cons k ks ih => exact Nat.le_trans (grows t k) (ih (step t k))
  induction is generalizing s with
  | nil => exact along_nil
  | cons i is ih =>
    have first := grows s i
    have rest := after (step s i) is
    rw [List.foldl_cons] at same
    have still : stamp (step s i) = stamp s := by omega
    refine ⟨?_, ih (by omega)⟩
    by_contra other
    have raised := marks s i other
    omega

/-- What holds now but not at the start was set by some step, and has held since. -/
theorem last_set (start : ¬P s) (now : P (is.foldl step s)) :
    ∃ earlier i later, is = earlier ++ i :: later ∧ ¬P (earlier.foldl step s) ∧
      P (step (earlier.foldl step s) i) ∧
      Along step (fun t j => P t ∧ P (step t j)) (step (earlier.foldl step s) i) later := by
  induction is using List.reverseRecOn with
  | nil => exact absurd now start
  | append_singleton is j ih =>
    rw [List.foldl_append] at now
    by_cases held : P (is.foldl step s)
    · obtain ⟨earlier, i, later, rfl, unset, sets, since⟩ := ih held
      refine ⟨earlier, i, later ++ [j], by simp, unset, sets, ?_⟩
      rw [List.foldl_append, List.foldl_cons] at held now
      exact along_append.2 ⟨since, ⟨held, now⟩, along_nil⟩
    · exact ⟨is, j, [], rfl, held, now, along_nil⟩

end Along

end ArbNautilus.Base
