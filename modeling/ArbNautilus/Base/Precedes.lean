import Mathlib.Data.List.Nodup

namespace ArbNautilus.Base

section Precedes

variable {α : Type*}

/-- One entry of a list lies somewhere before another. -/
def Precedes (l : List α) (a b : α) : Prop := [a, b].Sublist l

theorem Precedes.left {l : List α} {a b : α} (h : Precedes l a b) : a ∈ l :=
  h.subset (by simp)

theorem Precedes.right {l : List α} {a b : α} (h : Precedes l a b) : b ∈ l :=
  h.subset (by simp)

theorem precedes_or {l : List α} {a b : α} (apart : a ≠ b) (ha : a ∈ l) (hb : b ∈ l) :
    Precedes l a b ∨ Precedes l b a := by
  induction l with
  | nil => cases ha
  | cons c l ih =>
    rcases List.mem_cons.1 ha with here | later
    · subst here
      have beyond := (List.mem_cons.1 hb).resolve_left (Ne.symm apart)
      exact .inl (List.Sublist.cons_cons a (List.singleton_sublist.2 beyond))
    · rcases List.mem_cons.1 hb with here | beyond
      · subst here
        exact .inr (List.Sublist.cons_cons b (List.singleton_sublist.2 later))
      · exact (ih later beyond).imp (·.cons c) (·.cons c)

/-- A new last entry precedes nothing. -/
theorem Precedes.of_concat {l : List α} {a b c : α} (h : Precedes (l ++ [c]) a b) (apart : b ≠ c) :
    Precedes l a b := by
  obtain ⟨front, back, split, first, last⟩ := List.sublist_append_iff.1 h
  rcases List.sublist_singleton.1 last with rfl | rfl
  · rw [List.append_nil] at split
    rw [Precedes, split]
    exact first
  · have ends : b = c := by
      have := congrArg List.getLast? split
      simpa using this
    exact absurd ends apart

theorem Precedes.mem_of_split {l m : List α} {a b : α} (nodup : (l ++ b :: m).Nodup)
    (h : Precedes (l ++ b :: m) a b) : a ∈ l := by
  induction l with
  | nil =>
    have fresh := (List.nodup_cons.1 nodup).1
    cases h with
    | cons _ later => exact absurd (later.subset (by simp)) fresh
    | cons_cons _ later => exact absurd (List.singleton_sublist.1 later) fresh
  | cons c l ih =>
    obtain ⟨-, nodup⟩ := List.nodup_cons.1 nodup
    cases h with
    | cons _ later => exact List.mem_cons_of_mem c (ih nodup later)
    | cons_cons _ _ => exact List.mem_cons_self

end Precedes

end ArbNautilus.Base
