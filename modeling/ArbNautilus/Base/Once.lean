import Mathlib.Algebra.BigOperators.Group.List.Basic
import Mathlib.Data.List.Induction
import Mathlib.Data.List.Nodup

namespace ArbNautilus.Base

section Once

variable {α κ M : Type*} [DecidableEq κ] (key : α → κ)

def addOnce (kept : List α) (x : α) : List α :=
  if key x ∈ kept.map key then kept else kept ++ [x]

/-- The deliveries that count: the first under each key. -/
def firsts (xs : List α) : List α := xs.foldl (addOnce key) []

theorem firsts_concat (xs : List α) (x : α) :
    firsts key (xs ++ [x]) = addOnce key (firsts key xs) x := by
  simp [firsts]

theorem key_mem_firsts (xs : List α) (k : κ) :
    k ∈ (firsts key xs).map key ↔ k ∈ xs.map key := by
  induction xs using List.reverseRecOn with
  | nil => simp [firsts]
  | append_singleton xs x ih =>
    rw [firsts_concat, addOnce, List.map_append, List.mem_append, ← ih]
    split
    · rename_i seen
      constructor
      · exact .inl
      · rintro (old | new)
        · exact old
        · simp only [List.map_cons, List.map_nil, List.mem_singleton] at new
          exact new ▸ seen
    · simp

theorem mem_of_mem_firsts {xs : List α} {x : α} (h : x ∈ firsts key xs) : x ∈ xs := by
  induction xs using List.reverseRecOn with
  | nil => simp [firsts] at h
  | append_singleton xs y ih =>
    rw [firsts_concat, addOnce] at h
    split at h
    · exact List.mem_append_left _ (ih h)
    · rcases List.mem_append.1 h with old | new
      · exact List.mem_append_left _ (ih old)
      · exact List.mem_append_right _ new

theorem firsts_of_nodup {xs : List α} (h : (xs.map key).Nodup) : firsts key xs = xs := by
  induction xs using List.reverseRecOn with
  | nil => rfl
  | append_singleton xs x ih =>
    rw [List.map_append, List.nodup_append] at h
    have fresh : key x ∉ (firsts key xs).map key := by
      rw [key_mem_firsts]
      intro seen
      exact h.2.2 _ seen _ (by simp) rfl
    rw [firsts_concat, addOnce, if_neg fresh, ih h.1]

theorem firsts_concat_seen {xs : List α} {x : α} (h : key x ∈ xs.map key) :
    firsts key (xs ++ [x]) = firsts key xs := by
  rw [firsts_concat, addOnce, if_pos ((key_mem_firsts key xs _).2 h)]

theorem firsts_concat_new {xs : List α} {x : α} (h : key x ∉ xs.map key) :
    firsts key (xs ++ [x]) = firsts key xs ++ [x] := by
  rw [firsts_concat, addOnce, if_neg (fun seen => h ((key_mem_firsts key xs _).1 seen))]

variable [AddCommMonoid M] (amount : α → M)

/-- The amount delivered to a part of the deliveries, each key counted once. -/
def countedOnce (p : α → Prop) [DecidablePred p] (xs : List α) : M :=
  (((firsts key xs).filter (p ·)).map amount).sum

theorem countedOnce_seen (p : α → Prop) [DecidablePred p] {xs : List α} {x : α}
    (h : key x ∈ xs.map key) :
    countedOnce key amount p (xs ++ [x]) = countedOnce key amount p xs := by
  rw [countedOnce, firsts_concat_seen key h, countedOnce]

theorem countedOnce_new (p : α → Prop) [DecidablePred p] {xs : List α} {x : α}
    (h : key x ∉ xs.map key) :
    countedOnce key amount p (xs ++ [x]) =
      countedOnce key amount p xs + if p x then amount x else 0 := by
  rw [countedOnce, firsts_concat_new key h, countedOnce, List.filter_append, List.map_append,
    List.sum_append]
  congr 1
  by_cases hit : p x <;> simp [hit]

theorem countedOnce_congr {p q : α → Prop} [DecidablePred p] [DecidablePred q] {xs : List α}
    (h : ∀ x ∈ xs, p x ↔ q x) : countedOnce key amount p xs = countedOnce key amount q xs := by
  unfold countedOnce
  congr 2
  apply List.filter_congr
  intro x member
  simp [h x (mem_of_mem_firsts key member)]

theorem countedOnce_eq_zero {p : α → Prop} [DecidablePred p] {xs : List α}
    (h : ∀ x ∈ xs, ¬p x) : countedOnce key amount p xs = 0 := by
  have none : (firsts key xs).filter (p ·) = [] := by
    rw [List.filter_eq_nil_iff]
    intro x member
    simpa using h x (mem_of_mem_firsts key member)
  simp [countedOnce, none]

end Once

section Keyed

variable {α β κ : Type*} {key : α → κ}

/-- Where the keys differ, what one key alone yields is all of it. -/
theorem flatMap_of_key {l : List α} (nodup : (l.map key).Nodup) {a : α} (member : a ∈ l)
    {f : α → List β} (others : ∀ b ∈ l, key b ≠ key a → f b = []) : l.flatMap f = f a := by
  induction l with
  | nil => cases member
  | cons b l ih =>
    rw [List.map_cons, List.nodup_cons] at nodup
    rw [List.flatMap_cons]
    rcases List.mem_cons.1 member with rfl | later
    · have rest : l.flatMap f = [] := by
        rw [List.flatMap_eq_nil_iff]
        intro c there
        apply others c (List.mem_cons_of_mem _ there)
        exact fun same => nodup.1 (List.mem_map.2 ⟨c, there, same⟩)
      rw [rest, List.append_nil]
    · have apart : key b ≠ key a := fun same => nodup.1 (List.mem_map.2 ⟨a, later, same.symm⟩)
      rw [others b (by simp) apart, List.nil_append]
      exact ih nodup.2 later fun c there => others c (List.mem_cons_of_mem _ there)

theorem sum_of_key {M : Type*} [AddMonoid M] {l : List α} (nodup : (l.map key).Nodup) {a : α}
    (member : a ∈ l) {f : α → M} (others : ∀ b ∈ l, key b ≠ key a → f b = 0) :
    (l.map f).sum = f a := by
  induction l with
  | nil => cases member
  | cons b l ih =>
    rw [List.map_cons, List.nodup_cons] at nodup
    rw [List.map_cons, List.sum_cons]
    rcases List.mem_cons.1 member with rfl | later
    · have rest : (l.map f).sum = 0 := by
        apply List.sum_eq_zero
        intro x there
        obtain ⟨c, listed, rfl⟩ := List.mem_map.1 there
        apply others c (List.mem_cons_of_mem _ listed)
        exact fun same => nodup.1 (List.mem_map.2 ⟨c, listed, same⟩)
      rw [rest, add_zero]
    · have apart : key b ≠ key a := fun same => nodup.1 (List.mem_map.2 ⟨a, later, same.symm⟩)
      rw [others b (by simp) apart, zero_add]
      exact ih nodup.2 later fun c there => others c (List.mem_cons_of_mem _ there)

end Keyed

end ArbNautilus.Base
