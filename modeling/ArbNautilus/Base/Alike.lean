import ArbNautilus.Base.Dict
import ArbNautilus.Base.Raise
import Mathlib.Data.List.Sort

namespace ArbNautilus.Base

namespace Dict

variable {κ ν : Type*}

theorem nodup_entries (d : Dict κ ν) : d.entries.Nodup := List.Nodup.of_map _ d.nodup

variable [DecidableEq κ] {d e : Dict κ ν}

/-- The same map, in whatever order it was filled. -/
def Alike (d e : Dict κ ν) : Prop := ∀ k, d.get? k = e.get? k

theorem Alike.refl (d : Dict κ ν) : Alike d d := fun _ => rfl

theorem Alike.symm (h : Alike d e) : Alike e d := fun k => (h k).symm

theorem Alike.trans {f : Dict κ ν} (h : Alike d e) (h' : Alike e f) : Alike d f :=
  fun k => (h k).trans (h' k)

theorem Alike.set (h : Alike d e) (k : κ) (v : ν) : Alike (d.set k v) (e.set k v) := by
  intro k'
  simp only [get?_set, h k']

theorem Alike.erase (h : Alike d e) (k : κ) : Alike (d.erase k) (e.erase k) := by
  intro k'
  simp only [get?_erase, h k']

theorem Alike.perm (h : Alike d e) : d.entries.Perm e.entries := by
  apply (List.perm_ext_iff_of_nodup d.nodup_entries e.nodup_entries).2
  rintro ⟨k, v⟩
  rw [mem_entries_iff, mem_entries_iff, h k]

theorem Alike.of_perm (perm : d.entries.Perm e.entries) : Alike d e := by
  intro k
  apply Option.ext
  intro v
  rw [← mem_entries_iff, ← mem_entries_iff, perm.mem_iff]

theorem Alike.values (h : Alike d e) : d.values.Perm e.values := h.perm.map _

/-- Distinct keys fill the same map in every order. -/
theorem alike_ofList {es fs : List (κ × ν)} (perm : es.Perm fs) (nodup : (es.map Prod.fst).Nodup) :
    Alike (ofList es) (ofList fs) := by
  apply Alike.of_perm
  rw [entries_ofList_of_nodup nodup, entries_ofList_of_nodup ((perm.map _).nodup_iff.1 nodup)]
  exact perm

/-- The map with its entries in an order of their keys. -/
def reorder (le : κ → κ → Prop) [DecidableRel le] (d : Dict κ ν) : Dict κ ν where
  entries := d.entries.insertionSort fun a b => le a.1 b.1
  nodup := ((List.perm_insertionSort _ d.entries).map Prod.fst).nodup_iff.2 d.nodup

theorem reorder_alike (le : κ → κ → Prop) [DecidableRel le] (d : Dict κ ν) :
    Alike (d.reorder le) d :=
  Alike.of_perm (List.perm_insertionSort _ d.entries)

end Dict

/-- A loop whose turns may trade places ends alike in every order of its items. -/
theorem foldlM_perm {ε : Type*} {α σ : Type} {f : σ → α → Except ε σ} {R : σ → σ → Prop}
    (refl : ∀ s, R s s) (trans : ∀ r s t, R r s → R s t → R r t)
    (turn : ∀ s s' a t, R s s' → f s a = .ok t → ∃ t', f s' a = .ok t' ∧ R t t')
    (swap : ∀ s a b t u, f s a = .ok t → f t b = .ok u →
      ∃ t' u', f s b = .ok t' ∧ f t' a = .ok u' ∧ R u u')
    {xs ys : List α} (perm : xs.Perm ys) {s s' t : σ} (start : R s s')
    (loop : xs.foldlM f s = .ok t) : ∃ t', ys.foldlM f s' = .ok t' ∧ R t t' := by
  have tail {zs : List α} {s s' t : σ} (start : R s s') (loop : zs.foldlM f s = .ok t) :
      ∃ t', zs.foldlM f s' = .ok t' ∧ R t t' := by
    apply foldlM_simulates (S := fun a b => a = b) _ (List.forall₂_refl zs) start loop
    rintro u u' a _ v related rfl first
    exact turn u u' a v related first
  induction perm generalizing s s' t with
  | nil => exact tail start loop
  | cons a _ ih =>
    simp only [List.foldlM_cons, bind_eq_ok] at loop ⊢
    obtain ⟨u, first, loop⟩ := loop
    obtain ⟨u', first', related⟩ := turn s s' a u start first
    obtain ⟨t', rest, last⟩ := ih related loop
    exact ⟨t', ⟨u', first', rest⟩, last⟩
  | swap a b zs =>
    simp only [List.foldlM_cons, bind_eq_ok] at loop ⊢
    obtain ⟨u, first, v, second, loop⟩ := loop
    obtain ⟨w, x, earlier, later, same⟩ := swap s b a u v first second
    obtain ⟨w', earlier', related⟩ := turn s s' a w start earlier
    obtain ⟨x', later', related'⟩ := turn w w' b x related later
    obtain ⟨t', rest, last⟩ := tail (trans v x x' same related') loop
    exact ⟨t', ⟨w', earlier', x', later', rest⟩, last⟩
  | trans _ _ ih ih' =>
    obtain ⟨u, middle, related⟩ := ih start loop
    obtain ⟨t', rest, last⟩ := ih' (refl s') middle
    exact ⟨t', rest, trans t u t' related last⟩

end ArbNautilus.Base
