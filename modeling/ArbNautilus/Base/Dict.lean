import Mathlib.Algebra.BigOperators.Group.List.Basic
import Mathlib.Data.List.Induction
import Mathlib.Data.List.Nodup
import Mathlib.Tactic.Abel

namespace ArbNautilus.Base

/-- A finite map that remembers insertion order. Overwriting a key keeps its
place. -/
structure Dict (κ ν : Type*) where
  entries : List (κ × ν)
  nodup : (entries.map Prod.fst).Nodup
deriving DecidableEq

namespace Dict

variable {κ ν : Type*}

def empty : Dict κ ν := ⟨[], List.nodup_nil⟩

def keys (d : Dict κ ν) : List κ := d.entries.map Prod.fst

def values (d : Dict κ ν) : List ν := d.entries.map Prod.snd

@[simp] theorem values_empty : (empty : Dict κ ν).values = [] := rfl

@[simp] theorem keys_empty : (empty : Dict κ ν).keys = [] := rfl

variable [DecidableEq κ]

def lookup (k : κ) : List (κ × ν) → Option ν
  | [] => none
  | (k', v) :: es => if k' = k then some v else lookup k es

def assign (k : κ) (v : ν) : List (κ × ν) → List (κ × ν)
  | [] => [(k, v)]
  | (k', v') :: es => if k' = k then (k, v) :: es else (k', v') :: assign k v es

theorem keys_assign (k : κ) (v : ν) (es : List (κ × ν)) :
    (assign k v es).map Prod.fst =
      if k ∈ es.map Prod.fst then es.map Prod.fst else es.map Prod.fst ++ [k] := by
  induction es with
  | nil => simp [assign]
  | cons e es ih =>
    obtain ⟨k', v'⟩ := e
    by_cases same : k' = k
    · simp [assign, same]
    · have other : k ≠ k' := Ne.symm same
      simp only [assign, if_neg same, List.map_cons, ih, List.mem_cons, other, false_or]
      split <;> rfl

def get? (d : Dict κ ν) (k : κ) : Option ν := lookup k d.entries

def set (d : Dict κ ν) (k : κ) (v : ν) : Dict κ ν where
  entries := assign k v d.entries
  nodup := by
    rw [keys_assign]
    split
    · exact d.nodup
    · rename_i fresh
      exact List.Nodup.append d.nodup (List.nodup_singleton k) (by simpa using fresh)

theorem lookup_assign (k k' : κ) (v : ν) (es : List (κ × ν)) :
    lookup k' (assign k v es) = if k = k' then some v else lookup k' es := by
  induction es with
  | nil => simp [assign, lookup]
  | cons e es ih =>
    obtain ⟨key, value⟩ := e
    by_cases same : key = k
    · subst same
      simp only [assign, if_true, lookup]
      split <;> rfl
    · simp only [assign, if_neg same, lookup, ih]
      by_cases hit : key = k'
      · subst hit
        simp [Ne.symm same]
      · simp [hit]

@[simp] theorem get?_empty (k : κ) : (empty : Dict κ ν).get? k = none := rfl

theorem get?_set (d : Dict κ ν) (k k' : κ) (v : ν) :
    (d.set k v).get? k' = if k = k' then some v else d.get? k' :=
  lookup_assign k k' v d.entries

@[simp] theorem get?_set_self (d : Dict κ ν) (k : κ) (v : ν) : (d.set k v).get? k = some v := by
  simp [get?_set]

/-- A value set under its own free key joins those still listed. -/
theorem get?_set_listed {d : Dict κ ν} {key : ν → κ} {value : ν} (fresh : d.get? (key value) = none)
    (values : List ν) (k : κ) (v : ν) :
    ((d.set (key value) value).get? k = some v ∨ v ∈ values ∧ key v = k) ↔
      d.get? k = some v ∨ v ∈ value :: values ∧ key v = k := by
  rw [get?_set, List.mem_cons]
  split
  · rename_i here
    subst here
    simp only [Option.some.injEq, fresh, reduceCtorEq, false_or]
    constructor
    · rintro (rfl | ⟨member, named⟩)
      · exact ⟨.inl rfl, rfl⟩
      · exact ⟨.inr member, named⟩
    · rintro ⟨rfl | member, named⟩
      · exact .inl rfl
      · exact .inr ⟨member, named⟩
  · rename_i elsewhere
    constructor
    · rintro (old | ⟨member, named⟩)
      · exact .inl old
      · exact .inr ⟨.inr member, named⟩
    · rintro (old | ⟨rfl | member, named⟩)
      · exact .inl old
      · exact absurd named elsewhere
      · exact .inr ⟨member, named⟩

theorem get?_set_of_ne (d : Dict κ ν) {k k' : κ} (h : k ≠ k') (v : ν) :
    (d.set k v).get? k' = d.get? k' := by
  simp [get?_set, h]

theorem lookup_eq_some_iff {es : List (κ × ν)} (h : (es.map Prod.fst).Nodup) (k : κ) (v : ν) :
    lookup k es = some v ↔ (k, v) ∈ es := by
  induction es with
  | nil => simp [lookup]
  | cons e es ih =>
    obtain ⟨key, value⟩ := e
    obtain ⟨fresh, rest⟩ := List.nodup_cons.1 h
    by_cases same : key = k
    · subst same
      have absent : (key, v) ∉ es := fun hm => fresh (List.mem_map.2 ⟨_, hm, rfl⟩)
      simp only [lookup, if_true, Option.some.injEq, List.mem_cons, Prod.mk.injEq, true_and, absent,
        or_false]
      exact eq_comm
    · simp [lookup, same, ih rest, Ne.symm same]

theorem mem_entries_iff (d : Dict κ ν) (k : κ) (v : ν) :
    (k, v) ∈ d.entries ↔ d.get? k = some v :=
  (lookup_eq_some_iff d.nodup k v).symm

theorem mem_values_iff (d : Dict κ ν) (v : ν) : v ∈ d.values ↔ ∃ k, d.get? k = some v := by
  simp only [values, List.mem_map, Prod.exists, exists_eq_right, mem_entries_iff]

theorem mem_keys_iff (d : Dict κ ν) (k : κ) : k ∈ d.keys ↔ ∃ v, d.get? k = some v := by
  simp only [keys, List.mem_map, Prod.exists, exists_and_right, exists_eq_right, mem_entries_iff]

theorem get?_eq_none_iff (d : Dict κ ν) (k : κ) : d.get? k = none ↔ k ∉ d.keys := by
  rw [mem_keys_iff, Option.eq_none_iff_forall_ne_some]
  simp

theorem keys_set_of_get? {d : Dict κ ν} {k : κ} {v₀ : ν} (h : d.get? k = some v₀) (v : ν) :
    (d.set k v).keys = d.keys := by
  have known : k ∈ d.entries.map Prod.fst := (d.mem_keys_iff k).2 ⟨v₀, h⟩
  simp only [keys, set, keys_assign, if_pos known]

theorem keys_set_of_get?_none {d : Dict κ ν} {k : κ} (h : d.get? k = none) (v : ν) :
    (d.set k v).keys = d.keys ++ [k] := by
  have fresh : k ∉ d.entries.map Prod.fst := (d.get?_eq_none_iff k).1 h
  simp only [keys, set, keys_assign, if_neg fresh]

/-- Later entries overwrite earlier ones, as in a dict comprehension. -/
def ofList (es : List (κ × ν)) : Dict κ ν := es.foldl (fun d e => d.set e.1 e.2) .empty

def erase (d : Dict κ ν) (k : κ) : Dict κ ν where
  entries := d.entries.filter (·.1 ≠ k)
  nodup := (List.filter_sublist.map _).nodup d.nodup

theorem ofList_concat (es : List (κ × ν)) (e : κ × ν) :
    ofList (es ++ [e]) = (ofList es).set e.1 e.2 := by
  simp [ofList]

theorem length_set (d : Dict κ ν) (k : κ) (v : ν) :
    (d.set k v).entries.length =
      if k ∈ d.keys then d.entries.length else d.entries.length + 1 := by
  have lengths := congrArg List.length (keys_assign k v d.entries)
  rw [List.length_map] at lengths
  rw [set, lengths, keys]
  split <;> simp

theorem length_ofList_le (es : List (κ × ν)) : (ofList es).entries.length ≤ es.length := by
  induction es using List.reverseRecOn with
  | nil => simp [ofList, empty]
  | append_singleton es e ih =>
    rw [ofList_concat, length_set, List.length_append, List.length_singleton]
    split <;> omega

theorem assign_fresh {k : κ} {v : ν} {es : List (κ × ν)} (h : k ∉ es.map Prod.fst) :
    assign k v es = es ++ [(k, v)] := by
  induction es with
  | nil => rfl
  | cons e es ih =>
    simp only [List.map_cons, List.mem_cons, not_or] at h
    rw [assign, if_neg (Ne.symm h.1), ih h.2, List.cons_append]

theorem entries_set_fresh {d : Dict κ ν} {k : κ} (h : d.get? k = none) (v : ν) :
    (d.set k v).entries = d.entries ++ [(k, v)] :=
  assign_fresh ((d.get?_eq_none_iff k).1 h)

/-- When no entry was lost, none was overwritten. -/
theorem entries_ofList {es : List (κ × ν)} (h : (ofList es).entries.length = es.length) :
    (ofList es).entries = es := by
  induction es using List.reverseRecOn with
  | nil => rfl
  | append_singleton es e ih =>
    have bound := length_ofList_le es
    rw [ofList_concat, length_set, List.length_append, List.length_singleton] at h
    split at h
    · omega
    · rename_i fresh
      have same := ih (by omega)
      rw [ofList_concat, set]
      simp only
      rw [assign_fresh fresh, same]

theorem entries_ofList_of_nodup {es : List (κ × ν)} (h : (es.map Prod.fst).Nodup) :
    (ofList es).entries = es := by
  induction es using List.reverseRecOn with
  | nil => rfl
  | append_singleton es e ih =>
    rw [List.map_append, List.nodup_append] at h
    have same := ih h.1
    have fresh : e.1 ∉ (ofList es).entries.map Prod.fst := by
      rw [same]
      exact fun member => h.2.2 _ member e.1 (by simp) rfl
    rw [ofList_concat, set]
    simp only
    rw [assign_fresh fresh, same]

theorem mem_of_get?_ofList {es : List (κ × ν)} {k : κ} {v : ν}
    (h : (ofList es).get? k = some v) : (k, v) ∈ es := by
  induction es using List.reverseRecOn with
  | nil => cases h
  | append_singleton es e ih =>
    rw [ofList_concat, get?_set] at h
    rw [List.mem_append]
    split at h
    · rename_i same
      obtain rfl := Option.some.inj h
      exact .inr (by simp [← same])
    · exact .inl (ih h)

theorem get?_erase (d : Dict κ ν) (k k' : κ) :
    (d.erase k).get? k' = if k = k' then none else d.get? k' := by
  have found : ∀ v, (d.erase k).get? k' = some v ↔ k ≠ k' ∧ d.get? k' = some v := by
    intro v
    rw [← mem_entries_iff, ← mem_entries_iff, erase]
    simp only [List.mem_filter, decide_eq_true_eq]
    exact ⟨fun held => ⟨Ne.symm held.2, held.1⟩, fun held => ⟨held.2, Ne.symm held.1⟩⟩
  split
  · rename_i same
    rw [Option.eq_none_iff_forall_ne_some]
    intro v held
    exact ((found v).1 held).1 same
  · rename_i apart
    apply Option.ext
    intro v
    rw [found v]
    simp [apart]

theorem erase_of_get?_none {d : Dict κ ν} {k : κ} (h : d.get? k = none) :
    (d.erase k).entries = d.entries := by
  have fresh := (d.get?_eq_none_iff k).1 h
  rw [erase, List.filter_eq_self]
  intro e member
  have apart : e.1 ≠ k := fun same => fresh (same ▸ List.mem_map_of_mem member)
  simpa using apart

theorem filter_key (d : Dict κ ν) (k : κ) :
    d.entries.filter (·.1 = k) = (d.get? k).toList.map fun v => (k, v) := by
  have found : ∀ es : List (κ × ν), (es.map Prod.fst).Nodup →
      es.filter (·.1 = k) = (lookup k es).toList.map fun v => (k, v) := by
    intro es nodup
    induction es with
    | nil => rfl
    | cons e es ih =>
      obtain ⟨key, value⟩ := e
      obtain ⟨fresh, nodup⟩ := List.nodup_cons.1 nodup
      by_cases hit : key = k
      · subst hit
        have others : es.filter (·.1 = key) = [] := by
          rw [List.filter_eq_nil_iff]
          intro e member same
          exact fresh (List.mem_map.2 ⟨e, member, by simpa using same⟩)
        rw [List.filter_cons_of_pos (by simp), others]
        simp [lookup]
      · rw [List.filter_cons_of_neg (by simpa using hit), ih nodup]
        simp [lookup, hit]
  exact found d.entries d.nodup

section Total

variable {M : Type*} [AddCommGroup M]

/-- A sum that reads one dict at the keys of a list, when one of them is set. -/
theorem sum_get?_set {β : Type*} {es : List (κ × β)} (nodup : (es.map Prod.fst).Nodup)
    (f : β → Option ν → M) {k : κ} {b : β} (member : (k, b) ∈ es) (d : Dict κ ν) (v : ν) :
    (es.map fun e => f e.2 ((d.set k v).get? e.1)).sum =
      (es.map fun e => f e.2 (d.get? e.1)).sum - f b (d.get? k) + f b (some v) := by
  induction es with
  | nil => cases member
  | cons e es ih =>
    obtain ⟨fresh, nodup⟩ := List.nodup_cons.1 nodup
    simp only [List.map_cons, List.sum_cons]
    rcases List.mem_cons.1 member with rfl | later
    · have others : (es.map fun e => f e.2 ((d.set k v).get? e.1)) =
          es.map fun e => f e.2 (d.get? e.1) := by
        apply List.map_congr_left
        intro e member
        have apart : k ≠ e.1 := fun same => fresh (List.mem_map.2 ⟨e, member, same.symm⟩)
        rw [get?_set_of_ne d apart]
      rw [others, get?_set_self]
      abel
    · have apart : k ≠ e.1 := fun same => fresh (List.mem_map.2 ⟨_, later, same⟩)
      rw [ih nodup later, get?_set_of_ne d apart]
      abel

/-- The sum of one quantity over the values held. -/
def total (f : ν → M) (d : Dict κ ν) : M := (d.values.map f).sum

theorem sum_assign (f : ν → M) (k : κ) (v : ν) (es : List (κ × ν)) :
    ((assign k v es).map (f ∘ Prod.snd)).sum =
      (es.map (f ∘ Prod.snd)).sum - ((lookup k es).map f).getD 0 + f v := by
  induction es with
  | nil => simp [assign, lookup]
  | cons e es ih =>
    obtain ⟨key, value⟩ := e
    by_cases same : key = k
    · simp only [assign, lookup, if_pos same, List.map_cons, List.sum_cons, Function.comp,
        Option.map_some, Option.getD_some]
      abel
    · simp only [assign, lookup, if_neg same, List.map_cons, List.sum_cons, ih]
      abel

omit [DecidableEq κ] in
@[simp] theorem total_empty (f : ν → M) : (empty : Dict κ ν).total f = 0 := by simp [total]

theorem total_set (f : ν → M) (d : Dict κ ν) (k : κ) (v : ν) :
    (d.set k v).total f = d.total f - ((d.get? k).map f).getD 0 + f v := by
  simpa [total, values, set, get?, List.map_map] using sum_assign f k v d.entries

theorem total_set_of_get? (f : ν → M) {d : Dict κ ν} {k : κ} {v₀ : ν} (h : d.get? k = some v₀)
    (v : ν) : (d.set k v).total f = d.total f - f v₀ + f v := by
  simp [total_set, h]

theorem total_set_of_get?_none (f : ν → M) {d : Dict κ ν} {k : κ} (h : d.get? k = none) (v : ν) :
    (d.set k v).total f = d.total f + f v := by
  simp [total_set, h]

theorem total_erase (f : ν → M) {d : Dict κ ν} {k : κ} {v : ν} (h : d.get? k = some v) :
    (d.erase k).total f = d.total f - f v := by
  have erased : ∀ es : List (κ × ν), (es.map Prod.fst).Nodup → lookup k es = some v →
      ((es.filter (·.1 ≠ k)).map (f ∘ Prod.snd)).sum = (es.map (f ∘ Prod.snd)).sum - f v := by
    intro es nodup found
    induction es with
    | nil => cases found
    | cons e es ih =>
      obtain ⟨key, value⟩ := e
      obtain ⟨fresh, nodup⟩ := List.nodup_cons.1 nodup
      by_cases hit : key = k
      · subst hit
        simp only [lookup, if_true, Option.some.injEq] at found
        have others : es.filter (·.1 ≠ key) = es := by
          rw [List.filter_eq_self]
          rintro ⟨other, _⟩ member
          have apart : other ≠ key := fun same => fresh (List.mem_map.2 ⟨_, member, same⟩)
          simpa using apart
        rw [List.filter_cons_of_neg (by simp), others]
        simp [found]
      · simp only [lookup, if_neg hit] at found
        rw [List.filter_cons_of_pos (by simpa using hit), List.map_cons, List.sum_cons,
          ih nodup found, List.map_cons, List.sum_cons]
        abel
  simpa [total, values, erase, get?, List.map_map] using erased d.entries d.nodup h

omit [DecidableEq κ] in
theorem total_sub (f g : ν → M) (d : Dict κ ν) :
    d.total (fun v => f v - g v) = d.total f - d.total g := by
  unfold total
  induction d.values with
  | nil => simp
  | cons v vs ih =>
    simp only [List.map_cons, List.sum_cons, ih]
    abel

end Total

section Image

variable {β : Type*}

/-- The entries with each value read through `f`; equal images agree on every such reading. -/
def image (f : ν → β) (d : Dict κ ν) : List (κ × β) := d.entries.map fun e => (e.1, f e.2)

theorem lookup_map (f : ν → β) (k : κ) (es : List (κ × ν)) :
    lookup k (es.map fun e => (e.1, f e.2)) = (lookup k es).map f := by
  induction es with
  | nil => rfl
  | cons e es ih =>
    simp only [List.map_cons, lookup, ih]
    split <;> rfl

theorem get?_of_image {f : ν → β} {d e : Dict κ ν} (same : d.image f = e.image f) {k : κ} {v : ν}
    (h : d.get? k = some v) : ∃ v', e.get? k = some v' ∧ f v' = f v := by
  have agree : (e.get? k).map f = (d.get? k).map f := by
    simp only [get?, ← lookup_map]
    exact congrArg (lookup k) same.symm
  rw [h] at agree
  simpa [Option.map_eq_some_iff] using agree

omit [DecidableEq κ] in
theorem total_of_image {M : Type*} [AddCommGroup M] {f : ν → β} {d e : Dict κ ν}
    (same : d.image f = e.image f) (g : β → M) : d.total (g ∘ f) = e.total (g ∘ f) := by
  have read : ∀ d : Dict κ ν, d.total (g ∘ f) = ((d.image f).map (g ∘ Prod.snd)).sum := fun d => by
    simp [total, values, image, List.map_map, Function.comp_def]
  rw [read, read, same]

theorem image_set {f : ν → β} {d : Dict κ ν} {k : κ} {v₀ v : ν} (h : d.get? k = some v₀)
    (same : f v = f v₀) : (d.set k v).image f = d.image f := by
  have assigned : ∀ es : List (κ × ν), lookup k es = some v₀ →
      (assign k v es).map (fun e => (e.1, f e.2)) = es.map fun e => (e.1, f e.2) := by
    intro es found
    induction es with
    | nil => cases found
    | cons e es ih =>
      obtain ⟨key, value⟩ := e
      by_cases hit : key = k
      · simp only [lookup, if_pos hit, Option.some.injEq] at found
        simp [assign, hit, same, found]
      · simp only [lookup, if_neg hit] at found
        simp [assign, hit, ih found]
  exact assigned d.entries h

end Image

/-- The first value in insertion order that satisfies a test. -/
def first (p : ν → Bool) (d : Dict κ ν) : Option ν := d.values.find? p

theorem first_eq_some {p : ν → Bool} {d : Dict κ ν} {v : ν} (h : d.first p = some v) :
    p v = true ∧ ∃ k, d.get? k = some v :=
  ⟨List.find?_some h, (d.mem_values_iff v).1 (List.mem_of_find?_eq_some h)⟩

theorem first_eq_none_iff {p : ν → Bool} {d : Dict κ ν} :
    d.first p = none ↔ ∀ k v, d.get? k = some v → p v = false := by
  simp only [first, List.find?_eq_none, mem_values_iff, forall_exists_index, Bool.not_eq_true]
  exact forall_comm

end Dict

end ArbNautilus.Base
