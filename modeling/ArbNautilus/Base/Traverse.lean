import ArbNautilus.Base.Dict
import ArbNautilus.Base.Raise

/-! A map whose values are computed from another's, one by one, and may raise. -/

namespace ArbNautilus.Base

theorem forall₂_right {α β : Type} {R : α → β → Prop} {xs : List α} {ys : List β}
    (items : List.Forall₂ R xs ys) {y : β} (member : y ∈ ys) : ∃ x ∈ xs, R x y := by
  induction items with
  | nil => cases member
  | @cons x y' xs ys item items ih =>
    rcases List.mem_cons.1 member with rfl | later
    · exact ⟨x, List.mem_cons_self, item⟩
    · obtain ⟨x', listed, related⟩ := ih later
      exact ⟨x', List.mem_cons_of_mem _ listed, related⟩

theorem forall₂_left {α β : Type} {R : α → β → Prop} {xs : List α} {ys : List β}
    (items : List.Forall₂ R xs ys) {x : α} (member : x ∈ xs) : ∃ y ∈ ys, R x y :=
  forall₂_right items.flip member

theorem map_eq_of_forall₂ {α β γ : Type} {f : α → γ} {g : β → γ} {xs : List α} {ys : List β}
    (items : List.Forall₂ (fun x y => g y = f x) xs ys) : ys.map g = xs.map f := by
  induction items with
  | nil => rfl
  | cons item items ih => rw [List.map_cons, List.map_cons, item, ih]

namespace Dict

variable {ε κ ν β : Type} [DecidableEq κ] {f : κ → ν → Except ε β} {d : Dict κ ν} {d' : Dict κ β}

/-- `{k: f(k, v) for k, v in d.items()}`. -/
def traverse (f : κ → ν → Except ε β) (d : Dict κ ν) : Except ε (Dict κ β) :=
  ofList <$> d.entries.mapM fun e => (e.1, ·) <$> f e.1 e.2

/-- The result of a computation stands under its key, at its place. -/
def Comes (f : κ → ν → Except ε β) (e : κ × ν) (e' : κ × β) : Prop :=
  e'.1 = e.1 ∧ f e.1 e.2 = .ok e'.2

omit [DecidableEq κ] in
theorem map_fst_of_comes {es : List (κ × ν)} {es' : List (κ × β)}
    (rows : List.Forall₂ (Comes f) es es') : es'.map Prod.fst = es.map Prod.fst :=
  map_eq_of_forall₂ (rows.imp fun _ _ row => row.1)

theorem traverse_eq_ok : d.traverse f = .ok d' ↔ List.Forall₂ (Comes f) d.entries d'.entries := by
  have turns (es' : List (κ × β)) :
      (d.entries.mapM fun e => (e.1, ·) <$> f e.1 e.2) = .ok es' ↔
        List.Forall₂ (Comes f) d.entries es' := by
    rw [mapM_eq_ok]
    apply Iff.of_eq
    congr 1
    funext e e'
    obtain ⟨k', b⟩ := e'
    simp only [map_eq_ok, Prod.mk.injEq, Comes, eq_iff_iff]
    constructor
    · rintro ⟨_, made, rfl, rfl⟩
      exact ⟨rfl, made⟩
    · rintro ⟨rfl, made⟩
      exact ⟨b, made, rfl, rfl⟩
  simp only [traverse, map_eq_ok, turns]
  constructor
  · rintro ⟨es', rows, rfl⟩
    have nodup : (es'.map Prod.fst).Nodup := by
      rw [map_fst_of_comes rows]
      exact d.nodup
    rwa [entries_ofList_of_nodup nodup]
  · intro rows
    refine ⟨d'.entries, rows, ?_⟩
    have same := entries_ofList_of_nodup d'.nodup
    cases made : ofList d'.entries with
    | mk entries nodup =>
      rw [made] at same
      subst same
      rfl

theorem get?_of_comes {es : List (κ × ν)} {es' : List (κ × β)}
    (rows : List.Forall₂ (Comes f) es es') {k : κ} {b : β} (found : lookup k es' = some b) :
    ∃ v, lookup k es = some v ∧ f k v = .ok b := by
  induction rows with
  | nil => cases found
  | @cons e e' es es' row rows ih =>
    obtain ⟨k₁, v₁⟩ := e
    obtain ⟨k₂, b₁⟩ := e'
    obtain ⟨rfl, made⟩ := row
    unfold lookup at found ⊢
    by_cases here : k₂ = k
    · rw [if_pos here, Option.some.injEq] at found
      subst here found
      exact ⟨v₁, if_pos rfl, made⟩
    · rw [if_neg here] at found ⊢
      exact ih found

/-- Each value of the result is what one of the old values gave. -/
theorem traverse_back (made : d.traverse f = .ok d') {k : κ} {b : β}
    (found : d'.get? k = some b) : ∃ v, d.get? k = some v ∧ f k v = .ok b :=
  get?_of_comes (traverse_eq_ok.1 made) found

/-- A map each of whose values is its own result. -/
theorem traverse_same {f : κ → ν → Except ε ν} (fixed : ∀ k v, d.get? k = some v → f k v = .ok v) :
    d.traverse f = .ok d := by
  rw [traverse_eq_ok, List.forall₂_same]
  intro e member
  exact ⟨rfl, fixed e.1 e.2 ((d.mem_entries_iff e.1 e.2).1 member)⟩

/-- Results that keep a quantity keep its sum. -/
theorem total_traverse {M : Type} [AddCommGroup M] {m : ν → M} {m' : β → M}
    (made : d.traverse f = .ok d') (kept : ∀ k v b, f k v = .ok b → m' b = m v) :
    d'.total m' = d.total m := by
  have rows := traverse_eq_ok.1 made
  simp only [total, values, List.map_map]
  generalize d.entries = es at rows ⊢
  generalize d'.entries = es' at rows ⊢
  induction rows with
  | nil => rfl
  | @cons e e' es es' row rows ih =>
    simp only [List.map_cons, List.sum_cons, ih, Function.comp, kept e.1 e.2 e'.2 row.2]

/-- A loop that sets the results of distinct keys leaves each one's result, and the rest. -/
theorem get?_foldlM_set {α : Type} {key : α → κ} {g : α → Except ε ν} {xs : List α}
    {d d' : Dict κ ν}
    (nodup : (xs.map key).Nodup)
    (loop : xs.foldlM (fun d x => d.set (key x) <$> g x) d = .ok d') :
    (∀ x ∈ xs, ∃ v, g x = .ok v ∧ d'.get? (key x) = some v) ∧
      ∀ k, k ∉ xs.map key → d'.get? k = d.get? k := by
  induction xs generalizing d with
  | nil =>
    rw [List.foldlM_nil, pure_eq_ok] at loop
    subst loop
    exact ⟨fun x member => (by cases member), fun _ _ => rfl⟩
  | cons x xs ih =>
    rw [List.map_cons, List.nodup_cons] at nodup
    simp only [List.foldlM_cons, bind_eq_ok, map_eq_ok] at loop
    obtain ⟨_, ⟨v, made, rfl⟩, loop⟩ := loop
    obtain ⟨found, others⟩ := ih nodup.2 loop
    constructor
    · intro y member
      rcases List.mem_cons.1 member with rfl | later
      · exact ⟨v, made, by rw [others _ nodup.1, get?_set_self]⟩
      · exact found y later
    · intro k fresh
      rw [List.map_cons, List.mem_cons, not_or] at fresh
      rw [others k fresh.2, get?_set_of_ne d (Ne.symm fresh.1)]

end Dict

end ArbNautilus.Base
