import Mathlib.Data.List.Forall2

namespace ArbNautilus.Base

/-- A guard that raises when its condition holds. -/
def raiseIf {ε : Type*} (p : Prop) [Decidable p] (e : ε) : Except ε Unit :=
  if p then .error e else .ok ()

@[simp] theorem raiseIf_eq_ok {ε : Type*} {p : Prop} [Decidable p] {e : ε} {u : Unit} :
    raiseIf p e = .ok u ↔ ¬p := by
  unfold raiseIf
  split <;> simp_all

@[simp] theorem raiseIf_eq_error {ε : Type*} {p : Prop} [Decidable p] {e e' : ε} :
    raiseIf p e = .error e' ↔ p ∧ e = e' := by
  unfold raiseIf
  split <;> simp_all

theorem raiseIf_congr {ε : Type*} {p q : Prop} [Decidable p] [Decidable q] {e : ε} (h : p ↔ q) :
    raiseIf p e = raiseIf q e := by
  unfold raiseIf
  simp only [h]

@[simp] theorem bind_eq_ok {ε : Type*} {α β : Type} {x : Except ε α} {f : α → Except ε β} {b : β} :
    x >>= f = .ok b ↔ ∃ a, x = .ok a ∧ f a = .ok b := by
  cases x <;> simp [bind, Except.bind]

@[simp] theorem bind_unit_eq_ok {ε : Type*} {β : Type} {x : Except ε Unit}
    {f : Unit → Except ε β} {b : β} : x >>= f = .ok b ↔ x = .ok () ∧ f () = .ok b := by
  cases x <;> simp [bind, Except.bind]

@[simp] theorem pure_eq_ok {ε α : Type*} {a b : α} :
    (pure a : Except ε α) = .ok b ↔ a = b := by
  simp [pure, Except.pure]

@[simp] theorem throw_ne_ok {ε α : Type*} {e : ε} {a : α} :
    (throw e : Except ε α) = .ok a ↔ False := by
  simp [throw, throwThe, MonadExceptOf.throw]

@[simp] theorem map_eq_ok {ε : Type*} {α β : Type} {x : Except ε α} {f : α → β} {b : β} :
    f <$> x = .ok b ↔ ∃ a, x = .ok a ∧ f a = b := by
  cases x <;> simp [Functor.map, Except.map]

/-- A loop that does not raise keeps what each of its turns keeps. -/
theorem foldlM_invariant {ε : Type*} {α σ : Type} {f : σ → α → Except ε σ} {P : σ → Prop}
    (step : ∀ s a t, P s → f s a = .ok t → P t) {xs : List α} {s t : σ} (h : P s)
    (loop : xs.foldlM f s = .ok t) : P t := by
  induction xs generalizing s with
  | nil =>
    simp only [List.foldlM_nil, pure_eq_ok] at loop
    exact loop ▸ h
  | cons a xs ih =>
    simp only [List.foldlM_cons, bind_eq_ok] at loop
    obtain ⟨u, turn, loop⟩ := loop
    exact ih (step s a u h turn) loop

/-- A loop that does not raise took every turn without raising. -/
theorem foldlM_turns {ε : Type*} {α σ : Type} {f : σ → α → Except ε σ} {xs : List α} {s t : σ}
    (loop : xs.foldlM f s = .ok t) : ∀ a ∈ xs, ∃ u v, f u a = .ok v := by
  induction xs generalizing s with
  | nil => simp
  | cons a xs ih =>
    simp only [List.foldlM_cons, bind_eq_ok] at loop
    obtain ⟨u, turn, loop⟩ := loop
    rintro b (_ | ⟨_, member⟩)
    · exact ⟨s, u, turn⟩
    · exact ih loop b member

/-- Two loops in step: where the first does not raise, neither does the second. -/
theorem foldlM_simulates {ε : Type*} {α β σ τ : Type} {f : σ → α → Except ε σ}
    {g : τ → β → Except ε τ} {R : σ → τ → Prop} {S : α → β → Prop}
    (turn : ∀ s t a b s', R s t → S a b → f s a = .ok s' → ∃ t', g t b = .ok t' ∧ R s' t')
    {xs : List α} {ys : List β} (items : List.Forall₂ S xs ys) {s s' : σ} {t : τ} (start : R s t)
    (loop : xs.foldlM f s = .ok s') : ∃ t', ys.foldlM g t = .ok t' ∧ R s' t' := by
  induction items generalizing s t with
  | nil =>
    simp only [List.foldlM_nil, pure_eq_ok] at loop
    exact ⟨t, rfl, loop ▸ start⟩
  | cons item items ih =>
    simp only [List.foldlM_cons, bind_eq_ok] at loop
    obtain ⟨u, first, loop⟩ := loop
    obtain ⟨v, second, related⟩ := turn s t _ _ u start item first
    obtain ⟨t', rest, related⟩ := ih related loop
    refine ⟨t', ?_, related⟩
    rw [List.foldlM_cons, second]
    exact rest

/-- The same, over the same items. -/
theorem foldlM_follows {ε : Type*} {α σ τ : Type} {f : σ → α → Except ε σ} {g : τ → α → Except ε τ}
    {R : σ → τ → Prop} {xs : List α}
    (turn : ∀ a ∈ xs, ∀ s t s', R s t → f s a = .ok s' → ∃ t', g t a = .ok t' ∧ R s' t')
    {s s' : σ} {t : τ} (start : R s t) (loop : xs.foldlM f s = .ok s') :
    ∃ t', xs.foldlM g t = .ok t' ∧ R s' t' := by
  refine foldlM_simulates (S := fun a b => b ∈ xs ∧ a = b) ?_
    (List.forall₂_same.2 fun a member => ⟨member, rfl⟩) start loop
  rintro s t a _ s' related ⟨member, rfl⟩ first
  exact turn a member s t s' related first

theorem forM_eq_ok {ε : Type*} {α : Type} {f : α → Except ε Unit} {xs : List α} :
    xs.forM f = .ok () ↔ ∀ a ∈ xs, f a = .ok () := by
  induction xs with
  | nil => simp
  | cons a xs ih =>
    show (f a >>= fun _ => xs.forM f) = .ok () ↔ _
    rw [bind_unit_eq_ok, ih, List.forall_mem_cons]

/-- A list read item by item. -/
theorem mapM_eq_ok {ε : Type*} {α β : Type} {f : α → Except ε β} {xs : List α} {ys : List β} :
    xs.mapM f = .ok ys ↔ List.Forall₂ (fun x y => f x = .ok y) xs ys := by
  induction xs generalizing ys with
  | nil => rw [List.mapM_nil, pure_eq_ok, List.forall₂_nil_left_iff, eq_comm]
  | cons x xs ih =>
    simp only [List.mapM_cons, bind_eq_ok, pure_eq_ok, ih, List.forall₂_cons_left_iff]
    constructor
    · rintro ⟨y, first, rest, items, rfl⟩
      exact ⟨y, rest, first, items, rfl⟩
    · rintro ⟨y, rest, first, items, rfl⟩
      exact ⟨y, first, rest, items, rfl⟩

/-- The computation raises other errors only. -/
def Never {ε α : Type*} (e : ε) (x : Except ε α) : Prop := x ≠ .error e

section Never

variable {ε : Type*} {e e' : ε} {α β σ : Type}

theorem never_ok (a : α) : Never e (.ok a : Except ε α) := nofun

theorem never_pure (a : α) : Never e (pure a : Except ε α) := nofun

theorem never_error (other : e' ≠ e) : Never e (.error e' : Except ε α) :=
  fun same => other (Except.error.inj same)

theorem never_raiseIf {p : Prop} [Decidable p] (other : e' ≠ e) : Never e (raiseIf p e') := by
  unfold raiseIf
  split
  · exact never_error other
  · exact never_ok ()

theorem never_bind {x : Except ε α} {f : α → Except ε β} (first : Never e x)
    (rest : ∀ a, Never e (f a)) : Never e (x >>= f) := by
  cases x with
  | error raised => exact never_error fun same => first (congrArg _ same)
  | ok a => exact rest a

theorem never_map {x : Except ε α} {f : α → β} (h : Never e x) : Never e (f <$> x) := by
  cases x with
  | error raised => exact never_error fun same => h (congrArg _ same)
  | ok a => exact never_ok (f a)

theorem never_foldlM {f : σ → α → Except ε σ} (turn : ∀ s a, Never e (f s a)) (xs : List α)
    (s : σ) : Never e (xs.foldlM f s) := by
  induction xs generalizing s with
  | nil => exact never_pure s
  | cons a xs ih => exact never_bind (turn s a) ih

end Never

end ArbNautilus.Base
