import Mathlib.Logic.Basic

namespace ArbNautilus.Base

/-- A call that may raise. What it changed before it raised stays changed. -/
def Handler (σ ε α : Type) := σ → Except ε α × σ

namespace Handler

variable {σ ε α β : Type}

instance : Monad (Handler σ ε) where
  pure a := fun s => (.ok a, s)
  bind m f := fun s => match m s with
    | (.ok a, t) => f a t
    | (.error e, t) => (.error e, t)

def raise (e : ε) : Handler σ ε α := fun s => (.error e, s)

def raiseWhen (p : Prop) [Decidable p] (e : ε) : Handler σ ε Unit :=
  if p then raise e else pure ()

def look (f : σ → α) : Handler σ ε α := fun s => (.ok (f s), s)

def change (f : σ → σ) : Handler σ ε Unit := fun s => (.ok (), f s)

/-- A check that reads no state of its own. -/
def check (x : Except ε α) : Handler σ ε α := fun s => (x, s)

def each (f : α → Handler σ ε Unit) : List α → Handler σ ε Unit
  | [] => pure ()
  | a :: as => f a >>= fun _ => each f as

/-- The state after a call, whether or not it raised. -/
def after (m : Handler σ ε α) (s : σ) : σ := (m s).2

def returns (m : Handler σ ε α) (s : σ) : Bool := (m s).1.isOk

/-- Weakest precondition: returning leaves `Q`, raising leaves `E`. -/
def wp (m : Handler σ ε α) (Q : α → σ → Prop) (E : σ → Prop) (s : σ) : Prop :=
  match m s with
  | (.ok a, t) => Q a t
  | (.error _, t) => E t

section Rules

variable {Q : α → σ → Prop} {E : σ → Prop} {s : σ}

@[simp] theorem wp_pure (a : α) : wp (pure a : Handler σ ε α) Q E s ↔ Q a s := Iff.rfl

@[simp] theorem wp_raise (e : ε) : wp (raise e : Handler σ ε α) Q E s ↔ E s := Iff.rfl

@[simp] theorem wp_look (f : σ → α) : wp (look f : Handler σ ε α) Q E s ↔ Q (f s) s := Iff.rfl

@[simp] theorem wp_change {Q : Unit → σ → Prop} (f : σ → σ) :
    wp (change f : Handler σ ε Unit) Q E s ↔ Q () (f s) := Iff.rfl

@[simp] theorem wp_bind {Q : β → σ → Prop} (m : Handler σ ε α) (f : α → Handler σ ε β) :
    wp (m >>= f) Q E s ↔ wp m (fun a t => wp (f a) Q E t) E s := by
  unfold wp
  simp only [bind]
  rcases m s with ⟨_ | _, _⟩ <;> exact Iff.rfl

@[simp] theorem wp_discard {Q : Unit → σ → Prop} (m : Handler σ ε α) :
    wp (discard m) Q E s ↔ wp m (fun _ => Q ()) E s :=
  wp_bind m fun _ => pure ()

@[simp] theorem wp_raiseWhen {Q : Unit → σ → Prop} (p : Prop) [Decidable p] (e : ε) :
    wp (raiseWhen p e : Handler σ ε Unit) Q E s ↔ (p → E s) ∧ (¬p → Q () s) := by
  unfold raiseWhen
  split <;> rename_i h <;> simp [h]

@[simp] theorem wp_check (x : Except ε α) :
    wp (check x : Handler σ ε α) Q E s ↔
      (∀ e, x = .error e → E s) ∧ ∀ a, x = .ok a → Q a s := by
  unfold wp check
  cases x <;> simp

@[simp] theorem wp_ite (p : Prop) [Decidable p] (m n : Handler σ ε α) :
    wp (if p then m else n) Q E s ↔ (p → wp m Q E s) ∧ (¬p → wp n Q E s) := by
  split <;> rename_i h <;> simp [h]

theorem wp_mono {m : Handler σ ε α} {Q' : α → σ → Prop} {E' : σ → Prop} (h : wp m Q E s)
    (returning : ∀ a t, Q a t → Q' a t) (raising : ∀ t, E t → E' t) : wp m Q' E' s := by
  unfold wp at h ⊢
  split at h
  · exact returning _ _ h
  · exact raising _ h

/-- A loop keeps what each of its turns keeps, also when a turn raises. -/
theorem wp_each {f : α → Handler σ ε Unit} {P : σ → Prop} {as : List α}
    (turn : ∀ a ∈ as, ∀ s, P s → wp (f a) (fun _ => P) E s) (h : P s) :
    wp (each f as) (fun _ => P) E s := by
  induction as generalizing s with
  | nil => exact h
  | cons a as ih =>
    simp only [each, wp_bind]
    refine wp_mono (turn a (by simp) s h) (fun _ t kept => ?_) fun _ raised => raised
    exact ih (fun b member => turn b (by simp [member])) kept

/-- What both outcomes leave, the call leaves. -/
theorem after_of_wp {m : Handler σ ε α} {P : σ → Prop} (h : wp m (fun _ => P) P s) :
    P (m.after s) := by
  unfold wp at h
  unfold after
  split at h <;> rename_i result <;> simpa [result] using h

/-- Of a call that returned, only what returning leaves matters. -/
theorem after_of_returns {m : Handler σ ε α} {P : σ → Prop} (h : wp m (fun _ => P) E s)
    (returned : m.returns s = true) : P (m.after s) := by
  unfold wp at h
  unfold returns at returned
  unfold after
  split at h <;> rename_i result
  · simpa [result] using h
  · rw [result] at returned
    cases returned

/-- Ruling out the raise gives a call that returns. -/
theorem returns_of_wp {m : Handler σ ε α} {P : σ → Prop}
    (h : wp m (fun _ => P) (fun _ => False) s) : m.returns s = true ∧ P (m.after s) := by
  unfold wp at h
  unfold returns after
  split at h <;> rename_i result
  · exact ⟨by rw [result]; rfl, by rw [result]; exact h⟩
  · exact h.elim

end Rules

/-- Every error the call may raise is of this kind. -/
def Raises (P : ε → Prop) (m : Handler σ ε α) : Prop := ∀ s e, (m s).1 = .error e → P e

section Raises

variable {P : ε → Prop}

theorem raises_pure (a : α) : Raises P (pure a : Handler σ ε α) := nofun

theorem raises_look (f : σ → α) : Raises P (look f : Handler σ ε α) := nofun

theorem raises_change (f : σ → σ) : Raises P (change f : Handler σ ε Unit) := nofun

theorem raises_raise {e : ε} (h : P e) : Raises P (raise e : Handler σ ε α) := by
  rintro s e' ⟨⟩
  exact h

theorem raises_raiseWhen {p : Prop} [Decidable p] {e : ε} (h : P e) :
    Raises P (raiseWhen p e : Handler σ ε Unit) := by
  unfold raiseWhen
  split
  · exact raises_raise h
  · exact raises_pure ()

theorem raises_check {x : Except ε α} (h : ∀ e, x = .error e → P e) :
    Raises P (check x : Handler σ ε α) := fun _ => h

theorem raises_bind {m : Handler σ ε α} {f : α → Handler σ ε β} (first : Raises P m)
    (rest : ∀ a, Raises P (f a)) : Raises P (m >>= f) := by
  intro s e raised
  simp only [bind] at raised
  rcases result : m s with ⟨e' | a, t⟩ <;> rw [result] at raised <;> dsimp only at raised
  · cases raised
    exact first s e (by rw [result])
  · exact rest a t e raised

/-- Nothing follows a raise. -/
theorem raises_refuse {f : σ → σ} {e : ε} {next : α → Handler σ ε β} (h : P e) :
    Raises P (change f >>= fun _ => (raise e : Handler σ ε α) >>= next) := by
  rintro s e' ⟨⟩
  exact h

theorem raises_discard {m : Handler σ ε α} (h : Raises P m) : Raises P (discard m) :=
  raises_bind h fun _ => raises_pure ()

end Raises

/-- Two calls with one outcome, which leave their states related. -/
def Agree (R : σ → σ → Prop) (m n : Handler σ ε α) (s t : σ) : Prop :=
  (m s).1 = (n t).1 ∧ R (m s).2 (n t).2

section Agreement

variable {R : σ → σ → Prop} {s t : σ}

@[simp] theorem agree_pure (a : α) :
    Agree R (pure a : Handler σ ε α) (pure a) s t ↔ R s t :=
  ⟨fun h => h.2, fun h => ⟨rfl, h⟩⟩

@[simp] theorem agree_look_bind (f : σ → α) (k l : α → Handler σ ε β) :
    Agree R (look f >>= k) (look f >>= l) s t ↔ Agree R (k (f s)) (l (f t)) s t := Iff.rfl

@[simp] theorem agree_change (f g : σ → σ) :
    Agree R (change f : Handler σ ε Unit) (change g) s t ↔ R (f s) (g t) :=
  ⟨fun h => h.2, fun h => ⟨rfl, h⟩⟩

theorem agree_check (x : Except ε α) (h : R s t) :
    Agree R (check x : Handler σ ε α) (check x) s t := ⟨rfl, h⟩

theorem agree_raiseWhen (p : Prop) [Decidable p] (e : ε) (h : R s t) :
    Agree R (raiseWhen p e : Handler σ ε Unit) (raiseWhen p e) s t := by
  unfold raiseWhen
  split <;> exact ⟨rfl, h⟩

theorem agree_ite (p : Prop) [Decidable p] {m m' n n' : Handler σ ε α}
    (pos : p → Agree R m n s t) (neg : ¬p → Agree R m' n' s t) :
    Agree R (if p then m else m') (if p then n else n') s t := by
  split <;> rename_i h
  · exact pos h
  · exact neg h

theorem agree_bind {m n : Handler σ ε α} {f g : α → Handler σ ε β} (first : Agree R m n s t)
    (rest : ∀ a s' t', R s' t' → Agree R (f a) (g a) s' t') :
    Agree R (m >>= f) (n >>= g) s t := by
  obtain ⟨outcome, related⟩ := first
  unfold Agree
  simp only [bind]
  rcases hm : m s with ⟨x, s'⟩
  rcases hn : n t with ⟨y, t'⟩
  rw [hm, hn] at outcome related
  cases outcome
  cases x with
  | ok a => exact rest a s' t' related
  | error e => exact ⟨rfl, related⟩

theorem agree_each {f : α → Handler σ ε Unit} {as : List α} (h : R s t)
    (turn : ∀ a ∈ as, ∀ s t, R s t → Agree R (f a) (f a) s t) :
    Agree R (each f as) (each f as) s t := by
  induction as generalizing s t with
  | nil => exact ⟨rfl, h⟩
  | cons a as ih =>
    exact agree_bind (turn a (by simp) s t h) fun _ s' t' related =>
      ih related fun b member => turn b (by simp [member])

theorem Agree.returns {m n : Handler σ ε α} (h : Agree R m n s t) :
    m.returns s = n.returns t := by
  unfold Handler.returns
  rw [h.1]

theorem Agree.after {m n : Handler σ ε α} (h : Agree R m n s t) : R (m.after s) (n.after t) :=
  h.2

end Agreement

end Handler

end ArbNautilus.Base
