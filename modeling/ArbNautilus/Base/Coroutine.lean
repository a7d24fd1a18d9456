import ArbNautilus.Base.Handler
import Mathlib.Data.List.Nodup

namespace ArbNautilus.Base

/-- A task of an event loop. It has the state to itself until it awaits a
question, and goes on from whatever the state is once the answer is there. -/
inductive Coroutine (σ ε : Type) {Q : Type} (A : Q → Type) (α : Type) : Type
  | done (result : Except ε α)
  | act (f : σ → σ) (next : σ → Coroutine σ ε A α)
  | await (q : Q) (next : Except ε (A q) → Coroutine σ ε A α)

/-- A task that waits for an answer. -/
abbrev Suspended (σ ε : Type) {Q : Type} (A : Q → Type) :=
  (q : Q) × (Except ε (A q) → Coroutine σ ε A Unit)

namespace Coroutine

variable {σ ω ε : Type} {Q : Type} {A : Q → Type} {α β : Type}

/-- Runs `p`, then goes on from what it returned or raised. -/
def andThen (k : Except ε α → Coroutine σ ε A β) : Coroutine σ ε A α → Coroutine σ ε A β
  | .done result => k result
  | .act f next => .act f fun s => andThen k (next s)
  | .await q next => .await q fun reply => andThen k (next reply)

instance : Monad (Coroutine σ ε A) where
  pure a := .done (.ok a)
  bind p k := p.andThen fun
    | .ok a => k a
    | .error e => .done (.error e)

def raise (e : ε) : Coroutine σ ε A α := .done (.error e)

def tryCatch (p : Coroutine σ ε A α) (handle : ε → Coroutine σ ε A α) : Coroutine σ ε A α :=
  p.andThen fun
    | .ok a => .done (.ok a)
    | .error e => handle e

/-- `q` runs however `p` ended, and `p`'s outcome stands. -/
def tryFinally (p : Coroutine σ ε A α) (q : Handler σ ε Unit) : Coroutine σ ε A α :=
  p.andThen fun outcome => .act q.after fun _ => .done outcome

/-- A call that does not suspend. -/
def perform (m : Handler σ ε α) : Coroutine σ ε A α := .act m.after fun s => .done (m s).1

def ask (q : Q) : Coroutine σ ε A (A q) := .await q .done

/-- Runs up to the next suspension, or to the end. -/
def segment : Coroutine σ ε A Unit → σ → σ × Option (Suspended σ ε A)
  | .done _, s => (s, none)
  | .act f next, s => (next s).segment (f s)
  | .await q next, s => (s, some ⟨q, next⟩)

/-- Runs to the end on prepared answers, while no other task runs. -/
def replay [DecidableEq Q] :
    Coroutine σ ε A α → List ((q : Q) × Except ε (A q)) → σ → Option (Except ε α × σ)
  | .done result, _, s => some (result, s)
  | .act f next, answers, s => (next s).replay answers (f s)
  | .await _ _, [], _ => none
  | .await q next, ⟨asked, reply⟩ :: answers, s =>
    if same : asked = q then (next (same ▸ reply)).replay answers s else none

/-- The state a replay leaves. -/
def left [DecidableEq Q] (p : Coroutine σ ε A Unit) (answers : List ((q : Q) × Except ε (A q)))
    (s : σ) : σ :=
  (p.replay answers s).elim s Prod.snd

def returns [DecidableEq Q] (p : Coroutine σ ε A Unit) (answers : List ((q : Q) × Except ε (A q)))
    (s : σ) : Bool :=
  (p.replay answers s).any (·.1.isOk)

/-- Runs to the end against one that answers every question, while no other task runs. -/
def answeredBy (answer : (q : Q) → Except ε (A q)) : Coroutine σ ε A α → σ → Except ε α × σ
  | .done result, s => (result, s)
  | .act f next, s => (next s).answeredBy answer (f s)
  | .await q next, s => (next (answer q)).answeredBy answer s

section Answered

variable (answer : (q : Q) → Except ε (A q)) (s : σ)

theorem answeredBy_andThen (p : Coroutine σ ε A α) (k : Except ε α → Coroutine σ ε A β) :
    (p.andThen k).answeredBy answer s =
      (k (p.answeredBy answer s).1).answeredBy answer (p.answeredBy answer s).2 := by
  induction p generalizing s with
  | done result => rfl
  | act f next ih => exact ih s (f s)
  | await q next ih => exact ih (answer q) s

@[simp] theorem answeredBy_pure (a : α) :
    (pure a : Coroutine σ ε A α).answeredBy answer s = (.ok a, s) := rfl

@[simp] theorem answeredBy_raise (e : ε) :
    (raise e : Coroutine σ ε A α).answeredBy answer s = (.error e, s) := rfl

theorem answeredBy_bind (p : Coroutine σ ε A α) (k : α → Coroutine σ ε A β) {a : α} {t : σ}
    (returned : p.answeredBy answer s = (.ok a, t)) :
    (p >>= k).answeredBy answer s = (k a).answeredBy answer t := by
  refine (answeredBy_andThen answer s p _).trans ?_
  rw [returned]

theorem answeredBy_bind_error (p : Coroutine σ ε A α) (k : α → Coroutine σ ε A β) {e : ε} {t : σ}
    (raised : p.answeredBy answer s = (.error e, t)) :
    (p >>= k).answeredBy answer s = (.error e, t) := by
  refine (answeredBy_andThen answer s p _).trans ?_
  rw [raised]
  rfl

theorem answeredBy_ask (q : Q) :
    (ask q : Coroutine σ ε A (A q)).answeredBy answer s = (answer q, s) := rfl

theorem answeredBy_check (x : Except ε α) :
    (perform (Handler.check x) : Coroutine σ ε A α).answeredBy answer s = (x, s) := rfl

theorem answeredBy_tryCatch (p : Coroutine σ ε A α) (handle : ε → Coroutine σ ε A α) {a : α} {t : σ}
    (returned : p.answeredBy answer s = (.ok a, t)) :
    (p.tryCatch handle).answeredBy answer s = (.ok a, t) := by
  rw [tryCatch, answeredBy_andThen, returned]
  rfl

theorem answeredBy_tryCatch_error (p : Coroutine σ ε A α) (handle : ε → Coroutine σ ε A α) {e : ε}
    {t : σ} (raised : p.answeredBy answer s = (.error e, t)) :
    (p.tryCatch handle).answeredBy answer s = (handle e).answeredBy answer t := by
  rw [tryCatch, answeredBy_andThen, raised]

end Answered

end Coroutine

/-- What one task may expect of the others and owes them. The second component
of a state is outside the program: only the surroundings change it. -/
structure Discipline (σ ω ε : Type) {Q : Type} (A : Q → Type) where
  inv : σ × ω → Prop
  admits : (q : Q) → σ × ω → Except ε (A q) → Prop
  rely : σ × ω → σ × ω → Prop
  guarantee : σ → σ → Prop

namespace Coroutine

variable {σ ω ε : Type} {Q : Type} {A : Q → Type} {α β : Type}

/-- Whatever the others do, the task suspends in `inv` with its guarantee kept
since it last went on, and `post` holds where it ends. -/
def Safe (D : Discipline σ ω ε A) (post : Except ε α → σ → σ × ω → Prop) :
    Coroutine σ ε A α → σ → σ × ω → Prop
  | .done result, since, now => post result since now
  | .act f next, since, now => (next now.1).Safe D post since (f now.1, now.2)
  | .await q next, since, now => D.inv now ∧ D.guarantee since now.1 ∧
      ∀ later reply, D.rely now later → D.inv later → D.admits q later reply →
        (next reply).Safe D post later.1 later

/-- One task alone, with the others reduced to what it relies on. -/
def Ends (D : Discipline σ ω ε A) :
    Coroutine σ ε A α → σ × ω → Except ε α → σ × ω → Prop
  | .done result, now, outcome, last => outcome = result ∧ last = now
  | .act f next, now, outcome, last => (next now.1).Ends D (f now.1, now.2) outcome last
  | .await q next, now, outcome, last =>
      ∃ later reply, D.rely now later ∧ D.inv later ∧ D.admits q later reply ∧
        (next reply).Ends D later outcome last

/-- One postcondition for each way to end. -/
def either (returning : α → σ → σ × ω → Prop) (raising : ε → σ → σ × ω → Prop) :
    Except ε α → σ → σ × ω → Prop
  | .ok a => returning a
  | .error e => raising e

@[simp] theorem either_ok {returning : α → σ → σ × ω → Prop} {raising : ε → σ → σ × ω → Prop}
    (a : α) : either returning raising (.ok a) = returning a := rfl

@[simp] theorem either_error {returning : α → σ → σ × ω → Prop} {raising : ε → σ → σ × ω → Prop}
    (e : ε) : either returning raising (.error e) = raising e := rfl

theorem either_of {returning : α → σ → σ × ω → Prop} {raising : ε → σ → σ × ω → Prop}
    {result : Except ε α} {since : σ} {now : σ × ω}
    (good : ∀ a, result = .ok a → returning a since now)
    (bad : ∀ e, result = .error e → raising e since now) :
    either returning raising result since now := by
  cases result with
  | ok a => exact good a rfl
  | error e => exact bad e rfl

section Rules

variable {D : Discipline σ ω ε A} {since : σ} {now : σ × ω}

theorem safe_andThen {post : Except ε β → σ → σ × ω → Prop} (p : Coroutine σ ε A α)
    (k : Except ε α → Coroutine σ ε A β) :
    (p.andThen k).Safe D post since now ↔
      p.Safe D (fun result since now => (k result).Safe D post since now) since now := by
  induction p generalizing since now with
  | done result => exact Iff.rfl
  | act f next ih => exact ih now.1
  | await q next ih =>
    unfold andThen Safe
    constructor
    · rintro ⟨kept, owed, goes⟩
      exact ⟨kept, owed, fun later reply relied held admitted =>
        (ih reply).1 (goes later reply relied held admitted)⟩
    · rintro ⟨kept, owed, goes⟩
      exact ⟨kept, owed, fun later reply relied held admitted =>
        (ih reply).2 (goes later reply relied held admitted)⟩

theorem Safe.mono {post post' : Except ε α → σ → σ × ω → Prop} {p : Coroutine σ ε A α}
    (h : p.Safe D post since now)
    (weaker : ∀ result since now, post result since now → post' result since now) :
    p.Safe D post' since now := by
  induction p generalizing since now with
  | done result => exact weaker result since now h
  | act f next ih => exact ih now.1 h
  | await q next ih =>
    obtain ⟨kept, owed, goes⟩ := h
    exact ⟨kept, owed, fun later reply relied held admitted =>
      ih reply (goes later reply relied held admitted)⟩

variable {post : Except ε α → σ → σ × ω → Prop}

@[simp] theorem safe_pure (a : α) :
    (pure a : Coroutine σ ε A α).Safe D post since now ↔ post (.ok a) since now := Iff.rfl

@[simp] theorem safe_raise (e : ε) :
    (raise e : Coroutine σ ε A α).Safe D post since now ↔ post (.error e) since now := Iff.rfl

@[simp] theorem safe_perform (m : Handler σ ε α) :
    (perform m : Coroutine σ ε A α).Safe D post since now ↔
      post (m now.1).1 since ((m now.1).2, now.2) := Iff.rfl

@[simp] theorem safe_check (x : Except ε α) :
    (perform (Handler.check x) : Coroutine σ ε A α).Safe D post since now ↔ post x since now :=
      Iff.rfl

@[simp] theorem safe_look (f : σ → α) :
    (perform (Handler.look f) : Coroutine σ ε A α).Safe D post since now ↔
      post (.ok (f now.1)) since now := Iff.rfl

@[simp] theorem safe_change {post : Except ε Unit → σ → σ × ω → Prop} (f : σ → σ) :
    (perform (Handler.change f) : Coroutine σ ε A Unit).Safe D post since now ↔
      post (.ok ()) since (f now.1, now.2) := Iff.rfl

@[simp] theorem safe_ask {q : Q} {post : Except ε (A q) → σ → σ × ω → Prop} :
    (ask q : Coroutine σ ε A (A q)).Safe D post since now ↔
      D.inv now ∧ D.guarantee since now.1 ∧ ∀ later reply, D.rely now later → D.inv later →
        D.admits q later reply → post reply later.1 later := Iff.rfl

theorem safe_perform_of_raises {m : Handler σ ε α} {P : α → σ → Prop} {E : σ → Prop}
    {K : ε → Prop} (h : m.wp P E now.1) (only : m.Raises K)
    (returning : ∀ a s, P a s → post (.ok a) since (s, now.2))
    (raising : ∀ e s, K e → E s → post (.error e) since (s, now.2)) :
    (perform m : Coroutine σ ε A α).Safe D post since now := by
  rw [safe_perform]
  have kind := only now.1
  unfold Handler.wp at h
  split at h <;> rename_i run <;> rw [run] at kind ⊢
  · exact returning _ _ h
  · exact raising _ _ (kind _ rfl) h

theorem safe_perform_of_wp {m : Handler σ ε α} {P : α → σ → Prop} {E : σ → Prop}
    (h : m.wp P E now.1) (returning : ∀ a s, P a s → post (.ok a) since (s, now.2))
    (raising : ∀ e s, E s → post (.error e) since (s, now.2)) :
    (perform m : Coroutine σ ε A α).Safe D post since now :=
  safe_perform_of_raises (K := fun _ => True) h (fun _ _ _ => trivial) returning
    fun e s _ => raising e s

theorem safe_bind {post : Except ε β → σ → σ × ω → Prop} (p : Coroutine σ ε A α)
    (k : α → Coroutine σ ε A β) :
    (p >>= k).Safe D post since now ↔
      p.Safe D (either (fun a => (k a).Safe D post) fun e => post (.error e)) since now := by
  refine (safe_andThen p _).trans ⟨fun h => h.mono ?_, fun h => h.mono ?_⟩ <;>
  · rintro (e | a) since now held <;> exact held

theorem safe_ask_bind {q : Q} {post : Except ε β → σ → σ × ω → Prop} (k : A q → Coroutine σ ε A β)
    (suspends : D.inv now ∧ D.guarantee since now.1)
    (goes : ∀ later, D.rely now later → D.inv later →
      (∀ e, D.admits q later (.error e) → post (.error e) later.1 later) ∧
      ∀ a, D.admits q later (.ok a) → (k a).Safe D post later.1 later) :
    (ask q >>= k).Safe D post since now := by
  refine (safe_bind _ k).2 ⟨suspends.1, suspends.2, ?_⟩
  rintro later (e | a) relied held admitted
  · exact (goes later relied held).1 e admitted
  · exact (goes later relied held).2 a admitted

theorem safe_check_bind {post : Except ε β → σ → σ × ω → Prop} (x : Except ε α)
    (k : α → Coroutine σ ε A β) :
    (perform (Handler.check x) >>= k).Safe D post since now ↔
      (∀ e, x = .error e → post (.error e) since now) ∧
        ∀ a, x = .ok a → (k a).Safe D post since now := by
  rw [safe_bind, safe_check]
  cases x <;> simp

theorem safe_tryCatch (p : Coroutine σ ε A α) (handle : ε → Coroutine σ ε A α) :
    (p.tryCatch handle).Safe D post since now ↔
      p.Safe D (either (fun a => post (.ok a)) fun e => (handle e).Safe D post) since now := by
  refine (safe_andThen p _).trans ⟨fun h => h.mono ?_, fun h => h.mono ?_⟩ <;>
  · rintro (e | a) since now held <;> exact held

theorem safe_tryFinally (p : Coroutine σ ε A α) (q : Handler σ ε Unit) :
    (p.tryFinally q).Safe D post since now ↔
      p.Safe D (fun result since now => post result since (q.after now.1, now.2)) since now :=
  safe_andThen p _

theorem safe_ite (c : Prop) [Decidable c] (p q : Coroutine σ ε A α) :
    (if c then p else q).Safe D post since now ↔
      (c → p.Safe D post since now) ∧ (¬c → q.Safe D post since now) := by
  split <;> rename_i h <;> simp [h]

/-- Where a safe task ends, its postcondition holds. -/
theorem Safe.ends {p : Coroutine σ ε A α} {outcome : Except ε α} {last : σ × ω}
    (h : p.Safe D post since now) (ends : p.Ends D now outcome last) :
    ∃ since, post outcome since last := by
  induction p generalizing since now with
  | done result =>
    obtain ⟨rfl, rfl⟩ := ends
    exact ⟨since, h⟩
  | act f next ih => exact ih now.1 h ends
  | await q next ih =>
    obtain ⟨later, reply, relied, held, admitted, ends⟩ := ends
    exact ih reply (h.2.2 later reply relied held admitted) ends

/-- A replay is a run, where the surroundings may answer so and stand still. -/
theorem ends_of_replay [DecidableEq Q] (still : ∀ s, D.rely s s) (free : ∀ s, D.inv s)
    {p : Coroutine σ ε A α} {answers : List ((q : Q) × Except ε (A q))}
    (allowed : ∀ answer ∈ answers, ∀ s, D.admits answer.1 s answer.2)
    {outcome : Except ε α} {last : σ} (run : p.replay answers now.1 = some (outcome, last)) :
    p.Ends D now outcome (last, now.2) := by
  induction p generalizing answers now with
  | done result =>
    cases run
    exact ⟨rfl, rfl⟩
  | act f next ih => exact @ih now.1 (f now.1, now.2) answers allowed run
  | await q next ih =>
    cases answers with
    | nil => cases run
    | cons answer answers =>
      obtain ⟨asked, reply⟩ := answer
      simp only [replay, Option.dite_none_right_eq_some] at run
      obtain ⟨rfl, run⟩ := run
      exact ⟨now, reply, still now, free now, allowed _ List.mem_cons_self now,
        ih reply (fun other member => allowed other (List.mem_cons_of_mem _ member)) run⟩

theorem ends_of_returns [DecidableEq Q] (still : ∀ s, D.rely s s) (free : ∀ s, D.inv s)
    (any : ∀ q s reply, D.admits q s reply) {p : Coroutine σ ε A Unit}
    {answers : List ((q : Q) × Except ε (A q))} {s : σ} (w : ω)
    (returned : p.returns answers s = true) :
    p.Ends D (s, w) (.ok ()) (p.left answers s, w) := by
  unfold returns at returned
  unfold left
  cases run : p.replay answers s with
  | none =>
    rw [run] at returned
    cases returned
  | some result =>
    obtain ⟨e | _, last⟩ := result
    · rw [run] at returned
      cases returned
    · exact @ends_of_replay _ _ _ _ _ _ D (s, w) _ still free _ _ (fun _ _ s => any _ s _) _ _ run

/-- A safe task runs on to its end, or to a suspension it is safe to go on from. -/
theorem Safe.segment {post : Except ε Unit → σ → σ × ω → Prop} {p : Coroutine σ ε A Unit}
    (h : p.Safe D post since now) :
    ((p.segment now.1).2 = none ∧ ∃ result, post result since ((p.segment now.1).1, now.2)) ∨
    ∃ q next, (p.segment now.1).2 = some ⟨q, next⟩ ∧
      (await q next).Safe D post since ((p.segment now.1).1, now.2) := by
  induction p generalizing now with
  | done result => exact .inl ⟨rfl, result, h⟩
  | act f next ih => exact @ih now.1 (f now.1, now.2) h
  | await q next => exact .inr ⟨q, next, rfl, h⟩

end Rules

end Coroutine

/-- Tasks that run on one loop, one at a time between their suspensions. -/
structure Loop (σ ω ε : Type) {Q : Type} (A : Q → Type) where
  state : σ × ω
  spawned : ℕ
  tasks : List (ℕ × Suspended σ ε A)

/-- One invariant, what each task owes the others, what happens outside, and
which programs may be started as which task. -/
structure Team (σ ω ε : Type) {Q : Type} (A : Q → Type) where
  inv : σ × ω → Prop
  admits : (q : Q) → σ × ω → Except ε (A q) → Prop
  rely : ℕ → σ × ω → σ × ω → Prop
  guarantee : ℕ → σ → σ → Prop
  outside : σ × ω → σ × ω → Prop
  starts : ℕ → Coroutine σ ε A Unit → Prop

namespace Team

variable {σ ω ε : Type} {Q : Type} {A : Q → Type}

def discipline (team : Team σ ω ε A) (task : ℕ) : Discipline σ ω ε A :=
  ⟨team.inv, team.admits, team.rely task, team.guarantee task⟩

/-- The loop after `task` ran a segment among `others`. -/
def ran (loop : Loop σ ω ε A) (task : ℕ) (others : List (ℕ × Suspended σ ε A))
    (result : σ × Option (Suspended σ ε A)) : Loop σ ω ε A :=
  ⟨(result.1, loop.state.2), loop.spawned, others ++ result.2.toList.map (task, ·)⟩

inductive Step (team : Team σ ω ε A) : Loop σ ω ε A → Loop σ ω ε A → Prop
  | outside {loop : Loop σ ω ε A} {state : σ × ω} (changed : team.outside loop.state state) :
      Step team loop { loop with state }
  | start {loop : Loop σ ω ε A} {p : Coroutine σ ε A Unit} (started : team.starts loop.spawned p) :
      Step team loop { ran loop loop.spawned loop.tasks (p.segment loop.state.1) with
        spawned := loop.spawned + 1 }
  | resume {loop : Loop σ ω ε A} {task : ℕ} {q : Q} {next : Except ε (A q) → Coroutine σ ε A Unit}
      {before after : List (ℕ × Suspended σ ε A)} {reply : Except ε (A q)}
      (waiting : loop.tasks = before ++ (task, ⟨q, next⟩) :: after)
      (admitted : team.admits q loop.state reply) :
      Step team loop (ran loop task (before ++ after) ((next reply).segment loop.state.1))

inductive Reachable (team : Team σ ω ε A) (state : σ × ω) : Loop σ ω ε A → Prop
  | start : Reachable team state ⟨state, 0, []⟩
  | next {loop loop' : Loop σ ω ε A} :
      Reachable team state loop → team.Step loop loop' → Reachable team state loop'

/-- One task goes on through prepared answers, while nothing else happens. -/
def follow [DecidableEq Q] (admits : (q : Q) → σ → Except ε (A q) → Bool) :
    List ((q : Q) × Except ε (A q)) → σ × Option (Suspended σ ε A) →
      Option (σ × Option (Suspended σ ε A))
  | [], result => some result
  | _ :: _, (_, none) => none
  | ⟨asked, reply⟩ :: answers, (s, some ⟨q, next⟩) =>
    if same : asked = q then
      if admits q s (same ▸ reply) then follow admits answers ((next (same ▸ reply)).segment s)
      else none
    else none

theorem Reachable.follow [DecidableEq Q] {team : Team σ ω ε A} {state : σ × ω} {w : ω}
    {spawned task : ℕ} {admits : (q : Q) → σ → Except ε (A q) → Bool}
    (admitted : ∀ q s reply, admits q s reply = true → team.admits q (s, w) reply)
    {answers : List ((q : Q) × Except ε (A q))} {result last : σ × Option (Suspended σ ε A)}
    (h : team.Reachable state ⟨(result.1, w), spawned, result.2.toList.map (task, ·)⟩)
    (run : Team.follow admits answers result = some last) :
    team.Reachable state ⟨(last.1, w), spawned, last.2.toList.map (task, ·)⟩ := by
  induction answers generalizing result with
  | nil =>
    cases run
    exact h
  | cons answer answers ih =>
    obtain ⟨s, _ | ⟨q, next⟩⟩ := result
    · cases run
    · obtain ⟨asked, reply⟩ := answer
      simp only [Team.follow, Option.dite_none_right_eq_some, Option.ite_none_right_eq_some] at run
      obtain ⟨rfl, allowed, run⟩ := run
      have step := @Step.resume _ _ _ _ _ team ⟨(s, w), spawned, [(task, ⟨asked, next⟩)]⟩ task asked
        next [] [] reply rfl (admitted _ _ _ allowed)
      exact ih (.next h step) run

/-- What each task owes is what the others rely on. -/
structure Sound (team : Team σ ω ε A) : Prop where
  refl : ∀ task s, team.rely task s s
  trans : ∀ {task s t u}, team.rely task s t → team.rely task t u → team.rely task s u
  others : ∀ {task other s t} w, other ≠ task → team.guarantee task s t →
    team.rely other (s, w) (t, w)
  outside_inv : ∀ {s t}, team.outside s t → team.inv s → team.inv t
  outside_rely : ∀ {s t} task, team.outside s t → team.rely task s t
  started : ∀ {task p now}, team.starts task p → team.inv now →
    p.Safe (team.discipline task)
      (fun _ since now => team.inv now ∧ team.guarantee task since now.1)
      now.1 now

/-- The suspended task goes on safely, whatever the others do first. -/
def Resumes (team : Team σ ω ε A) (state : σ × ω) (task : ℕ × Suspended σ ε A) : Prop :=
  ∀ later reply, team.rely task.1 state later → team.inv later →
    team.admits task.2.1 later reply → (task.2.2 reply).Safe (team.discipline task.1)
      (fun _ since now => team.inv now ∧ team.guarantee task.1 since now.1) later.1 later

structure Running (team : Team σ ω ε A) (loop : Loop σ ω ε A) : Prop where
  inv : team.inv loop.state
  fresh : ∀ task ∈ loop.tasks, task.1 < loop.spawned
  apart : (loop.tasks.map Prod.fst).Nodup
  resumes : ∀ task ∈ loop.tasks, team.Resumes loop.state task

theorem Resumes.later {team : Team σ ω ε A} (sound : team.Sound) {state state' : σ × ω}
    {task : ℕ × Suspended σ ε A} (h : team.Resumes state task)
    (relied : team.rely task.1 state state') : team.Resumes state' task :=
  fun later reply onwards => h later reply (sound.trans relied onwards)

/-- One segment of a task that runs beside `others`. -/
theorem ran_running {team : Team σ ω ε A} (sound : team.Sound) {loop : Loop σ ω ε A} {task : ℕ}
    {others : List (ℕ × Suspended σ ε A)} {p : Coroutine σ ε A Unit} (spawned : ℕ)
    (safe : p.Safe (team.discipline task)
      (fun _ since now => team.inv now ∧ team.guarantee task since now.1) loop.state.1 loop.state)
    (below : task < spawned) (fresh : ∀ other ∈ others, other.1 < spawned)
    (apart : (others.map Prod.fst).Nodup) (own : task ∉ others.map Prod.fst)
    (resumes : ∀ other ∈ others, team.Resumes loop.state other) :
    team.Running { ran loop task others (p.segment loop.state.1) with spawned } := by
  have away : ∀ other ∈ others, other.1 ≠ task :=
    fun other member same => own (same ▸ List.mem_map_of_mem member)
  rcases safe.segment with ⟨ended, result, inv, owed⟩ | ⟨q, next, waits, inv, owed, goes⟩
  · refine ⟨inv, ?_, ?_, ?_⟩ <;> simp only [ran, ended, Option.toList_none, List.map_nil,
      List.append_nil]
    · exact fresh
    · exact apart
    · intro other member
      exact (resumes other member).later sound (sound.others _ (away other member) owed)
  · refine ⟨inv, ?_, ?_, ?_⟩ <;> simp only [ran, waits, Option.toList_some, List.map_cons,
      List.map_nil]
    · intro other member
      rcases List.mem_append.1 member with old | new
      · exact fresh other old
      · rw [List.mem_singleton.1 new]
        exact below
    · rw [List.map_append, List.nodup_append]
      refine ⟨apart, List.nodup_singleton _, ?_⟩
      rintro a member b new rfl
      rw [List.map_singleton, List.mem_singleton] at new
      rw [new] at member
      exact own member
    · intro other member
      rcases List.mem_append.1 member with old | new
      · exact (resumes other old).later sound (sound.others _ (away other old) owed)
      · obtain rfl := List.mem_singleton.1 new
        exact goes

theorem Step.running {team : Team σ ω ε A} (sound : team.Sound) {loop loop' : Loop σ ω ε A}
    (step : team.Step loop loop') (h : team.Running loop) : team.Running loop' := by
  cases step with
  | outside changed =>
    exact ⟨sound.outside_inv changed h.inv, h.fresh, h.apart, fun task member =>
      (h.resumes task member).later sound (sound.outside_rely task.1 changed)⟩
  | start started =>
    refine ran_running sound _ (sound.started started h.inv) (Nat.lt_succ_self _)
      (fun other member => Nat.lt_succ_of_lt (h.fresh other member)) h.apart ?_ h.resumes
    intro member
    obtain ⟨other, member, same⟩ := List.mem_map.1 member
    exact absurd (h.fresh other member) (by omega)
  | @resume task q next before after reply waiting admitted =>
    have members : ∀ other ∈ before ++ after, other ∈ loop.tasks := by
      intro other member
      rw [waiting]
      rcases List.mem_append.1 member with old | new
      · exact List.mem_append_left _ old
      · exact List.mem_append_right _ (List.mem_cons_of_mem _ new)
    have self : (task, (⟨q, next⟩ : Suspended σ ε A)) ∈ loop.tasks := by simp [waiting]
    have apart := h.apart
    rw [waiting, List.map_append, List.map_cons, List.nodup_middle, List.nodup_cons] at apart
    refine ran_running sound loop.spawned
      (h.resumes _ self loop.state reply (sound.refl _ _) h.inv admitted) (h.fresh _ self)
      (fun other member => h.fresh other (members other member)) ?_ ?_
      (fun other member => h.resumes other (members other member))
    · rw [List.map_append]
      exact apart.2
    · rw [List.map_append]
      exact apart.1

theorem Reachable.running {team : Team σ ω ε A} (sound : team.Sound) {state : σ × ω}
    (inv : team.inv state) {loop : Loop σ ω ε A} (h : team.Reachable state loop) :
    team.Running loop := by
  induction h with
  | start => exact ⟨inv, by simp, List.nodup_nil, by simp⟩
  | next _ step ih => exact step.running sound ih

/-- Whatever the interleaving, the invariant holds between segments. -/
theorem Reachable.inv {team : Team σ ω ε A} (sound : team.Sound) {state : σ × ω}
    (inv : team.inv state) {loop : Loop σ ω ε A} (h : team.Reachable state loop) :
    team.inv loop.state :=
  (h.running sound inv).inv

end Team

end ArbNautilus.Base
