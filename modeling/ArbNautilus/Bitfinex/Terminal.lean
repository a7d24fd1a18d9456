import ArbNautilus.Base.Along
import ArbNautilus.Bitfinex.Frames
import Mathlib.Algebra.BigOperators.Group.List.Basic
import Mathlib.Tactic.Linarith

namespace ArbNautilus.Bitfinex

open Base Base.Handler

section Owned

/-- The native cache counts no fill that this client did not generate. -/
def NativeFills.Own (native : NativeFills) (live : LiveOrder) : Prop :=
  native.counts live → native.quantities.sum ≤ live.filledQty

instance (native : NativeFills) (live : LiveOrder) : Decidable (native.Own live) :=
  inferInstanceAs (Decidable (_ → _))

/-- A frame, a command and a report count nothing themselves. -/
def Input.Own (live : LiveOrder) : Input → Prop
  | .native fills => fills.Own live
  | .confirm .. => ∀ quantity ∈ confirmedQuantity live, quantity = live.filledQty
  | _ => True

/-- Every fill that the run counts was generated by this client. -/
abbrev OwnFills (terms : Terms) : Client → List Input → Prop :=
  Along (fun c input => (handle terms input).after c) fun c input => input.Own c.live

end Owned

inductive Kind where
  | accepted
  | rejected
  | filled
  | canceled
  | other
deriving DecidableEq, Repr

def Generated.kind : Generated → Kind
  | .accepted .. => .accepted
  | .rejected .. => .rejected
  | .filled .. => .filled
  | .canceled .. => .canceled
  | .updated .. | .modifyRejected .. | .cancelRejected .. => .other

/-- The events after which an order makes no more progress. -/
def Kind.Final (kind : Kind) : Prop := kind = .rejected ∨ kind = .canceled

def Kind.Progress (kind : Kind) : Prop := kind = .accepted ∨ kind = .filled

def kinds (generated : List Generated) : List Kind := generated.map Generated.kind

def Generated.fillQuantity : Generated → ℚ
  | .filled _ quantity .. => quantity
  | _ => 0

def filledTotal (generated : List Generated) : ℚ := (generated.map Generated.fillQuantity).sum

@[simp] theorem kinds_append (events : List Generated) (event : Generated) :
    kinds (events ++ [event]) = kinds events ++ [event.kind] := by
  simp [kinds]

@[simp] theorem filledTotal_append (events : List Generated) (event : Generated) :
    filledTotal (events ++ [event]) = filledTotal events + event.fillQuantity := by
  simp [filledTotal]

/-- The facts about one order's events that hold between any two inputs. `prior` is what the
order had filled before this client took it over. -/
structure Ordered (terms : Terms) (prior : ℚ) (live : LiveOrder)
    (generated : List Generated) : Prop where
  total : prior + filledTotal generated = live.filledQty
  bounded : live.filledQty ≤ terms.quantity
  unaccepted : live.accepted = false → ∀ kind ∈ kinds generated, ¬kind.Progress
  acceptedOnce : (kinds generated).count .accepted ≤ 1
  rejected : Kind.rejected ∈ kinds generated → live.rejectionKey ≠ none ∧ live.accepted = false
  rejectedOnce : (kinds generated).count .rejected ≤ 1
  canceled : Kind.canceled ∈ kinds generated → live.terminalEmitted = true ∧
    ∃ state, live.terminal = some state ∧ live.filledQty = terminalFilled state ∧
      terminalFilled state < |state.originalQty|
  canceledOnce : (kinds generated).count .canceled ≤ 1
  settled : (kinds generated).Pairwise fun earlier later => earlier.Final → ¬later.Progress
  refused : live.rejectionKey ≠ none → live.accepted = false ∧ live.terminalEmitted = true
  closed : live.terminal ≠ none → live.rejectionKey = none → live.accepted = true
  quiet : live.terminal = none → live.rejectionKey = none → live.retired = false →
    live.terminalEmitted = false
  keyed : ∀ text, live.rejectionKey = some (.status text) → live.terminal ≠ none

/-- No final event so far. -/
def Unsettled (generated : List Generated) : Prop := ∀ kind ∈ kinds generated, ¬kind.Final

section Steps

variable {terms : Terms} {prior : ℚ} {live next : LiveOrder} {generated : List Generated}

/-- An assignment to the other fields keeps the facts. -/
theorem Ordered.assign (h : Ordered terms prior live generated)
    (filled : next.filledQty = live.filledQty) (accepted : next.accepted = live.accepted)
    (rejection : next.rejectionKey = live.rejectionKey) (terminal : next.terminal = live.terminal)
    (emitted : next.terminalEmitted = live.terminalEmitted)
    (retired : next.retired = live.retired) :
    Ordered terms prior next generated := by
  obtain ⟨total, bounded, unaccepted, once, rejected, rejectedOnce, canceled, canceledOnce,
    settled, refused, closed, quiet, keyed⟩ := h
  rw [← filled] at total bounded canceled
  rw [← accepted] at unaccepted rejected refused closed
  rw [← rejection] at rejected refused closed quiet keyed
  rw [← terminal, ← emitted] at canceled quiet
  rw [← retired] at quiet
  rw [← emitted] at refused
  rw [← terminal] at closed keyed
  exact ⟨total, bounded, unaccepted, once, rejected, rejectedOnce, canceled, canceledOnce,
    settled, refused, closed, quiet, keyed⟩

/-- An event that is neither progress nor final. -/
theorem Ordered.neutral (h : Ordered terms prior live generated) {event : Generated}
    (other : event.kind = .other) (noFill : event.fillQuantity = 0) :
    Ordered terms prior live (generated ++ [event]) := by
  constructor
  · simpa [noFill] using h.total
  · exact h.bounded
  · intro fresh kind member
    simp only [kinds_append, List.mem_append, List.mem_singleton, other] at member
    rcases member with old | rfl
    · exact h.unaccepted fresh kind old
    · simp [Kind.Progress]
  · simpa [other] using h.acceptedOnce
  · intro member
    exact h.rejected (by simpa [other] using member)
  · simpa [other] using h.rejectedOnce
  · intro member
    exact h.canceled (by simpa [other] using member)
  · simpa [other] using h.canceledOnce
  · rw [kinds_append, List.pairwise_append]
    refine ⟨h.settled, List.pairwise_singleton _ _, ?_⟩
    intro kind _ last member
    simp only [List.mem_singleton] at member
    simp [member, other, Kind.Progress]
  · exact h.refused
  · exact h.closed
  · exact h.quiet
  · exact h.keyed

/-- Appending progress is what an order without a final event may do. -/
theorem settled_progress {events : List Kind} {kind : Kind}
    (settled : events.Pairwise fun earlier later => earlier.Final → ¬later.Progress)
    (unsettled : ∀ earlier ∈ events, ¬earlier.Final) :
    (events ++ [kind]).Pairwise fun earlier later => earlier.Final → ¬later.Progress := by
  rw [List.pairwise_append]
  refine ⟨settled, List.pairwise_singleton _ _, ?_⟩
  intro earlier member later _ final
  exact absurd final (unsettled earlier member)

theorem settled_final {events : List Kind} {kind : Kind}
    (settled : events.Pairwise fun earlier later => earlier.Final → ¬later.Progress)
    (final : ¬kind.Progress) :
    (events ++ [kind]).Pairwise fun earlier later => earlier.Final → ¬later.Progress := by
  rw [List.pairwise_append]
  refine ⟨settled, List.pairwise_singleton _ _, ?_⟩
  intro earlier _ later member _
  simp only [List.mem_singleton] at member
  exact member ▸ final

theorem Ordered.unsettled (h : Ordered terms prior live generated)
    (unrejected : live.rejectionKey = none)
    (uncanceled : Kind.canceled ∉ kinds generated) : Unsettled generated := by
  rintro kind member (rejected | canceled)
  · exact (h.rejected (rejected ▸ member)).1 unrejected
  · exact uncanceled (canceled ▸ member)

theorem Ordered.uncanceled_of_working (h : Ordered terms prior live generated)
    (working : live.terminal = none) : Kind.canceled ∉ kinds generated := by
  intro member
  obtain ⟨-, state, terminal, -⟩ := h.canceled member
  rw [working] at terminal
  cases terminal

/-- After a cancel every further fill exceeds the terminal quantity. -/
theorem Ordered.uncanceled_of_room (h : Ordered terms prior live generated) {quantity : ℚ}
    (positive : 0 < quantity)
    (room : ∀ state ∈ live.terminal, live.filledQty + quantity ≤ terminalFilled state) :
    Kind.canceled ∉ kinds generated := by
  intro member
  obtain ⟨-, state, terminal, reached, -⟩ := h.canceled member
  have := room state terminal
  linarith

theorem Ordered.accept (h : Ordered terms prior live generated)
    (unrejected : live.rejectionKey = none) (unsettled : Unsettled generated)
    (fresh : live.accepted = false) (venueOrderId tsEvent : ℕ) :
    Ordered terms prior { live with accepted := true }
      (generated ++ [.accepted venueOrderId tsEvent]) := by
  have none : Kind.accepted ∉ kinds generated := fun member =>
    h.unaccepted fresh _ member (.inl rfl)
  constructor
  · simpa [Generated.fillQuantity] using h.total
  · exact h.bounded
  · nofun
  · simp [Generated.kind, List.count_eq_zero_of_not_mem none]
  · intro member
    have old : Kind.rejected ∈ kinds generated := by simpa [Generated.kind] using member
    exact absurd unrejected (h.rejected old).1
  · simpa [Generated.kind] using h.rejectedOnce
  · intro member
    exact h.canceled (by simpa [Generated.kind] using member)
  · simpa [Generated.kind] using h.canceledOnce
  · rw [kinds_append]
    exact settled_progress h.settled unsettled
  · intro refused
    exact absurd unrejected refused
  · intro _ _
    rfl
  · exact h.quiet
  · exact h.keyed

theorem Ordered.fill (h : Ordered terms prior live generated)
    (unrejected : live.rejectionKey = none) (unsettled : Unsettled generated)
    (accepted : live.accepted = true) {quantity : ℚ}
    (room : live.filledQty + quantity ≤ terms.quantity) (tradeId : ℕ) (price : ℚ) (maker : Bool)
    (tsEvent : ℕ) :
    Ordered terms prior { live with filledQty := live.filledQty + quantity }
      (generated ++ [.filled tradeId quantity price maker tsEvent]) := by
  constructor
  · have total := h.total
    simp only [filledTotal_append, Generated.fillQuantity]
    linarith
  · exact room
  · intro fresh
    exact absurd (accepted.symm.trans fresh) (by simp)
  · simpa [Generated.kind] using h.acceptedOnce
  · intro member
    exact h.rejected (by simpa [Generated.kind] using member)
  · simpa [Generated.kind] using h.rejectedOnce
  · intro member
    have old : Kind.canceled ∈ kinds generated := by simpa [Generated.kind] using member
    exact absurd (.inr rfl) (unsettled _ old)
  · simpa [Generated.kind] using h.canceledOnce
  · rw [kinds_append]
    exact settled_progress h.settled unsettled
  · intro refused
    exact absurd unrejected refused
  · exact h.closed
  · exact h.quiet
  · exact h.keyed

theorem Ordered.reject (h : Ordered terms prior live generated)
    (unrejected : live.rejectionKey = none) (fresh : live.accepted = false)
    (filled : next.filledQty = live.filledQty) (accepted : next.accepted = live.accepted)
    (rejection : next.rejectionKey ≠ none) (emitted : next.terminalEmitted = true)
    (keyed : ∀ text, next.rejectionKey = some (.status text) → next.terminal ≠ none)
    (uncanceled : Kind.canceled ∉ kinds generated) (reason : String) (tsEvent : ℕ)
    (duePostOnly : Bool) :
    Ordered terms prior next (generated ++ [.rejected reason tsEvent duePostOnly]) := by
  have none : Kind.rejected ∉ kinds generated := fun member =>
    (h.rejected member).1 unrejected
  have unaccepted : next.accepted = false := accepted.trans fresh
  constructor
  · simpa [Generated.fillQuantity, filled] using h.total
  · exact filled ▸ h.bounded
  · intro _ kind member
    simp only [kinds_append, List.mem_append, List.mem_singleton] at member
    rcases member with old | rfl
    · exact h.unaccepted fresh kind old
    · simp [Generated.kind, Kind.Progress]
  · simpa [Generated.kind] using h.acceptedOnce
  · intro _
    exact ⟨rejection, unaccepted⟩
  · simp [Generated.kind, List.count_eq_zero_of_not_mem none]
  · intro member
    exact absurd (by simpa [Generated.kind] using member) uncanceled
  · simpa [Generated.kind] using h.canceledOnce
  · rw [kinds_append]
    exact settled_final h.settled (by simp [Generated.kind, Kind.Progress])
  · intro _
    exact ⟨unaccepted, emitted⟩
  · intro _ unrejected
    exact absurd unrejected rejection
  · intro _ unrejected
    exact absurd unrejected rejection
  · exact keyed

theorem Ordered.cancel (h : Ordered terms prior live generated) {state : OrderState}
    (terminal : live.terminal = some state) (reached : live.filledQty = terminalFilled state)
    (short : terminalFilled state < |state.originalQty|) (pending : live.terminalEmitted = false)
    (tsEvent : ℕ) :
    Ordered terms prior { live with terminalEmitted := true, pendingModifyPrice := none }
      (generated ++ [.canceled state.venueOrderId tsEvent]) := by
  have none : Kind.canceled ∉ kinds generated := fun member => by
    have emitted := (h.canceled member).1
    rw [pending] at emitted
    cases emitted
  constructor
  · simpa [Generated.fillQuantity] using h.total
  · exact h.bounded
  · intro fresh kind member
    simp only [kinds_append, List.mem_append, List.mem_singleton] at member
    rcases member with old | rfl
    · exact h.unaccepted fresh kind old
    · simp [Generated.kind, Kind.Progress]
  · simpa [Generated.kind] using h.acceptedOnce
  · intro member
    exact h.rejected (by simpa [Generated.kind] using member)
  · simpa [Generated.kind] using h.rejectedOnce
  · intro _
    exact ⟨rfl, state, terminal, reached, short⟩
  · simp [Generated.kind, List.count_eq_zero_of_not_mem none]
  · rw [kinds_append]
    exact settled_final h.settled (by simp [Generated.kind, Kind.Progress])
  · intro refused
    have emitted := (h.refused refused).2
    rw [pending] at emitted
    cases emitted
  · exact h.closed
  · intro working
    exact absurd (terminal.symm.trans working) (by simp)
  · exact h.keyed

/-- A terminal frame of an accepted order. -/
theorem Ordered.close (h : Ordered terms prior live generated) (accepted : live.accepted = true)
    (working : live.terminal = none) (state : OrderState) :
    Ordered terms prior { live with terminal := some state } generated := by
  obtain ⟨total, bounded, unaccepted, once, rejected, rejectedOnce, canceled, canceledOnce,
    settled, refused, -, -, -⟩ := h
  refine ⟨total, bounded, unaccepted, once, rejected, rejectedOnce, ?_, canceledOnce, settled,
    refused, fun _ _ => accepted, nofun, fun _ _ => nofun⟩
  intro member
  obtain ⟨-, earlier, terminal, -⟩ := canceled member
  rw [working] at terminal
  cases terminal

theorem Ordered.emit (h : Ordered terms prior live generated) (terminal : live.terminal ≠ none) :
    Ordered terms prior { live with terminalEmitted := true, pendingModifyPrice := none }
      generated := by
  obtain ⟨total, bounded, unaccepted, once, rejected, rejectedOnce, canceled, canceledOnce,
    settled, refused, closed, -, keyed⟩ := h
  exact ⟨total, bounded, unaccepted, once, rejected, rejectedOnce,
    fun member => ⟨rfl, (canceled member).2⟩, canceledOnce, settled,
    fun refusal => ⟨(refused refusal).1, rfl⟩, closed, fun working => absurd working terminal,
    keyed⟩

/-- A report accepts an order without an event. -/
theorem Ordered.bind (h : Ordered terms prior live generated)
    (unrejected : live.rejectionKey = none) :
    Ordered terms prior { live with accepted := true } generated := by
  obtain ⟨total, bounded, -, once, rejected, rejectedOnce, canceled, canceledOnce, settled, -, -,
    quiet, keyed⟩ := h
  refine ⟨total, bounded, nofun, once, ?_, rejectedOnce, canceled, canceledOnce, settled, ?_,
    fun _ _ => rfl, quiet, keyed⟩
  · intro member
    exact absurd unrejected (rejected member).1
  · intro refused
    exact absurd unrejected refused

/-- The client lets go of the order, which has no further event. -/
theorem Ordered.retire (h : Ordered terms prior live generated)
    (filled : next.filledQty = live.filledQty) (accepted : next.accepted = live.accepted)
    (rejection : next.rejectionKey = live.rejectionKey) (terminal : next.terminal = live.terminal)
    (emitted : next.terminalEmitted = true) (retired : next.retired = true) :
    Ordered terms prior next generated := by
  obtain ⟨total, bounded, unaccepted, once, rejected, rejectedOnce, canceled, canceledOnce,
    settled, refused, closed, -, keyed⟩ := h
  rw [← filled] at total bounded canceled
  rw [← accepted] at unaccepted rejected refused closed
  rw [← rejection] at rejected refused closed keyed
  rw [← terminal] at canceled closed keyed
  refine ⟨total, bounded, unaccepted, once, rejected, rejectedOnce,
    fun member => ⟨emitted, (canceled member).2⟩, canceledOnce, settled,
    fun refusal => ⟨(refused refusal).1, emitted⟩, closed, fun _ _ held => ?_, keyed⟩
  rw [retired] at held
  cases held

/-- The order is open to progress. -/
structure Working (terms : Terms) (prior : ℚ) (c : Client) : Prop where
  ordered : Ordered terms prior c.live c.generated
  unrejected : c.live.rejectionKey = none
  unsettled : Unsettled c.generated

theorem Unsettled.append {event : Generated} (h : Unsettled generated)
    (open' : ¬event.kind.Final) : Unsettled (generated ++ [event]) := by
  intro kind member
  simp only [kinds_append, List.mem_append, List.mem_singleton] at member
  rcases member with old | rfl
  · exact h kind old
  · exact open'

end Steps

section Calls

variable {terms : Terms} {prior : ℚ} {c : Client}

/-- What a call leaves, whether or not it raises. -/
def Keeps (terms : Terms) (prior : ℚ) (c : Client) : Prop :=
  Ordered terms prior c.live c.generated

/-- What an acceptance or a modify leaves alone. -/
structure Carries (c t : Client) : Prop where
  filled : t.live.filledQty = c.live.filledQty
  terminal : t.live.terminal = c.live.terminal
  accepted : c.live.accepted = true → t.live.accepted = true
  retired : t.live.retired = c.live.retired

theorem Working.accept (h : Working terms prior c) (venueOrderId tsEvent : ℕ) :
    wp (accept venueOrderId tsEvent)
      (fun _ t => Working terms prior t ∧ Carries c t ∧ t.live.accepted = true)
      (Keeps terms prior) c := by
  obtain ⟨ordered, unrejected, unsettled⟩ := h
  simp only [Bitfinex.accept, wp_bind, wp_look, wp_raiseWhen, wp_change, wp_ite, wp_pure]
  refine ⟨fun _ => ordered, fun _ => ⟨fun accepted => ?_, fun fresh => ?_⟩⟩
  · exact ⟨⟨ordered.assign rfl rfl rfl rfl rfl rfl, unrejected, unsettled⟩,
      ⟨rfl, rfl, fun accepted => accepted, rfl⟩, accepted⟩
  · have fresh : c.live.accepted = false := by simpa using fresh
    have stepped := ordered.accept unrejected unsettled fresh venueOrderId tsEvent
    refine ⟨⟨stepped.assign rfl rfl rfl rfl rfl rfl, unrejected, ?_⟩, ⟨rfl, rfl, fun _ => rfl, rfl⟩,
      rfl⟩
    exact unsettled.append (by simp [Generated.kind, Kind.Final])

theorem Working.ackPendingPrice (h : Working terms prior c) (price : ℚ) (tsEvent : ℕ) :
    wp (ackPendingPrice price tsEvent) (fun _ t => Working terms prior t ∧ Carries c t)
      (Keeps terms prior) c := by
  obtain ⟨ordered, unrejected, unsettled⟩ := h
  simp only [Bitfinex.ackPendingPrice, wp_bind, wp_look, wp_raiseWhen, wp_change, wp_ite, wp_pure]
  refine ⟨fun _ => ⟨⟨ordered, unrejected, unsettled⟩, ⟨rfl, rfl, id, rfl⟩⟩,
    fun _ => ⟨fun _ => ordered, fun _ => ⟨⟨?_, unrejected, ?_⟩, ⟨rfl, rfl, id, rfl⟩⟩⟩⟩
  · exact (ordered.neutral rfl rfl).assign rfl rfl rfl rfl rfl rfl
  · exact unsettled.append (by simp [Generated.kind, Kind.Final])

theorem Keeps.finishTerminalIfReady (h : Keeps terms prior c)
    (unrejected : c.live.rejectionKey = none) :
    wp (finishTerminalIfReady terms)
      (fun _ t => Keeps terms prior t ∧ t.live.rejectionKey = none) (Keeps terms prior) c := by
  simp only [Bitfinex.finishTerminalIfReady, wp_bind, wp_look]
  split
  · exact ⟨h, unrejected⟩
  · rename_i state terminal
    simp only [generateCanceled, wp_bind, wp_raiseWhen, wp_ite, wp_pure, wp_check, wp_change]
    refine ⟨fun _ => h, fun within => ⟨fun _ => ⟨h, unrejected⟩, fun ready => ⟨fun _ _ => h,
      fun _ _ => ⟨fun short => ⟨?_, unrejected⟩, fun _ => ⟨?_, unrejected⟩⟩⟩⟩⟩
    · obtain ⟨pending, caught⟩ := not_or.1 ready
      have reached : c.live.filledQty = terminalFilled state :=
        le_antisymm (not_lt.1 within) (not_lt.1 caught)
      exact Ordered.cancel h terminal reached short.2 (by simpa using pending) _
    · exact Ordered.emit h (by simp [terminal])

theorem checkFill_eq_ok {live : LiveOrder} {trade : TradeExecution} :
    checkFill terms live trade = .ok () ↔
      (terms.isReduceOnly = true → live.venueFlagsVerified = true) ∧
      live.filledQty + |trade.executionQty| ≤ terms.quantity ∧
      (∀ state ∈ live.terminal, live.filledQty + |trade.executionQty| ≤ terminalFilled state) ∧
      terms.exactQty |trade.executionQty| = true ∧
      terms.exactPrice trade.executionPrice = true := by
  simp [checkFill]

/-- A fill that passes its checks finds the order without a final event. -/
theorem Keeps.working (h : Keeps terms prior c)
    (unrejected : c.live.rejectionKey = none) {trade : TradeExecution}
    (positive : 0 < |trade.executionQty|) (checked : checkFill terms c.live trade = .ok ()) :
    Working terms prior c :=
  ⟨h, unrejected, Ordered.unsettled h unrejected
    (Ordered.uncanceled_of_room h positive (checkFill_eq_ok.1 checked).2.2.1)⟩

theorem Keeps.applyTradeFill (h : Keeps terms prior c)
    (unrejected : c.live.rejectionKey = none) {trade : TradeExecution}
    (positive : 0 < |trade.executionQty|) :
    wp (applyTradeFill terms trade)
      (fun _ t => Keeps terms prior t ∧ t.live.rejectionKey = none) (Keeps terms prior) c := by
  simp only [Bitfinex.applyTradeFill, wp_bind, wp_look, wp_check]
  refine ⟨fun _ _ => h, fun _ checked => ?_⟩
  have room := (checkFill_eq_ok.1 checked).2.1
  refine wp_mono ((h.working unrejected positive checked).accept _ _) ?_ fun _ kept => kept
  rintro _ bound ⟨working, carried, accepted⟩
  refine wp_mono (working.ackPendingPrice _ _) ?_ fun _ kept => kept
  rintro _ acked ⟨working, carried'⟩
  have filled : acked.live.filledQty = c.live.filledQty := by
    rw [carried'.filled, carried.filled]
  simp only [settleCancel, wp_change, wp_ite, wp_pure]
  have stepped := working.ordered.fill working.unrejected working.unsettled
    (carried'.accepted accepted) (filled ▸ room) trade.tradeId trade.executionPrice trade.maker
    (trade.tsEventMs * 1000000)
  rw [filled] at stepped
  refine ⟨fun _ => ?_, fun _ => ?_⟩
  · exact Keeps.finishTerminalIfReady (stepped.assign rfl rfl rfl rfl rfl rfl) working.unrejected
  · exact Keeps.finishTerminalIfReady (stepped.assign rfl rfl rfl rfl rfl rfl) working.unrejected

theorem validateTrade_positive {live : LiveOrder} {trade : TradeExecution}
    {feeCurrency : Option String} (h : validateTrade terms live trade feeCurrency = .ok ()) :
    0 < |trade.executionQty| := by
  rw [validateTrade, raiseIf_eq_ok] at h
  push Not at h
  rw [abs_pos]
  intro zero
  have := h.2.1
  rw [zero, zero_mul] at this
  exact lt_irrefl 0 this

/-- A change of the tables alone. -/
theorem Keeps.tables (h : Keeps terms prior c) {t : Client} (live : t.live = c.live)
    (generated : t.generated = c.generated) : Keeps terms prior t := by
  unfold Keeps
  rw [live, generated]
  exact h

theorem Keeps.bufferPaperInterim (h : Keeps terms prior c) (trade : TradeExecution) :
    wp (bufferPaperInterim trade) (fun _ => Keeps terms prior) (Keeps terms prior) c := by
  simp only [Bitfinex.bufferPaperInterim, wp_bind, wp_look]
  split
  · simp only [wp_raiseWhen]
    exact ⟨fun _ => h, fun _ => h⟩
  · split
    · simp only [wp_raiseWhen]
      exact ⟨fun _ => h, fun _ => h⟩
    · split
      · simp only [wp_raiseWhen]
        exact ⟨fun _ => h, fun _ => h⟩
      · simp only [wp_bind, wp_raiseWhen, wp_change]
        exact ⟨fun _ => h, fun _ => h.tables rfl rfl⟩

theorem Keeps.applyInterim (h : Keeps terms prior c) (unrejected : c.live.rejectionKey = none)
    {trade : TradeExecution} (positive : 0 < |trade.executionQty|) (ledger : Ledger) :
    wp (applyInterim terms ledger trade) (fun _ => Keeps terms prior) (Keeps terms prior) c := by
  simp only [Bitfinex.applyInterim, wp_bind, wp_look]
  split
  · simp only [wp_bind, wp_raiseWhen, wp_check]
    exact ⟨fun _ => h, fun _ => ⟨fun _ _ => h, fun _ _ => h⟩⟩
  · split
    · simp only [wp_bind, wp_raiseWhen, wp_check]
      exact ⟨fun _ => h, fun _ => ⟨fun _ _ => h, fun _ _ => h⟩⟩
    · simp only [wp_bind, wp_check, wp_ite, wp_pure]
      refine ⟨fun _ _ => h, fun _ _ => ⟨fun _ _ => h, fun _ _ => ⟨fun _ => h, fun _ => ?_⟩⟩⟩
      refine wp_mono (h.applyTradeFill unrejected positive) ?_ fun _ kept => kept
      rintro _ t ⟨kept, -⟩
      simp only [wp_change]
      exact kept.tables rfl rfl

theorem Keeps.handleInterimTrade (h : Keeps terms prior c) (ledger : Ledger)
    (trade : TradeExecution) :
    wp (handleInterimTrade terms ledger trade) (fun _ => Keeps terms prior)
      (Keeps terms prior) c := by
  simp only [Bitfinex.handleInterimTrade, stageUnboundPaperInterim, wp_bind, wp_look, wp_check,
    wp_ite, wp_pure, wp_raiseWhen]
  refine ⟨fun _ _ => h, fun _ _ => ⟨fun _ => ⟨fun _ => h, fun _ => ⟨fun _ => h, fun _ =>
    h.bufferPaperInterim trade⟩⟩, fun _ => ⟨fun _ => h, fun unrejected => ⟨fun _ _ => h,
    fun _ valid => ⟨fun _ => h, fun _ => ⟨fun _ => h.bufferPaperInterim trade, fun _ => ?_⟩⟩⟩⟩⟩⟩
  exact h.applyInterim (not_not.1 unrejected) (validateTrade_positive valid) ledger

theorem Keeps.handleTrade (h : Keeps terms prior c) (ledger : Ledger) (trade : TradeUpdate) :
    wp (handleTrade terms ledger trade) (fun _ => Keeps terms prior) (Keeps terms prior) c := by
  simp only [Bitfinex.handleTrade, wp_bind, wp_look, wp_check, wp_ite, wp_raiseWhen]
  refine ⟨fun _ _ => h, fun _ _ => ⟨fun _ => ⟨fun _ => h, fun _ => h⟩, fun _ => ⟨fun _ => h,
    fun unrejected => ⟨fun _ _ => h, fun _ valid => ⟨fun _ _ => h, fun _ _ => ?_⟩⟩⟩⟩⟩
  have unrejected := not_not.1 unrejected
  split
  · simp only [wp_raiseWhen]
    exact ⟨fun _ => h, fun _ => h⟩
  · split
    · simp only [wp_bind, wp_raiseWhen]
      refine ⟨fun _ => h, fun _ => ?_⟩
      refine wp_mono (h.finishTerminalIfReady unrejected) ?_ fun _ kept => kept
      rintro _ t ⟨kept, -⟩
      simp only [wp_change]
      exact kept.tables rfl rfl
    · simp only [wp_bind, wp_check, wp_ite, wp_pure]
      refine ⟨fun _ _ => h, fun _ _ => ⟨fun _ => h, fun _ => ?_⟩⟩
      refine wp_mono (h.applyTradeFill unrejected (validateTrade_positive valid)) ?_
        fun _ kept => kept
      rintro _ t ⟨kept, -⟩
      simp only [wp_change]
      exact kept.tables rfl rfl

theorem Keeps.rejectOnStatus (h : Keeps terms prior c) (unrejected : c.live.rejectionKey = none)
    (working : c.live.terminal = none) (fresh : c.live.accepted = false) (state : OrderState)
    (rejection : String) :
    wp (rejectOnStatus state rejection) (fun _ => Keeps terms prior) (Keeps terms prior) c := by
  simp only [Bitfinex.rejectOnStatus, wp_change]
  exact Ordered.reject h unrejected fresh (by rfl) (by rfl) (by rintro ⟨⟩) (by rfl)
    (fun _ _ => Option.some_ne_none _)
    (Ordered.uncanceled_of_working h working) _ _ _

theorem Keeps.releaseUnboundPaperInterims (h : Keeps terms prior c)
    (unrejected : c.live.rejectionKey = none) (ledger : Ledger) {trades : List TradeExecution}
    (positive : ∀ trade ∈ trades, 0 < |trade.executionQty|) :
    wp (releaseUnboundPaperInterims terms ledger trades)
      (fun _ t => Keeps terms prior t ∧ t.live.rejectionKey = none) (Keeps terms prior) c := by
  refine wp_each (fun trade member s kept => ?_) ⟨h, unrejected⟩
  simp only [releaseInterim, wp_bind, wp_check]
  refine ⟨fun _ _ => kept.1, fun _ _ => ?_⟩
  refine wp_mono (kept.1.applyTradeFill kept.2 (positive trade member)) ?_ fun _ kept => kept
  rintro _ t ⟨kept, unrejected⟩
  simp only [wp_change]
  exact ⟨kept.tables rfl rfl, unrejected⟩

theorem Keeps.bindOrder (h : Keeps terms prior c) (unrejected : c.live.rejectionKey = none)
    (working : c.live.terminal = none) (ledger : Ledger) (state : OrderState)
    (operation : Option OrderOperation) {trades : List TradeExecution}
    (positive : ∀ trade ∈ trades, 0 < |trade.executionQty|) :
    wp (bindOrder terms ledger state operation trades) (fun _ => Keeps terms prior)
      (Keeps terms prior) c := by
  have unsettled := Ordered.unsettled h unrejected (Ordered.uncanceled_of_working h working)
  simp only [Bitfinex.bindOrder, wp_bind]
  refine wp_mono (Working.accept ⟨h, unrejected, unsettled⟩ _ _) ?_ fun _ kept => kept
  rintro _ bound ⟨open', carried, accepted⟩
  refine wp_mono (open'.ackPendingPrice _ _) ?_ fun _ kept => kept
  rintro _ acked ⟨open', carried'⟩
  have working : acked.live.terminal = none := by
    rw [carried'.terminal, carried.terminal, working]
  have closed : wp (closeOrder state operation)
      (fun _ t => Keeps terms prior t ∧ t.live.rejectionKey = none) (Keeps terms prior) acked := by
    simp only [closeOrder, wp_ite, wp_change, wp_pure]
    refine ⟨fun _ => ⟨?_, open'.unrejected⟩, fun _ => ⟨open'.ordered, open'.unrejected⟩⟩
    exact (open'.ordered.close (carried'.accepted accepted) working state).assign
      rfl rfl rfl rfl rfl rfl
  refine wp_mono closed ?_ fun _ kept => kept
  rintro _ closed ⟨kept, unrejected⟩
  refine wp_mono (kept.releaseUnboundPaperInterims unrejected ledger positive) ?_ fun _ kept => kept
  rintro _ released ⟨kept, unrejected⟩
  simp only [wp_ite, wp_pure]
  refine ⟨fun _ => ?_, fun _ => kept⟩
  exact wp_mono (kept.finishTerminalIfReady unrejected) (fun _ _ kept => kept.1) fun _ kept => kept

/-- Every staged trade that passed its checks has a quantity. -/
theorem validatedUnbound_positive {state : OrderState} {operation : Option OrderOperation}
    {trades : List TradeExecution}
    (h : validatedUnboundPaperInterims terms c state operation = .ok trades) :
    ∀ trade ∈ trades, 0 < |trade.executionQty| := by
  unfold validatedUnboundPaperInterims at h
  dsimp only at h
  split at h
  · cases h
    simp
  · simp only [bind_eq_ok, pure_eq_ok] at h
    obtain ⟨_, -, filled, loop, rfl⟩ := h
    intro trade member
    obtain ⟨_, _, turn⟩ := foldlM_turns loop trade member
    simp only [checkStaged, bind_unit_eq_ok] at turn
    exact validateTrade_positive turn.2.1

theorem Keeps.handleOrder (h : Keeps terms prior c) (ledger : Ledger)
    (operation : OrderOperation) (state : OrderState) :
    wp (handleOrder terms ledger operation state) (fun _ => Keeps terms prior)
      (Keeps terms prior) c := by
  simp only [Bitfinex.handleOrder, wp_bind, wp_look, wp_check, wp_ite, wp_pure, id]
  refine ⟨fun _ _ => h, fun _ _ => ⟨fun _ => h, fun _ => ?_⟩⟩
  split
  · simp only [wp_raiseWhen]
    exact ⟨fun _ => h, fun _ => h⟩
  · rename_i working
    simp only [wp_bind, wp_check, wp_raiseWhen, wp_change]
    refine ⟨fun _ _ => h, fun _ _ => ⟨fun _ _ => h, fun trades staged => ⟨fun _ _ => h,
      fun _ _ => ⟨fun _ => h, fun _ => ?_⟩⟩⟩⟩
    have verified : Keeps terms prior
        (c.updateLive ({ · with venueFlagsVerified := true })) :=
      Ordered.assign h rfl rfl rfl rfl rfl rfl
    split
    · simp only [wp_raiseWhen]
      exact ⟨fun _ => verified, fun _ => verified⟩
    · rename_i unrejected
      split
      · rename_i reason rejected
        have fresh : c.live.accepted = false := by
          unfold rejectionOf at rejected
          split at rejected
          · rename_i fresh
            exact fresh.1
          · cases rejected
        exact verified.rejectOnStatus unrejected working fresh state reason
      · exact verified.bindOrder unrejected working ledger state _
          (validatedUnbound_positive staged)

theorem checkSnapshotEntry_eq_ok {seen : Bool} {state : OrderState}
    {entry : OrderState × List TradeExecution}
    (h : checkSnapshotEntry terms c seen state = .ok entry) :
    seen = false ∧ c.live.terminal = none ∧ c.live.rejectionKey = none ∧
      validatedUnboundPaperInterims terms c state none = .ok entry.2 ∧ entry.1 = state := by
  simp only [checkSnapshotEntry, bind_eq_ok, raiseIf_eq_ok, pure_eq_ok, not_or, not_not] at h
  obtain ⟨_, -, _, once, _, -, _, -, _, ⟨working, unrejected⟩, _, -, _, -, trades, staged, rfl⟩ := h
  exact ⟨by simpa using once, working, unrejected, staged, rfl⟩

/-- One order has at most one entry. -/
theorem checkSnapshot_eq_ok {orders : List OrderState}
    {entries : List (OrderState × List TradeExecution)}
    (h : checkSnapshot terms c false orders = .ok entries) :
    entries = [] ∨ ∃ entry, entries = [entry] ∧
      checkSnapshotEntry terms c false entry.1 = .ok entry := by
  cases orders with
  | nil => cases h; exact .inl rfl
  | cons state rest =>
    simp only [checkSnapshot, bind_eq_ok, pure_eq_ok] at h
    obtain ⟨entry, first, others, tail, rfl⟩ := h
    have same := (checkSnapshotEntry_eq_ok first).2.2.2.2
    cases rest with
    | nil => cases tail; exact .inr ⟨entry, rfl, same ▸ first⟩
    | cons second rest =>
      simp only [checkSnapshot, bind_eq_ok] at tail
      obtain ⟨_, repeated, -⟩ := tail
      exact absurd (checkSnapshotEntry_eq_ok repeated).1 (by simp)

theorem Keeps.handleOrderSnapshot (h : Keeps terms prior c) (ledger : Ledger)
    (orders : List OrderState) :
    wp (handleOrderSnapshot terms ledger orders) (fun _ => Keeps terms prior)
      (Keeps terms prior) c := by
  simp only [Bitfinex.handleOrderSnapshot, wp_bind, wp_look, wp_check, id]
  refine ⟨fun _ _ => h, fun entries checked => ?_⟩
  obtain rfl | ⟨entry, rfl, first⟩ := checkSnapshot_eq_ok checked
  · exact h
  · obtain ⟨-, working, unrejected, staged, -⟩ := checkSnapshotEntry_eq_ok first
    have verified : Keeps terms prior
        (c.updateLive ({ · with venueFlagsVerified := true })) :=
      Ordered.assign h rfl rfl rfl rfl rfl rfl
    simp only [each, bindSnapshotEntry, wp_bind, wp_change, wp_pure]
    exact verified.bindOrder unrejected working ledger entry.1 none
      (validatedUnbound_positive staged)

theorem Keeps.handleNotification (h : Keeps terms prior c) (note : Notification) :
    wp (handleNotification terms note) (fun _ => Keeps terms prior) (Keeps terms prior) c := by
  simp only [Bitfinex.handleNotification, wp_bind, wp_look, wp_check, wp_ite, wp_pure]
  refine ⟨fun _ => h, fun _ => ⟨fun _ _ => h, fun _ _ => ⟨fun _ => h, fun _ => ?_⟩⟩⟩
  split
  · simp only [wp_raiseWhen]
    exact ⟨fun _ => h, fun _ => h⟩
  · rename_i unrejected
    cases note.operation with
    | on =>
      simp only [refuseSubmit, wp_bind, wp_look, wp_raiseWhen, wp_change]
      refine ⟨fun _ => h, fun fresh => ?_⟩
      have fresh : c.live.accepted = false := by simpa using fresh
      have uncanceled : Kind.canceled ∉ kinds c.generated := fun member => by
        obtain ⟨-, _, terminal, -⟩ := Ordered.canceled h member
        have accepted := Ordered.closed h (by simp [terminal]) unrejected
        rw [fresh] at accepted
        cases accepted
      exact Ordered.reject h unrejected fresh (by rfl) (by rfl) (by rintro ⟨⟩) (by rfl)
        (by intro text same; cases same)
        uncanceled _ _ _
    | ou =>
      simp only [refuseModify, wp_bind, wp_look, wp_raiseWhen, wp_change]
      exact ⟨fun _ => h, fun _ => (Ordered.neutral h rfl rfl).assign rfl rfl rfl rfl rfl rfl⟩
    | oc =>
      simp only [refuseCancel, wp_bind, wp_look, wp_raiseWhen, wp_change]
      exact ⟨fun _ => h, fun _ => (Ordered.neutral h rfl rfl).assign rfl rfl rfl rfl rfl rfl⟩

theorem Keeps.reconcileLiveReport (h : Keeps terms prior c) (r : Reconciliation) :
    wp (reconcileLiveReport terms r) (fun _ => Keeps terms prior) (Keeps terms prior) c := by
  have verified : Keeps terms prior (c.updateLive ({ · with venueFlagsVerified := true })) :=
    Ordered.assign h rfl rfl rfl rfl rfl rfl
  simp only [Bitfinex.reconcileLiveReport, wp_bind, wp_look, wp_check, wp_ite, wp_pure, wp_change,
    wp_raiseWhen]
  refine ⟨fun _ => h, fun working => ⟨fun _ _ => h, fun _ _ => ⟨fun _ => ?_, fun _ => ⟨fun _ =>
    ⟨fun _ => verified, fun _ => ⟨fun _ => verified, fun _ => ?_⟩⟩, fun _ => verified⟩⟩⟩⟩
  · have unrejected := not_not.1 (not_or.1 (not_or.1 working).2).2
    exact (Ordered.bind verified unrejected).assign rfl rfl rfl rfl rfl rfl
  · exact Ordered.assign verified rfl rfl rfl rfl rfl rfl

theorem Keeps.captureNative (h : Keeps terms prior c) {native : NativeFills}
    (own : native.Own c.live) :
    wp (captureNative native) (fun _ => Keeps terms prior) (Keeps terms prior) c := by
  simp only [Bitfinex.captureNative, wp_bind, wp_look, wp_ite, wp_pure, wp_change]
  refine ⟨fun counts => ?_, fun _ => h⟩
  exact Ordered.assign h (max_eq_left (own counts)) rfl rfl rfl rfl rfl

theorem Keeps.retire (h : Keeps terms prior c) (proved : Bool)
    (own : ∀ quantity ∈ confirmedQuantity c.live, quantity = c.live.filledQty) :
    wp (retireReconciledTerminal proved c.live) (fun _ => Keeps terms prior)
      (Keeps terms prior) c := by
  have filled : (confirmedQuantity c.live).getD c.live.filledQty = c.live.filledQty := by
    cases confirmed : confirmedQuantity c.live with
    | none => rfl
    | some quantity => exact own quantity confirmed
  simp only [retireReconciledTerminal, wp_bind, wp_raiseWhen, wp_change]
  exact ⟨fun _ => h, fun _ => Ordered.retire h filled rfl rfl rfl rfl rfl⟩

theorem Keeps.confirmTerminalReconciliation (h : Keeps terms prior c)
    (terminalProved workingProved : Bool)
    (own : ∀ quantity ∈ confirmedQuantity c.live, quantity = c.live.filledQty) :
    wp (confirmTerminalReconciliation terminalProved workingProved) (fun _ => Keeps terms prior)
      (Keeps terms prior) c := by
  simp only [Bitfinex.confirmTerminalReconciliation, wp_bind, wp_look, wp_ite, wp_pure,
    wp_raiseWhen, wp_change]
  exact ⟨fun _ => h, fun _ => ⟨fun _ => h.retire terminalProved own, fun _ => ⟨fun _ => h,
    fun _ => ⟨fun _ => h.retire terminalProved own, fun _ => ⟨fun _ => h,
    fun _ => Ordered.assign h rfl rfl rfl rfl rfl rfl⟩⟩⟩⟩⟩

theorem Keeps.command (h : Keeps terms prior c) {reason : Option String}
    {event : String → Generated}
    (other : ∀ text, (event text).kind = .other) (noFill : ∀ text, (event text).fillQuantity = 0)
    {f : LiveOrder → LiveOrder} (assigned : Keeps terms prior (c.updateLive f)) :
    wp (match reason with
      | some reason => (change (·.generate (event reason)) : Call Unit)
      | none => change (·.updateLive f)) (fun _ => Keeps terms prior) (Keeps terms prior) c := by
  cases reason with
  | none => exact assigned
  | some reason => exact Ordered.neutral h (other reason) (noFill reason)

/-- Every input keeps the facts, whether or not its handler raises. -/
theorem Keeps.handle (h : Keeps terms prior c) {input : Input} (own : input.Own c.live) :
    Keeps terms prior ((handle terms input).after c) := by
  apply after_of_wp
  cases input with
  | te trade ledger => exact h.handleInterimTrade ledger trade
  | tu trade ledger => exact h.handleTrade ledger trade
  | order operation state ledger => exact h.handleOrder ledger operation state
  | snapshot orders ledger => exact h.handleOrderSnapshot ledger orders
  | notification note => exact h.handleNotification note
  | report r => exact h.reconcileLiveReport r
  | native fills => exact h.captureNative own
  | confirm terminalProved workingProved => exact h.confirmTerminalReconciliation _ _ own
  | modify hold price tsNow =>
    simp only [Bitfinex.handle, modifyOrder, wp_bind, wp_look]
    exact h.command (fun _ => rfl) (fun _ => rfl) (Ordered.assign h rfl rfl rfl rfl rfl rfl)
  | cancel tsNow =>
    simp only [Bitfinex.handle, cancelOrder, wp_bind, wp_look]
    exact h.command (fun _ => rfl) (fun _ => rfl) (Ordered.assign h rfl rfl rfl rfl rfl rfl)
  | unknown operation => exact Ordered.assign h rfl rfl rfl rfl rfl rfl

theorem Keeps.run (h : Keeps terms prior c) {inputs : List Input} (own : OwnFills terms c inputs) :
    Keeps terms prior (run terms c inputs) := by
  induction inputs generalizing c with
  | nil => exact h
  | cons input inputs ih => exact ih (h.handle own.1) own.2

end Calls

/-- One live order as this process takes it up: just submitted, or open in the native cache. -/
inductive LiveOrder.Starts (terms : Terms) : LiveOrder → Prop where
  | submitted : Starts terms (.submitted terms)
  | rehydrated {price filledQty : ℚ} (venueOrderId : ℕ) (nonneg : 0 ≤ filledQty)
      (within : filledQty ≤ terms.quantity) :
      Starts terms (.rehydrated price venueOrderId filledQty)

theorem LiveOrder.Starts.keeps {terms : Terms} {c : Client} (start : c.live.Starts terms)
    (silent : c.generated = []) : Keeps terms c.live.filledQty c := by
  have initial : ∀ live : LiveOrder, live.filledQty ≤ terms.quantity → live.rejectionKey = none →
      live.terminal = none → live.terminalEmitted = false → Ordered terms live.filledQty live [] :=
    fun live within unrejected working quiet =>
    ⟨by simp [filledTotal], within, by simp [kinds], by simp [kinds], by simp [kinds],
      by simp [kinds], by simp [kinds], by simp [kinds], by simp [kinds],
      fun refused => absurd unrejected refused, fun closed => absurd working closed,
      fun _ _ _ => quiet, by simp [unrejected]⟩
  unfold Keeps
  rw [silent]
  generalize c.live = live at start
  cases start with
  | submitted => exact initial _ (le_of_lt terms.positive) rfl rfl rfl
  | rehydrated _ _ within => exact initial _ within rfl rfl rfl

theorem LiveOrder.Starts.nonneg {terms : Terms} {live : LiveOrder} (start : live.Starts terms) :
    0 ≤ live.filledQty := by
  cases start with
  | submitted => exact le_refl 0
  | rehydrated _ nonneg _ => exact nonneg

/-- The order of one order's events, over every sequence of frames, reports and commands, and over
what the native cache confirms of them. -/
theorem terminal_order (terms : Terms) (start : Client) (starts : start.live.Starts terms)
    (silent : start.generated = []) (inputs : List Input) (own : OwnFills terms start inputs) :
    let c := run terms start inputs
    0 ≤ start.live.filledQty ∧
    start.live.filledQty + filledTotal c.generated ≤ terms.quantity ∧
    (kinds c.generated).count .accepted ≤ 1 ∧ (kinds c.generated).count .rejected ≤ 1 ∧
    ¬(Kind.accepted ∈ kinds c.generated ∧ Kind.rejected ∈ kinds c.generated) ∧
    (kinds c.generated).count .canceled ≤ 1 ∧
    (Kind.canceled ∈ kinds c.generated → ∃ state, c.live.terminal = some state ∧
      start.live.filledQty + filledTotal c.generated = terminalFilled state ∧
      terminalFilled state < |state.originalQty|) ∧
    (kinds c.generated).Pairwise fun earlier later => earlier.Final → ¬later.Progress := by
  intro c
  have kept : Ordered terms start.live.filledQty c.live c.generated :=
    (starts.keeps silent).run own
  refine ⟨starts.nonneg, kept.total ▸ kept.bounded, kept.acceptedOnce, kept.rejectedOnce, ?_,
    kept.canceledOnce,
    ?_, kept.settled⟩
  · rintro ⟨accepted, rejected⟩
    exact kept.unaccepted (kept.rejected rejected).2 _ accepted (.inl rfl)
  · intro canceled
    obtain ⟨-, state, terminal, reached, short⟩ := kept.canceled canceled
    exact ⟨state, terminal, kept.total.trans reached, short⟩

/-- A post-only Maker of four ounces. -/
def makerTerms : Terms where
  cid := 4567
  side := .buy
  quantity := 4
  price := 3926
  timeInForce := .gtc
  isPostOnly := true
  isReduceOnly := false
  rawSymbol := "tXAUTF0:USTF0"
  feeCurrency := "USD"
  exactQty := fun _ => true
  exactPrice := fun _ => true
  upper := fun text => text.map Char.toUpper
  positive := by decide

def makerState (remaining : ℚ) (status : String) : OrderState where
  venueOrderId := 777
  clientOrderId := some 4567
  symbol := "tXAUTF0:USTF0"
  tsCreatedMs := 1700000000010
  tsUpdatedMs := 1700000000030
  remainingQty := remaining
  originalQty := 4
  orderType := "LIMIT"
  flags := postOnlyFlag
  status := status.toList
  price := 3926

def makerTrade (tradeId : ℕ) (quantity : ℚ) : TradeUpdate where
  tradeId := tradeId
  symbol := "tXAUTF0:USTF0"
  tsEventMs := 1700000000020
  venueOrderId := 777
  executionQty := quantity
  executionPrice := 3926
  orderType := "LIMIT"
  orderPrice := 3926
  maker := true
  clientOrderId := some 4567
  fee := -1 / 10
  feeCurrency := "USD"

/-- The terminal frame overtakes the trade it counts; the cancel waits for that trade. -/
theorem terminal_order_overtaken :
    let inputs : List Input := [.order .on (makerState 4 "ACTIVE") {},
      .order .oc (makerState 3 "CANCELED was: PARTIALLY FILLED @ 3926.0(1)") {},
      .tu (makerTrade 901 1) {}, .tu (makerTrade 902 1) {}]
    let c := run makerTerms ⟨.submitted makerTerms, .empty, .empty, .empty, []⟩ inputs
    kinds c.generated = [.accepted, .filled, .canceled] ∧ filledTotal c.generated ≤ 4 := by
  intro inputs c
  refine ⟨by decide +kernel, ?_⟩
  obtain ⟨-, within, -⟩ := terminal_order makerTerms
    ⟨.submitted makerTerms, .empty, .empty, .empty, []⟩ .submitted rfl inputs
    ⟨trivial, trivial, trivial, trivial, trivial⟩
  have within : 0 + filledTotal c.generated ≤ 4 := within
  rwa [zero_add] at within

end ArbNautilus.Bitfinex
