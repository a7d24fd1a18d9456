import ArbNautilus.Bitfinex.Terminal

namespace ArbNautilus.Bitfinex

open Base Base.Handler

/-- What an input that neither fills nor ends the order changes. -/
structure Neutral (c t : Client) : Prop where
  filled : t.live.filledQty = c.live.filledQty
  accepted : t.live.accepted = c.live.accepted
  rejection : t.live.rejectionKey = c.live.rejectionKey
  terminal : t.live.terminal = c.live.terminal
  emitted : t.live.terminalEmitted = c.live.terminalEmitted
  kinds : ∀ kind, kind ≠ .other → (kind ∈ kinds t.generated ↔ kind ∈ kinds c.generated)

theorem Neutral.refl (c : Client) : Neutral c c :=
  ⟨rfl, rfl, rfl, rfl, rfl, fun _ _ => Iff.rfl⟩

theorem Neutral.trans {c t u : Client} (first : Neutral c t) (second : Neutral t u) :
    Neutral c u :=
  ⟨second.filled.trans first.filled, second.accepted.trans first.accepted,
    second.rejection.trans first.rejection, second.terminal.trans first.terminal,
    second.emitted.trans first.emitted,
    fun kind other => (second.kinds kind other).trans (first.kinds kind other)⟩

theorem kinds_note {events : List Generated} {event : Generated} (note : event.kind = .other)
    (kind : Kind) (other : kind ≠ .other) :
    kind ∈ kinds (events ++ [event]) ↔ kind ∈ kinds events := by
  simp [note, other]

/-- An accepted order is accepted again without an event. -/
theorem accept_neutral {c : Client} (accepted : c.live.accepted = true)
    (venueOrderId tsEvent : ℕ) :
    wp (accept venueOrderId tsEvent) (fun _ => Neutral c) (Neutral c) c := by
  simp only [accept, wp_bind, wp_look, wp_raiseWhen, wp_change, wp_ite, wp_pure]
  exact ⟨fun _ => .refl c, fun _ => ⟨fun _ => ⟨rfl, rfl, rfl, rfl, rfl, fun _ _ => Iff.rfl⟩,
    fun fresh => absurd accepted fresh⟩⟩

theorem ackPendingPrice_neutral (c : Client) (price : ℚ) (tsEvent : ℕ) :
    wp (ackPendingPrice price tsEvent) (fun _ => Neutral c) (Neutral c) c := by
  simp only [ackPendingPrice, wp_bind, wp_look, wp_raiseWhen, wp_change, wp_ite, wp_pure]
  exact ⟨fun _ => .refl c, fun _ => ⟨fun _ => .refl c,
    fun _ => ⟨rfl, rfl, rfl, rfl, rfl, kinds_note rfl⟩⟩⟩

section Closed

variable {terms : Terms} {c : Client} {state : OrderState}

/-- What every input keeps of an order that has its terminal frame. -/
structure Closes (terms : Terms) (P : Client → Prop) : Prop where
  terminal : ∀ c, P c → c.live.terminal ≠ none
  accepted : ∀ c, P c → c.live.rejectionKey = none → c.live.accepted = true
  neutral : ∀ c t, P c → Neutral c t → P t
  fill : ∀ c trade, P c → c.live.rejectionKey = none →
    wp (applyTradeFill terms trade) (fun _ => P) P c
  finish : ∀ c, P c → c.live.rejectionKey = none →
    wp (finishTerminalIfReady terms) (fun _ => P) P c
  retire : ∀ c proved, P c → (∀ quantity ∈ confirmedQuantity c.live, quantity = c.live.filledQty) →
    wp (retireReconciledTerminal proved c.live) (fun _ => P) P c

namespace Closes

variable {P : Client → Prop}

theorem tables (h : Closes terms P) (kept : P c) {t : Client} (live : t.live = c.live)
    (generated : t.generated = c.generated) : P t := by
  apply h.neutral c t kept
  constructor <;> simp [live, generated]

theorem bufferPaperInterim (h : Closes terms P) (kept : P c) (trade : TradeExecution) :
    wp (bufferPaperInterim trade) (fun _ => P) P c := by
  simp only [Bitfinex.bufferPaperInterim, wp_bind, wp_look]
  split
  · simp only [wp_raiseWhen]
    exact ⟨fun _ => kept, fun _ => kept⟩
  · split
    · simp only [wp_raiseWhen]
      exact ⟨fun _ => kept, fun _ => kept⟩
    · split
      · simp only [wp_raiseWhen]
        exact ⟨fun _ => kept, fun _ => kept⟩
      · simp only [wp_bind, wp_raiseWhen, wp_change]
        exact ⟨fun _ => kept, fun _ => h.tables kept rfl rfl⟩

theorem applyInterim (h : Closes terms P) (kept : P c) (unrejected : c.live.rejectionKey = none)
    (trade : TradeExecution) (ledger : Ledger) :
    wp (applyInterim terms ledger trade) (fun _ => P) P c := by
  simp only [Bitfinex.applyInterim, wp_bind, wp_look]
  split
  · simp only [wp_bind, wp_raiseWhen, wp_check]
    exact ⟨fun _ => kept, fun _ => ⟨fun _ _ => kept, fun _ _ => kept⟩⟩
  · split
    · simp only [wp_bind, wp_raiseWhen, wp_check]
      exact ⟨fun _ => kept, fun _ => ⟨fun _ _ => kept, fun _ _ => kept⟩⟩
    · simp only [wp_bind, wp_check, wp_ite, wp_pure]
      refine ⟨fun _ _ => kept, fun _ _ => ⟨fun _ _ => kept, fun _ _ => ⟨fun _ => kept,
        fun _ => ?_⟩⟩⟩
      refine wp_mono (h.fill c trade kept unrejected) ?_ fun _ kept => kept
      intro _ t kept
      simp only [wp_change]
      exact h.tables kept rfl rfl

theorem handleInterimTrade (h : Closes terms P) (kept : P c) (ledger : Ledger)
    (trade : TradeExecution) :
    wp (handleInterimTrade terms ledger trade) (fun _ => P) P c := by
  simp only [Bitfinex.handleInterimTrade, stageUnboundPaperInterim, wp_bind, wp_look, wp_check,
    wp_ite, wp_pure, wp_raiseWhen]
  refine ⟨fun _ _ => kept, fun _ _ => ⟨fun _ => ⟨fun _ => kept, fun _ => ⟨fun _ => kept, fun _ =>
    h.bufferPaperInterim kept trade⟩⟩, fun _ => ⟨fun _ => kept, fun unrejected => ⟨fun _ _ => kept,
    fun _ _ => ⟨fun _ => kept, fun _ => ⟨fun _ => h.bufferPaperInterim kept trade,
    fun _ => ?_⟩⟩⟩⟩⟩⟩
  exact h.applyInterim kept (not_not.1 unrejected) trade ledger

theorem handleTrade (h : Closes terms P) (kept : P c) (ledger : Ledger) (trade : TradeUpdate) :
    wp (handleTrade terms ledger trade) (fun _ => P) P c := by
  simp only [Bitfinex.handleTrade, wp_bind, wp_look, wp_check, wp_ite, wp_raiseWhen]
  refine ⟨fun _ _ => kept, fun _ _ => ⟨fun _ => ⟨fun _ => kept, fun _ => kept⟩, fun _ =>
    ⟨fun _ => kept, fun unrejected => ⟨fun _ _ => kept, fun _ _ => ⟨fun _ _ => kept,
    fun _ _ => ?_⟩⟩⟩⟩⟩
  have unrejected := not_not.1 unrejected
  split
  · simp only [wp_raiseWhen]
    exact ⟨fun _ => kept, fun _ => kept⟩
  · split
    · simp only [wp_bind, wp_raiseWhen]
      refine ⟨fun _ => kept, fun _ => ?_⟩
      refine wp_mono (h.finish c kept unrejected) ?_ fun _ kept => kept
      intro _ t kept
      simp only [wp_change]
      exact h.tables kept rfl rfl
    · simp only [wp_bind, wp_check, wp_ite, wp_pure]
      refine ⟨fun _ _ => kept, fun _ _ => ⟨fun _ => kept, fun _ => ?_⟩⟩
      refine wp_mono (h.fill c _ kept unrejected) ?_ fun _ kept => kept
      intro _ t kept
      simp only [wp_change]
      exact h.tables kept rfl rfl

/-- After its terminal frame an order takes no other frame. -/
theorem handleOrder (h : Closes terms P) (kept : P c) (ledger : Ledger)
    (operation : OrderOperation) (state : OrderState) :
    wp (handleOrder terms ledger operation state) (fun _ => P) P c := by
  simp only [Bitfinex.handleOrder, wp_bind, wp_look, wp_check, wp_ite, wp_pure, id]
  refine ⟨fun _ _ => kept, fun _ _ => ⟨fun _ => kept, fun _ => ?_⟩⟩
  split
  · simp only [wp_raiseWhen]
    exact ⟨fun _ => kept, fun _ => kept⟩
  · rename_i working
    exact absurd working (h.terminal c kept)

theorem handleOrderSnapshot (h : Closes terms P) (kept : P c) (ledger : Ledger)
    (orders : List OrderState) :
    wp (handleOrderSnapshot terms ledger orders) (fun _ => P) P c := by
  simp only [Bitfinex.handleOrderSnapshot, wp_bind, wp_look, wp_check, id]
  refine ⟨fun _ _ => kept, fun entries checked => ?_⟩
  obtain rfl | ⟨entry, rfl, first⟩ := checkSnapshot_eq_ok checked
  · exact kept
  · exact absurd (checkSnapshotEntry_eq_ok first).2.1 (h.terminal c kept)

theorem handleNotification (h : Closes terms P) (kept : P c) (note : Notification) :
    wp (handleNotification terms note) (fun _ => P) P c := by
  simp only [Bitfinex.handleNotification, wp_bind, wp_look, wp_check, wp_ite, wp_pure]
  refine ⟨fun _ => kept, fun _ => ⟨fun _ _ => kept, fun _ _ => ⟨fun _ => kept, fun _ => ?_⟩⟩⟩
  split
  · simp only [wp_raiseWhen]
    exact ⟨fun _ => kept, fun _ => kept⟩
  · rename_i unrejected
    have accepted := h.accepted c kept unrejected
    cases note.operation with
    | on =>
      simp only [refuseSubmit, wp_bind, wp_look, wp_raiseWhen, wp_change]
      exact ⟨fun _ => kept, fun fresh => absurd accepted fresh⟩
    | ou =>
      simp only [refuseModify, wp_bind, wp_look, wp_raiseWhen, wp_change]
      exact ⟨fun _ => kept, fun _ => h.neutral c _ kept
        ⟨rfl, rfl, rfl, rfl, rfl, kinds_note rfl⟩⟩
    | oc =>
      simp only [refuseCancel, wp_bind, wp_look, wp_raiseWhen, wp_change]
      exact ⟨fun _ => kept, fun _ => h.neutral c _ kept
        ⟨rfl, rfl, rfl, rfl, rfl, kinds_note rfl⟩⟩

theorem captureNative (h : Closes terms P) (kept : P c) {native : NativeFills}
    (own : native.Own c.live) :
    wp (captureNative native) (fun _ => P) P c := by
  simp only [Bitfinex.captureNative, wp_bind, wp_look, wp_ite, wp_pure, wp_change]
  refine ⟨fun counts => ?_, fun _ => kept⟩
  exact h.neutral c _ kept ⟨max_eq_left (own counts), rfl, rfl, rfl, rfl, fun _ _ => Iff.rfl⟩

theorem confirmTerminalReconciliation (h : Closes terms P) (kept : P c)
    (terminalProved workingProved : Bool)
    (own : ∀ quantity ∈ confirmedQuantity c.live, quantity = c.live.filledQty) :
    wp (confirmTerminalReconciliation terminalProved workingProved) (fun _ => P) P c := by
  simp only [Bitfinex.confirmTerminalReconciliation, wp_bind, wp_look, wp_ite, wp_pure,
    wp_raiseWhen, wp_change]
  refine ⟨fun _ => kept, fun _ => ⟨fun _ => h.retire c _ kept own, fun _ => ⟨fun _ => kept, fun _ =>
    ⟨fun _ => h.retire c _ kept own, fun working => ⟨fun _ => kept, fun _ => ?_⟩⟩⟩⟩⟩
  exact absurd (h.terminal c kept) working

theorem command (h : Closes terms P) (kept : P c) {reason : Option String}
    {event : String → Generated} (note : ∀ text, (event text).kind = .other)
    {f : LiveOrder → LiveOrder} (assigned : Neutral c (c.updateLive f)) :
    wp (match reason with
      | some reason => (change (·.generate (event reason)) : Call Unit)
      | none => change (·.updateLive f)) (fun _ => P) P c := by
  cases reason with
  | none => exact h.neutral c _ kept assigned
  | some reason =>
    exact h.neutral c _ kept ⟨rfl, rfl, rfl, rfl, rfl, kinds_note (note reason)⟩

theorem handle (h : Closes terms P) (kept : P c) {input : Input} (own : input.Own c.live) :
    P ((handle terms input).after c) := by
  apply after_of_wp
  cases input with
  | te trade ledger => exact h.handleInterimTrade kept ledger trade
  | tu trade ledger => exact h.handleTrade kept ledger trade
  | order operation state ledger => exact h.handleOrder kept ledger operation state
  | snapshot orders ledger => exact h.handleOrderSnapshot kept ledger orders
  | notification note => exact h.handleNotification kept note
  | report r =>
    simp only [Bitfinex.handle, reconcileLiveReport, wp_bind, wp_look, wp_ite, wp_pure]
    exact ⟨fun _ => kept, fun working => absurd (.inr (.inl (h.terminal c kept))) working⟩
  | native fills => exact h.captureNative kept own
  | confirm terminalProved workingProved => exact h.confirmTerminalReconciliation kept _ _ own
  | modify hold price tsNow =>
    simp only [Bitfinex.handle, modifyOrder, wp_bind, wp_look]
    exact h.command kept (fun _ => rfl) ⟨rfl, rfl, rfl, rfl, rfl, fun _ _ => Iff.rfl⟩
  | cancel tsNow =>
    simp only [Bitfinex.handle, cancelOrder, wp_bind, wp_look]
    exact h.command kept (fun _ => rfl) ⟨rfl, rfl, rfl, rfl, rfl, fun _ _ => Iff.rfl⟩
  | unknown operation =>
    exact h.neutral c _ kept ⟨rfl, rfl, rfl, rfl, rfl, fun _ _ => Iff.rfl⟩

theorem run (h : Closes terms P) (kept : P c) {inputs : List Input}
    (own : OwnFills terms c inputs) :
    P (run terms c inputs) := by
  induction inputs generalizing c with
  | nil => exact kept
  | cons input inputs ih => exact ih (h.handle kept own.1) own.2

end Closes

end Closed

end ArbNautilus.Bitfinex
