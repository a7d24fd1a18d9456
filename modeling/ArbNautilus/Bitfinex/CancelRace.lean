import ArbNautilus.Bitfinex.Status

namespace ArbNautilus.Bitfinex

open Base Base.Handler

namespace LiveOrder

/-- A cancel the venue has not answered yet. -/
def outstanding (live : LiveOrder) : Prop :=
  live.pendingCancel = true ∨ Mutation.cancel ∈ live.unknownOperations

/-- What an answered cancel leaves of the order. -/
def dropCancel (live : LiveOrder) : LiveOrder :=
  { live with pendingCancel := false }.resolveMutation .cancel

theorem not_outstanding_dropCancel (live : LiveOrder) : ¬live.dropCancel.outstanding := by
  simp [dropCancel, resolveMutation, outstanding]

end LiveOrder

/-- The events that move the native order. -/
def movesNative (generated : List Generated) : List Generated :=
  generated.filter fun event => event.kind ≠ .other

theorem kinds_movesNative {events : List Generated} {kind : Kind} (moves : kind ≠ .other) :
    kind ∈ kinds (movesNative events) ↔ kind ∈ kinds events := by
  simp only [kinds, movesNative, List.mem_map, List.mem_filter, decide_eq_true_eq]
  constructor
  · rintro ⟨event, ⟨member, -⟩, same⟩
    exact ⟨event, member, same⟩
  · rintro ⟨event, member, same⟩
    exact ⟨event, ⟨member, same ▸ moves⟩, same⟩

/-- Two clients of one order, of which the second has had its cancel refused. -/
structure Dropped (s t : Client) : Prop where
  live : t.live = s.live.dropCancel
  seenTrades : t.seenTrades = s.seenTrades
  paperInterimFills : t.paperInterimFills = s.paperInterimFills
  unboundPaperInterimFills : t.unboundPaperInterimFills = s.unboundPaperInterimFills
  moves : movesNative t.generated = movesNative s.generated

namespace Dropped

variable {terms : Terms} {s t : Client}

theorem updateLive (h : Dropped s t) {f : LiveOrder → LiveOrder}
    (commutes : ∀ live : LiveOrder, f live.dropCancel = (f live).dropCancel) :
    Dropped (s.updateLive f) (t.updateLive f) := by
  obtain ⟨live, seen, interim, unbound, moves⟩ := h
  refine ⟨?_, seen, interim, unbound, moves⟩
  simp only [Client.updateLive, live, commutes]

theorem generate (h : Dropped s t) (event : Generated) :
    Dropped (s.generate event) (t.generate event) := by
  obtain ⟨live, seen, interim, unbound, moves⟩ := h
  refine ⟨live, seen, interim, unbound, ?_⟩
  simp only [movesNative, Client.generate, List.filter_append] at moves ⊢
  rw [moves]

theorem accept (h : Dropped s t) (venueOrderId tsEvent : ℕ) :
    Agree Dropped (accept venueOrderId tsEvent) (accept venueOrderId tsEvent) s t := by
  simp only [Bitfinex.accept, agree_look_bind]
  rw [h.live]
  dsimp only [LiveOrder.dropCancel, LiveOrder.resolveMutation]
  refine agree_bind (agree_raiseWhen _ _ h) fun _ s₁ t₁ h₁ => ?_
  refine agree_bind ((agree_change _ _).2 (h₁.updateLive fun live => ?_)) fun _ s₂ t₂ h₂ => ?_
  · simp [LiveOrder.dropCancel, LiveOrder.resolveMutation, Finset.erase_right_comm]
  · refine agree_ite _ (fun _ => (agree_pure _).2 h₂) fun _ => ?_
    refine (agree_change _ _).2 ((h₂.updateLive ?_).generate _)
    exact fun live => rfl

theorem ackPendingPrice (h : Dropped s t) (price : ℚ) (tsEvent : ℕ) :
    Agree Dropped (ackPendingPrice price tsEvent) (ackPendingPrice price tsEvent) s t := by
  simp only [Bitfinex.ackPendingPrice, agree_look_bind]
  rw [h.live]
  dsimp only [LiveOrder.dropCancel, LiveOrder.resolveMutation]
  refine agree_ite _ (fun _ => (agree_pure _).2 h) fun _ => ?_
  refine agree_bind (agree_raiseWhen _ _ h) fun _ s₁ t₁ h₁ => ?_
  refine (agree_change _ _).2 ((h₁.generate _).updateLive fun live => ?_)
  simp [LiveOrder.dropCancel, LiveOrder.resolveMutation, Finset.erase_right_comm]

theorem generateCanceled (h : Dropped s t) (state : OrderState) (disposition : Disposition) :
    Agree Dropped (generateCanceled state disposition) (generateCanceled state disposition) s t :=
  agree_ite _ (fun _ => (agree_change _ _).2 (h.generate _)) fun _ => (agree_pure _).2 h

theorem finishTerminalIfReady (h : Dropped s t) :
    Agree Dropped (finishTerminalIfReady terms) (finishTerminalIfReady terms) s t := by
  simp only [Bitfinex.finishTerminalIfReady, agree_look_bind]
  rw [h.live]
  dsimp only [LiveOrder.dropCancel, LiveOrder.resolveMutation]
  cases s.live.terminal with
  | none => exact (agree_pure _).2 h
  | some state =>
    refine agree_bind (agree_raiseWhen _ _ h) fun _ s₁ t₁ h₁ => ?_
    refine agree_ite _ (fun _ => (agree_pure _).2 h₁) fun _ => ?_
    refine agree_bind (agree_check _ h₁) fun disposition s₂ t₂ h₂ => ?_
    refine agree_bind (h₂.generateCanceled state disposition) fun _ s₃ t₃ h₃ => ?_
    exact (agree_change _ _).2 (h₃.updateLive fun live => rfl)

theorem settleCancel (h : Dropped s t) (filled : ℚ) :
    Agree Dropped (settleCancel terms filled) (settleCancel terms filled) s t :=
  agree_ite _ (fun _ => (agree_change _ _).2 (h.updateLive fun _ => rfl))
    fun _ => (agree_pure _).2 h

theorem applyTradeFill (h : Dropped s t) (trade : TradeExecution) :
    Agree Dropped (applyTradeFill terms trade) (applyTradeFill terms trade) s t := by
  simp only [Bitfinex.applyTradeFill, agree_look_bind]
  rw [h.live]
  refine agree_bind (agree_check (checkFill terms s.live trade) h) fun _ s₁ t₁ h₁ => ?_
  refine agree_bind (h₁.accept _ _) fun _ s₂ t₂ h₂ => ?_
  refine agree_bind (h₂.ackPendingPrice _ _) fun _ s₃ t₃ h₃ => ?_
  refine agree_bind ?_ fun _ s₄ t₄ h₄ => ?_
  · refine (agree_change _ _).2 ((h₃.updateLive fun live => ?_).generate _)
    simp [LiveOrder.dropCancel, LiveOrder.resolveMutation, Finset.erase_right_comm]
  · exact agree_bind (h₄.settleCancel _) fun _ s₅ t₅ h₅ => h₅.finishTerminalIfReady

theorem handleTrade (terms : Terms) (h : Dropped s t) (ledger : Ledger) (trade : TradeUpdate) :
    Agree Dropped (handleTrade terms ledger trade) (handleTrade terms ledger trade) s t := by
  simp only [Bitfinex.handleTrade, agree_look_bind]
  rw [h.live]
  refine agree_bind (agree_check (resolveLive terms s.live _ _) h) fun known s₁ t₁ h₁ => ?_
  refine agree_ite _ (fun _ => agree_raiseWhen _ _ h₁) fun _ => ?_
  refine agree_bind (agree_raiseWhen (s.live.rejectionKey ≠ none) _ h₁) fun _ s₂ t₂ h₂ => ?_
  refine agree_bind (agree_check (validateTrade terms s.live _ _) h₂) fun _ s₃ t₃ h₃ => ?_
  refine agree_bind (agree_check _ h₃) fun _ s₄ t₄ h₄ => ?_
  have remember : ∀ {s t : Client}, Dropped s t → Dropped
      { s with seenTrades := s.seenTrades.set trade.tradeId trade }
      { t with seenTrades := t.seenTrades.set trade.tradeId trade } := fun related =>
    ⟨related.live, by rw [related.seenTrades], related.paperInterimFills,
      related.unboundPaperInterimFills, related.moves⟩
  simp only [agree_look_bind, id]
  rw [h₄.seenTrades, h₄.paperInterimFills]
  cases s₄.seenTrades.get? trade.tradeId with
  | some previous => exact agree_raiseWhen _ _ h₄
  | none =>
    cases s₄.paperInterimFills.get? trade.tradeId with
    | some interim =>
      refine agree_bind (agree_raiseWhen _ _ h₄) fun _ s₅ t₅ h₅ => ?_
      exact agree_bind h₅.finishTerminalIfReady fun _ s₆ t₆ h₆ =>
        (agree_change _ _).2 (remember h₆)
    | none =>
      refine agree_bind (agree_check _ h₄) fun _ s₅ t₅ h₅ => ?_
      refine agree_ite _ (fun _ => (agree_pure _).2 h₅) fun _ => ?_
      exact agree_bind (h₅.applyTradeFill _) fun _ s₆ t₆ h₆ => (agree_change _ _).2 (remember h₆)

theorem releaseUnboundPaperInterims (h : Dropped s t) (ledger : Ledger)
    (trades : List TradeExecution) :
    Agree Dropped (releaseUnboundPaperInterims terms ledger trades)
      (releaseUnboundPaperInterims terms ledger trades) s t := by
  refine agree_each h fun trade _ s t h => ?_
  unfold releaseInterim
  refine agree_bind (agree_check _ h) fun _ s₁ t₁ h₁ => ?_
  refine agree_bind (h₁.applyTradeFill _) fun _ s₂ t₂ h₂ => (agree_change _ _).2 ?_
  exact ⟨h₂.live, h₂.seenTrades, by rw [h₂.paperInterimFills], by rw [h₂.unboundPaperInterimFills],
    h₂.moves⟩

theorem bindOrder (h : Dropped s t) (ledger : Ledger) (state : OrderState)
    (operation : Option OrderOperation) (trades : List TradeExecution) :
    Agree Dropped (bindOrder terms ledger state operation trades)
      (bindOrder terms ledger state operation trades) s t := by
  unfold Bitfinex.bindOrder
  refine agree_bind (h.accept _ _) fun _ s₁ t₁ h₁ => ?_
  refine agree_bind (h₁.ackPendingPrice _ _) fun _ s₂ t₂ h₂ => ?_
  refine agree_bind ?_ fun _ s₃ t₃ h₃ => ?_
  · refine agree_ite _ (fun _ => (agree_change _ _).2 (h₂.updateLive ?_))
      fun _ => (agree_pure _).2 h₂
    intro live
    simp [LiveOrder.dropCancel, LiveOrder.resolveMutation, LiveOrder.resolveAllMutations]
  · refine agree_bind (h₃.releaseUnboundPaperInterims ledger trades) fun _ s₄ t₄ h₄ => ?_
    exact agree_ite _ (fun _ => h₄.finishTerminalIfReady) fun _ => (agree_pure _).2 h₄

theorem flagsMatch_of_dropCancel {live : LiveOrder} {state : OrderState}
    {operation : Option OrderOperation} (h : flagsMatch terms live.dropCancel state operation) :
    flagsMatch terms live state operation := by
  unfold flagsMatch at h ⊢
  rcases h with same | ⟨paper, own, flags, gtc, bare, meta', on | ou | oc | full⟩
  · exact .inl same
  · exact .inr ⟨paper, own, flags, gtc, bare, meta', .inl on⟩
  · exact .inr ⟨paper, own, flags, gtc, bare, meta', .inr (.inl ou)⟩
  · exact absurd oc.2.2 (by simp [LiveOrder.dropCancel, LiveOrder.resolveMutation])
  · exact .inr ⟨paper, own, flags, gtc, bare, meta', .inr (.inr (.inr full))⟩

/-- The frame's flags are the one thing that reads an outstanding cancel. -/
theorem validateOrderState (live : LiveOrder) (state : OrderState)
    (flags : flagsMatch terms live state (some .oc) →
      flagsMatch terms live.dropCancel state (some .oc)) :
    Bitfinex.validateOrderState terms live.dropCancel state (some .oc) =
      Bitfinex.validateOrderState terms live state (some .oc) := by
  have same : flagsMatch terms live.dropCancel state (some .oc) ↔
      flagsMatch terms live state (some .oc) := ⟨flagsMatch_of_dropCancel, flags⟩
  unfold Bitfinex.validateOrderState
  exact raiseIf_congr (by rw [same]; rfl)

theorem validatedUnboundPaperInterims (terms : Terms) (h : Dropped s t) (state : OrderState)
    (operation : Option OrderOperation) :
    Bitfinex.validatedUnboundPaperInterims terms t state operation =
      Bitfinex.validatedUnboundPaperInterims terms s state operation := by
  have staged : stagedInterims terms t state operation =
      stagedInterims terms s state operation := by
    unfold stagedInterims
    rw [h.unboundPaperInterimFills]
  unfold Bitfinex.validatedUnboundPaperInterims
  rw [staged, h.live]
  rfl

theorem handleOrder (h : Dropped s t) (ledger : Ledger) (state : OrderState)
    (flags : flagsMatch terms s.live state (some .oc) →
      flagsMatch terms s.live.dropCancel state (some .oc)) :
    Agree Dropped (handleOrder terms ledger .oc state)
      (handleOrder terms ledger .oc state) s t := by
  have valid := validateOrderState s.live state flags
  have staged := h.validatedUnboundPaperInterims terms state (some .oc)
  rcases t with ⟨_, _, _, _, generated⟩
  obtain ⟨rfl, rfl, rfl, rfl, moves⟩ := id h
  have terminal : s.live.dropCancel.terminal = s.live.terminal := rfl
  have rejection : s.live.dropCancel.rejectionKey = s.live.rejectionKey := rfl
  have refused : rejectionOf terms s.live.dropCancel state = rejectionOf terms s.live state := rfl
  simp only [Bitfinex.handleOrder, agree_look_bind, id, valid, staged, terminal, rejection, refused]
  refine agree_bind (agree_check (resolveLive terms s.live _ _) h) fun known s₁ t₁ h₁ => ?_
  refine agree_ite _ (fun _ => (agree_pure _).2 h₁) fun _ => ?_
  cases s.live.terminal with
  | some terminal => exact agree_raiseWhen _ _ h₁
  | none =>
    refine agree_bind (agree_check _ h₁) fun _ s₂ t₂ h₂ => ?_
    refine agree_bind (agree_check _ h₂) fun trades s₃ t₃ h₃ => ?_
    refine agree_bind (agree_check _ h₃) fun _ s₄ t₄ h₄ => ?_
    refine agree_bind (agree_raiseWhen (rejectionOf terms s.live state ≠ none ∧ trades ≠ []) _ h₄)
      fun _ s₅ t₅ h₅ => ?_
    refine agree_bind ((agree_change _ _).2 (h₅.updateLive ?_)) fun _ s₆ t₆ h₆ => ?_
    · exact fun live => rfl
    · cases s.live.rejectionKey with
      | some key =>
        exact agree_raiseWhen (rejectionOf terms s.live state = none ∨ key ≠ .status state.status)
          _ h₆
      | none =>
        dsimp only
        cases rejectionOf terms s.live state with
        | none => exact h₆.bindOrder ledger state _ trades
        | some reason =>
          refine (agree_change _ _).2 ((h₆.generate _).updateLive fun live => ?_)
          simp [LiveOrder.dropCancel, LiveOrder.resolveMutation, LiveOrder.resolveAllMutations]

end Dropped

section Race

variable {terms : Terms} {c s t u : Client}

/-- What a call leaves that neither fills nor answers the cancel. -/
structure Kept (s t : Client) : Prop where
  venue : s.live.venueOrderId ≠ none → t.live.venueOrderId = s.live.venueOrderId
  rejection : t.live.rejectionKey = s.live.rejectionKey
  accepted : s.live.accepted = true → t.live.accepted = true
  terminal : t.live.terminal = s.live.terminal
  filled : t.live.filledQty = s.live.filledQty
  retired : t.live.retired = s.live.retired
  outstanding : t.live.outstanding ↔ s.live.outstanding

/-- What a trade may do: nothing, or a fill, which answers the cancel when it is the last. -/
structure Traded (terms : Terms) (s t : Client) : Prop where
  venue : s.live.venueOrderId ≠ none → t.live.venueOrderId = s.live.venueOrderId
  rejection : t.live.rejectionKey = s.live.rejectionKey
  accepted : s.live.accepted = true → t.live.accepted = true
  terminal : t.live.terminal = s.live.terminal
  retired : t.live.retired = s.live.retired
  fill : (t.live.filledQty = s.live.filledQty ∧ (t.live.outstanding ↔ s.live.outstanding)) ∨
    (s.live.filledQty < t.live.filledQty ∧ t.live.filledQty ≤ terms.quantity ∧
      (t.live.outstanding ↔ s.live.outstanding ∧ t.live.filledQty ≠ terms.quantity))

theorem Kept.refl (s : Client) : Kept s s := ⟨fun _ => rfl, rfl, id, rfl, rfl, rfl, Iff.rfl⟩

theorem Kept.trans (first : Kept s t) (second : Kept t u) : Kept s u where
  venue := fun bound => by
    have here := first.venue bound
    rw [second.venue (here ▸ bound), here]
  rejection := second.rejection.trans first.rejection
  accepted := fun accepted => second.accepted (first.accepted accepted)
  terminal := second.terminal.trans first.terminal
  filled := second.filled.trans first.filled
  retired := second.retired.trans first.retired
  outstanding := second.outstanding.trans first.outstanding

theorem Kept.traded (h : Kept s t) : Traded terms s t :=
  ⟨h.venue, h.rejection, h.accepted, h.terminal, h.retired, .inl ⟨h.filled, h.outstanding⟩⟩

theorem Traded.tables (h : Traded terms s t) (live : u.live = t.live) : Traded terms s u := by
  obtain ⟨venue, rejection, accepted, terminal, retired, fill⟩ := h
  rw [← live] at venue rejection accepted terminal retired fill
  exact ⟨venue, rejection, accepted, terminal, retired, fill⟩

theorem Traded.kept (h : Traded terms s t) (kept : Kept t u) : Traded terms s u where
  venue := fun bound => by
    have here := h.venue bound
    rw [kept.venue (here ▸ bound), here]
  rejection := kept.rejection.trans h.rejection
  accepted := fun accepted => kept.accepted (h.accepted accepted)
  terminal := kept.terminal.trans h.terminal
  retired := kept.retired.trans h.retired
  fill := by
    rw [kept.filled, kept.outstanding]
    exact h.fill

/-- A trade never makes a cancel outstanding. -/
theorem Traded.outstanding (h : Traded terms s t) (out : t.live.outstanding) :
    s.live.outstanding := by
  rcases h.fill with ⟨-, same⟩ | ⟨-, -, settled⟩
  · exact same.1 out
  · exact (settled.1 out).1

theorem accept_kept (venueOrderId tsEvent : ℕ) :
    wp (accept venueOrderId tsEvent) (fun _ => Kept s) (fun _ => True) s := by
  simp only [accept, wp_bind, wp_look, wp_raiseWhen, wp_change, wp_ite, wp_pure]
  refine ⟨fun _ => trivial, fun same => ?_⟩
  have venue : s.live.venueOrderId ≠ none → some venueOrderId = s.live.venueOrderId := by
    intro bound
    by_contra other
    exact same ⟨bound, fun here => other here.symm⟩
  refine ⟨fun _ => ⟨venue, rfl, id, rfl, rfl, rfl, ?_⟩,
    fun _ => ⟨venue, rfl, fun _ => rfl, rfl, rfl, rfl, ?_⟩⟩
  · simp [Client.updateLive, LiveOrder.outstanding, LiveOrder.resolveMutation]
  · simp [Client.updateLive, Client.generate, LiveOrder.outstanding, LiveOrder.resolveMutation]

theorem ackPendingPrice_kept (price : ℚ) (tsEvent : ℕ) :
    wp (ackPendingPrice price tsEvent) (fun _ => Kept s) (fun _ => True) s := by
  simp only [ackPendingPrice, wp_bind, wp_look, wp_raiseWhen, wp_change, wp_ite, wp_pure]
  refine ⟨fun _ => .refl s, fun _ => ⟨fun _ => trivial, fun _ => ?_⟩⟩
  refine ⟨fun _ => rfl, rfl, id, rfl, rfl, rfl, ?_⟩
  simp [Client.updateLive, Client.generate, LiveOrder.outstanding, LiveOrder.resolveMutation]

theorem finishTerminalIfReady_kept :
    wp (finishTerminalIfReady terms) (fun _ => Kept s) (fun _ => True) s := by
  simp only [finishTerminalIfReady, wp_bind, wp_look]
  split
  · exact .refl s
  · simp only [generateCanceled, wp_bind, wp_raiseWhen, wp_ite, wp_pure, wp_check, wp_change]
    exact ⟨fun _ => trivial, fun _ => ⟨fun _ => .refl s, fun _ => ⟨fun _ _ => trivial, fun _ _ =>
      ⟨fun _ => ⟨fun _ => rfl, rfl, id, rfl, rfl, rfl, Iff.rfl⟩,
        fun _ => ⟨fun _ => rfl, rfl, id, rfl, rfl, rfl, Iff.rfl⟩⟩⟩⟩⟩

theorem applyTradeFill_traded {trade : TradeExecution} (positive : 0 < |trade.executionQty|) :
    wp (applyTradeFill terms trade) (fun _ => Traded terms s) (fun _ => True) s := by
  simp only [applyTradeFill, wp_bind, wp_look, wp_check]
  refine ⟨fun _ _ => trivial, fun _ checked => ?_⟩
  have room := (checkFill_eq_ok.1 checked).2.1
  refine wp_mono (accept_kept _ _) ?_ fun _ _ => trivial
  intro _ bound kept
  refine wp_mono (ackPendingPrice_kept _ _) ?_ fun _ _ => trivial
  intro _ acked kept'
  have kept := kept.trans kept'
  have grows : s.live.filledQty < s.live.filledQty + |trade.executionQty| := by linarith
  simp only [settleCancel, wp_change, wp_ite, wp_pure]
  refine ⟨fun full => ?_, fun short => ?_⟩
  · refine wp_mono finishTerminalIfReady_kept ?_ fun _ _ => trivial
    intro _ finished kept'
    refine Traded.kept ?_ kept'
    refine ⟨kept.venue, kept.rejection, kept.accepted, kept.terminal, kept.retired,
      .inr ⟨grows, room, ?_⟩⟩
    simp [Client.updateLive, Client.generate, LiveOrder.outstanding, LiveOrder.resolveMutation,
      full]
  · refine wp_mono finishTerminalIfReady_kept ?_ fun _ _ => trivial
    intro _ finished kept'
    refine Traded.kept ?_ kept'
    refine ⟨kept.venue, kept.rejection, kept.accepted, kept.terminal, kept.retired,
      .inr ⟨grows, room, ?_⟩⟩
    rw [← kept.outstanding]
    simp [Client.updateLive, Client.generate, LiveOrder.outstanding, LiveOrder.resolveMutation,
      short]

theorem handleTrade_traded (ledger : Ledger) (trade : TradeUpdate) :
    wp (handleTrade terms ledger trade) (fun _ => Traded terms s) (fun _ => True) s := by
  simp only [handleTrade, wp_bind, wp_look, wp_check, wp_ite, wp_raiseWhen]
  refine ⟨fun _ _ => trivial,
    fun _ _ => ⟨fun _ => ⟨fun _ => trivial, fun _ => (Kept.refl s).traded⟩,
    fun _ => ⟨fun _ => trivial, fun _ => ⟨fun _ _ => trivial, fun _ valid => ⟨fun _ _ => trivial,
    fun _ _ => ?_⟩⟩⟩⟩⟩
  split
  · simp only [wp_raiseWhen]
    exact ⟨fun _ => trivial, fun _ => (Kept.refl s).traded⟩
  · split
    · simp only [wp_bind, wp_raiseWhen]
      refine ⟨fun _ => trivial, fun _ => ?_⟩
      refine wp_mono finishTerminalIfReady_kept ?_ fun _ _ => trivial
      intro _ finished kept
      exact kept.traded.tables rfl
    · simp only [wp_bind, wp_check, wp_ite, wp_pure]
      refine ⟨fun _ _ => trivial, fun _ _ => ⟨fun _ => (Kept.refl s).traded, fun _ => ?_⟩⟩
      refine wp_mono (applyTradeFill_traded (validateTrade_positive valid)) ?_ fun _ _ => trivial
      intro _ filled traded
      exact traded.tables rfl

/-- The order's terminal frame leaves no cancel outstanding. -/
structure Answered (venueOrderId : Option ℕ) (t : Client) : Prop where
  venue : t.live.venueOrderId = venueOrderId
  bound : venueOrderId ≠ none
  held : t.live.retired = false
  answered : ¬t.live.outstanding

theorem Answered.traded {venueOrderId : Option ℕ} (h : Answered venueOrderId s)
    (traded : Traded terms s t) : Answered venueOrderId t :=
  ⟨(traded.venue (h.venue ▸ h.bound)).trans h.venue, h.bound, traded.retired.trans h.held,
    fun out => h.answered (traded.outstanding out)⟩

theorem Answered.releaseUnboundPaperInterims {venueOrderId : Option ℕ}
    (h : Answered venueOrderId s) (ledger : Ledger) {trades : List TradeExecution}
    (positive : ∀ trade ∈ trades, 0 < |trade.executionQty|) :
    wp (releaseUnboundPaperInterims terms ledger trades)
      (fun _ => Answered venueOrderId) (fun _ => True) s := by
  refine wp_each (fun trade member u answered => ?_) h
  simp only [releaseInterim, wp_bind, wp_check, wp_change]
  refine ⟨fun _ _ => trivial, fun _ _ => ?_⟩
  refine wp_mono (applyTradeFill_traded (positive trade member)) ?_ fun _ _ => trivial
  intro _ filled traded
  exact answered.traded (traded.tables rfl)

theorem bindOrder_answered (bound : s.live.venueOrderId ≠ none) (held : s.live.retired = false)
    (ledger : Ledger)
    (state : OrderState) {trades : List TradeExecution}
    (positive : ∀ trade ∈ trades, 0 < |trade.executionQty|) :
    wp (bindOrder terms ledger state (some .oc) trades)
      (fun _ => Answered s.live.venueOrderId) (fun _ => True) s := by
  simp only [bindOrder, wp_bind]
  refine wp_mono (accept_kept _ _) ?_ fun _ _ => trivial
  intro _ accepted kept
  refine wp_mono (ackPendingPrice_kept _ _) ?_ fun _ _ => trivial
  intro _ acked kept'
  have kept := kept.trans kept'
  simp only [closeOrder, if_true, wp_change]
  have answered : Answered s.live.venueOrderId (acked.updateLive fun live =>
      { live with pendingCancel := false, terminal := some state }.resolveAllMutations) := by
    refine ⟨kept.venue bound, bound, kept.retired.trans held, ?_⟩
    simp [Client.updateLive, LiveOrder.outstanding, LiveOrder.resolveAllMutations]
  refine wp_mono (answered.releaseUnboundPaperInterims ledger positive) ?_ fun _ _ => trivial
  intro _ released answered
  refine wp_mono finishTerminalIfReady_kept ?_ fun _ _ => trivial
  intro _ finished kept
  exact answered.traded (kept.traded : Traded terms _ _)

theorem handleOrder_answered (accepted : s.live.accepted = true)
    (bound : s.live.venueOrderId ≠ none) (working : s.live.terminal = none)
    (unrejected : s.live.rejectionKey = none) {state : OrderState}
    (known : resolveLive terms s.live state.clientOrderId (some state.venueOrderId) = .ok true)
    (ledger : Ledger) :
    wp (handleOrder terms ledger .oc state) (fun _ t => Answered s.live.venueOrderId t ∧
      flagsMatch terms s.live state (some .oc)) (fun _ => True) s := by
  simp only [handleOrder, wp_bind, wp_look, wp_check, wp_ite, wp_pure, id, known, working,
    unrejected, wp_raiseWhen, wp_change]
  refine ⟨fun _ _ => trivial, fun found ok => ⟨fun unknown => ?_, fun _ => ⟨fun _ _ => trivial,
    fun _ valid => ⟨fun _ _ => trivial, fun trades staged => ⟨fun _ _ => trivial, fun _ _ =>
    ⟨fun _ => trivial, fun _ => ?_⟩⟩⟩⟩⟩⟩
  · cases ok
    cases unknown
  · have flags : flagsMatch terms s.live state (some .oc) := by
      rw [validateOrderState, raiseIf_eq_ok] at valid
      push Not at valid
      exact valid.2.2.2.2.2.2.2.2.1
    have unrefused : rejectionOf terms s.live state = none := by
      simp [rejectionOf, accepted]
    simp only [unrefused]
    have verified : (s.updateLive ({ · with venueFlagsVerified := true })).live.venueOrderId ≠
      none := bound
    refine wp_mono
      (bindOrder_answered verified (held_of_known known) ledger state
      (validatedUnbound_positive staged)) ?_
      fun _ _ => trivial
    intro _ closed answered
    exact ⟨answered, flags⟩

/-- Every handler returns. -/
def returnsAll (terms : Terms) (c : Client) : List Input → Bool
  | [] => true
  | input :: inputs => (handle terms input).returns c &&
    returnsAll terms ((handle terms input).after c) inputs

theorem returnsAll_append (first second : List Input) :
    returnsAll terms c (first ++ second) =
      (returnsAll terms c first && returnsAll terms (run terms c first) second) := by
  induction first generalizing c with
  | nil => rfl
  | cons input first ih =>
    simp only [List.cons_append, returnsAll, ih, Bool.and_assoc]
    rfl

theorem run_append (first second : List Input) :
    run terms c (first ++ second) = run terms (run terms c first) second := by
  simp [run]

/-- Final trade updates as they arrive. -/
def updates (trades : List (TradeUpdate × Ledger)) : List Input :=
  trades.map fun trade => .tu trade.1 trade.2

variable {trades : List (TradeUpdate × Ledger)}

/-- How long trades leave a cancel outstanding. `initial` is the quantity filled before them. -/
structure Waiting (terms : Terms) (venueOrderId : Option ℕ) (initial : ℚ) (s : Client) : Prop where
  venue : s.live.venueOrderId = venueOrderId
  bound : venueOrderId ≠ none
  held : s.live.retired = false
  accepted : s.live.accepted = true
  working : s.live.terminal = none
  unrejected : s.live.rejectionKey = none
  grown : initial ≤ s.live.filledQty
  outstanding : s.live.outstanding ↔ (s.live.filledQty = terms.quantity → initial = terms.quantity)

theorem Waiting.traded {venueOrderId : Option ℕ} {initial : ℚ}
    (h : Waiting terms venueOrderId initial s) (traded : Traded terms s t) :
    Waiting terms venueOrderId initial t := by
  constructor
  · exact (traded.venue (h.venue ▸ h.bound)).trans h.venue
  · exact h.bound
  · exact traded.retired.trans h.held
  · exact traded.accepted h.accepted
  · exact traded.terminal.trans h.working
  · exact traded.rejection.trans h.unrejected
  · have := h.grown
    rcases traded.fill with ⟨same, -⟩ | ⟨grows, -⟩ <;> linarith
  · rcases traded.fill with ⟨same, out⟩ | ⟨grows, within, out⟩
    · rw [out, same]
      exact h.outstanding
    · have short : s.live.filledQty ≠ terms.quantity := by linarith
      have fresh : initial ≠ terms.quantity := by linarith [h.grown]
      have waits : s.live.outstanding := h.outstanding.2 fun full => absurd full short
      rw [out]
      simp [waits, fresh]

theorem Waiting.afterUpdates {venueOrderId : Option ℕ} {initial : ℚ}
    (h : Waiting terms venueOrderId initial s)
    (returned : returnsAll terms s (updates trades) = true) :
    Waiting terms venueOrderId initial (run terms s (updates trades)) := by
  induction trades generalizing s with
  | nil => exact h
  | cons trade trades ih =>
    obtain ⟨first, rest⟩ := Bool.and_eq_true_iff.1 returned
    exact ih (h.traded (after_of_returns (handleTrade_traded trade.2 trade.1) first)) rest

theorem Answered.afterUpdates {venueOrderId : Option ℕ} (h : Answered venueOrderId s)
    (returned : returnsAll terms s (updates trades) = true) :
    Answered venueOrderId (run terms s (updates trades)) := by
  induction trades generalizing s with
  | nil => exact h
  | cons trade trades ih =>
    obtain ⟨first, rest⟩ := Bool.and_eq_true_iff.1 returned
    exact ih (h.traded (after_of_returns (handleTrade_traded trade.2 trade.1) first)) rest

theorem Dropped.afterUpdates (terms : Terms) (h : Dropped s t)
    (trades : List (TradeUpdate × Ledger)) :
    returnsAll terms t (updates trades) = returnsAll terms s (updates trades) ∧
      Dropped (run terms s (updates trades)) (run terms t (updates trades)) := by
  induction trades generalizing s t with
  | nil => exact ⟨rfl, h⟩
  | cons trade trades ih =>
    have step := h.handleTrade terms trade.2 trade.1
    obtain ⟨returned, dropped⟩ := ih step.after
    refine ⟨?_, dropped⟩
    simp only [updates, List.map_cons, returnsAll, Bitfinex.handle] at returned ⊢
    rw [returned, step.returns]

/-- The refusal of a cancel the venue could not carry out. -/
structure Refusal (terms : Terms) (live : LiveOrder) (note : Notification) : Prop where
  operation : note.operation = .oc
  failed : note.status ≠ .success
  known : resolveLive terms live note.clientOrderId note.venueOrderId = .ok true

theorem resolveLive_venue {live next : LiveOrder} (same : next.venueOrderId = live.venueOrderId)
    (held : next.retired = false) (held' : live.retired = false)
    (clientOrderId venueOrderId : Option ℕ) :
    resolveLive terms next clientOrderId venueOrderId =
      resolveLive terms live clientOrderId venueOrderId := by
  unfold resolveLive
  rw [same, held, held']

/-- The refusal passes exactly while the cancel is outstanding. -/
theorem handleNotification_refusal {note : Notification} (refusal : Refusal terms s.live note)
    (unrejected : s.live.rejectionKey = none) (out : s.live.outstanding) :
    (handle terms (.notification note)).returns s = true ∧
      Dropped s ((handle terms (.notification note)).after s) := by
  apply returns_of_wp
  obtain ⟨operation, failed, known⟩ := refusal
  simp only [Bitfinex.handle, handleNotification, wp_bind, wp_look, wp_check, wp_ite, wp_pure,
    known, unrejected, operation, refuseCancel, wp_raiseWhen, wp_change]
  refine ⟨fun success => absurd success failed, fun _ => ⟨fun error same => (by cases same),
    fun found ok => ⟨fun unknown => ?_, fun _ => ⟨fun answered => ?_, fun _ => ?_⟩⟩⟩⟩
  · cases ok
    cases unknown
  · rcases out with pending | unknown
    · exact absurd (pending.symm.trans answered.1) (by simp)
    · exact answered.2 unknown
  · exact ⟨rfl, rfl, rfl, rfl, by simp [movesNative, Client.updateLive, Client.generate,
      Generated.kind]⟩

theorem handleNotification_unexpected {note : Notification} (refusal : Refusal terms s.live note)
    (answered : ¬s.live.outstanding) : (handle terms (.notification note)).returns s = false := by
  obtain ⟨operation, failed, known⟩ := refusal
  rw [← Bool.not_eq_true]
  intro returned
  suffices raises : wp (handle terms (.notification note)) (fun _ _ => False) (fun _ => True) s from
    after_of_returns raises returned
  simp only [Bitfinex.handle, handleNotification, wp_bind, wp_look, wp_check, wp_ite, wp_pure,
    known, operation]
  refine ⟨fun success => absurd success failed, fun _ => ⟨fun error same => (by cases same),
    fun found ok => ⟨fun unknown => ?_, fun _ => ?_⟩⟩⟩
  · cases ok
    cases unknown
  · split
    · simp only [wp_raiseWhen]
      exact ⟨fun _ => trivial, fun same => same (.inl (by simp [operation]))⟩
    · simp only [refuseCancel, wp_bind, wp_look, wp_raiseWhen, wp_change]
      refine ⟨fun _ => trivial, fun waits => answered ?_⟩
      by_cases pending : s.live.pendingCancel = true
      · exact .inl pending
      · refine .inr ?_
        by_contra absent
        exact waits ⟨by simpa using pending, absent⟩

theorem Dropped.nativeStatus (h : Dropped s t) : nativeStatus terms t = nativeStatus terms s := by
  have same : ∀ kind : Kind, kind ≠ .other →
      (kind ∈ kinds t.generated ↔ kind ∈ kinds s.generated) := by
    intro kind moves
    rw [← kinds_movesNative moves, h.moves, kinds_movesNative moves]
  have filled : t.live.filledQty = s.live.filledQty := by
    rw [h.live]
    rfl
  simp only [Bitfinex.nativeStatus, same .rejected (by simp), same .canceled (by simp), filled]

/-- An order whose cancel the venue has not answered. -/
structure CancelPending (c : Client) : Prop where
  accepted : c.live.accepted = true
  bound : c.live.venueOrderId ≠ none
  working : c.live.terminal = none
  unrejected : c.live.rejectionKey = none
  outstanding : c.live.outstanding

theorem CancelPending.waiting (h : CancelPending c) (held : c.live.retired = false) :
    Waiting terms c.live.venueOrderId c.live.filledQty c :=
  ⟨rfl, h.bound, held, h.accepted, h.working, h.unrejected, le_refl _,
    ⟨fun _ full => full, fun _ => h.outstanding⟩⟩

/-- The order's remaining frames, its terminal frame after the trades of `first`. -/
def frames (first : List (TradeUpdate × Ledger)) (state : OrderState) (ledger : Ledger)
    (second : List (TradeUpdate × Ledger)) : List Input :=
  updates first ++ .order .oc state ledger :: updates second

/-- No handler raises, the native order ends as by the frames alone, and no cancel is pending. -/
def Settles (terms : Terms) (c : Client) (frames inputs : List Input) : Prop :=
  returnsAll terms c inputs = true ∧
  movesNative (run terms c inputs).generated = movesNative (run terms c frames).generated ∧
  nativeStatus terms (run terms c inputs) = nativeStatus terms (run terms c frames) ∧
  ¬(run terms c inputs).live.outstanding

/-- The refusal comes before the terminal frame and before the trade that fills the order, and
the terminal frame does not need the pending cancel to excuse its flags. -/
def Timely (terms : Terms) (c : Client) (first : List (TradeUpdate × Ledger)) (state : OrderState)
    (before : List Input) : Prop :=
  (∃ rest, updates first = before ++ rest) ∧
  ((run terms c before).live.filledQty = terms.quantity → c.live.filledQty = terms.quantity) ∧
  flagsMatch terms (run terms c (updates first)).live.dropCancel state (some .oc)

theorem updates_append (first second : List (TradeUpdate × Ledger)) :
    updates (first ++ second) = updates first ++ updates second := by
  simp [updates]

/-- The terminal frame and the trades after it, from a client whose cancel was refused. -/
theorem Dropped.tail (h : Dropped s t) {second : List (TradeUpdate × Ledger)} {state : OrderState}
    {ledger : Ledger} (flags : flagsMatch terms s.live.dropCancel state (some .oc))
    (returned : returnsAll terms s (.order .oc state ledger :: updates second) = true) :
    returnsAll terms t (.order .oc state ledger :: updates second) = true ∧
      Dropped (run terms s (.order .oc state ledger :: updates second))
        (run terms t (.order .oc state ledger :: updates second)) := by
  obtain ⟨closing, rest⟩ := Bool.and_eq_true_iff.1 returned
  have step := h.handleOrder ledger state fun _ => flags
  obtain ⟨same, dropped⟩ := step.after.afterUpdates terms second
  refine ⟨Bool.and_eq_true_iff.2 ⟨?_, same.trans rest⟩, dropped⟩
  exact step.returns.symm.trans closing

/-- The refusal between two trades, both before the terminal frame. -/
theorem settles_early (pending : CancelPending c) {note : Notification}
    (refusal : Refusal terms c.live note) {early late second : List (TradeUpdate × Ledger)}
    {state : OrderState} {ledger : Ledger}
    (known : resolveLive terms c.live state.clientOrderId (some state.venueOrderId) = .ok true)
    (returned : returnsAll terms c (frames (early ++ late) state ledger second) = true) :
    Settles terms c (frames (early ++ late) state ledger second)
        (updates early ++ .notification note :: (updates late ++
          .order .oc state ledger :: updates second)) ↔
      Timely terms c (early ++ late) state (updates early) := by
  have split : frames (early ++ late) state ledger second =
      updates early ++ (updates late ++ .order .oc state ledger :: updates second) := by
    simp [frames, updates_append]
  rw [split] at returned ⊢
  simp only [returnsAll_append, Bool.and_eq_true] at returned
  obtain ⟨first, second', third⟩ := returned
  have held := held_of_known known
  have here := (pending.waiting held).afterUpdates first
  have there := here.afterUpdates second'
  have refusal' : Refusal terms (run terms c (updates early)).live note :=
    ⟨refusal.operation, refusal.failed, (resolveLive_venue here.venue here.held held _ _).trans
      refusal.known⟩
  by_cases out : (run terms c (updates early)).live.outstanding
  · obtain ⟨passes, dropped⟩ := handleNotification_refusal refusal' here.unrejected out
    obtain ⟨same, dropped'⟩ := dropped.afterUpdates terms late
    have meets : run terms c (updates (early ++ late)) =
        run terms (run terms c (updates early)) (updates late) := by
      rw [updates_append, run_append]
    constructor
    · rintro ⟨all, -⟩
      refine ⟨⟨updates late, updates_append early late⟩, here.outstanding.1 out, ?_⟩
      simp only [returnsAll_append, returnsAll, Bool.and_eq_true] at all
      obtain ⟨-, -, -, closes, -⟩ := all
      rw [meets, ← dropped'.live]
      refine (after_of_returns (handleOrder_answered ?_ ?_ ?_ ?_ ?_ ledger) closes).2
      all_goals rw [dropped'.live]
      · exact there.accepted
      · exact there.venue ▸ there.bound
      · exact there.working
      · exact there.unrejected
      · exact (resolveLive_venue there.venue there.held held _ _).trans known
    · rintro ⟨-, -, flags⟩
      rw [meets] at flags
      obtain ⟨closes, ends⟩ := dropped'.tail flags third
      have last : Dropped
          (run terms c
            (updates early ++ (updates late ++ .order .oc state ledger :: updates second)))
          (run terms c (updates early ++ .notification note :: (updates late ++
            .order .oc state ledger :: updates second))) := by
        rw [run_append, run_append, run_append]
        simpa only [run, List.foldl_cons, List.foldl_append] using ends
      refine ⟨?_, last.moves, last.nativeStatus, ?_⟩
      · simp only [returnsAll_append, returnsAll, Bool.and_eq_true]
        exact ⟨first, passes, same.trans second', Bool.and_eq_true_iff.1 closes⟩
      · rw [last.live]
        exact LiveOrder.not_outstanding_dropCancel _
  · have raises := handleNotification_unexpected refusal' out
    constructor
    · rintro ⟨all, -⟩
      simp [returnsAll_append, returnsAll, raises] at all
    · rintro ⟨-, unfilled, -⟩
      exact absurd (here.outstanding.2 unfilled) out

/-- The refusal after the terminal frame. -/
theorem not_settles_late (pending : CancelPending c) {note : Notification}
    (refusal : Refusal terms c.live note) {first early late : List (TradeUpdate × Ledger)}
    {state : OrderState} {ledger : Ledger}
    (known : resolveLive terms c.live state.clientOrderId (some state.venueOrderId) = .ok true)
    (returned : returnsAll terms c (frames first state ledger (early ++ late)) = true) :
    ¬Settles terms c (frames first state ledger (early ++ late))
      (frames first state ledger early ++ .notification note :: updates late) := by
  have split : frames first state ledger (early ++ late) =
      frames first state ledger early ++ updates late := by
    simp [frames, updates_append]
  rw [split, returnsAll_append, Bool.and_eq_true] at returned
  obtain ⟨returned, -⟩ := returned
  have held := held_of_known known
  have answered : Answered c.live.venueOrderId (run terms c (frames first state ledger early)) := by
    simp only [frames, returnsAll_append, returnsAll, Bool.and_eq_true] at returned
    obtain ⟨trades, closes, rest⟩ := returned
    have here := (pending.waiting held).afterUpdates trades
    have closed := (after_of_returns (handleOrder_answered here.accepted (here.venue ▸ here.bound)
      here.working here.unrejected ((resolveLive_venue here.venue here.held held _ _).trans known)
        ledger)
      closes).1
    rw [here.venue] at closed
    rw [frames, run_append]
    exact closed.afterUpdates rest
  rintro ⟨all, -⟩
  have refusal' : Refusal terms (run terms c (frames first state ledger early)).live note :=
    ⟨refusal.operation, refusal.failed,
      (resolveLive_venue answered.venue answered.held held _ _).trans refusal.known⟩
  have raises := handleNotification_unexpected refusal' answered.answered
  simp [returnsAll_append, returnsAll, raises] at all

end Race

/-- When the refusal of a cancel passes among the order's remaining frames, wherever it falls. -/
theorem cancel_race (terms : Terms) (c : Client) (pending : CancelPending c) (note : Notification)
    (refusal : Refusal terms c.live note) (first second : List (TradeUpdate × Ledger))
    (state : OrderState) (ledger : Ledger)
    (known : resolveLive terms c.live state.clientOrderId (some state.venueOrderId) = .ok true)
    (returned : returnsAll terms c (frames first state ledger second) = true)
    (before after : List Input) (order : frames first state ledger second = before ++ after) :
    Settles terms c (frames first state ledger second) (before ++ .notification note :: after) ↔
      Timely terms c first state before := by
  rcases List.append_eq_append_iff.1 order with ⟨rest, rfl, closes⟩ | ⟨rest, trades, rfl⟩
  · cases rest with
    | nil =>
      rw [List.nil_append] at closes
      subst closes
      have whole : returnsAll terms c (frames (first ++ []) state ledger second) = true := by
        simpa using returned
      have early := settles_early pending refusal known whole
      simpa [updates] using early
    | cons closing rest =>
      rw [List.cons_append, List.cons.injEq] at closes
      obtain ⟨rfl, trades⟩ := closes
      obtain ⟨early, late, rfl, rfl, rfl⟩ := List.map_eq_append_iff.1 trades
      have late := not_settles_late pending refusal known returned
      constructor
      · intro settles
        exact absurd settles (by simpa [frames, updates] using late)
      · rintro ⟨⟨rest, trades⟩, -⟩
        have := congrArg List.length trades
        simp at this
  · obtain ⟨early, late, rfl, rfl, rfl⟩ := List.map_eq_append_iff.1 trades
    exact settles_early pending refusal known returned

/-- A resting Maker whose cancel is under way. -/
def cancelingMaker : Client :=
  run makerTerms ⟨.submitted makerTerms, .empty, .empty, .empty, []⟩
    [.order .on (makerState 4 "ACTIVE") {}, .cancel 0]

def cancelRefusal : Notification where
  tsEventMs := 1700000000040
  operation := .oc
  venueOrderId := some 777
  clientOrderId := some 4567
  code := some 10001
  status := .error
  text := "Order not found."

def executedMaker : OrderState := makerState 0 "EXECUTED @ 3926.0(4)"

/-- The trade that fills the order wins the race: its cancel's refusal is then unexpected. -/
theorem refusal_after_fill_raises :
    cancelingMaker.live.accepted = true ∧ cancelingMaker.live.pendingCancel = true ∧
      cancelingMaker.live.terminal = none ∧
      returnsAll makerTerms cancelingMaker
        [.tu (makerTrade 901 4) {}, .order .oc executedMaker {}] = true ∧
      returnsAll makerTerms cancelingMaker
        [.tu (makerTrade 901 4) {}, .notification cancelRefusal,
          .order .oc executedMaker {}] = false := by
  decide +kernel

theorem cancelingMaker_pending : CancelPending cancelingMaker :=
  ⟨by decide +kernel, by decide +kernel, by decide +kernel, by decide +kernel,
    .inl (by decide +kernel)⟩

/-- The refusal wins the race. -/
theorem cancel_race_refused_first :
    Settles makerTerms cancelingMaker (frames [(makerTrade 901 4, {})] executedMaker {} [])
      (.notification cancelRefusal :: frames [(makerTrade 901 4, {})] executedMaker {} []) :=
  (cancel_race makerTerms cancelingMaker cancelingMaker_pending cancelRefusal
    ⟨rfl, by decide, by decide +kernel⟩ [(makerTrade 901 4, {})] [] executedMaker {}
    (by decide +kernel) (by decide +kernel) [] _ rfl).2
    ⟨⟨_, rfl⟩, fun full => full, .inl (by decide +kernel)⟩

end ArbNautilus.Bitfinex
