import ArbNautilus.Bitfinex.Closed

namespace ArbNautilus.Bitfinex

open Base Base.Handler

section Heads

variable {text : Text}

/-- No text starts with a head of both lists. -/
def apart (as bs : List String) : Bool :=
  as.all fun a => bs.all fun b =>
    a.toList.isPrefixOf b.toList = false ∧ b.toList.isPrefixOf a.toList = false

/-- Every text with a head of `as` has one of `bs`. -/
def covers (bs as : List String) : Bool :=
  as.all fun a => bs.any fun b => b.toList.isPrefixOf a.toList

theorem startsWithAny_iff {heads : List String} :
    startsWithAny text heads = true ↔ ∃ head ∈ heads, head.toList <+: text := by
  simp [startsWithAny, startsWith]

theorem startsWithAny_apart {as : List String} (bs : List String) (h : startsWithAny text as = true)
    (separate : apart as bs = true) : startsWithAny text bs = false := by
  obtain ⟨a, here, start⟩ := startsWithAny_iff.1 h
  rw [← Bool.not_eq_true, startsWithAny_iff]
  rintro ⟨b, there, start'⟩
  simp only [apart, List.all_eq_true, decide_eq_true_eq] at separate
  obtain ⟨first, second⟩ := separate a here b there
  rcases List.prefix_or_prefix_of_prefix start start' with nested | nested
  · rw [List.isPrefixOf_iff_prefix.2 nested] at first
    cases first
  · rw [List.isPrefixOf_iff_prefix.2 nested] at second
    cases second

theorem startsWithAny_covered {as bs : List String} (h : startsWithAny text as = true)
    (covered : covers bs as = true) : startsWithAny text bs = true := by
  obtain ⟨a, here, start⟩ := startsWithAny_iff.1 h
  simp only [covers, List.all_eq_true, List.any_eq_true] at covered
  obtain ⟨b, there, head⟩ := covered a here
  exact startsWithAny_iff.2 ⟨b, there, (List.isPrefixOf_iff_prefix.1 head).trans start⟩

end Heads

/-! The cancellation reasons of a terminal frame: those that never reject an order, those that
reject it in both tables, and those that reject it on the stream alone. -/

def plainReasons : List String := ["CANCELED", "IOC CANCELED"]

def refusedReasons : List String := ["POSTONLY CANCELED", "INSUFFICIENT MARGIN"]

def pausedReasons : List String := ["RSN_DUST", "RSN_PAUSE"]

section Classifiers

variable {upper : Text → Text} {state : OrderState} {accepted : Bool} {status : Text}
  {filled total : ℚ}

/-- The native status a terminal frame leads to once its fills are applied. -/
def streamStatus (upper : Text → Text) (accepted : Bool) (state : OrderState) : OrderStatus :=
  if accepted = false ∧ terminalFilled state = 0 ∧ initialRejection upper state.status ≠ none then
    .rejected
  else if terminalFilled state < |state.originalQty| then .canceled
  else .filled

/-- When both classifiers give a terminal frame the same status. -/
def Agrees (upper : Text → Text) (accepted : Bool) (state : OrderState) : Prop :=
  startsWith (upper state.status) "EXECUTED" = true ∨
    terminalFilled state < |state.originalQty| ∧
      (terminalFilled state ≠ 0 ∨ startsWithAny (upper state.status) plainReasons = true ∨
        (accepted = true ∧ startsWithAny (upper state.status) pausedReasons = true) ∨
        (accepted = false ∧ startsWithAny (upper state.status) refusedReasons = true))

theorem terminalFilled_le (state : OrderState) : terminalFilled state ≤ |state.originalQty| := by
  have := abs_nonneg state.remainingQty
  unfold terminalFilled
  linarith

theorem startsWithAny_append (text : Text) (as bs : List String) :
    startsWithAny text (as ++ bs) = (startsWithAny text as || startsWithAny text bs) := by
  simp [startsWithAny]

theorem terminalDisposition_eq_ok {disposition : Disposition} :
    terminalDisposition upper state = .ok disposition ↔
      (disposition = .executed ∧ startsWith (upper state.status) "EXECUTED" = true ∧
        terminalFilled state = |state.originalQty|) ∨
      (disposition = .canceled ∧ startsWith (upper state.status) "EXECUTED" = false ∧
        startsWithAny (upper state.status) canceledPrefixes = true) := by
  unfold terminalDisposition
  dsimp only
  split_ifs <;> cases disposition <;> simp_all

/-- The stream's cancellation reasons, one list after the other. -/
theorem canceledPrefixes_split (text : Text) :
    startsWithAny text canceledPrefixes = true ↔ startsWithAny text plainReasons = true ∨
      startsWithAny text refusedReasons = true ∨ startsWithAny text pausedReasons = true := by
  have parts : canceledPrefixes = plainReasons ++ (refusedReasons ++ pausedReasons) := rfl
  rw [parts, startsWithAny_append, startsWithAny_append, Bool.or_eq_true, Bool.or_eq_true]

theorem initialRejection_ne_none :
    initialRejection upper status ≠ none ↔
      startsWithAny (upper status) initialRejections = true := by
  simp [initialRejection, startsWithAny, List.find?_eq_none]

def historyExecuted : List String := ["EXECUTED", "FORCED EXECUTED"]

def historyCanceled : List String :=
  ["CANCELED", "IOC CANCELED", "FOK CANCELED", "PARTIALLY FILLED", "RSN"]

def historyRejected : List String :=
  ["POSTONLY CANCELED", "INSUFFICIENT MARGIN", "INSUFFICIENT BALANCE"]

theorem orderStatus_executed (h : startsWithAny (upper status) historyExecuted = true) :
    orderStatus upper status false filled total =
      if filled = total then .ok .filled
      else .error (.reportError "executed Bitfinex order is not fully filled") := by
  unfold historyExecuted at h
  simp [orderStatus, h]

theorem orderStatus_canceled {result : OrderStatus}
    (h : startsWithAny (upper status) historyCanceled = true)
    (unexecuted : startsWithAny (upper status) historyExecuted = false)
    (unrejected : startsWithAny (upper status) historyRejected = false) :
    orderStatus upper status false filled total = .ok result ↔
      filled < total ∧ result = .canceled := by
  unfold historyExecuted at unexecuted
  unfold historyCanceled at h
  unfold historyRejected at unrejected
  simp only [orderStatus, h, unexecuted, unrejected]
  by_cases short : filled < total
  · simp [short, eq_comm]
  · simp [short]

theorem orderStatus_rejected {result : OrderStatus}
    (h : startsWithAny (upper status) historyRejected = true)
    (unexecuted : startsWithAny (upper status) historyExecuted = false) :
    orderStatus upper status false filled total = .ok result ↔
      (filled = 0 ∧ result = .rejected) ∨ (filled ≠ 0 ∧ filled < total ∧ result = .canceled) := by
  unfold historyExecuted at unexecuted
  unfold historyRejected at h
  simp only [orderStatus, h, unexecuted]
  generalize startsWithAny (upper status)
    ["CANCELED", "IOC CANCELED", "FOK CANCELED", "PARTIALLY FILLED", "RSN"] = canceled
  by_cases none : filled = 0
  · simp [none, eq_comm]
  · by_cases short : filled < total
    · simp [none, short, eq_comm]
    · simp [none, short]

/-- The two tables, one reason at a time. -/
theorem orderStatus_eq_streamStatus_iff (accepted : Bool) {disposition : Disposition}
    (nonzero : state.originalQty ≠ 0)
    (disposed : terminalDisposition upper state = .ok disposition) :
    orderStatus upper state.status false (terminalFilled state) |state.originalQty| =
      .ok (streamStatus upper accepted state) ↔ Agrees upper accepted state := by
  rcases terminalDisposition_eq_ok.1 disposed with ⟨-, executed, full⟩ | ⟨-, unexecuted, reason⟩
  · have head : startsWithAny (upper state.status) ["EXECUTED"] = true := by
      simpa [startsWithAny] using executed
    have unrefused : initialRejection upper state.status = none := by
      have := startsWithAny_apart initialRejections head (by decide +kernel)
      by_contra refused
      exact absurd (initialRejection_ne_none.1 refused) (by simp [this])
    rw [orderStatus_executed (startsWithAny_covered head (by decide +kernel))]
    simp [streamStatus, Agrees, executed, full, unrefused]
  · rcases (canceledPrefixes_split _).1 reason with plain | refused | paused
    · have unrefused : initialRejection upper state.status = none := by
        have := startsWithAny_apart initialRejections plain (by decide +kernel)
        by_contra refused
        exact absurd (initialRejection_ne_none.1 refused) (by simp [this])
      rw [orderStatus_canceled (startsWithAny_covered plain (by decide +kernel))
        (startsWithAny_apart _ plain (by decide +kernel))
        (startsWithAny_apart _ plain (by decide +kernel))]
      simp [streamStatus, Agrees, unexecuted, plain, unrefused]
    · have first : initialRejection upper state.status ≠ none :=
        initialRejection_ne_none.2 (startsWithAny_covered refused (by decide +kernel))
      have plain := startsWithAny_apart plainReasons refused (by decide +kernel)
      have paused := startsWithAny_apart pausedReasons refused (by decide +kernel)
      rw [orderStatus_rejected (startsWithAny_covered refused (by decide +kernel))
        (startsWithAny_apart _ refused (by decide +kernel))]
      by_cases none : terminalFilled state = 0
      · cases accepted <;>
          simp [streamStatus, Agrees, unexecuted, refused, plain, paused, none, first, nonzero]
      · by_cases partly : terminalFilled state < |state.originalQty|
        · simp [streamStatus, Agrees, none, partly]
        · simp [streamStatus, Agrees, unexecuted, none, partly]
    · have first : initialRejection upper state.status ≠ none :=
        initialRejection_ne_none.2 (startsWithAny_covered paused (by decide +kernel))
      have plain := startsWithAny_apart plainReasons paused (by decide +kernel)
      have refused := startsWithAny_apart refusedReasons paused (by decide +kernel)
      rw [orderStatus_canceled (startsWithAny_covered paused (by decide +kernel))
        (startsWithAny_apart _ paused (by decide +kernel))
        (startsWithAny_apart _ paused (by decide +kernel))]
      by_cases partly : terminalFilled state < |state.originalQty|
      · by_cases none : terminalFilled state = 0
        · cases accepted <;>
            simp [streamStatus, Agrees, unexecuted, refused, plain, paused, none, first, nonzero]
        · simp [streamStatus, Agrees, none, partly]
      · simp [streamStatus, Agrees, unexecuted, partly]

end Classifiers

/-- The final status of the native order, as the generated events leave it. -/
def nativeStatus (terms : Terms) (c : Client) : Option OrderStatus :=
  if Kind.rejected ∈ kinds c.generated then some .rejected
  else if Kind.canceled ∈ kinds c.generated then some .canceled
  else if c.live.filledQty = terms.quantity then some .filled
  else none

/-- `_order_status` of a history row, and the first guard of `_validate_closed_order_report`. -/
def rereadTerminal (upper : Text → Text) (native : Option OrderStatus) (filledQty : ℚ)
    (state : OrderState) : Except Raised Unit := do
  let reported ← orderStatus upper state.status false (terminalFilled state) |state.originalQty|
  raiseIf (native ≠ some reported ∨ filledQty ≠ terminalFilled state)
    (.executionError "closed Bitfinex order terminal status or filled quantity changed")

section Runs

variable {terms : Terms} {c t : Client} {state : OrderState}

/-- An order its terminal frame refused. -/
structure Refused (c : Client) : Prop where
  terminal : c.live.terminal ≠ none
  refused : c.live.rejectionKey ≠ none
  rejected : Kind.rejected ∈ kinds c.generated

theorem Refused.closes : Closes terms Refused where
  terminal _ kept := kept.terminal
  accepted _ kept unrejected := absurd unrejected kept.refused
  neutral c t kept same := by
    refine ⟨?_, ?_, (same.kinds _ (by simp)).2 kept.rejected⟩
    · rw [same.terminal]
      exact kept.terminal
    · rw [same.rejection]
      exact kept.refused
  fill _ _ kept unrejected := absurd unrejected kept.refused
  finish _ kept unrejected := absurd unrejected kept.refused
  retire _ _ kept _ := by
    simp only [retireReconciledTerminal, wp_bind, wp_raiseWhen, wp_change]
    exact ⟨fun _ => kept, fun _ => ⟨kept.terminal, kept.refused, kept.rejected⟩⟩

/-- An accepted order between its terminal frame and the event that ends it. -/
structure Closing (terms : Terms) (state : OrderState) (c : Client) : Prop where
  terminal : c.live.terminal = some state
  unrejected : c.live.rejectionKey = none
  accepted : c.live.accepted = true
  canceled : c.live.terminalEmitted = true →
    terminalDisposition terms.upper state = .ok .canceled →
    terminalFilled state < |state.originalQty| → Kind.canceled ∈ kinds c.generated

/-- The event that ends the order is out once its fills are in. -/
structure Caught (terms : Terms) (state : OrderState) (c : Client) : Prop
    extends Closing terms state c where
  emitted : c.live.filledQty = terminalFilled state → c.live.terminalEmitted = true

/-- What only adds events and fills keeps a closing order closing. -/
theorem Closing.grow (h : Closing terms state c) (terminal : t.live.terminal = c.live.terminal)
    (rejection : t.live.rejectionKey = c.live.rejectionKey)
    (accepted : t.live.accepted = c.live.accepted)
    (emitted : t.live.terminalEmitted = c.live.terminalEmitted)
    (more : Kind.canceled ∈ kinds c.generated → Kind.canceled ∈ kinds t.generated) :
    Closing terms state t := by
  constructor
  · rw [terminal]
    exact h.terminal
  · rw [rejection]
    exact h.unrejected
  · rw [accepted]
    exact h.accepted
  · intro out disposed short
    rw [emitted] at out
    exact more (h.canceled out disposed short)

theorem Closing.neutral (h : Closing terms state c) (same : Neutral c t) :
    Closing terms state t :=
  h.grow same.terminal same.rejection same.accepted same.emitted (same.kinds _ (by simp)).2

theorem Caught.neutral (h : Caught terms state c) (same : Neutral c t) :
    Caught terms state t := by
  refine ⟨h.toClosing.neutral same, fun reached => ?_⟩
  rw [same.filled] at reached
  rw [same.emitted]
  exact h.emitted reached

variable {disposition : Disposition}

theorem Closing.finishTerminalIfReady (h : Closing terms state c)
    (disposed : terminalDisposition terms.upper state = .ok disposition) :
    wp (finishTerminalIfReady terms) (fun _ => Caught terms state) (Caught terms state) c := by
  simp only [Bitfinex.finishTerminalIfReady, generateCanceled, wp_bind, wp_look, h.terminal,
    wp_raiseWhen, wp_ite, wp_pure, wp_check, wp_change]
  refine ⟨fun beyond => ⟨h, fun reached => absurd beyond (by simp [reached])⟩, fun within =>
    ⟨fun waits => ⟨h, fun reached => ?_⟩, fun ready => ⟨fun e failed => ?_, fun found ok =>
    ⟨fun short => ?_, fun long => ?_⟩⟩⟩⟩
  · rcases waits with emitted | short
    · exact emitted
    · exact absurd short (by simp [reached])
  · rw [disposed] at failed
    cases failed
  · refine ⟨⟨h.terminal, h.unrejected, h.accepted, fun _ _ _ => ?_⟩, fun _ => rfl⟩
    simp [Client.updateLive, Client.generate, Generated.kind]
  · refine ⟨⟨h.terminal, h.unrejected, h.accepted, fun _ canceled short => ?_⟩, fun _ => rfl⟩
    rw [canceled] at ok
    cases ok
    exact absurd ⟨rfl, short⟩ long

theorem Closing.applyTradeFill (h : Closing terms state c)
    (disposed : terminalDisposition terms.upper state = .ok disposition)
    (trade : TradeExecution) :
    wp (applyTradeFill terms trade) (fun _ => Caught terms state)
      (fun t => Neutral c t ∨ Caught terms state t) c := by
  simp only [Bitfinex.applyTradeFill, wp_bind, wp_look, wp_check]
  refine ⟨fun _ _ => .inl (.refl c), fun _ checked => ?_⟩
  refine wp_mono (accept_neutral h.accepted _ _) ?_ fun _ same => .inl same
  intro _ bound same
  refine wp_mono (ackPendingPrice_neutral bound _ _) ?_ fun _ same' => .inl (same.trans same')
  intro _ acked same'
  have closing := h.neutral (same.trans same')
  simp only [settleCancel, wp_change, wp_ite, wp_pure]
  refine ⟨fun _ => ?_, fun _ => ?_⟩
  · refine wp_mono (Closing.finishTerminalIfReady (closing.grow rfl rfl rfl rfl ?_) disposed)
      (fun _ _ caught => caught) fun _ caught => .inr caught
    simp +contextual [Client.updateLive, Client.generate]
  · refine wp_mono (Closing.finishTerminalIfReady (closing.grow rfl rfl rfl rfl ?_) disposed)
      (fun _ _ caught => caught) fun _ caught => .inr caught
    simp +contextual [Client.updateLive, Client.generate]

theorem Caught.closes (disposed : terminalDisposition terms.upper state = .ok disposition) :
    Closes terms (Caught terms state) where
  terminal _ kept := by simp [kept.terminal]
  accepted _ kept _ := kept.accepted
  neutral _ _ kept same := kept.neutral same
  fill c trade kept _ := by
    refine wp_mono (kept.toClosing.applyTradeFill disposed trade) (fun _ _ caught => caught) ?_
    rintro t (same | caught)
    · exact kept.neutral same
    · exact caught
  finish c kept _ := kept.toClosing.finishTerminalIfReady disposed
  retire c proved kept own := by
    have confirmed : confirmedQuantity c.live = some (terminalFilled state) := by
      rw [confirmedQuantity, kept.terminal]
    have reached := own _ confirmed
    have emitted := kept.emitted reached.symm
    simp only [retireReconciledTerminal, wp_bind, wp_raiseWhen, wp_change]
    exact ⟨fun _ => kept,
      fun _ => ⟨⟨kept.terminal, kept.unrejected, kept.accepted, fun _ => kept.canceled emitted⟩,
      fun _ => rfl⟩⟩

theorem Closing.releaseUnboundPaperInterims (h : Closing terms state c)
    (disposed : terminalDisposition terms.upper state = .ok disposition) (ledger : Ledger)
    (trades : List TradeExecution) :
    wp (releaseUnboundPaperInterims terms ledger trades) (fun _ => Closing terms state)
      (fun _ => True) c := by
  refine wp_each (fun trade _ s kept => ?_) h
  simp only [releaseInterim, wp_bind, wp_check, wp_change]
  refine ⟨fun _ _ => trivial, fun _ _ => ?_⟩
  refine wp_mono (kept.applyTradeFill disposed trade) ?_ fun _ _ => trivial
  intro _ filled caught
  exact caught.toClosing.grow rfl rfl rfl rfl id

/-- An accepted order that takes its terminal frame. -/
theorem bindOrder_caught {prior : ℚ}
    (disposed : terminalDisposition terms.upper state = .ok disposition)
    (ordered : Ordered terms prior c.live c.generated) (working : c.live.terminal = none)
    (unrejected : c.live.rejectionKey = none) (held : c.live.retired = false) (ledger : Ledger)
    (trades : List TradeExecution) :
    wp (bindOrder terms ledger state (some .oc) trades) (fun _ => Caught terms state)
      (fun _ => True) c := by
  simp only [bindOrder, wp_bind]
  refine wp_mono (Working.accept ⟨ordered, unrejected, ordered.unsettled unrejected
    (ordered.uncanceled_of_working working)⟩ _ _) ?_ fun _ _ => trivial
  rintro _ bound ⟨open', carried, accepted⟩
  refine wp_mono (ackPendingPrice_neutral bound _ _) ?_ fun _ _ => trivial
  intro _ acked same
  have quiet : acked.live.terminalEmitted = false := by
    rw [same.emitted]
    exact open'.ordered.quiet (carried.terminal.trans working) open'.unrejected
      (carried.retired.trans held)
  have closing : Closing terms state (acked.updateLive fun live =>
      { live with pendingCancel := false, terminal := some state }.resolveAllMutations) :=
    ⟨rfl, same.rejection.trans open'.unrejected, same.accepted.trans accepted,
      fun emitted => absurd (quiet.symm.trans emitted) (by simp)⟩
  simp only [closeOrder, if_true, wp_change]
  refine wp_mono (closing.releaseUnboundPaperInterims disposed ledger trades) ?_
    fun _ _ => trivial
  intro _ released closing
  exact wp_mono (closing.finishTerminalIfReady disposed) (fun _ _ caught => caught)
    fun _ _ => trivial

/-- What the frame of a live order that returned leaves, by whether it refused the order. -/
structure Ends (terms : Terms) (accepted : Bool) (state : OrderState) (c : Client) : Prop where
  disposed : ∃ disposition, terminalDisposition terms.upper state = .ok disposition
  quantity : |state.originalQty| = terms.quantity
  refused : accepted = false ∧ terminalFilled state = 0 ∧
    initialRejection terms.upper state.status ≠ none → Refused c
  caught : ¬(accepted = false ∧ terminalFilled state = 0 ∧
    initialRejection terms.upper state.status ≠ none) → Caught terms state c

theorem checkDisposition_eq_ok (h : checkDisposition terms .oc state = .ok ()) :
    ∃ disposition, terminalDisposition terms.upper state = .ok disposition := by
  unfold checkDisposition at h
  cases disposed : terminalDisposition terms.upper state with
  | ok disposition => exact ⟨disposition, rfl⟩
  | error e => simp [disposed, Except.map] at h

theorem rejectionOf_ne_none :
    rejectionOf terms c.live state ≠ none ↔ c.live.accepted = false ∧ terminalFilled state = 0 ∧
      initialRejection terms.upper state.status ≠ none := by
  unfold rejectionOf
  split
  · rename_i unfilled
    simp [unfilled]
  · rename_i filled
    simp only [ne_eq, not_true_eq_false, false_iff]
    exact fun refused => filled ⟨refused.1, refused.2.1⟩

theorem held_of_known {live : LiveOrder} {clientOrderId venueOrderId : Option ℕ}
    (known : resolveLive terms live clientOrderId venueOrderId = .ok true) :
    live.retired = false := by
  by_contra gone
  rw [Bool.not_eq_false] at gone
  simp only [resolveLive, gone, true_or, if_true] at known
  cases known

theorem handleOrder_ends {prior : ℚ} (ordered : Ordered terms prior c.live c.generated)
    (working : c.live.terminal = none)
    (known : resolveLive terms c.live state.clientOrderId (some state.venueOrderId) = .ok true)
    (ledger : Ledger) :
    wp (handleOrder terms ledger .oc state) (fun _ => Ends terms c.live.accepted state)
      (fun _ => True) c := by
  have held := held_of_known known
  simp only [handleOrder, wp_bind, wp_look, wp_check, wp_ite, wp_pure, id, known, working]
  refine ⟨fun _ _ => trivial, fun found ok => ⟨fun unknown => ?_, fun _ => ⟨fun _ _ => trivial,
    fun _ valid => ⟨fun _ _ => trivial, fun trades _ => ⟨fun _ _ => trivial, fun _ disposes =>
    ?_⟩⟩⟩⟩⟩
  · cases ok
    cases unknown
  · obtain ⟨disposition, disposed⟩ := checkDisposition_eq_ok disposes
    have quantity : |state.originalQty| = terms.quantity := by
      rw [validateOrderState, raiseIf_eq_ok] at valid
      push Not at valid
      exact valid.2.2.2.2.1
    simp only [wp_raiseWhen, wp_change]
    refine ⟨fun _ => trivial, fun _ => ?_⟩
    split
    · rename_i key refused
      simp only [wp_raiseWhen]
      refine ⟨fun _ => trivial, fun same => ?_⟩
      have same := not_not.1 (not_or.1 same).2
      exact absurd working (ordered.keyed state.status (refused.trans (congrArg some same)))
    · rename_i unrejected
      split
      · rename_i reason rejected
        have refused := rejectionOf_ne_none.1 (rejected ▸ Option.some_ne_none reason)
        simp only [rejectOnStatus, wp_change]
        refine ⟨⟨disposition, disposed⟩, quantity,
          fun _ => ⟨Option.some_ne_none _, Option.some_ne_none _, ?_⟩,
          fun accepts => absurd refused accepts⟩
        simp [Client.updateLive, Client.generate, Generated.kind]
      · rename_i unrefused
        have accepts := mt rejectionOf_ne_none.2 (not_not.2 unrefused)
        have verified : Ordered terms prior
            (c.updateLive ({ · with venueFlagsVerified := true })).live c.generated :=
          ordered.assign rfl rfl rfl rfl rfl rfl
        refine wp_mono (bindOrder_caught disposed verified working unrejected held ledger trades) ?_
          fun _ _ => trivial
        intro _ closed caught
        exact ⟨⟨disposition, disposed⟩, quantity, fun refused => absurd refused accepts,
          fun _ => caught⟩

theorem Ends.run {accepted : Bool} (h : Ends terms accepted state c) {inputs : List Input}
    (own : OwnFills terms c inputs) : Ends terms accepted state (run terms c inputs) := by
  obtain ⟨⟨disposition, disposed⟩, quantity, refused, caught⟩ := h
  exact ⟨⟨disposition, disposed⟩, quantity, fun refuses => Refused.closes.run (refused refuses) own,
    fun accepts => (Caught.closes disposed).run (caught accepts) own⟩

theorem Ends.nativeStatus {accepted : Bool} {prior : ℚ} (h : Ends terms accepted state c)
    (ordered : Ordered terms prior c.live c.generated)
    (complete : c.live.filledQty = terminalFilled state) :
    nativeStatus terms c = some (streamStatus terms.upper accepted state) := by
  obtain ⟨⟨disposition, disposed⟩, quantity, refused, caught⟩ := h
  by_cases refuses : accepted = false ∧ terminalFilled state = 0 ∧
      initialRejection terms.upper state.status ≠ none
  · rw [Bitfinex.nativeStatus, if_pos (refused refuses).rejected, streamStatus, if_pos refuses]
  · have caught := caught refuses
    have unrejected : Kind.rejected ∉ kinds c.generated := fun member =>
      (ordered.rejected member).1 caught.unrejected
    rw [Bitfinex.nativeStatus, if_neg unrejected, streamStatus, if_neg refuses]
    by_cases short : terminalFilled state < |state.originalQty|
    · have canceled : terminalDisposition terms.upper state = .ok .canceled := by
        rcases terminalDisposition_eq_ok.1 disposed with ⟨-, -, full⟩ | ⟨rfl, -⟩
        · exact absurd short (by simp [full])
        · exact disposed
      rw [if_pos short, if_pos (caught.canceled (caught.emitted complete) canceled short)]
    · have full : c.live.filledQty = terms.quantity := by
        rw [complete, ← quantity]
        exact le_antisymm (terminalFilled_le state) (not_lt.1 short)
      have uncanceled : Kind.canceled ∉ kinds c.generated := by
        intro member
        obtain ⟨-, terminal, here, -, shorter⟩ := ordered.canceled member
        rw [caught.terminal] at here
        cases here
        exact short shorter
      rw [if_neg short, if_neg uncanceled, if_pos full]

end Runs

/-- When the stream's final status of an order is the one the REST history gives its terminal frame,
so that re-reading the frame passes as unchanged. The run may hold reports, and native fills of this
client's own. -/
theorem terminal_status_agrees (terms : Terms) (start : Client) (starts : start.live.Starts terms)
    (silent : start.generated = []) (before later : List Input) (state : OrderState)
    (ledger : Ledger) (own : OwnFills terms start (before ++ .order .oc state ledger :: later))
    (working : (run terms start before).live.terminal = none)
    (known : resolveLive terms (run terms start before).live state.clientOrderId
      (some state.venueOrderId) = .ok true)
    (returned : (handle terms (.order .oc state ledger)).returns (run terms start before) = true)
    (complete : (run terms start (before ++ .order .oc state ledger :: later)).live.filledQty =
      terminalFilled state) :
    let c := run terms start before
    let d := run terms start (before ++ .order .oc state ledger :: later)
    ((∃ status, nativeStatus terms d = some status ∧
        orderStatus terms.upper state.status false (terminalFilled state) |state.originalQty| =
          .ok status) ↔ Agrees terms.upper c.live.accepted state) ∧
    (rereadTerminal terms.upper (nativeStatus terms d) d.live.filledQty state = .ok () ↔
      Agrees terms.upper c.live.accepted state) := by
  intro c d
  have split : d = run terms ((handle terms (.order .oc state ledger)).after c) later := by
    simp only [d, c, run, List.foldl_append, List.foldl_cons]
  obtain ⟨ownBefore, -, ownLater⟩ := along_append.1 own
  have prior : Ordered terms start.live.filledQty c.live c.generated :=
    (starts.keeps silent).run ownBefore
  have ordered : Ordered terms start.live.filledQty d.live d.generated :=
    (starts.keeps silent).run own
  have ends : Ends terms c.live.accepted state d := by
    rw [split]
    exact (after_of_returns (handleOrder_ends prior working known ledger) returned).run ownLater
  have native := ends.nativeStatus ordered complete
  obtain ⟨disposition, disposed⟩ := ends.disposed
  have nonzero : state.originalQty ≠ 0 := by
    rw [← abs_pos, ends.quantity]
    exact terms.positive
  have agree := orderStatus_eq_streamStatus_iff c.live.accepted nonzero disposed
  refine ⟨?_, ?_⟩
  · rw [← agree, native]
    constructor
    · rintro ⟨status, same, reported⟩
      cases same
      exact reported
    · intro reported
      exact ⟨_, rfl, reported⟩
  · rw [← agree, native, rereadTerminal, complete]
    simp only [bind_eq_ok, raiseIf_eq_ok]
    constructor
    · rintro ⟨status, reported, unchanged⟩
      have same := not_not.1 (not_or.1 unchanged).1
      cases same
      exact reported
    · intro reported
      exact ⟨_, reported, by simp⟩

/-- A Maker that is paused before it rests: rejected on the stream, canceled in the history. -/
theorem paused_maker_disagrees :
    let state := makerState 4 "RSN_PAUSE"
    let start : Client := ⟨.submitted makerTerms, .empty, .empty, .empty, []⟩
    let c := run makerTerms start [.order .oc state {}]
    (handle makerTerms (.order .oc state {})).returns start = true ∧
      nativeStatus makerTerms c = some .rejected ∧ c.live.filledQty = terminalFilled state ∧
      orderStatus makerTerms.upper state.status false (terminalFilled state) |state.originalQty| =
        .ok .canceled ∧
      rereadTerminal makerTerms.upper (nativeStatus makerTerms c) c.live.filledQty state =
        .error (.executionError
          "closed Bitfinex order terminal status or filled quantity changed") := by
  decide +kernel

/-- A resting Maker canceled after a partial fill is canceled in both. -/
theorem terminal_status_agrees_canceled :
    let before : List Input := [.order .on (makerState 4 "ACTIVE") {}, .tu (makerTrade 901 1) {}]
    let state := makerState 3 "CANCELED was: PARTIALLY FILLED @ 3926.0(1)"
    let c := run makerTerms ⟨.submitted makerTerms, .empty, .empty, .empty, []⟩
      (before ++ [.order .oc state {}])
    rereadTerminal makerTerms.upper (nativeStatus makerTerms c) c.live.filledQty state =
      .ok () := by
  intro before state c
  refine (terminal_status_agrees makerTerms ⟨.submitted makerTerms, .empty, .empty, .empty, []⟩
    .submitted rfl before [] state {} ⟨trivial, trivial, trivial, trivial⟩ (by decide +kernel)
      (by decide +kernel) (by decide +kernel)
    (by decide +kernel)).2.2 ?_
  exact .inr ⟨by decide +kernel, .inl (by decide +kernel)⟩

end ArbNautilus.Bitfinex
