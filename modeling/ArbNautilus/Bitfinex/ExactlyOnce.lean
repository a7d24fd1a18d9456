import ArbNautilus.Base.Once
import ArbNautilus.Bitfinex.Terminal

namespace ArbNautilus.Bitfinex

open Base Base.Handler

/-- The generated fills: venue trade id and quantity. -/
def fills (generated : List Generated) : List (ℕ × ℚ) :=
  generated.filterMap fun
    | .filled tradeId quantity .. => some (tradeId, quantity)
    | _ => none

def fillIds (generated : List Generated) : List ℕ := (fills generated).map Prod.fst

/-- One fill per trade id, and the filled quantity of the order that the client holds is theirs. -/
def FilledOnce (c : Client) : Prop :=
  (fillIds c.generated).Nodup ∧ (c.live.retired = false →
    c.live.filledQty = ((firsts Prod.fst (fills c.generated)).map Prod.snd).sum)

/-- Either table has the trade. -/
def Client.knows (c : Client) (tradeId : ℕ) : Prop :=
  c.seenTrades.get? tradeId ≠ none ∨ c.paperInterimFills.get? tradeId ≠ none

instance (c : Client) (tradeId : ℕ) : Decidable (c.knows tradeId) :=
  inferInstanceAs (Decidable (_ ∨ _))

/-- The frame passes its checks and binds this order, with the staged trades that it releases. -/
structure Binds (terms : Terms) (c : Client) (operation : OrderOperation) (state : OrderState)
    (trades : List TradeExecution) : Prop where
  known : resolveLive terms c.live state.clientOrderId (some state.venueOrderId) = .ok true
  working : c.live.terminal = none
  valid : validateOrderState terms c.live state (some operation) = .ok ()
  staged : validatedUnboundPaperInterims terms c state (some operation) = .ok trades
  disposed : checkDisposition terms operation state = .ok ()
  unrejected : c.live.rejectionKey = none
  accepts : rejectionOf terms c.live state = none

/-- A frame releases no staged trade whose fill is already recorded, and of the native fills no more
are counted than this client generated. -/
def BindsFresh (terms : Terms) (c : Client) : Input → Prop
  | .order operation state _ =>
    ∀ trades, Binds terms c operation state trades → ∀ trade ∈ trades, ¬c.knows trade.tradeId
  | .snapshot orders _ => ∀ entries, checkSnapshot terms c false orders = .ok entries →
    ∀ entry ∈ entries, ∀ trade ∈ entry.2, ¬c.knows trade.tradeId
  | .native native => native.Own c.live
  | _ => True

/-- The facts that keep fills unique between any two inputs. -/
structure Recorded (terms : Terms) (c : Client) : Prop where
  once : (fillIds c.generated).Nodup
  known : ∀ tradeId ∈ fillIds c.generated, c.knows tradeId
  total : c.live.retired = false → c.live.filledQty = ((fills c.generated).map Prod.snd).sum
  keyed : ∀ tradeId trade, c.unboundPaperInterimFills.get? tradeId = some trade →
    trade.tradeId = tradeId
  disposed : ∀ state ∈ c.live.terminal, c.live.terminalEmitted = false →
    ∃ disposition, terminalDisposition terms.upper state = .ok disposition

/-- What a call leaves that generates no fill and touches no table. -/
structure Still (c t : Client) : Prop where
  fills : fills t.generated = fills c.generated
  filled : t.live.filledQty = c.live.filledQty
  seen : t.seenTrades = c.seenTrades
  interims : t.paperInterimFills = c.paperInterimFills
  unbound : t.unboundPaperInterimFills = c.unboundPaperInterimFills
  terminal : t.live.terminal = c.live.terminal
  emitted : c.live.terminalEmitted = true → t.live.terminalEmitted = true
  retired : t.live.retired = c.live.retired

/-- What the fill of a trade leaves. -/
structure Fills (c : Client) (trade : TradeExecution) (t : Client) : Prop where
  fills : fills t.generated = fills c.generated ++ [(trade.tradeId, |trade.executionQty|)]
  filled : t.live.filledQty = c.live.filledQty + |trade.executionQty|
  seen : t.seenTrades = c.seenTrades
  interims : t.paperInterimFills = c.paperInterimFills
  unbound : t.unboundPaperInterimFills = c.unboundPaperInterimFills
  terminal : t.live.terminal = c.live.terminal
  emitted : c.live.terminalEmitted = true → t.live.terminalEmitted = true
  retired : t.live.retired = c.live.retired

theorem Still.refl (c : Client) : Still c c := ⟨rfl, rfl, rfl, rfl, rfl, rfl, id, rfl⟩

theorem Still.trans {c t u : Client} (first : Still c t) (second : Still t u) : Still c u where
  fills := second.fills.trans first.fills
  filled := second.filled.trans first.filled
  seen := second.seen.trans first.seen
  interims := second.interims.trans first.interims
  unbound := second.unbound.trans first.unbound
  terminal := second.terminal.trans first.terminal
  emitted := fun emitted => second.emitted (first.emitted emitted)
  retired := second.retired.trans first.retired

theorem Fills.still {c t u : Client} {trade : TradeExecution} (first : Fills c trade t)
    (second : Still t u) : Fills c trade u where
  fills := second.fills.trans first.fills
  filled := second.filled.trans first.filled
  seen := second.seen.trans first.seen
  interims := second.interims.trans first.interims
  unbound := second.unbound.trans first.unbound
  terminal := second.terminal.trans first.terminal
  emitted := fun emitted => second.emitted (first.emitted emitted)
  retired := second.retired.trans first.retired

theorem Still.fill {c t u : Client} {trade : TradeExecution} (first : Still c t)
    (second : Fills t trade u) : Fills c trade u where
  fills := by rw [second.fills, first.fills]
  filled := by rw [second.filled, first.filled]
  seen := second.seen.trans first.seen
  interims := second.interims.trans first.interims
  unbound := second.unbound.trans first.unbound
  terminal := second.terminal.trans first.terminal
  emitted := fun emitted => second.emitted (first.emitted emitted)
  retired := second.retired.trans first.retired

section Calls

variable {terms : Terms} {c : Client}

/-- An event that is no fill. -/
theorem fills_append_other {events : List Generated} {event : Generated}
    (other : event.kind ≠ .filled) : fills (events ++ [event]) = fills events := by
  cases event <;> simp_all [fills, Generated.kind]

theorem fills_append_filled (events : List Generated) (tradeId : ℕ) (quantity price : ℚ)
    (maker : Bool) (tsEvent : ℕ) :
    fills (events ++ [.filled tradeId quantity price maker tsEvent]) =
      fills events ++ [(tradeId, quantity)] := by
  simp [fills]

theorem still_pending {early late : Bool} (emitted : early = true → late = true)
    (pending : late = false) : early = false := by
  cases early
  · rfl
  · rw [emitted rfl] at pending
    cases pending

theorem accept_still (venueOrderId tsEvent : ℕ) :
    wp (accept venueOrderId tsEvent) (fun _ => Still c) (Still c) c := by
  simp only [accept, wp_bind, wp_look, wp_raiseWhen, wp_change, wp_ite, wp_pure]
  refine ⟨fun _ => .refl c,
    fun _ => ⟨fun _ => ⟨rfl, rfl, rfl, rfl, rfl, rfl, id, rfl⟩, fun _ => ?_⟩⟩
  exact ⟨fills_append_other (by simp [Generated.kind]), rfl, rfl, rfl, rfl, rfl, id, rfl⟩

theorem ackPendingPrice_still (price : ℚ) (tsEvent : ℕ) :
    wp (ackPendingPrice price tsEvent) (fun _ => Still c) (Still c) c := by
  simp only [ackPendingPrice, wp_bind, wp_look, wp_raiseWhen, wp_change, wp_ite, wp_pure]
  refine ⟨fun _ => .refl c, fun _ => ⟨fun _ => .refl c, fun _ => ?_⟩⟩
  exact ⟨fills_append_other (by simp [Generated.kind]), rfl, rfl, rfl, rfl, rfl, id, rfl⟩

theorem finishTerminalIfReady_still :
    wp (finishTerminalIfReady terms) (fun _ => Still c) (Still c) c := by
  simp only [finishTerminalIfReady, wp_bind, wp_look]
  split
  · exact .refl c
  · simp only [generateCanceled, wp_bind, wp_raiseWhen, wp_ite, wp_pure, wp_check, wp_change]
    refine ⟨fun _ => .refl c, fun _ => ⟨fun _ => .refl c, fun _ => ⟨fun _ _ => .refl c,
      fun _ _ => ⟨fun _ => ?_, fun _ => ⟨rfl, rfl, rfl, rfl, rfl, rfl, fun _ => rfl, rfl⟩⟩⟩⟩⟩
    exact ⟨fills_append_other (by simp [Generated.kind]), rfl, rfl, rfl, rfl, rfl, fun _ => rfl,
      rfl⟩

/-- Fills that stay within a terminal of known disposition never make it raise. -/
theorem finishTerminalIfReady_returns
    (disposed : ∀ state ∈ c.live.terminal, c.live.terminalEmitted = false →
      ∃ disposition, terminalDisposition terms.upper state = .ok disposition)
    (within : ∀ state ∈ c.live.terminal, c.live.filledQty ≤ terminalFilled state) :
    wp (finishTerminalIfReady terms) (fun _ => Still c) (fun _ => False) c := by
  have still : wp (finishTerminalIfReady terms) (fun _ => Still c) (Still c) c :=
    finishTerminalIfReady_still
  simp only [finishTerminalIfReady, wp_bind, wp_look] at still ⊢
  split
  · exact .refl c
  · rename_i state terminal
    simp only [terminal, wp_raiseWhen, wp_bind, wp_ite, wp_pure, wp_check] at still ⊢
    refine ⟨fun beyond => ?_, fun inside => ⟨fun _ => .refl c, fun ready => ⟨fun e failed => ?_,
      fun disposition made => ?_⟩⟩⟩
    · exact absurd beyond (not_lt.2 (within state terminal))
    · obtain ⟨disposition, made⟩ := disposed state terminal (by simpa using (not_or.1 ready).1)
      rw [made] at failed
      cases failed
    · have after := (still.2 inside).2 ready
      simp only [generateCanceled, wp_ite, wp_change, wp_pure] at after ⊢
      exact after.2 disposition made

/-- A fill either comes about whole or, when the call raises, not at all. -/
theorem applyTradeFill_fills
    (disposed : ∀ state ∈ c.live.terminal, c.live.terminalEmitted = false →
      ∃ disposition, terminalDisposition terms.upper state = .ok disposition)
    (trade : TradeExecution) :
    wp (applyTradeFill terms trade) (fun _ => Fills c trade) (Still c) c := by
  simp only [applyTradeFill, wp_bind, wp_look, wp_check]
  refine ⟨fun _ _ => .refl c, fun _ checked => ?_⟩
  have room := (checkFill_eq_ok.1 checked).2.2.1
  refine wp_mono (accept_still _ _) ?_ fun _ still => still
  intro _ bound accepted
  refine wp_mono (ackPendingPrice_still _ _) ?_ fun _ still => accepted.trans still
  intro _ acked acknowledged
  have still := accepted.trans acknowledged
  simp only [settleCancel, wp_change, wp_ite, wp_pure]
  have filled : ∀ live : LiveOrder, live.filledQty = c.live.filledQty + |trade.executionQty| →
      live.terminal = acked.live.terminal → live.terminalEmitted = acked.live.terminalEmitted →
      live.retired = acked.live.retired →
      wp (finishTerminalIfReady terms) (fun _ => Fills c trade) (Still c)
        { acked with
          live := live
          generated := acked.generated ++ [.filled trade.tradeId |trade.executionQty|
            trade.executionPrice trade.maker (trade.tsEventMs * 1000000)] } := by
    intro live filled terminal emitted retired
    have first : Fills c trade { acked with
        live := live
        generated := acked.generated ++ [.filled trade.tradeId |trade.executionQty|
          trade.executionPrice trade.maker (trade.tsEventMs * 1000000)] } :=
      ⟨by rw [fills_append_filled, still.fills], filled, still.seen, still.interims, still.unbound,
        terminal.trans still.terminal, fun closed => emitted.trans (still.emitted closed),
        retired.trans still.retired⟩
    refine wp_mono (finishTerminalIfReady_returns ?_ ?_) (fun _ _ later => first.still later)
      fun _ never => never.elim
    · intro state closed pending
      rw [first.terminal] at closed
      exact disposed state closed (still_pending first.emitted pending)
    · intro state closed
      rw [first.terminal] at closed
      exact filled ▸ room state closed
  exact ⟨fun _ => filled _ rfl rfl rfl rfl, fun _ => filled _ rfl rfl rfl rfl⟩

theorem Recorded.still (h : Recorded terms c) {t : Client} (still : Still c t) :
    Recorded terms t := by
  constructor
  · rw [fillIds, still.fills]
    exact h.once
  · rw [fillIds, still.fills]
    intro tradeId member
    rw [Client.knows, still.seen, still.interims]
    exact h.known tradeId member
  · rw [still.retired, still.filled, still.fills]
    exact h.total
  · rw [still.unbound]
    exact h.keyed
  · rw [still.terminal]
    intro state closed pending
    exact h.disposed state closed (still_pending still.emitted pending)

/-- An event that closes the order without a fill keeps the facts. -/
theorem Recorded.reject (h : Recorded terms c) {t : Client}
    (events : fills t.generated = fills c.generated) (filled : t.live.filledQty = c.live.filledQty)
    (seen : t.seenTrades = c.seenTrades) (interims : t.paperInterimFills = c.paperInterimFills)
    (unbound : t.unboundPaperInterimFills = c.unboundPaperInterimFills)
    (emitted : t.live.terminalEmitted = true) (retired : t.live.retired = c.live.retired) :
    Recorded terms t := by
  constructor
  · rw [fillIds, events]
    exact h.once
  · rw [fillIds, events]
    intro tradeId member
    rw [Client.knows, seen, interims]
    exact h.known tradeId member
  · rw [retired, filled, events]
    exact h.total
  · rw [unbound]
    exact h.keyed
  · intro _ _ pending
    rw [emitted] at pending
    cases pending

/-- A fill whose trade is then recorded keeps the facts. -/
theorem Recorded.fill (h : Recorded terms c) {trade : TradeExecution} {t u : Client}
    (filled : Fills c trade t) (fresh : ¬c.knows trade.tradeId)
    (live : u.live = t.live) (generated : u.generated = t.generated)
    (known : ∀ tradeId, tradeId = trade.tradeId ∨ c.knows tradeId → u.knows tradeId)
    (keyed : ∀ tradeId trade, u.unboundPaperInterimFills.get? tradeId = some trade →
      trade.tradeId = tradeId) : Recorded terms u := by
  have ids : fillIds u.generated = fillIds c.generated ++ [trade.tradeId] := by
    simp [fillIds, generated, filled.fills]
  constructor
  · rw [ids]
    refine h.once.append (List.nodup_singleton _) ?_
    intro tradeId old new
    simp only [List.mem_singleton] at new
    exact fresh (new ▸ h.known tradeId old)
  · rw [ids]
    intro tradeId member
    rcases List.mem_append.1 member with old | new
    · exact known tradeId (.inr (h.known tradeId old))
    · exact known tradeId (.inl (by simpa using new))
  · rw [live, generated, filled.fills, filled.filled, filled.retired]
    intro held
    simp [h.total held]
  · exact keyed
  · rw [live, filled.terminal]
    intro state closed pending
    exact h.disposed state closed (still_pending filled.emitted pending)

theorem Client.knows_interim {u : Client} (trade : TradeExecution) {tradeId : ℕ}
    (seen : u.seenTrades = c.seenTrades)
    (interims : u.paperInterimFills = c.paperInterimFills.set trade.tradeId trade) :
    u.knows tradeId ↔ tradeId = trade.tradeId ∨ c.knows tradeId := by
  unfold Client.knows
  rw [seen, interims, Dict.get?_set]
  by_cases same : trade.tradeId = tradeId
  · simp [same]
  · simp [same, Ne.symm same]

theorem Client.knows_seen {u : Client} (trade : TradeUpdate) {tradeId : ℕ}
    (seen : u.seenTrades = c.seenTrades.set trade.tradeId trade)
    (interims : u.paperInterimFills = c.paperInterimFills) :
    u.knows tradeId ↔ tradeId = trade.tradeId ∨ c.knows tradeId := by
  unfold Client.knows
  rw [seen, interims, Dict.get?_set]
  by_cases same : trade.tradeId = tradeId
  · simp [same]
  · simp [same, Ne.symm same]

theorem Recorded.bufferPaperInterim (h : Recorded terms c) (trade : TradeExecution) :
    wp (bufferPaperInterim trade) (fun _ => Recorded terms) (Recorded terms) c := by
  simp only [Bitfinex.bufferPaperInterim, wp_bind, wp_look]
  split
  · simp only [wp_raiseWhen]
    exact ⟨fun _ => h, fun _ => h⟩
  · split
    · simp only [wp_raiseWhen]
      exact ⟨fun _ => h, fun _ => h⟩
    · split
      · simp only [wp_raiseWhen]
        exact ⟨fun _ => h, fun _ => h⟩
      · simp only [wp_bind, wp_raiseWhen, wp_change]
        refine ⟨fun _ => h, fun _ => ⟨h.once, h.known, h.total, ?_, h.disposed⟩⟩
        intro tradeId staged found
        rw [Dict.get?_set] at found
        split at found
        · rename_i same
          exact (Option.some.inj found) ▸ same
        · exact h.keyed tradeId staged found

theorem Recorded.applyInterim (h : Recorded terms c) (ledger : Ledger) (trade : TradeExecution) :
    wp (applyInterim terms ledger trade) (fun _ => Recorded terms) (Recorded terms) c := by
  simp only [Bitfinex.applyInterim, wp_bind, wp_look, id]
  split
  · simp only [wp_bind, wp_raiseWhen, wp_check]
    exact ⟨fun _ => h, fun _ => ⟨fun _ _ => h, fun _ _ => h⟩⟩
  · rename_i fresh
    split
    · simp only [wp_bind, wp_raiseWhen, wp_check]
      exact ⟨fun _ => h, fun _ => ⟨fun _ _ => h, fun _ _ => h⟩⟩
    · rename_i unseen
      simp only [wp_bind, wp_check, wp_ite, wp_pure]
      refine ⟨fun _ _ => h, fun _ _ => ⟨fun _ _ => h, fun _ _ => ⟨fun _ => h, fun _ => ?_⟩⟩⟩
      refine wp_mono (applyTradeFill_fills h.disposed trade) ?_ fun _ still => h.still still
      intro _ t filled
      simp only [wp_change]
      refine h.fill filled (by simp [Client.knows, unseen, fresh]) rfl rfl ?_ ?_
      · intro tradeId known
        refine (Client.knows_interim trade ?_ ?_).2 known
        · exact filled.seen
        · simp only [filled.interims]
      · rw [filled.unbound]
        exact h.keyed

theorem Recorded.handleInterimTrade (h : Recorded terms c) (ledger : Ledger)
    (trade : TradeExecution) :
    wp (handleInterimTrade terms ledger trade) (fun _ => Recorded terms)
      (Recorded terms) c := by
  simp only [Bitfinex.handleInterimTrade, stageUnboundPaperInterim, wp_bind, wp_look, wp_check,
    wp_ite, wp_pure, wp_raiseWhen]
  refine ⟨fun _ _ => h, fun _ _ => ⟨fun _ => ⟨fun _ => h, fun _ => ⟨fun _ => h, fun _ =>
    h.bufferPaperInterim trade⟩⟩, fun _ => ⟨fun _ => h, fun _ => ⟨fun _ _ => h, fun _ _ =>
    ⟨fun _ => h, fun _ => ⟨fun _ => h.bufferPaperInterim trade, fun _ => ?_⟩⟩⟩⟩⟩⟩
  exact h.applyInterim ledger trade

theorem Recorded.handleTrade (h : Recorded terms c) (ledger : Ledger) (trade : TradeUpdate) :
    wp (handleTrade terms ledger trade) (fun _ => Recorded terms) (Recorded terms) c := by
  simp only [Bitfinex.handleTrade, wp_bind, wp_look, wp_check, wp_ite, wp_raiseWhen, id]
  refine ⟨fun _ _ => h, fun _ _ => ⟨fun _ => ⟨fun _ => h, fun _ => h⟩, fun _ => ⟨fun _ => h,
    fun _ => ⟨fun _ _ => h, fun _ _ => ⟨fun _ _ => h, fun _ _ => ?_⟩⟩⟩⟩⟩
  split
  · simp only [wp_raiseWhen]
    exact ⟨fun _ => h, fun _ => h⟩
  · rename_i unseen
    split
    · simp only [wp_bind, wp_raiseWhen]
      refine ⟨fun _ => h, fun _ => ?_⟩
      refine wp_mono finishTerminalIfReady_still ?_ fun _ still => h.still still
      intro _ t still
      have kept := h.still still
      simp only [wp_change]
      refine ⟨kept.once, fun tradeId member => ?_, kept.total, kept.keyed, kept.disposed⟩
      refine (Client.knows_seen (c := t) trade ?_ ?_).2 (.inr (kept.known tradeId member))
      · rfl
      · rfl
    · rename_i fresh
      simp only [wp_bind, wp_check, wp_ite, wp_pure]
      refine ⟨fun _ _ => h, fun _ _ => ⟨fun _ => h, fun _ => ?_⟩⟩
      refine wp_mono (applyTradeFill_fills h.disposed _) ?_ fun _ still => h.still still
      intro _ t filled
      simp only [wp_change]
      refine h.fill filled (by simp [Client.knows, unseen, fresh]) rfl rfl ?_ ?_
      · intro tradeId known
        refine (Client.knows_seen trade ?_ ?_).2 known
        · simp only [filled.seen]
        · exact filled.interims
      · rw [filled.unbound]
        exact h.keyed

theorem nodup_values {d : Dict ℕ TradeExecution}
    (keyed : ∀ tradeId trade, d.get? tradeId = some trade → trade.tradeId = tradeId) :
    (d.values.map (·.tradeId)).Nodup := by
  have same : d.values.map (·.tradeId) = d.keys := by
    unfold Dict.values Dict.keys
    rw [List.map_map]
    apply List.map_congr_left
    rintro ⟨tradeId, trade⟩ member
    exact keyed tradeId trade ((d.mem_entries_iff tradeId trade).1 member)
  rw [same]
  exact d.nodup

/-- The staged trades are released under distinct ids. -/
theorem Recorded.staged_nodup (h : Recorded terms c) (state : OrderState)
    (operation : Option OrderOperation) :
    ((stagedInterims terms c state operation).map (·.tradeId)).Nodup := by
  unfold stagedInterims
  refine (((List.perm_insertionSort _ _).map _).nodup_iff).2 ?_
  exact (nodup_values h.keyed).sublist (List.filter_sublist.map _)

theorem validatedUnbound_staged {state : OrderState} {operation : Option OrderOperation}
    {trades : List TradeExecution}
    (h : validatedUnboundPaperInterims terms c state operation = .ok trades) :
    trades = stagedInterims terms c state operation := by
  unfold validatedUnboundPaperInterims at h
  dsimp only at h
  split at h
  · rename_i empty
    cases h
    exact empty.symm
  · simp only [bind_eq_ok, pure_eq_ok] at h
    obtain ⟨_, -, _, -, rfl⟩ := h
    rfl

/-- Fresh staged trades, each released once, stay unique. -/
theorem Recorded.releaseUnboundPaperInterims (h : Recorded terms c) (ledger : Ledger)
    {trades : List TradeExecution} (distinct : (trades.map (·.tradeId)).Nodup)
    (fresh : ∀ trade ∈ trades, ¬c.knows trade.tradeId) :
    wp (releaseUnboundPaperInterims terms ledger trades) (fun _ => Recorded terms)
      (Recorded terms) c := by
  unfold Bitfinex.releaseUnboundPaperInterims
  induction trades generalizing c with
  | nil => exact h
  | cons trade trades ih =>
    obtain ⟨apart, distinct⟩ := List.nodup_cons.1 distinct
    simp only [each, releaseInterim, wp_bind, wp_check]
    refine ⟨fun _ _ => h, fun _ _ => ?_⟩
    refine wp_mono (applyTradeFill_fills h.disposed trade) ?_ fun _ still => h.still still
    intro _ t filled
    simp only [wp_change]
    have knows : ∀ tradeId, Client.knows { t with
        paperInterimFills := t.paperInterimFills.set trade.tradeId trade
        unboundPaperInterimFills := t.unboundPaperInterimFills.erase trade.tradeId } tradeId ↔
          tradeId = trade.tradeId ∨ c.knows tradeId := fun tradeId =>
      Client.knows_interim trade filled.seen (by simp only [filled.interims])
    refine ih ?_ distinct ?_
    · refine h.fill filled (fresh trade (by simp)) rfl rfl (fun tradeId => (knows tradeId).2) ?_
      intro tradeId staged found
      rw [filled.unbound, Dict.get?_erase] at found
      split at found
      · cases found
      · exact h.keyed tradeId staged found
    · intro later member known
      rcases (knows _).1 known with same | known
      · exact apart (List.mem_map.2 ⟨later, member, same⟩)
      · exact fresh later (by simp [member]) known

theorem Recorded.bindOrder (h : Recorded terms c) (ledger : Ledger) (state : OrderState)
    (operation : Option OrderOperation) {trades : List TradeExecution}
    (distinct : (trades.map (·.tradeId)).Nodup)
    (fresh : ∀ trade ∈ trades, ¬c.knows trade.tradeId)
    (disposed : operation = some .oc →
      ∃ disposition, terminalDisposition terms.upper state = .ok disposition) :
    wp (bindOrder terms ledger state operation trades) (fun _ => Recorded terms)
      (Recorded terms) c := by
  simp only [Bitfinex.bindOrder, wp_bind]
  refine wp_mono (accept_still _ _) ?_ fun _ still => h.still still
  intro _ bound accepted
  refine wp_mono (ackPendingPrice_still _ _) ?_ fun _ still => h.still (accepted.trans still)
  intro _ acked acknowledged
  have still := accepted.trans acknowledged
  have kept := h.still still
  have fresh : ∀ trade ∈ trades, ¬acked.knows trade.tradeId := fun trade member => by
    rw [Client.knows, still.seen, still.interims]
    exact fresh trade member
  have closed : wp (closeOrder state operation)
      (fun _ t => Recorded terms t ∧ ∀ trade ∈ trades, ¬t.knows trade.tradeId)
      (Recorded terms) acked := by
    simp only [closeOrder, wp_ite, wp_change, wp_pure]
    refine ⟨fun terminal => ⟨⟨kept.once, kept.known, kept.total, kept.keyed, ?_⟩, fresh⟩,
      fun _ => ⟨kept, fresh⟩⟩
    intro closing member _
    cases member
    exact disposed terminal
  refine wp_mono closed ?_ fun _ kept => kept
  rintro _ closed ⟨kept, fresh⟩
  refine wp_mono (kept.releaseUnboundPaperInterims ledger distinct fresh) ?_ fun _ kept => kept
  intro _ released kept
  simp only [wp_ite, wp_pure]
  refine ⟨fun _ => ?_, fun _ => kept⟩
  exact wp_mono finishTerminalIfReady_still (fun _ _ still => kept.still still)
    fun _ still => kept.still still

theorem Recorded.handleOrder (h : Recorded terms c) (ledger : Ledger)
    (operation : OrderOperation) (state : OrderState)
    (fresh : ∀ trades, Binds terms c operation state trades →
      ∀ trade ∈ trades, ¬c.knows trade.tradeId) :
    wp (handleOrder terms ledger operation state) (fun _ => Recorded terms)
      (Recorded terms) c := by
  simp only [Bitfinex.handleOrder, wp_bind, wp_look, wp_check, wp_ite, wp_pure, id]
  refine ⟨fun _ _ => h, fun found resolved => ⟨fun _ => h, fun known => ?_⟩⟩
  rw [Bool.not_eq_false] at known
  subst known
  split
  · simp only [wp_raiseWhen]
    exact ⟨fun _ => h, fun _ => h⟩
  · rename_i working
    simp only [wp_bind, wp_check, wp_raiseWhen, wp_change]
    refine ⟨fun _ _ => h, fun _ valid => ⟨fun _ _ => h, fun trades staged => ⟨fun _ _ => h,
      fun _ checked => ⟨fun _ => h, fun _ => ?_⟩⟩⟩⟩
    have verified : Recorded terms (c.updateLive ({ · with venueFlagsVerified := true })) :=
      h.still ⟨rfl, rfl, rfl, rfl, rfl, rfl, id, rfl⟩
    split
    · simp only [wp_raiseWhen]
      exact ⟨fun _ => verified, fun _ => verified⟩
    · rename_i unrejected
      split
      · simp only [rejectOnStatus, wp_change]
        exact verified.reject (fills_append_other (by simp [Generated.kind]))
          rfl rfl rfl rfl rfl rfl
      · rename_i accepts
        have distinct : (trades.map (·.tradeId)).Nodup := by
          rw [validatedUnbound_staged staged]
          exact h.staged_nodup state _
        refine verified.bindOrder ledger state _ distinct
          (fresh trades ⟨resolved, working, valid, staged, checked, unrejected, accepts⟩) ?_
        intro closing
        cases closing
        simp only [checkDisposition, if_true] at checked
        cases made : terminalDisposition terms.upper state with
        | ok disposition => exact ⟨disposition, rfl⟩
        | error e =>
          rw [made] at checked
          cases checked

theorem Recorded.handleOrderSnapshot (h : Recorded terms c) (ledger : Ledger)
    (orders : List OrderState)
    (fresh : ∀ entries, checkSnapshot terms c false orders = .ok entries →
      ∀ entry ∈ entries, ∀ trade ∈ entry.2, ¬c.knows trade.tradeId) :
    wp (handleOrderSnapshot terms ledger orders) (fun _ => Recorded terms)
      (Recorded terms) c := by
  simp only [Bitfinex.handleOrderSnapshot, wp_bind, wp_look, wp_check, id]
  refine ⟨fun _ _ => h, fun entries checked => ?_⟩
  have fresh := fresh entries checked
  obtain rfl | ⟨entry, rfl, first⟩ := checkSnapshot_eq_ok checked
  · exact h
  · obtain ⟨-, -, -, staged, -⟩ := checkSnapshotEntry_eq_ok first
    have verified : Recorded terms (c.updateLive ({ · with venueFlagsVerified := true })) :=
      h.still ⟨rfl, rfl, rfl, rfl, rfl, rfl, id, rfl⟩
    have distinct : (entry.2.map (·.tradeId)).Nodup := by
      rw [validatedUnbound_staged staged]
      exact h.staged_nodup entry.1 none
    simp only [each, bindSnapshotEntry, wp_bind, wp_change, wp_pure]
    exact verified.bindOrder ledger entry.1 none distinct (fresh entry (by simp)) (by rintro ⟨⟩)

theorem Recorded.handleNotification (h : Recorded terms c) (note : Notification) :
    wp (handleNotification terms note) (fun _ => Recorded terms) (Recorded terms) c := by
  simp only [Bitfinex.handleNotification, wp_bind, wp_look, wp_check, wp_ite, wp_pure]
  refine ⟨fun _ => h, fun _ => ⟨fun _ _ => h, fun _ _ => ⟨fun _ => h, fun _ => ?_⟩⟩⟩
  split
  · simp only [wp_raiseWhen]
    exact ⟨fun _ => h, fun _ => h⟩
  · cases note.operation with
    | on =>
      simp only [refuseSubmit, wp_bind, wp_look, wp_raiseWhen, wp_change]
      exact ⟨fun _ => h, fun _ =>
        h.reject (fills_append_other (by simp [Generated.kind])) rfl rfl rfl rfl rfl rfl⟩
    | ou =>
      simp only [refuseModify, wp_bind, wp_look, wp_raiseWhen, wp_change]
      exact ⟨fun _ => h, fun _ => h.still
        ⟨fills_append_other (by simp [Generated.kind]), rfl, rfl, rfl, rfl, rfl, id, rfl⟩⟩
    | oc =>
      simp only [refuseCancel, wp_bind, wp_look, wp_raiseWhen, wp_change]
      exact ⟨fun _ => h, fun _ => h.still
        ⟨fills_append_other (by simp [Generated.kind]), rfl, rfl, rfl, rfl, rfl, id, rfl⟩⟩

theorem Recorded.reconcileLiveReport (h : Recorded terms c) (r : Reconciliation) :
    wp (reconcileLiveReport terms r) (fun _ => Recorded terms) (Recorded terms) c := by
  have assigned : ∀ live : LiveOrder, live.filledQty = c.live.filledQty →
      live.terminal = c.live.terminal → live.terminalEmitted = c.live.terminalEmitted →
      live.retired = c.live.retired →
      Recorded terms { c with live } := fun live filled terminal emitted retired =>
    h.still ⟨rfl, filled, rfl, rfl, rfl, terminal, fun closed => emitted.trans closed, retired⟩
  simp only [Bitfinex.reconcileLiveReport, wp_bind, wp_look, wp_check, wp_ite, wp_pure, wp_change,
    wp_raiseWhen]
  have verified := assigned { c.live with venueFlagsVerified := true } rfl rfl rfl rfl
  exact ⟨fun _ => h, fun _ => ⟨fun _ _ => h, fun _ _ => ⟨fun _ => assigned _ rfl rfl rfl rfl,
    fun _ => ⟨fun _ => ⟨fun _ => verified, fun _ => ⟨fun _ => verified, fun _ =>
      assigned _ rfl rfl rfl rfl⟩⟩, fun _ => verified⟩⟩⟩⟩

theorem Recorded.captureNative (h : Recorded terms c) {native : NativeFills}
    (own : native.Own c.live) :
    wp (captureNative native) (fun _ => Recorded terms) (Recorded terms) c := by
  simp only [Bitfinex.captureNative, wp_bind, wp_look, wp_ite, wp_pure, wp_change]
  refine ⟨fun counts => ?_, fun _ => h⟩
  exact h.still ⟨rfl, max_eq_left (own counts), rfl, rfl, rfl, rfl, id, rfl⟩

/-- A retired order has no quantity left to compare. -/
theorem Recorded.retireReconciledTerminal (h : Recorded terms c) (proved : Bool) :
    wp (retireReconciledTerminal proved c.live) (fun _ => Recorded terms) (Recorded terms) c := by
  simp only [Bitfinex.retireReconciledTerminal, wp_bind, wp_raiseWhen, wp_change]
  refine ⟨fun _ => h, fun _ => ⟨h.once, h.known, fun held => ?_, h.keyed, fun _ _ pending => ?_⟩⟩
  · cases held
  · cases pending

theorem Recorded.confirmTerminalReconciliation (h : Recorded terms c)
    (terminalProved workingProved : Bool) :
    wp (confirmTerminalReconciliation terminalProved workingProved) (fun _ => Recorded terms)
      (Recorded terms) c := by
  simp only [Bitfinex.confirmTerminalReconciliation, wp_bind, wp_look, wp_ite, wp_pure,
    wp_raiseWhen, wp_change]
  exact ⟨fun _ => h, fun _ => ⟨fun _ => h.retireReconciledTerminal _, fun _ => ⟨fun _ => h, fun _ =>
    ⟨fun _ => h.retireReconciledTerminal _, fun _ => ⟨fun _ => h, fun _ =>
      h.still ⟨rfl, rfl, rfl, rfl, rfl, rfl, id, rfl⟩⟩⟩⟩⟩⟩

theorem Recorded.command (h : Recorded terms c) {reason : Option String}
    {event : String → Generated} (other : ∀ text, (event text).kind ≠ .filled)
    {f : LiveOrder → LiveOrder} (assigned : Recorded terms (c.updateLive f)) :
    wp (match reason with
      | some reason => (change (·.generate (event reason)) : Call Unit)
      | none => change (·.updateLive f)) (fun _ => Recorded terms) (Recorded terms) c := by
  cases reason with
  | none => exact assigned
  | some reason =>
    exact h.still ⟨fills_append_other (other reason), rfl, rfl, rfl, rfl, rfl, id, rfl⟩

/-- Every input that binds only fresh trades keeps the facts. -/
theorem Recorded.handle (h : Recorded terms c) {input : Input}
    (fresh : BindsFresh terms c input) : Recorded terms ((handle terms input).after c) := by
  apply after_of_wp
  cases input with
  | te trade ledger => exact h.handleInterimTrade ledger trade
  | tu trade ledger => exact h.handleTrade ledger trade
  | order operation state ledger => exact h.handleOrder ledger operation state fresh
  | snapshot orders ledger => exact h.handleOrderSnapshot ledger orders fresh
  | notification note => exact h.handleNotification note
  | report r => exact h.reconcileLiveReport r
  | native native => exact h.captureNative fresh
  | confirm terminalProved workingProved => exact h.confirmTerminalReconciliation _ _
  | modify hold price tsNow =>
    simp only [Bitfinex.handle, modifyOrder, wp_bind, wp_look]
    exact h.command (by simp [Generated.kind]) (h.still ⟨rfl, rfl, rfl, rfl, rfl, rfl, id, rfl⟩)
  | cancel tsNow =>
    simp only [Bitfinex.handle, cancelOrder, wp_bind, wp_look]
    exact h.command (by simp [Generated.kind]) (h.still ⟨rfl, rfl, rfl, rfl, rfl, rfl, id, rfl⟩)
  | unknown operation => exact h.still ⟨rfl, rfl, rfl, rfl, rfl, rfl, id, rfl⟩

theorem Recorded.filledOnce (h : Recorded terms c) : FilledOnce c := by
  refine ⟨h.once, fun held => ?_⟩
  rw [firsts_of_nodup _ h.once]
  exact h.total held

end Calls

/-- An order just submitted, before any of its events. -/
structure Fresh (terms : Terms) (c : Client) : Prop where
  live : c.live = .submitted terms
  silent : c.generated = []
  keyed : ∀ tradeId trade, c.unboundPaperInterimFills.get? tradeId = some trade →
    trade.tradeId = tradeId

theorem Fresh.recorded {terms : Terms} {c : Client} (h : Fresh terms c) : Recorded terms c := by
  refine ⟨by simp [h.silent, fillIds, fills], by simp [h.silent, fillIds, fills],
    by simp [h.silent, fills, h.live, LiveOrder.submitted], h.keyed, ?_⟩
  simp [h.live, LiveOrder.submitted]

/-- Fills are unique in every state of a run whose order frames bind only trades that are not
recorded yet, and whose native fills are this client's own. -/
theorem exactly_once (terms : Terms) {start : Client} (fresh : Fresh terms start)
    (inputs : List Input)
    (binds : ∀ past input rest, inputs = past ++ input :: rest →
      BindsFresh terms (run terms start past) input) :
    FilledOnce (run terms start inputs) := by
  have recorded : Recorded terms (run terms start inputs) := by
    induction inputs using List.reverseRecOn with
    | nil => exact fresh.recorded
    | append_singleton past input ih =>
      have kept := ih fun earlier other rest same =>
        binds earlier other (rest ++ [input]) (by simp [same])
      rw [run, List.foldl_append]
      exact kept.handle (binds past input [] (by simp))
  exact recorded.filledOnce

instance (c : Client) : Decidable (FilledOnce c) := inferInstanceAs (Decidable (_ ∧ _))

/-- A reduce-only paper taker of ten ounces. -/
def takerTerms : Terms where
  cid := 4567
  side := .buy
  quantity := 10
  price := 3925
  timeInForce := .ioc
  isPostOnly := false
  isReduceOnly := true
  rawSymbol := paperRawSymbol
  feeCurrency := "USD"
  exactQty := fun _ => true
  exactPrice := fun _ => true
  upper := fun text => text.map Char.toUpper
  positive := by decide

def takerExecution : TradeExecution :=
  ⟨901, paperRawSymbol, 1700000000020, 777, 3, 3925, "IOC", 3925, false, some 4567⟩

def takerUpdate : TradeUpdate := { takerExecution with fee := -179 / 100, feeCurrency := "USD" }

/-- The order while the venue still works it. -/
def takerReport : Reconciliation where
  report := {
    venueOrderId := 777
    orderStatus := .accepted
    quantity := 10
    filledQty := 0
    price := some 3925
    avgPx := none
    postOnly := false
    reduceOnly := true
    cancelReason := none
    tsAccepted := 1700000000010
    tsLast := 1700000000010 }

/-- The rest of the order was canceled; a second trade of four ounces is still on its way. -/
def takerTerminal : OrderState where
  venueOrderId := 777
  clientOrderId := some 4567
  symbol := paperRawSymbol
  tsCreatedMs := 1700000000010
  tsUpdatedMs := 1700000000030
  remainingQty := 3
  originalQty := 10
  orderType := "IOC"
  flags := reduceOnlyFlag
  status := "IOC CANCELED was: PARTIALLY FILLED @ 3925.0(7)".toList
  price := 3925

/-- The interim trade is buffered, the report binds the order, the final update fills the trade,
and the terminal frame releases the buffered copy. -/
def staleRelease : List Input :=
  [.te takerExecution {}, .report takerReport, .tu takerUpdate {},
    .order .oc takerTerminal {}]

/-- The trade of the final update is generated again when the terminal frame releases its buffered
copy. -/
theorem stale_release_fills_twice :
    fillIds (run takerTerms ⟨.submitted takerTerms, .empty, .empty, .empty, []⟩
      staleRelease).generated = [901, 901] ∧
    ¬FilledOnce (run takerTerms ⟨.submitted takerTerms, .empty, .empty, .empty, []⟩
      staleRelease) := by
  decide +kernel

/-- Released by its own order frame, the interim trade fills once and the update adds nothing. -/
theorem exactly_once_released :
    fillIds (run takerTerms ⟨.submitted takerTerms, .empty, .empty, .empty, []⟩
      [.te takerExecution {}, .order .oc takerTerminal {}, .tu takerUpdate {}]).generated = [901] ∧
    FilledOnce (run takerTerms ⟨.submitted takerTerms, .empty, .empty, .empty, []⟩
      [.te takerExecution {}, .order .oc takerTerminal {}, .tu takerUpdate {}]) := by
  refine ⟨by decide +kernel, exactly_once takerTerms ⟨rfl, rfl, by simp⟩ _ ?_⟩
  intro past input rest same
  rcases past with _ | ⟨first, _ | ⟨second, _ | ⟨third, past⟩⟩⟩ <;>
    simp only [List.nil_append, List.cons_append, List.cons.injEq] at same
  · obtain ⟨rfl, -⟩ := same
    trivial
  · obtain ⟨rfl, rfl, -⟩ := same
    intro trades binds
    rw [validatedUnbound_staged binds.staged]
    decide +kernel
  · obtain ⟨rfl, rfl, rfl, -⟩ := same
    trivial
  · obtain ⟨-, -, -, ended⟩ := same
    simp at ended

/-- A resting paper Maker; two of its four ounces are filled by a REST report alone. -/
def paperMaker : Terms := { makerTerms with rawSymbol := paperRawSymbol, feeCurrency := "USD" }

def paperMakerReport : Reconciliation where
  report := {
    venueOrderId := 777
    orderStatus := .partiallyFilled
    quantity := 4
    filledQty := 2
    price := some 3926
    avgPx := some 3926
    postOnly := true
    reduceOnly := false
    cancelReason := none
    tsAccepted := 1700000000010
    tsLast := 1700000000020 }

-- The native cache counts the reported fill, and the next trade is added to it.
example :
    let working :=
      { LiveOrder.submitted paperMaker with venueOrderId := some 777, accepted := true }
    let trade := { makerTrade 902 1 with symbol := paperRawSymbol, feeCurrency := "USD" }
    let c := run paperMaker ⟨working, .empty, .empty, .empty, []⟩
      [.report paperMakerReport, .native { quantities := [2], filledQty := 2 }, .tu trade {}]
    c.live.filledQty = 3 ∧ fillIds c.generated = [902] ∧ ¬FilledOnce c := by
  decide +kernel

end ArbNautilus.Bitfinex
