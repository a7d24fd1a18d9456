import ArbNautilus.Base.Dict
import ArbNautilus.Base.Handler
import ArbNautilus.Base.Raise
import ArbNautilus.Bitfinex.Protocol
import Mathlib.Data.Finset.Basic

namespace ArbNautilus.Bitfinex

open Base Base.Handler

/-- A request whose outcome the venue still owes. -/
inductive Mutation where
  | submit
  | modify
  | cancel
deriving DecidableEq, Repr

inductive RejectionKey where
  | status (text : Text)
  | note (status : NotificationStatus) (code : Option ℤ) (text : String)
deriving DecidableEq

/-- The part of an `OrderStatusReport` that reconciliation reads of one order. -/
structure OrderStatusReport where
  venueOrderId : ℕ
  orderStatus : OrderStatus
  quantity : ℚ
  filledQty : ℚ
  price : Option ℚ
  avgPx : Option ℚ
  postOnly : Bool
  reduceOnly : Bool
  cancelReason : Option String
  tsAccepted : ℕ
  tsLast : ℕ
deriving DecidableEq

structure LiveOrder where
  currentPrice : ℚ
  knownPrices : Finset ℚ
  unknownOperations : Finset Mutation := ∅
  submittedInProcess : Bool := false
  venueOrderId : Option ℕ := none
  accepted : Bool := false
  filledQty : ℚ := 0
  pendingModifyPrice : Option ℚ := none
  pendingCancel : Bool := false
  terminal : Option OrderState := none
  reconciledTerminal : Option OrderStatusReport := none
  reconciledWorking : Option OrderStatusReport := none
  terminalEmitted : Bool := false
  rejectionKey : Option RejectionKey := none
  venueFlagsVerified : Bool := false
  /-- `_by_cid` has let go of the order. -/
  retired : Bool := false
deriving DecidableEq

/-- The native order events the client generates. -/
inductive Generated where
  | accepted (venueOrderId tsEvent : ℕ)
  | rejected (reason : String) (tsEvent : ℕ) (duePostOnly : Bool)
  | filled (tradeId : ℕ) (quantity price : ℚ) (maker : Bool) (tsEvent : ℕ)
  | canceled (venueOrderId tsEvent : ℕ)
  | updated (price : ℚ) (tsEvent : ℕ)
  | modifyRejected (reason : String) (tsEvent : ℕ)
  | cancelRejected (reason : String) (tsEvent : ℕ)
deriving DecidableEq

/-- The client with one live order, and what it generated for it so far. -/
structure Client where
  live : LiveOrder
  seenTrades : Dict ℕ TradeUpdate := .empty
  paperInterimFills : Dict ℕ TradeExecution := .empty
  unboundPaperInterimFills : Dict ℕ TradeExecution := .empty
  generated : List Generated := []

/-- What `_cached_trade_already_applied` finds among the native fills. -/
inductive CachedTrade where
  | absent
  | applied
  | conflict
deriving DecidableEq, Repr

/-- The answers of the native cache and of the CID store's fee ledger during one call. -/
structure Ledger where
  /-- `_record_fee_trade` accepts the trade. -/
  feeRecorded : ℕ → Bool := fun _ => true
  cached : CachedTrade := .absent
  /-- The CID the ledger knows for a trade without one. -/
  feeCid : Option ℕ := none
  /-- `_record_retired_fee_trade` accepts the trade. -/
  retired : Bool := true

abbrev Call := Handler Client Raised

namespace LiveOrder

def submitted (terms : Terms) : LiveOrder where
  currentPrice := terms.price
  knownPrices := {terms.price}
  submittedInProcess := true

/-- An open order that survived a restart, as the native cache holds it. -/
def rehydrated (price : ℚ) (venueOrderId : ℕ) (filledQty : ℚ) : LiveOrder where
  currentPrice := price
  knownPrices := {price}
  venueOrderId := some venueOrderId
  accepted := true
  filledQty := filledQty

def resolveMutation (live : LiveOrder) (operation : Mutation) : LiveOrder :=
  { live with unknownOperations := live.unknownOperations.erase operation }

def resolveAllMutations (live : LiveOrder) : LiveOrder := { live with unknownOperations := ∅ }

/-- The prices an order frame may carry. -/
def expectsPrice (live : LiveOrder) (price : ℚ) : Prop :=
  price = live.currentPrice ∨ some price = live.pendingModifyPrice

instance (live : LiveOrder) (price : ℚ) : Decidable (live.expectsPrice price) :=
  inferInstanceAs (Decidable (_ ∨ _))

end LiveOrder

namespace Client

def updateLive (f : LiveOrder → LiveOrder) (c : Client) : Client := { c with live := f c.live }

def generate (event : Generated) (c : Client) : Client :=
  { c with generated := c.generated ++ [event] }

end Client

section Frames

variable (terms : Terms)

/-- Whether a frame is about this order; a frame about no known order is passed over. -/
def resolveLive (live : LiveOrder) (clientOrderId venueOrderId : Option ℕ) :
    Except Raised Bool := do
  let byClient := clientOrderId = some terms.cid
  let byVenue := venueOrderId ≠ none ∧ venueOrderId = live.venueOrderId
  -- The native order of a retired one is closed, so it is not taken up again.
  if live.retired ∨ ¬byClient ∧ ¬byVenue then pure false
  else do
    raiseIf (clientOrderId ≠ none ∧ clientOrderId ≠ some terms.cid)
      (.executionError "Bitfinex event changed client order ID")
    raiseIf (venueOrderId ≠ none ∧ live.venueOrderId ≠ none ∧ venueOrderId ≠ live.venueOrderId)
      (.executionError "Bitfinex event changed venue order ID")
    pure true

/-- The one relaxation of the flag check: paper leaves out the post-only flag of a Maker. -/
def flagsMatch (live : LiveOrder) (state : OrderState) (operation : Option OrderOperation) :
    Prop :=
  let paperFullFillTerminal := operation = some .oc ∧ live.accepted ∧
    live.filledQty = terms.quantity ∧ terminalFilled state = terms.quantity
  state.effectiveFlags = terms.flags ∨
    (terms.paper ∧ live.submittedInProcess ∧ terms.flags = postOnlyFlag ∧
      terms.timeInForce = .gtc ∧ state.effectiveFlags = 0 ∧ state.postOnlyMeta = none ∧
      (operation = some .on ∨ (operation = some .ou ∧ live.pendingModifyPrice ≠ none) ∨
        (operation = some .oc ∧ live.accepted ∧ live.pendingCancel) ∨ paperFullFillTerminal))

instance (live : LiveOrder) (state : OrderState) (operation : Option OrderOperation) :
    Decidable (flagsMatch terms live state operation) := by
  unfold flagsMatch
  infer_instance

/-- `none` stands for the `os` snapshot. -/
def validateOrderState (live : LiveOrder) (state : OrderState)
    (operation : Option OrderOperation) : Except Raised Unit :=
  raiseIf (state.symbol ≠ terms.rawSymbol ∨ state.clientOrderId ≠ some terms.cid ∨
      state.originalQty * terms.sign ≤ 0 ∨ state.remainingQty * terms.sign < 0 ∨
      |state.originalQty| ≠ terms.quantity ∨ terms.quantity < |state.remainingQty| ∨
      state.orderType ≠ terms.orderType ∨ state.tifExpiryMs ≠ none ∨
      ¬flagsMatch terms live state operation ∨ ¬live.expectsPrice state.price)
    (.executionError "Bitfinex order event differs from local submission")

/-- `feeCurrency` is `none` for an interim trade, which carries no fee yet. -/
def validateTrade (live : LiveOrder) (trade : TradeExecution) (feeCurrency : Option String) :
    Except Raised Unit :=
  raiseIf (trade.symbol ≠ terms.rawSymbol ∨ trade.executionQty * terms.sign ≤ 0 ∨
      trade.executionPrice ≤ 0 ∨ trade.orderType ≠ terms.orderType ∨
      (trade.orderPrice ∉ live.knownPrices ∧ some trade.orderPrice ≠ live.pendingModifyPrice) ∨
      trade.maker ≠ terms.isPostOnly ∨
      (trade.clientOrderId ≠ none ∧ trade.clientOrderId ≠ some terms.cid) ∨
      (feeCurrency ≠ none ∧ feeCurrency ≠ some terms.feeCurrency))
    (.executionError "Bitfinex trade differs from local submission")

def recordFeeTrade (ledger : Ledger) (trade : TradeExecution) : Except Raised Unit :=
  raiseIf (ledger.feeRecorded trade.tradeId = false)
    (.accountingError "Bitfinex fee metadata has conflicting facts")

/-- What it captures of an applied fill is an input of its own, right before the frame. -/
def cachedTradeAlreadyApplied (ledger : Ledger) : Except Raised Bool := do
  raiseIf (ledger.cached = .conflict)
    (.executionError "cached Bitfinex trade changed its execution facts")
  pure (ledger.cached = .applied)

def accept (venueOrderId tsEvent : ℕ) : Call Unit := do
  let live ← look (·.live)
  raiseWhen (live.venueOrderId ≠ none ∧ live.venueOrderId ≠ some venueOrderId)
    (.executionError "Bitfinex order changed venue ID")
  change (·.updateLive fun live =>
    { live with venueOrderId := some venueOrderId }.resolveMutation .submit)
  if live.accepted then pure ()
  else change fun c =>
    (c.updateLive ({ · with accepted := true })).generate (.accepted venueOrderId tsEvent)

def generateCanceled (state : OrderState) (disposition : Disposition) : Call Unit :=
  if disposition = .canceled ∧ terminalFilled state < |state.originalQty| then
    change (·.generate (.canceled state.venueOrderId (state.tsUpdatedMs * 1000000)))
  else pure ()

/-- Emit the terminal once the fills have caught up with it. -/
def finishTerminalIfReady : Call Unit := do
  let live ← look (·.live)
  match live.terminal with
  | none => pure ()
  | some state =>
    raiseWhen (terminalFilled state < live.filledQty)
      (.executionError "observed Bitfinex fills exceed the terminal order quantity")
    if live.terminalEmitted ∨ live.filledQty < terminalFilled state then pure ()
    else do
      let disposition ← check (terminalDisposition terms.upper state)
      generateCanceled state disposition
      change (·.updateLive ({ · with terminalEmitted := true, pendingModifyPrice := none }))

def ackPendingPrice (price : ℚ) (tsEvent : ℕ) : Call Unit := do
  let live ← look (·.live)
  if live.pendingModifyPrice ≠ some price then pure ()
  else do
    raiseWhen (live.venueOrderId = none)
      (.executionError "Bitfinex modify has no venue order ID")
    change fun c => (c.generate (.updated price tsEvent)).updateLive fun live =>
      { live with
        currentPrice := price
        knownPrices := insert price live.knownPrices
        pendingModifyPrice := none }.resolveMutation .modify

def checkFill (live : LiveOrder) (trade : TradeExecution) : Except Raised Unit := do
  raiseIf (terms.isReduceOnly ∧ live.venueFlagsVerified = false)
    (.executionError "Bitfinex reduce-only fill arrived before venue flags were verified")
  raiseIf (terms.quantity < live.filledQty + |trade.executionQty|)
    (.executionError "Bitfinex fills exceed the submitted quantity")
  raiseIf (∃ state ∈ live.terminal,
      terminalFilled state < live.filledQty + |trade.executionQty|)
    (.executionError "observed Bitfinex fill exceeds the terminal order quantity")
  raiseIf (terms.exactQty |trade.executionQty| = false ∨
      terms.exactPrice trade.executionPrice = false)
    (.executionError "Bitfinex fill loses instrument precision")

/-- A full fill leaves nothing to cancel. -/
def settleCancel (filled : ℚ) : Call Unit :=
  if filled = terms.quantity then
    change (·.updateLive fun live => { live with pendingCancel := false }.resolveMutation .cancel)
  else pure ()

def applyTradeFill (trade : TradeExecution) : Call Unit := do
  let live ← look (·.live)
  check (checkFill terms live trade)
  accept trade.venueOrderId (trade.tsEventMs * 1000000)
  ackPendingPrice trade.orderPrice (trade.tsEventMs * 1000000)
  change fun c => (c.updateLive fun now =>
    { now with filledQty := live.filledQty + |trade.executionQty| }.resolveMutation
    .submit).generate
      (.filled trade.tradeId |trade.executionQty| trade.executionPrice trade.maker
        (trade.tsEventMs * 1000000))
  settleCancel terms (live.filledQty + |trade.executionQty|)
  finishTerminalIfReady terms

def maxUnboundPaperInterimFills : ℕ := 256

def bufferPaperInterim (trade : TradeExecution) : Call Unit := do
  let c ← look id
  match c.seenTrades.get? trade.tradeId with
  | some update =>
    raiseWhen (¬sameExecution trade update)
      (.executionError "unbound Bitfinex interim trade differs from its final update")
  | none =>
    match c.paperInterimFills.get? trade.tradeId with
    | some applied =>
      raiseWhen (applied ≠ trade)
        (.executionError "duplicate Bitfinex interim trade changed its execution facts")
    | none =>
      match c.unboundPaperInterimFills.get? trade.tradeId with
      | some previous =>
        raiseWhen (previous ≠ trade)
          (.executionError "duplicate unbound Bitfinex interim trade changed its execution facts")
      | none =>
        raiseWhen (maxUnboundPaperInterimFills ≤ c.unboundPaperInterimFills.entries.length)
          (.executionError "unbound Bitfinex paper interim trade buffer is full")
        change fun c => { c with
          unboundPaperInterimFills := c.unboundPaperInterimFills.set trade.tradeId trade }

def stageUnboundPaperInterim (trade : TradeExecution) : Call Unit :=
  if terms.paper = false ∨ trade.clientOrderId ≠ none then pure ()
  else do
    raiseWhen (trade.symbol ≠ terms.rawSymbol ∨ trade.orderType ≠ "IOC" ∨
        trade.orderPrice ≤ 0 ∨ trade.maker)
      (.executionError
        "unbound Bitfinex paper interim trade is not a recoverable IOC taker fill")
    bufferPaperInterim trade

def earlier (a b : TradeExecution) : Prop :=
  a.tsEventMs < b.tsEventMs ∨ a.tsEventMs = b.tsEventMs ∧ a.tradeId ≤ b.tradeId

instance (a b : TradeExecution) : Decidable (earlier a b) :=
  inferInstanceAs (Decidable (_ ∨ _))

/-- Whether an order frame speaks for a staged trade. -/
def staged (state : OrderState) (operation : Option OrderOperation) (trade : TradeExecution) :
    Prop :=
  (trade.clientOrderId = none ∧ trade.venueOrderId = state.venueOrderId) ∨
    ((operation = some .on ∨ operation = some .oc) ∧
      (trade.clientOrderId = some terms.cid ∨ trade.venueOrderId = state.venueOrderId))

instance (state : OrderState) (operation : Option OrderOperation) (trade : TradeExecution) :
    Decidable (staged terms state operation trade) := by
  unfold staged
  infer_instance

def checkStaged (live : LiveOrder) (state : OrderState) (operation : Option OrderOperation)
    (filled : ℚ) (trade : TradeExecution) : Except Raised ℚ := do
  let positiveCid := trade.clientOrderId ≠ none
  raiseIf ((positiveCid ∧ operation ≠ some .on ∧ operation ≠ some .oc) ∨
      (¬positiveCid ∧ operation ≠ some .on ∧ operation ≠ none) ∨
      (positiveCid ∧ live.submittedInProcess = false) ∨ terms.timeInForce ≠ .ioc ∨
      (trade.clientOrderId ≠ none ∧ trade.clientOrderId ≠ some terms.cid) ∨
      trade.venueOrderId ≠ state.venueOrderId)
    (.executionError "unbound Bitfinex paper interim trade changed order identity")
  validateTrade terms live trade none
  raiseIf (trade.tsEventMs < state.tsCreatedMs)
    (.executionError "unbound Bitfinex paper interim trade predates its order")
  let filled := filled + |trade.executionQty|
  raiseIf (terms.quantity < filled)
    (.executionError "buffered Bitfinex fills exceed the submitted quantity")
  raiseIf (operation = some .oc ∧ terminalFilled state < filled)
    (.executionError "buffered Bitfinex fills exceed the terminal order quantity")
  raiseIf (terms.exactQty |trade.executionQty| = false ∨
      terms.exactPrice trade.executionPrice = false)
    (.executionError "buffered Bitfinex fill loses instrument precision")
  pure filled

/-- The staged trades an order frame binds, in the order they are released. -/
def stagedInterims (c : Client) (state : OrderState) (operation : Option OrderOperation) :
    List TradeExecution :=
  (c.unboundPaperInterimFills.values.filter (staged terms state operation ·)).insertionSort
    earlier

def validatedUnboundPaperInterims (c : Client) (state : OrderState)
    (operation : Option OrderOperation) : Except Raised (List TradeExecution) :=
  let trades := stagedInterims terms c state operation
  if trades = [] then .ok []
  else do
    raiseIf (operation = some .ou ∨ terms.paper = false ∨ terms.isReduceOnly = false ∨
        state.effectiveFlags ≠ reduceOnlyFlag)
      (.executionError
        "unbound Bitfinex paper interim fill requires exact reduce-only order evidence")
    let _ ← trades.foldlM (checkStaged terms c.live state operation) c.live.filledQty
    pure trades

def releaseInterim (ledger : Ledger) (trade : TradeExecution) : Call Unit := do
  check (recordFeeTrade ledger trade)
  applyTradeFill terms trade
  change fun c => { c with
    paperInterimFills := c.paperInterimFills.set trade.tradeId trade
    unboundPaperInterimFills := c.unboundPaperInterimFills.erase trade.tradeId }

def releaseUnboundPaperInterims (ledger : Ledger) (trades : List TradeExecution) : Call Unit :=
  each (releaseInterim terms ledger) trades

end Frames

end ArbNautilus.Bitfinex
