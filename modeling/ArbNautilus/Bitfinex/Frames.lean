import ArbNautilus.Bitfinex.Client

namespace ArbNautilus.Bitfinex

open Base Base.Handler

section Frames

variable (terms : Terms) (ledger : Ledger)

/-- An interim trade waits while the order it fills has no verified flags. -/
def buffersInterim (live : LiveOrder) (trade : TradeExecution) : Prop :=
  live.submittedInProcess ∧ live.accepted = false ∧ live.venueFlagsVerified = false ∧
    live.terminal = none ∧ terms.timeInForce = .ioc ∧ terms.isReduceOnly ∧
    trade.clientOrderId = some terms.cid

instance (live : LiveOrder) (trade : TradeExecution) :
    Decidable (buffersInterim terms live trade) := by
  unfold buffersInterim
  infer_instance

/-- The part of `_handle_interim_trade` past the buffer. -/
def applyInterim (trade : TradeExecution) : Call Unit := do
  let c ← look id
  match c.paperInterimFills.get? trade.tradeId with
  | some previous =>
    raiseWhen (previous ≠ trade)
      (.executionError "duplicate Bitfinex interim trade changed its execution facts")
    check (recordFeeTrade ledger trade)
  | none =>
    match c.seenTrades.get? trade.tradeId with
    | some update =>
      raiseWhen (¬sameExecution trade update)
        (.executionError "Bitfinex interim trade differs from its final update")
      check (recordFeeTrade ledger trade)
    | none =>
      check (recordFeeTrade ledger trade)
      let applied ← check (cachedTradeAlreadyApplied ledger)
      if applied then pure ()
      else do
        applyTradeFill terms trade
        change fun c => { c with
          paperInterimFills := c.paperInterimFills.set trade.tradeId trade }

/-- Use paper `te` execution facts promptly when the fee update is absent. -/
def handleInterimTrade (trade : TradeExecution) : Call Unit := do
  let live ← look (·.live)
  let known ← check (resolveLive terms live trade.clientOrderId (some trade.venueOrderId))
  if known = false then stageUnboundPaperInterim terms trade
  else do
    raiseWhen (live.rejectionKey ≠ none)
      (.executionError "Bitfinex trade followed a definitive rejection")
    check (validateTrade terms live trade none)
    if terms.paper = false then pure ()
    else if buffersInterim terms live trade then bufferPaperInterim trade
    else applyInterim terms ledger trade

def handleTrade (trade : TradeUpdate) : Call Unit := do
  let live ← look (·.live)
  let cid := trade.clientOrderId.orElse fun _ => ledger.feeCid
  let known ← check (resolveLive terms live cid (some trade.venueOrderId))
  if known = false then
    raiseWhen (ledger.retired = false)
      (.executionError "late Bitfinex fee trade differs from its closed order")
  else do
    raiseWhen (live.rejectionKey ≠ none)
      (.executionError "Bitfinex trade followed a definitive rejection")
    check (validateTrade terms live trade.toTradeExecution (some trade.feeCurrency))
    check (recordFeeTrade ledger trade.toTradeExecution)
    let c ← look id
    match c.seenTrades.get? trade.tradeId with
    | some previous =>
      raiseWhen (previous ≠ trade)
        (.executionError "Bitfinex trade ID changed its execution facts")
    | none =>
      let remember : Call Unit :=
        change fun c => { c with seenTrades := c.seenTrades.set trade.tradeId trade }
      match c.paperInterimFills.get? trade.tradeId with
      | some interim =>
        raiseWhen (¬sameExecution interim trade)
          (.executionError "Bitfinex TU differs from its paper interim execution")
        finishTerminalIfReady terms
        remember
      | none =>
        let applied ← check (cachedTradeAlreadyApplied ledger)
        if applied then pure ()
        else do
          applyTradeFill terms trade.toTradeExecution
          remember

/-- A definitive rejection closes an order that was never accepted. -/
def rejectOnStatus (state : OrderState) (rejection : String) : Call Unit :=
  change fun c => (c.generate (.rejected (String.ofList state.status)
    (state.tsUpdatedMs * 1000000) (rejection = "POSTONLY CANCELED"))).updateLive fun live =>
      { live with
        terminal := some state
        terminalEmitted := true
        rejectionKey := some (.status state.status) }.resolveAllMutations

def closeOrder (state : OrderState) (operation : Option OrderOperation) : Call Unit :=
  if operation = some .oc then
    change (·.updateLive fun live =>
      { live with pendingCancel := false, terminal := some state }.resolveAllMutations)
  else pure ()

/-- The acceptance, modify, fills and terminal an order frame reports. -/
def bindOrder (state : OrderState) (operation : Option OrderOperation)
    (trades : List TradeExecution) : Call Unit := do
  accept state.venueOrderId (state.tsUpdatedMs * 1000000)
  ackPendingPrice state.price (state.tsUpdatedMs * 1000000)
  closeOrder state operation
  releaseUnboundPaperInterims terms ledger trades
  if operation = some .oc then finishTerminalIfReady terms else pure ()

/-- The explicit failure an order frame reports before any acceptance or fill. -/
def rejectionOf (live : LiveOrder) (state : OrderState) : Option String :=
  if live.accepted = false ∧ terminalFilled state = 0 then
    initialRejection terms.upper state.status
  else none

/-- What a terminal frame must report, by its status text. -/
def checkDisposition (operation : OrderOperation) (state : OrderState) : Except Raised Unit :=
  if operation = .oc then Except.map (fun _ => ()) (terminalDisposition terms.upper state)
  else .ok ()

def handleOrder (operation : OrderOperation) (state : OrderState) : Call Unit := do
  let c ← look id
  let known ← check (resolveLive terms c.live state.clientOrderId (some state.venueOrderId))
  if known = false then pure ()
  else match c.live.terminal with
    | some terminal =>
      raiseWhen (operation ≠ .oc ∨ state ≠ terminal)
        (.executionError "Bitfinex order update followed its terminal event")
    | none => do
      check (validateOrderState terms c.live state (some operation))
      let trades ← check (validatedUnboundPaperInterims terms c state (some operation))
      check (checkDisposition terms operation state)
      let rejection := rejectionOf terms c.live state
      raiseWhen (rejection ≠ none ∧ trades ≠ [])
        (.executionError "Bitfinex rejected an order which already has a buffered interim fill")
      change (·.updateLive ({ · with venueFlagsVerified := true }))
      match c.live.rejectionKey with
      | some key =>
        raiseWhen (rejection = none ∨ key ≠ .status state.status)
          (.executionError "Bitfinex success followed a definitive rejection")
      | none =>
        match rejection with
        | some reason => rejectOnStatus state reason
        | none => bindOrder terms ledger state (some operation) trades

/-- The checks of one snapshot entry; an owned CID is this order's, so a second one repeats
it. -/
def checkSnapshotEntry (c : Client) (seen : Bool) (state : OrderState) :
    Except Raised (OrderState × List TradeExecution) := do
  raiseIf (state.clientOrderId ≠ some terms.cid)
    (.executionError
      "Bitfinex order snapshot contains an active order without an owned CID")
  raiseIf seen
    (.executionError "Bitfinex order snapshot repeats a CID or venue order ID")
  let known ← resolveLive terms c.live state.clientOrderId (some state.venueOrderId)
  raiseIf (known = false)
    (.executionError "owned Bitfinex snapshot order cannot be reconstructed from cache")
  raiseIf (c.live.terminal ≠ none ∨ c.live.rejectionKey ≠ none)
    (.executionError "active Bitfinex snapshot order conflicts with a local terminal")
  validateOrderState terms c.live state none
  raiseIf (terms.upper state.status ≠ "ACTIVE".toList ∧
      startsWith (terms.upper state.status) "PARTIALLY FILLED" = false)
    (.executionError "Bitfinex order snapshot contains a non-open order status")
  let trades ← validatedUnboundPaperInterims terms c state none
  pure (state, trades)

/-- Authenticate owned open-order state without weakening restart semantics. -/
def checkSnapshot (c : Client) : Bool → List OrderState →
    Except Raised (List (OrderState × List TradeExecution))
  | _, [] => .ok []
  | seen, state :: rest => do
    let entry ← checkSnapshotEntry terms c seen state
    let entries ← checkSnapshot c true rest
    pure (entry :: entries)

def bindSnapshotEntry (entry : OrderState × List TradeExecution) : Call Unit := do
  change (·.updateLive ({ · with venueFlagsVerified := true }))
  bindOrder terms ledger entry.1 none entry.2

def handleOrderSnapshot (orders : List OrderState) : Call Unit := do
  let c ← look id
  let entries ← check (checkSnapshot terms c false orders)
  each (bindSnapshotEntry terms ledger) entries

def requestType : OrderOperation → String
  | .on => "on-req"
  | .ou => "ou-req"
  | .oc => "oc-req"

def NotificationStatus.text : NotificationStatus → String
  | .success => "SUCCESS"
  | .error => "ERROR"
  | .failure => "FAILURE"

def Notification.reason (note : Notification) : String :=
  "Bitfinex " ++ requestType note.operation ++ " " ++ note.status.text ++ " " ++
    (match note.code with
      | none => "None"
      | some code => toString code) ++ ": " ++ note.text

def Notification.rejectionKey (note : Notification) : RejectionKey :=
  .note note.status note.code note.text

def refuseSubmit (note : Notification) : Call Unit := do
  let live ← look (·.live)
  raiseWhen live.accepted (.executionError "Bitfinex submit failure followed acceptance")
  change fun c => (c.generate (.rejected note.reason (note.tsEventMs * 1000000) false)).updateLive
    fun live => { live with
      terminalEmitted := true
      rejectionKey := some note.rejectionKey }.resolveAllMutations

def refuseModify (note : Notification) : Call Unit := do
  let live ← look (·.live)
  raiseWhen (live.pendingModifyPrice = none ∧ Mutation.modify ∉ live.unknownOperations)
    (.executionError "unexpected Bitfinex modify rejection")
  change fun c => (c.generate (.modifyRejected note.reason (note.tsEventMs * 1000000))).updateLive
    fun live => { live with pendingModifyPrice := none }.resolveMutation .modify

def refuseCancel (note : Notification) : Call Unit := do
  let live ← look (·.live)
  raiseWhen (live.pendingCancel = false ∧ Mutation.cancel ∉ live.unknownOperations)
    (.executionError "unexpected Bitfinex cancel rejection")
  change fun c => (c.generate (.cancelRejected note.reason (note.tsEventMs * 1000000))).updateLive
    fun live => { live with pendingCancel := false }.resolveMutation .cancel

def handleNotification (note : Notification) : Call Unit :=
  if note.status = .success then pure ()
  else do
    let live ← look (·.live)
    let known ← check (resolveLive terms live note.clientOrderId note.venueOrderId)
    if known = false then pure ()
    else match live.rejectionKey with
      | some key =>
        raiseWhen (note.operation ≠ .on ∨ key ≠ note.rejectionKey)
          (.executionError "Bitfinex mutation followed a definitive rejection")
      | none => match note.operation with
        | .on => refuseSubmit note
        | .ou => refuseModify note
        | .oc => refuseCancel note

end Frames

/-- A REST report, the options of its caller and the answers of the native cache. -/
structure Reconciliation where
  report : OrderStatusReport
  allowMissingPostOnly : Bool := false
  allowTerminalRecovery : Bool := false
  /-- The native order has the report's identity, side, type, quantity and fills. -/
  nativeAgrees : Bool := true
  /-- `_validate_terminal_fill_evidence` accepts the reported trades. -/
  fillEvidence : Bool := true
  /-- A silent terminal is armed and its deadline has passed. -/
  overdue : Bool := false

section Reports

variable (terms : Terms) (r : Reconciliation)

def canReconcileSilentTerminal (live : LiveOrder) (operation : Mutation) : Prop :=
  (terms.paper ∧ live.submittedInProcess ∧ live.terminal = none ∧ live.rejectionKey = none ∧
    live.terminalEmitted = false ∧ live.filledQty < terms.quantity ∧
    live.pendingModifyPrice = none ∧ Mutation.modify ∉ live.unknownOperations) ∧
  ((operation = .submit ∧ terms.timeInForce = .ioc) ∨
    (operation = .cancel ∧ live.accepted ∧ live.pendingCancel ∧ terms.timeInForce = .gtc ∧
      terms.isPostOnly))

instance (live : LiveOrder) (operation : Mutation) :
    Decidable (canReconcileSilentTerminal terms live operation) := by
  unfold canReconcileSilentTerminal
  infer_instance

def sameRunPaperMaker (live : LiveOrder) : Prop :=
  terms.paper ∧ live.submittedInProcess ∧ live.accepted ∧ terms.timeInForce = .gtc ∧
    terms.isPostOnly ∧ live.pendingModifyPrice = none ∧ Mutation.modify ∉ live.unknownOperations

instance (live : LiveOrder) : Decidable (sameRunPaperMaker terms live) := by
  unfold sameRunPaperMaker
  infer_instance

def reportCanBind : Prop :=
  r.report.orderStatus = .accepted ∨ r.report.orderStatus = .partiallyFilled

instance : Decidable (reportCanBind r) := inferInstanceAs (Decidable (_ ∨ _))

def checkReport (live : LiveOrder) : Except Raised Unit := do
  raiseIf (r.report.venueOrderId = 0)
    (.executionError "reconciled Bitfinex venue order ID is invalid")
  raiseIf (live.venueOrderId ≠ none ∧ live.venueOrderId ≠ some r.report.venueOrderId)
    (.executionError "cached open Bitfinex order differs from venue report: venue_order_id")
  raiseIf (r.nativeAgrees = false ∨
      (r.report.postOnly ≠ terms.isPostOnly ∧
        ¬(r.allowMissingPostOnly ∧ terms.isPostOnly ∧ r.report.postOnly = false)) ∨
      r.report.reduceOnly ≠ terms.isReduceOnly ∨ r.report.quantity ≠ terms.quantity ∨
      ¬∃ price ∈ r.report.price, live.expectsPrice price)
    (.executionError "cached open Bitfinex order differs from venue report")
  raiseIf (r.fillEvidence = false ∧ ((sameRunPaperMaker terms live ∧
        (¬reportCanBind r ∨ 0 < r.report.filledQty)) ∨
      r.report.orderStatus = .canceled ∨ r.report.orderStatus = .expired))
    (.executionError "Bitfinex terminal trade differs from order execution terms")

/-- Validate one owned report completely before granting adapter authority. -/
def reconcileLiveReport : Call Unit := do
  let live ← look (·.live)
  if live.retired ∨ live.terminal ≠ none ∨ live.rejectionKey ≠ none then pure ()
  else do
    check (checkReport terms r live)
    change (·.updateLive ({ · with venueFlagsVerified := true }))
    if reportCanBind r then
      change (·.updateLive fun live => { live with
        reconciledWorking :=
          if sameRunPaperMaker terms live ∧ 0 < r.report.filledQty then some r.report
          else live.reconciledWorking
        venueOrderId := some r.report.venueOrderId
        accepted := true }.resolveMutation .submit)
    else if r.allowTerminalRecovery ∧
        ((r.overdue ∧ (canReconcileSilentTerminal terms live .submit ∨
          canReconcileSilentTerminal terms live .cancel)) ∨ sameRunPaperMaker terms live) then do
      raiseWhen (r.fillEvidence = false)
        (.executionError "Bitfinex terminal trade differs from order execution terms")
      raiseWhen (live.reconciledTerminal ≠ none ∧ live.reconciledTerminal ≠ some r.report)
        (.executionError "Bitfinex REST terminal changed its reconciliation facts")
      change (·.updateLive ({ · with
        venueOrderId := some r.report.venueOrderId
        reconciledTerminal := some r.report
        reconciledWorking := none }))
    else pure ()

end Reports

/-- What the native cache holds of the order while one of its applied fills is captured. -/
structure NativeFills where
  /-- The fill's evidence passes its checks, and the order has fee metadata. -/
  captured : Bool := true
  /-- The quantities of the cached fills, and their total as the native order has it. -/
  quantities : List ℚ
  filledQty : ℚ
  /-- Every cached fill is a venue trade of the metadata. -/
  matched : Bool := true

section Native

def reconciling (live : LiveOrder) :
    Prop := live.reconciledWorking ≠ none ∨ live.reconciledTerminal ≠ none

instance (live : LiveOrder) : Decidable (reconciling live) := inferInstanceAs (Decidable (_ ∨ _))

/-- Without exact fills the client records a fatal failure and leaves the order alone. -/
def NativeFills.counts (native : NativeFills) (live : LiveOrder) : Prop :=
  native.captured ∧ live.retired = false ∧ reconciling live ∧
    native.quantities.sum = native.filledQty ∧
    native.matched

instance (native : NativeFills) (live : LiveOrder) : Decidable (native.counts live) := by
  unfold NativeFills.counts
  infer_instance

/-- `_capture_native_fee_evidence` with `_sync_reconciled_native_quantity`, which advances only from
native fills. -/
def captureNative (native : NativeFills) : Call Unit := do
  let live ← look (·.live)
  if native.counts live then
    change (·.updateLive ({ · with filledQty := max live.filledQty native.quantities.sum }))
  else pure ()

/-- The quantity that a confirmed terminal has, by the frame or by the REST report. -/
def confirmedQuantity (live : LiveOrder) : Option ℚ :=
  match live.terminal with
  | some state => some (terminalFilled state)
  | none => live.reconciledTerminal.map (·.filledQty)

/-- `proved` where the native order has the facts of the report. -/
def retireReconciledTerminal (proved : Bool) (live : LiveOrder) : Call Unit := do
  raiseWhen (proved = false)
    (.executionError "Nautilus cache does not prove the Bitfinex terminal reconciliation")
  change (·.updateLive fun now => { now with
    filledQty := (confirmedQuantity live).getD live.filledQty
    terminalEmitted := true
    retired := true }.resolveAllMutations)

/-- Retire a terminal only after the native order has its exact facts. -/
def confirmTerminalReconciliation (terminalProved workingProved : Bool) : Call Unit := do
  let live ← look (·.live)
  if live.retired then pure ()
  else if live.terminalEmitted = false ∧ confirmedQuantity live ≠ none then
    retireReconciledTerminal terminalProved live
  else if live.reconciledWorking = none then pure ()
  else if live.terminal ≠ none then retireReconciledTerminal terminalProved live
  else do
    raiseWhen (workingProved = false)
      (.executionError "Nautilus cache does not prove the Bitfinex terminal reconciliation")
    change (·.updateLive ({ · with reconciledWorking := none }))

end Native

/-- `_modify_order`; `hold` is a reason outside the order to refuse the command. -/
def modifyOrder (hold : Option String) (price : ℚ) (tsNow : ℕ) : Call Unit := do
  let live ← look (·.live)
  let reason : Option String :=
    if hold ≠ none then hold
    else if live.retired ∨ live.venueOrderId = none ∨ live.accepted = false then
      some "order has no authoritative Bitfinex venue ID"
    else if live.terminal ≠ none ∨ live.pendingCancel then
      some "order is already terminal or pending cancel"
    else if live.pendingModifyPrice ≠ none then some "order already has a pending modify"
    else none
  match reason with
  | some reason => change (·.generate (.modifyRejected reason tsNow))
  | none => change (·.updateLive ({ · with pendingModifyPrice := some price }))

def cancelOrder (tsNow : ℕ) : Call Unit := do
  let live ← look (·.live)
  let reason : Option String :=
    if live.retired ∨ live.venueOrderId = none ∨ live.accepted = false then
      some "order has no authoritative Bitfinex venue ID"
    else if live.terminal ≠ none then some "order is already terminal"
    else if live.pendingCancel then some "order already has a pending cancel"
    else none
  match reason with
  | some reason => change (·.generate (.cancelRejected reason tsNow))
  | none => change (·.updateLive ({ · with pendingCancel := true }))

def markMutationUnknown (operation : Mutation) : Call Unit :=
  change (·.updateLive fun live =>
    { live with unknownOperations := insert operation live.unknownOperations })

/-- What the client's one thread handles, one after another. -/
inductive Input where
  | te (trade : TradeExecution) (ledger : Ledger)
  | tu (trade : TradeUpdate) (ledger : Ledger)
  | order (operation : OrderOperation) (state : OrderState) (ledger : Ledger)
  | snapshot (orders : List OrderState) (ledger : Ledger)
  | notification (note : Notification)
  | report (r : Reconciliation)
  | native (fills : NativeFills)
  | confirm (terminalProved workingProved : Bool)
  | modify (hold : Option String) (price : ℚ) (tsNow : ℕ)
  | cancel (tsNow : ℕ)
  | unknown (operation : Mutation)

def handle (terms : Terms) : Input → Call Unit
  | .te trade ledger => handleInterimTrade terms ledger trade
  | .tu trade ledger => handleTrade terms ledger trade
  | .order operation state ledger => handleOrder terms ledger operation state
  | .snapshot orders ledger => handleOrderSnapshot terms ledger orders
  | .notification note => handleNotification terms note
  | .report r => reconcileLiveReport terms r
  | .native fills => captureNative fills
  | .confirm terminalProved workingProved =>
    confirmTerminalReconciliation terminalProved workingProved
  | .modify hold price tsNow => modifyOrder hold price tsNow
  | .cancel tsNow => cancelOrder tsNow
  | .unknown operation => markMutationUnknown operation

/-- The client after its inputs. Later inputs are followed also past one that raised. -/
def run (terms : Terms) (c : Client) (inputs : List Input) : Client :=
  inputs.foldl (fun c input => (handle terms input).after c) c

end ArbNautilus.Bitfinex
