import ArbNautilus.Bitfinex.Frames
import ArbNautilus.Bitfinex.MarginPositions
import ArbNautilus.Store.Native

/-! The account facts of the execution client: what a refresh reads, and when new budget may rest on
it. -/

namespace ArbNautilus.Bitfinex.AccountBudget

open MarginPositions

section Source

structure WalletBalance where
  walletType : String
  currency : String
  balance : ℚ
  unsettledInterest : Option ℚ
  availableBalance : Option ℚ
deriving DecidableEq

/-- A snapshot, and a wallet that was updated. -/
inductive WalletMessageType
  | ws
  | wu
deriving DecidableEq

structure WalletEvent where
  messageType : WalletMessageType
  wallets : List WalletBalance

/-- What the client is configured with. -/
structure Config where
  accountId : String
  clientId : String
  instrumentId : String
  rawSymbol : String
  walletCurrency : String
  upper : String → String

/-- An entry of `_by_cid`; `overdue` where its silent terminal is armed and past its deadline. -/
structure OpenOrder where
  terms : Terms
  live : LiveOrder
  overdue : Bool := false

namespace OpenOrder

def silentTerminalDue (o : OpenOrder) : Prop :=
  o.overdue ∧ (canReconcileSilentTerminal o.terms o.live .submit ∨
    canReconcileSilentTerminal o.terms o.live .cancel)

instance (o : OpenOrder) : Decidable o.silentTerminalDue := inferInstanceAs (Decidable (_ ∧ _))

/-- A mutation of the order is with the venue. -/
def InFlight (o : OpenOrder) : Prop :=
  o.live.pendingCancel ∨ o.live.pendingModifyPrice ≠ none ∨
    (o.live.accepted = false ∧ o.live.rejectionKey = none ∧ o.live.terminalEmitted = false)

instance (o : OpenOrder) : Decidable o.InFlight := inferInstanceAs (Decidable (_ ∨ _))

end OpenOrder

/-- An order of the instrument, as the native cache holds it. -/
structure CachedOrder where
  status : Store.Native.OrderStatus
  clientId : Option String
  accountId : Option String

/-- An order of this client that the venue has not answered for. -/
def CachedOrder.Pending (cfg : Config) (order : CachedOrder) : Prop :=
  order.status ∈ [.initialized, .submitted, .pendingUpdate, .pendingCancel] ∧
    (order.clientId = none ∨ order.clientId = some cfg.clientId) ∧
    (order.accountId = none ∨ order.accountId = some cfg.accountId)

instance (cfg : Config) (order : CachedOrder) : Decidable (order.Pending cfg) :=
  inferInstanceAs (Decidable (_ ∧ _))

/-- The orders as the account facts see them. -/
structure Orders where
  byCid : List OpenOrder := []
  unboundPaperInterimFills : List TradeExecution := []
  cached : List CachedOrder := []

/-- The margin, wallet and account action revisions. -/
abbrev Revision := ℕ × ℕ × ℕ

/-- Where an account refresh is suspended. -/
inductive Stage
  | created
  | wallets
  | positions (wallet : WalletBalance) (walletNs : ℤ)

/-- `_query_account`, with the revision and the eligibility it was called with. -/
structure Refresh where
  revision : Revision
  eligible : Bool
  stage : Stage

structure Account where
  orders : Orders := {}
  connected : Bool := false
  running : Bool := false
  accountReady : Bool := false
  fatalFailure : Option String := none
  wallet : Option WalletBalance := none
  walletObservedNs : Option ℤ := none
  walletCurrent : Bool := false
  walletRevision : ℕ := 0
  margin : Margin := {}
  accountActionRevision : ℕ := 0
  accountBudgetRevision : Option ℕ := none
  accountRefresh : Option Refresh := none
  marginSeenFills : Finset (String × String) := ∅

/-- A native fill; `applied` where the cache holds exactly this one. -/
structure NativeFill where
  accountId : String
  instrumentId : String
  clientOrderId : String
  tradeId : String
  applied : Bool

namespace Account

def executionHoldReason (c : Account) : Option String :=
  if c.fatalFailure ≠ none then c.fatalFailure
  else if ∃ o ∈ c.orders.byCid, o.live.unknownOperations ≠ ∅ then
    some "Bitfinex mutation has an UNKNOWN wire outcome"
  else if c.orders.unboundPaperInterimFills ≠ [] then
    some "Bitfinex paper interim fill is waiting for its venue order mapping"
  else if ∃ o ∈ c.orders.byCid,
      o.live.accepted ∧ o.terms.isReduceOnly ∧ o.live.venueFlagsVerified = false then
    some "Bitfinex reduce-only order is waiting for exact venue flags"
  else if ∃ o ∈ c.orders.byCid, o.live.terminal ≠ none ∧ o.live.terminalEmitted = false then
    some "Bitfinex terminal order is waiting for matching execution fills"
  else if ∃ o ∈ c.orders.byCid, o.silentTerminalDue then
    some "Bitfinex paper order is waiting for authenticated terminal reconciliation"
  else if ∃ o ∈ c.orders.byCid, o.live.reconciledWorking ≠ none then
    some "Bitfinex working fills are waiting for native reconciliation confirmation"
  else if c.running = false ∨ c.accountReady = false then
    some "Bitfinex execution is not connected and account-ready"
  else none

/-- `account_budget_refresh_ready`: authenticated, and no mutation is out. -/
def BudgetRefreshReady (cfg : Config) (c : Account) : Prop :=
  c.connected ∧ c.executionHoldReason = none ∧ (∀ o ∈ c.orders.byCid, ¬o.InFlight) ∧
    ∀ order ∈ c.orders.cached, ¬order.Pending cfg

instance (cfg : Config) (c : Account) : Decidable (c.BudgetRefreshReady cfg) :=
  inferInstanceAs (Decidable (_ ∧ _))

/-- `account_budget_ready`. -/
def BudgetReady (cfg : Config) (c : Account) : Prop :=
  c.BudgetRefreshReady cfg ∧ c.walletCurrent ∧ c.margin.current ∧ c.margin.complete ∧
    (c.accountActionRevision = 0 ∨ c.accountBudgetRevision = some c.accountActionRevision)

instance (cfg : Config) (c : Account) :
    Decidable (c.BudgetReady cfg) := inferInstanceAs (Decidable (_ ∧ _))

def advanceAccountAction (c : Account) : Account :=
  { c with accountActionRevision := c.accountActionRevision + 1, accountBudgetRevision := none }

def invalidateMarginFacts (c : Account) (connectionChanged : Bool) : Account :=
  { c with
    margin := c.margin.invalidateMarginFacts connectionChanged
    accountBudgetRevision := none
    walletCurrent := false }

def installMarginWallet (c : Account) (wallet : WalletBalance) (observedNs : ℤ) : Account :=
  { c with
    walletRevision := c.walletRevision + 1
    wallet := some wallet
    walletObservedNs := some observedNs
    walletCurrent := true }

def revision (c : Account) :
    Revision := (c.margin.revision, c.walletRevision, c.accountActionRevision)

def accountQueryCurrent (c : Account) (asOf : Revision) : Prop :=
  c.running ∧ c.connected ∧ c.accountReady ∧ asOf = c.revision

instance (c : Account) (asOf : Revision) : Decidable (c.accountQueryCurrent asOf) :=
  inferInstanceAs (Decidable (_ ∧ _))

end Account

/-- The one margin wallet. -/
def Config.ownWallet (cfg : Config) (wallet : WalletBalance) : Bool :=
  wallet.walletType = "margin" ∧ cfg.upper wallet.currency = cfg.upper cfg.walletCurrency

/-- What the REST wallets came to, nothing where they could not be read or are no native money. -/
abbrev WalletSample := Option (List WalletBalance)

/-- How a suspended refresh goes on. -/
inductive Turn
  | start
  | wallets (sample : WalletSample) (nowNs : ℤ)
  | positions (sample : Sample) (nowNs : ℤ)

namespace Account

def handleWallet (cfg : Config) (c : Account) (event : WalletEvent) (nowNs : ℤ) : Account :=
  match event.wallets.find? cfg.ownWallet with
  | none => c
  | some wallet =>
    let c := c.installMarginWallet wallet nowNs
    if event.messageType = .ws then { c with accountReady := true } else c

def queryAccount (cfg : Config) (c : Account) (accountId : String) (clientId : Option String) :
    Account :=
  if accountId ≠ cfg.accountId ∨ (clientId ≠ none ∧ clientId ≠ some cfg.clientId) then c
  else if ¬c.accountQueryCurrent c.revision then c
  else if c.accountRefresh.isSome then c
  else { c with accountRefresh := some ⟨c.revision, decide (c.BudgetRefreshReady cfg), .created⟩ }

/-- The task is done, or cancelled. -/
def endRefresh (c : Account) : Account := { c with accountRefresh := none }

def rejectWallet (c : Account) : Account :=
  { c with walletRevision := c.walletRevision + 1, walletCurrent := false }

def rejectPositions (c : Account) : Account := { c with margin := c.margin.rejectPositions }

/-- Both components at once, without an await between them. -/
def installBoth (cfg : Config) (c : Account) (refresh : Refresh) (wallet : WalletBalance)
    (walletNs : ℤ)
    (row : Option PositionState) (positionsNs : ℤ) : Account :=
  let c := c.installMarginWallet wallet walletNs
  let c := { c with
    margin :=
      Margin.installPosition { c.margin with revision := c.margin.revision + 1 } row positionsNs }
  if refresh.eligible ∧ c.BudgetRefreshReady cfg then
    { c with accountBudgetRevision := some refresh.revision.2.2 }
  else c

/-- `_query_account`, from one await to the next. -/
def resumeRefresh (cfg : Config) (c : Account) (turn : Turn) : Account :=
  match c.accountRefresh with
  | none => c
  | some refresh =>
    match refresh.stage, turn with
    | .created, .start =>
      if ¬c.accountQueryCurrent refresh.revision then c.endRefresh
      else { c with accountRefresh := some { refresh with stage := .wallets } }
    | .wallets, .wallets sample nowNs =>
      if ¬c.accountQueryCurrent refresh.revision then c.endRefresh
      else match sample.map (·.filter cfg.ownWallet) with
        | some [wallet] =>
          { c with accountRefresh := some { refresh with stage := .positions wallet nowNs } }
        | _ => c.rejectWallet.endRefresh
    | .positions wallet walletNs, .positions sample nowNs =>
      if ¬c.accountQueryCurrent refresh.revision then c.endRefresh
      else match sample.map fun rows => c.margin.positionCandidate cfg.rawSymbol ⟨.ps, rows⟩ with
        | some (true, row) => (c.installBoth cfg refresh wallet walletNs row nowNs).endRefresh
        | _ => c.rejectPositions.endRefresh
    | _, _ => c

/-- A fill that the engine has applied is an account action of its own, once. -/
def captureNativeFill (cfg : Config) (c : Account) (fill : NativeFill) : Account :=
  if fill.accountId ≠ cfg.accountId ∨ fill.instrumentId ≠ cfg.instrumentId then c
  else if fill.applied ∧ (fill.clientOrderId, fill.tradeId) ∉ c.marginSeenFills then
    ({ c with marginSeenFills := insert (fill.clientOrderId, fill.tradeId) c.marginSeenFills
      }.advanceAccountAction).invalidateMarginFacts false
  else c

/-- `_connect` up to its first await. -/
def connect (c : Account) : Account := (c.invalidateMarginFacts true).endRefresh

/-- `_connect` once the instrument is there: an order that a stream gap left open stops it. -/
def checkStreamGap (c : Account) : Account :=
  if ∃ o ∈ c.orders.byCid, o.live.rejectionKey = none ∧ o.live.terminalEmitted = false then
    { c with
      fatalFailure := some "Bitfinex stream gap with unresolved orders requires reconciliation" }
  else { c with fatalFailure := none, accountReady := false }

/-- `_disconnect` up to its first await. -/
def disconnect (c : Account) : Account :=
  ({ c with running := false }.invalidateMarginFacts true).endRefresh

end Account

end Source

section Steps

/-- What happens to the client between two awaits. Every handler that calls
`_advance_account_action` is an `action`, and leaves the orders as it will; every other change of
the orders is one of `orders`. -/
inductive Step
  | query (accountId : String) (clientId : Option String)
  | resume (turn : Turn)
  /-- The refresh timed out, was cancelled, or its request failed. -/
  | abort
  | wallet (event : WalletEvent) (nowNs : ℤ)
  | positions (event : PositionEvent) (nowNs : ℤ)
  | report (asOf : ℕ) (sample : Sample) (nowNs : ℤ)
  | fill (fill : NativeFill)
  | action (orders : Orders)
  | orders (orders : Orders)
  | fatal (reason : String)
  | connect
  | checkStreamGap
  | connectFailed
  | connected
  /-- `_disconnect` up to its first await; the end of a failing reader is the same. -/
  | disconnect
  | disconnected
  | setConnected (connected : Bool)

variable (cfg : Config)

def Account.step (c : Account) : Step → Account
  | .query accountId clientId => c.queryAccount cfg accountId clientId
  | .resume turn => c.resumeRefresh cfg turn
  | .abort => c.endRefresh
  | .wallet event nowNs => c.handleWallet cfg event nowNs
  | .positions event nowNs =>
    { c with margin := c.margin.handlePositions cfg.rawSymbol event nowNs }
  | .report asOf sample nowNs =>
    if c.running then { c with margin := c.margin.reportSample cfg.rawSymbol asOf sample nowNs }
      else c
  | .fill fill => c.captureNativeFill cfg fill
  | .action orders => { c with orders := orders }.advanceAccountAction
  | .orders orders => { c with orders := orders }
  | .fatal reason => { c with fatalFailure := some reason }
  | .connect => c.connect
  | .checkStreamGap => c.checkStreamGap
  | .connectFailed => c.invalidateMarginFacts true
  | .connected => { c with running := true }
  | .disconnect => c.disconnect
  | .disconnected => { c with accountReady := false }
  | .setConnected connected => { c with connected := connected }

def Account.run (c : Account) (steps : List Step) : Account := steps.foldl (Account.step cfg) c

/-- An account action, which a fill is too when it is first applied, or a change of the
connection. -/
def Account.Disturbs (c : Account) : Step → Prop
  | .action _ | .connect | .connectFailed | .disconnect => True
  | .fill fill => fill.accountId = cfg.accountId ∧ fill.instrumentId = cfg.instrumentId ∧
    fill.applied ∧
    (fill.clientOrderId, fill.tradeId) ∉ c.marginSeenFills
  | _ => False

/-- The clock a step reads. -/
def Step.clock : Step → Option ℤ
  | .wallet _ nowNs | .positions _ nowNs | .report _ _ nowNs => some nowNs
  | .resume (.wallets _ nowNs) | .resume (.positions _ nowNs) => some nowNs
  | _ => none

end Steps

end ArbNautilus.Bitfinex.AccountBudget
