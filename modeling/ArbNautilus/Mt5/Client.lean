import ArbNautilus.Base.Handler
import ArbNautilus.Base.Rounding
import ArbNautilus.Mt5.Projection
import ArbNautilus.Mt5.Wire
import Mathlib.Data.Int.Log
import Mathlib.Data.Rat.Floor

namespace ArbNautilus.Mt5

open Base Journal Handler

/-- A decimal result rounded to the context's twenty-eight digits. -/
def rounded (x : ℚ) : ℚ :=
  if x = 0 then 0
  else
    let scale : ℚ := 10 ^ (27 - Int.log 10 |x|)
    nearestEven (x * scale) / scale

/-- `a % b` of positive decimals, which has no result once the quotient outgrows
the context. -/
def remainder (a b : ℚ) : Except Raised ℚ :=
  if 10 ^ 28 ≤ a / b then .error (.other "InvalidOperation" "DivisionImpossible")
  else .ok (rounded (a - b * ⌊a / b⌋))

/-- The canonical instrument, as far as orders and fills read it. Neither
conversion need have a result. -/
structure Instrument where
  lotSize : ℚ
  makeQty : ℚ → Option ℚ
  makePrice : ℚ → Option ℚ

def converted : Option ℚ → Except Raised ℚ
  | some value => .ok value
  | none => .error (.other "ValueError" "invalid value")

inductive OrderType
  | market
  | other
deriving DecidableEq, Repr

inductive TimeInForce
  | fok
  | other
deriving DecidableEq, Repr

structure Order where
  strategyId : Text
  instrumentId : Text
  clientOrderId : Text
  orderType : OrderType
  timeInForce : TimeInForce
  isReduceOnly : Bool
  isQuoteQuantity : Bool
  hasExecAlgorithm : Bool
  side : Side
  quantity : ℚ
deriving DecidableEq, Repr

/-- The two parameters a hedge plan adds to a command: the marker and whether it
is `True`, and the expected ounces where they are a finite `Decimal`. -/
structure HedgeParams where
  marker : Option Bool
  expectedPositionOunces : Option (Option ℚ)
deriving DecidableEq, Repr

structure SubmitOrder where
  order : Order
  positionId : Option Text
  params : HedgeParams
deriving DecidableEq, Repr

structure Config where
  instrumentId : Text
  expectedAccountId : Text
  expectedSymbol : Text
  expectedMagic : Text
  expectedEaBuildId : Text
  expectedSourceSha256 : Text
  expectedMaxOrderLots : ℚ
  expectedStreamId : Text
  expectedServerTimezone : Text
  snapshotRefreshIntervalMs : ℕ
  eventPageLimit : ℕ
  eventPaginationMaxPages : ℕ
  /-- `Money.from_decimal` in US dollars. -/
  usd : ℚ → Option ℚ
  /-- `AccountBalance` accepts this total, locked and free money. -/
  balances : ℚ → ℚ → ℚ → Bool

structure Pending where
  order : Order
  instrument : Instrument
  quantityLots : ℚ
  closeTarget : Option (Text × Text)
  unknown : Bool
  accepted : Bool

structure AccountInfo where
  account : Account
  netPositionOunces : ℚ
  positionCount : ℕ
  symbol : Text
  streamId : Text
  observedNs : ℤ
  sampleValid : Bool
deriving DecidableEq, Repr

/-- What the client tells the engine. -/
inductive NativeEvent
  | denied (order : Order) (reason : String) (timestamp : ℤ)
  | submitted (order : Order) (timestamp : ℤ)
  | accepted (order : Order) (venueOrderId : Text) (timestamp : ℤ)
  | rejected (order : Order) (reason : String) (timestamp : ℤ)
  | filled (order : Order) (venueOrderId positionId tradeId : Text) (quantity price commission : ℚ)
      (timestamp : ℤ)
  | accountState (info : AccountInfo)
deriving DecidableEq, Repr

/-- The clocks and the instrument a call would find; they change at any time. -/
structure Surroundings where
  loopTime : ℚ
  timestampNs : ℤ
  instrument : Option Instrument

/-- A mutation as it was sent, beside what the client held when it sent it. -/
structure Sent where
  mutation : Mutation
  pending : List Text
  projection : JournalProjection
deriving DecidableEq

/-- The state of one execution client. The last four fields are no attributes of
the source: its surroundings, what it told the engine and sent so far, and the
events its cursor stands for. -/
structure Client where
  identity : Option Identity
  boundStreamId : Option Text
  snapshot : Option Snapshot
  snapshotRefreshHealthy : Bool
  accountSampleObservedNs : Option ℤ
  accountSampleLastValidNs : Option ℤ
  accountSampleValid : Bool
  cursor : Text
  pending : Dict Text Pending
  seenRequestIds : List Text
  projection : JournalProjection
  recoveryState : Option RecoveryState
  foreignPositionIds : List Text
  executionSpec : Option (SymbolSpec × Text)
  nextSnapshotRefreshAt : Option ℚ
  executionHoldReason : Option String
  stateLock : Option ℕ
  running : Bool
  pollTask : Bool
  lastFailure : Option String
  transientRequestFailure : Option String
  surroundings : Surroundings
  native : List NativeEvent
  sent : List Sent
  history : List JournalEvent

def notConnected : String := "MT5 execution is not connected"

def Client.initial (surroundings : Surroundings) : Client where
  identity := none
  boundStreamId := none
  snapshot := none
  snapshotRefreshHealthy := false
  accountSampleObservedNs := none
  accountSampleLastValidNs := none
  accountSampleValid := false
  cursor := ['0']
  pending := .empty
  seenRequestIds := []
  projection := .empty
  recoveryState := none
  foreignPositionIds := []
  executionSpec := none
  nextSnapshotRefreshAt := none
  executionHoldReason := some notConnected
  stateLock := none
  running := false
  pollTask := false
  lastFailure := none
  transientRequestFailure := none
  surroundings
  native := []
  sent := []
  history := []

section Checks

variable (config : Config)

def validateIdentity (identity : Identity) : Except Raised Unit := do
  raiseIf (identity.streamId ≠ config.expectedStreamId)
    (.executionError "MT5 journal stream differs from expected_stream_id")
  raiseIf (identity.executionEnabled = false ∨ identity.accountId ≠ config.expectedAccountId ∨
      identity.symbol ≠ config.expectedSymbol ∨ identity.magic ≠ config.expectedMagic ∨
      identity.eaBuildId ≠ config.expectedEaBuildId ∨
      identity.declaredSourceSha256 ≠ config.expectedSourceSha256 ∨
      identity.serverTimezone ≠ config.expectedServerTimezone)
    (.executionError "MT5 execution identity is not configured and enabled")

def snapshotExecutionSpec (snapshot : Snapshot) : SymbolSpec × Text :=
  (snapshot.symbolSpec, snapshot.maxOrderLots)

def validateSnapshot (snapshot : Snapshot) (identity : Identity) (recovery : Option RecoveryState)
    (expectedSpec : Option (SymbolSpec × Text)) : Except Raised Unit := do
  raiseIf (snapshot.identity ≠ identity ∨ snapshot.executionEnabled = false ∨
      some snapshot.recoveryState ≠ recovery ∨ snapshot.account.currency ≠ "USD".toList ∨
      decimalOf snapshot.maxOrderLots ≠ config.expectedMaxOrderLots)
    (.executionError "MT5 execution snapshot is inconsistent")
  raiseIf (expectedSpec ≠ none ∧ expectedSpec ≠ some (snapshotExecutionSpec snapshot))
    (.executionError "MT5 execution symbol spec changed")

def validatePageIdentity (page : EventPage) (identity : Identity) : Except Raised Unit :=
  raiseIf (page.identity ≠ identity ∨ page.streamId ≠ identity.streamId)
    (.executionError "MT5 execution event page identity changed")

def quantityToLots (quantity lotSize volumeMin volumeMax volumeStep : ℚ) : Except Raised ℚ := do
  let outside := Raised.executionError
    "canonical quantity is not an exact permitted MT5 lot size"
  raiseIf (min quantity (min lotSize (min volumeMin (min volumeMax volumeStep))) ≤ 0)
    (.executionError "quantity and MT5 volume constraints must be positive")
  let lots := rounded (quantity / lotSize)
  raiseIf (lots < volumeMin ∨ volumeMax < lots) outside
  let rest ← remainder lots volumeStep
  raiseIf (rest ≠ 0) outside
  pure lots

/-- Whether the command follows a hedge plan, and the ounces its close expects. -/
def hedgePlanPrecondition (command : SubmitOrder) : Except Raised (Bool × Option ℚ) :=
  let params := command.params
  if params.marker = none ∧ params.expectedPositionOunces = none then .ok (false, none)
  else if params.marker ≠ some true then .error (.executionError "invalid hedge plan marker")
  else if command.positionId = none then
    if params.expectedPositionOunces ≠ none then
      .error (.executionError "planned open cannot contain a close target quantity")
    else .ok (true, none)
  else match params.expectedPositionOunces with
    | some (some expected) =>
      if 0 < expected then .ok (true, some expected)
      else .error (.executionError "planned close requires a positive finite Decimal quantity")
    | _ => .error (.executionError "planned close requires a positive finite Decimal quantity")

namespace Client

variable (c : Client)

def requireIdentity : Except Raised Identity :=
  match c.identity with
  | some identity => .ok identity
  | none => .error (.executionError "MT5 execution identity is unavailable")

def requireSnapshot : Except Raised Snapshot :=
  match c.snapshot with
  | some snapshot => .ok snapshot
  | none => .error (.executionError "MT5 execution snapshot is unavailable")

def requireInstrument : Except Raised Instrument :=
  match c.surroundings.instrument with
  | some instrument => .ok instrument
  | none => .error (.executionError "canonical MT5 instrument or lot_size is unavailable")

def quantityToCurrentLots (quantity : ℚ) (instrument : Instrument) : Except Raised ℚ := do
  let snapshot ← c.requireSnapshot
  let spec := snapshot.symbolSpec
  raiseIf (instrument.lotSize ≠ decimalOf spec.contractSize)
    (.executionError "instrument lot_size differs from MT5 contract_size")
  quantityToLots quantity instrument.lotSize (decimalOf spec.volumeMin)
    (min (decimalOf spec.volumeMax) (decimalOf snapshot.maxOrderLots)) (decimalOf spec.volumeStep)

/-- The same fixed envelope of tickets as the terminal's. -/
def maxSnapshotPositionTickets : ℕ := 32

def prepareOpen (order : Order) (instrument : Instrument) (lots : ℚ) (planned : Bool) :
    Except Raised Pending := do
  let snapshot ← c.requireSnapshot
  raiseIf (maxSnapshotPositionTickets ≤ snapshot.positions.length)
    (.executionError "MT5 new position capacity is exhausted")
  raiseIf (planned = true ∧ ∃ position ∈ snapshot.positions, position.side ≠ order.side)
    (.executionError "opposing MT5 ticket appeared before planned open")
  pure ⟨order, instrument, lots, none, false, false⟩

def prepareClose (order : Order) (instrument : Instrument) (lots : ℚ) (identifier : Text)
    (planned : Bool) (expectedPositionOunces : Option ℚ) : Except Raised Pending := do
  let snapshot ← c.requireSnapshot
  match snapshot.positions.filter (·.identifier = identifier) with
  | [target] =>
    raiseIf (target.magic ≠ config.expectedMagic) (.executionError "close target has foreign magic")
    raiseIf (order.side = target.side)
      (.executionError "close order side does not oppose the target position")
    let targetLots := decimalOf target.volumeLots
    raiseIf (planned = true ∧
      some (rounded (targetLots * instrument.lotSize)) ≠ expectedPositionOunces)
      (.executionError "planned target quantity differs from the live snapshot")
    raiseIf (targetLots < lots) (.executionError "close quantity exceeds the live target position")
    let remaining := rounded (targetLots - lots)
    let invalid := Raised.executionError "close would leave an invalid MT5 lot remainder"
    if remaining ≠ 0 then
      raiseIf (remaining < decimalOf snapshot.symbolSpec.volumeMin) invalid
      let rest ← remainder remaining (decimalOf snapshot.symbolSpec.volumeStep)
      raiseIf (rest ≠ 0) invalid
    pure ⟨order, instrument, lots, some (target.ticket, identifier), false, false⟩
  | _ => .error (.executionError "close target is absent or duplicated in the live snapshot")

/-- `_prepare`. -/
def prepare (order : Order) (positionId : Option Text) (planned : Bool)
    (expectedPositionOunces : Option ℚ) : Except Raised Pending := do
  raiseIf (order.instrumentId ≠ config.instrumentId)
    (.executionError "order instrument is outside the configured MT5 boundary")
  let instrument ← c.requireInstrument
  let lots ← c.quantityToCurrentLots order.quantity instrument
  match positionId with
  | none => c.prepareOpen order instrument lots planned
  | some identifier =>
    c.prepareClose config order instrument lots identifier planned expectedPositionOunces

/-- Why a new mutation has to wait, from the current state. -/
def holdReasons : List String :=
  (if c.identity = none then [notConnected]
    else if c.snapshotRefreshHealthy = false then
      ["MT5 execution snapshot is temporarily unavailable"] else []) ++
  (if c.recoveryState = some .blocked then ["EA recovery state is blocked"] else []) ++
  c.projection.holdReason.toList ++
  (if c.pending.values.any (·.unknown) then ["a local submission has an UNKNOWN outcome"]
    else if c.pending.entries ≠ [] then ["a local submission is unresolved"] else []) ++
  (if c.foreignPositionIds ≠ [] then ["snapshot contains foreign-magic position(s)"] else []) ++
  (if c.transientRequestFailure ≠ none then
    ["MT5 REP request path is temporarily unavailable"] else [])

def refreshHold : Client :=
  { c with executionHoldReason :=
      if c.holdReasons = [] then none else some ("; ".intercalate c.holdReasons) }

/-- An assignment to the submission of this request, which others may hold too. -/
def editPending (id : Text) (f : Pending → Pending) : Client :=
  match c.pending.get? id with
  | none => c
  | some pending => { c with pending := c.pending.set id (f pending) }

def setUnknown (id : Text) : Client := c.editPending id ({ · with unknown := true })

def setAccepted (id : Text) : Client := c.editPending id ({ · with accepted := true })

/-- What every way out of a connection resets. -/
def unbound : Client :=
  { c with
    identity := none
    snapshot := none
    snapshotRefreshHealthy := false
    recoveryState := none
    executionSpec := none
    nextSnapshotRefreshAt := none
    executionHoldReason := some notConnected
    transientRequestFailure := none }

end Client

end Checks

section Calls

variable (config : Config)

/-- A call on the client that does not suspend. -/
abbrev Call := Handler Client Raised

def publish (event : Client → NativeEvent) : Call Unit :=
  change fun c => { c with native := c.native ++ [event c] }

def deny (order : Order) (reason : String) : Call Unit :=
  publish fun c => .denied order reason c.surroundings.timestampNs

def refreshExecutionHold : Call Unit := change Client.refreshHold

def fail (e : Raised) : Call Unit := change fun c => { c with lastFailure := some e.describe }

def recordReservation (event : JournalEvent) (order : Submission) : Call Unit := do
  let projection ← look Client.projection
  let projection ← check (projection.recordReservation event order)
  change fun c => { c with
    projection
    seenRequestIds := order.clientRequestId :: c.seenRequestIds }

def recordTerminal (event : JournalEvent) (order : Submission) : Call Unit := do
  let projection ← look Client.projection
  let projection ← check (projection.recordTerminal event order)
  change fun c => { c with projection }

def currentIdentity : Call Identity := fun c => (c.requireIdentity, c)

/-- The local submission an event is about. -/
def matchPending (order : Submission) : Call Pending := do
  match ← look (·.pending.get? order.clientRequestId) with
  | none => raise (.executionError "execution event has no local pending order")
  | some pending =>
    if order.side ≠ pending.order.side ∨ decimalOf order.quantityLots ≠ pending.quantityLots ∨
        (optionalField order.positionTicket, optionalField order.positionIdentifier) ≠
          (pending.closeTarget.map Prod.fst, pending.closeTarget.map Prod.snd) then
      change (·.setUnknown order.clientRequestId)
      raise (.executionError "execution event differs from the local submission")
    else pure pending

def eventTimeNs (event : JournalEvent) : ℤ := intOf event.eventTimeMs * 1000000

/-- The submission is over. -/
def popPending (pending : Pending) : Call Unit :=
  change fun c => { c with pending := c.pending.erase pending.order.clientOrderId }

def rejectPending (event : JournalEvent) (order : Submission) (reason retcode : Text) :
    Call Unit := do
  let pending ← matchPending order
  publish fun _ => .rejected pending.order
    (String.ofList (reason ++ " (retcode=".toList ++ retcode ++ [')'])) (eventTimeNs event)
  popPending pending

def applyFill (event : JournalEvent) (order : Submission) (fill : Fill) : Call Unit := do
  let pending ← matchPending order
  let filledLots := decimalOf fill.filledQuantityLots
  if filledLots ≠ pending.quantityLots then
    change (·.setUnknown order.clientRequestId)
    raise (.executionError "partial or mismatched MT5 fill is UNKNOWN")
  if ∃ target ∈ pending.closeTarget, fill.venuePositionId ≠ target.2 then
    change (·.setUnknown order.clientRequestId)
    raise (.executionError "MT5 close fill does not match reserved target position")
  let ounces := rounded (filledLots * pending.instrument.lotSize)
  let quantity ← check (converted (pending.instrument.makeQty ounces))
  let price ← check (converted (pending.instrument.makePrice (decimalOf fill.fillPrice)))
  let commission ← check (converted (config.usd (-decimalOf fill.commission)))
  change fun c => { c with accountSampleValid := false }
  if pending.accepted = false then
    publish fun _ => .accepted pending.order fill.venueOrderId (eventTimeNs event)
    change (·.setAccepted order.clientRequestId)
  popPending pending
  refreshExecutionHold
  publish fun _ => .filled pending.order fill.venueOrderId fill.venuePositionId fill.venueDealId
    quantity price commission (eventTimeNs event)

def applyEvent (event : JournalEvent) : Call Unit :=
  match event.body with
  | .submissionReserved order => do
    recordReservation event order
    discard (matchPending order)
  | .orderUnknown order _ _ => do
    recordTerminal event order
    discard (matchPending order)
    change (·.setUnknown order.clientRequestId)
    refreshExecutionHold
  | .orderRejected order reason retcode => do
    recordTerminal event order
    rejectPending event order reason retcode
    refreshExecutionHold
  | .orderFilled order fill => do
    recordTerminal event order
    applyFill config event order fill
  | .streamStarted .. =>
    raise (.executionError "MT5 execution stream restarted while connected")

def recoverPending (id : Text) : Call Unit := do
  match ← look (·.projection.terminals.get? id) with
  | none => pure ()
  | some event =>
    match event.body with
    | .orderUnknown order _ _ =>
      discard (matchPending order)
      change (·.setUnknown order.clientRequestId)
    | .orderRejected order reason retcode => rejectPending event order reason retcode
    | .orderFilled order fill => applyFill config event order fill
    | _ => pure ()

def recoverLocalPendingFromJournal : Call Unit := do
  let ids ← look (·.pending.keys)
  each (recoverPending config) ids

def scheduleSnapshotRefresh : Call Unit :=
  change fun c =>
    let deadline := c.surroundings.loopTime + config.snapshotRefreshIntervalMs / 1000
    { c with nextSnapshotRefreshAt := some deadline }

def markSnapshotUnavailable (e : Raised) : Call Unit := do
  change fun c => { c with snapshotRefreshHealthy := false }
  fail e
  refreshExecutionHold
  scheduleSnapshotRefresh config

/-- The transport's own `close` does not suspend and changes nothing here. -/
def failClosedDisconnect : Call Unit := change fun c => { c with running := false }.unbound

def markTransientRequestTimeout (e : Raised) : Call Unit := do
  change fun c => { c with
    transientRequestFailure := some e.describe
    lastFailure := some e.describe }
  refreshExecutionHold

def clearTransientRequestTimeout : Call Unit := do
  change fun c => { c with
    transientRequestFailure := none
    lastFailure := if c.snapshotRefreshHealthy = true ∧ ¬c.pending.values.any (·.unknown) then none
      else c.lastFailure }
  refreshExecutionHold

def maxObservationFutureNs : ℤ := 1000000000

def netOunces (contractSize : ℚ) (positions : List Position) : ℚ :=
  positions.foldl (fun sum position => rounded (sum + rounded (rounded
    (decimalOf position.volumeLots * contractSize) * if position.side = .buy then 1 else -1))) 0

def installSnapshot (snapshot : Snapshot) : Call Unit := do
  let account := snapshot.account
  let equity := decimalOf account.equity
  let margin := decimalOf account.margin
  let marginFree := decimalOf account.marginFree
  raiseWhen (margin < 0) (.executionError "MT5 account margin cannot be negative")
  raiseWhen (config.balances equity margin marginFree = false)
    (.executionError "MT5 account equity, margin, and free margin are inconsistent")
  let observedNs : ℤ := intOf snapshot.observedUtcMs * 1000000
  let sampleValid ← look fun c =>
    decide (observedNs ≤ c.surroundings.timestampNs + maxObservationFutureNs) &&
      c.accountSampleLastValidNs.all (· ≤ observedNs)
  change fun c => { c with
    snapshot := some snapshot
    foreignPositionIds := (snapshot.positions.filter (·.magic ≠ config.expectedMagic)).map
      (·.identifier)
    accountSampleObservedNs := some observedNs
    accountSampleValid := sampleValid
    accountSampleLastValidNs := if sampleValid then some observedNs else c.accountSampleLastValidNs
    snapshotRefreshHealthy := true }
  let identity ← currentIdentity
  publish fun _ => .accountState {
    account
    netPositionOunces := netOunces (decimalOf snapshot.symbolSpec.contractSize) snapshot.positions
    positionCount := snapshot.positions.length
    symbol := config.expectedSymbol
    streamId := identity.streamId
    observedNs
    sampleValid }

end Calls

end ArbNautilus.Mt5
