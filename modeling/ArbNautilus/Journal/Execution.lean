import ArbNautilus.Journal.File
import Mathlib.Algebra.Order.Group.Unbundled.Abs
import Mathlib.Algebra.Order.Ring.Rat

namespace ArbNautilus.Journal

open Base

structure CloseTarget where
  ticket : ℕ
  identifier : ℕ
  volumeBefore : ℚ
  positionType : Side
deriving DecidableEq

structure TradeResult where
  retcode : ℕ
  order : ℕ
  deal : ℕ
  /-- Nothing where the volume is no valid number. -/
  volume : Option ℚ
  retcodeExternal : ℤ
deriving DecidableEq

/-- The facts of the selected history deal; a text is missing where the price has none. -/
structure Deal where
  factsRead : Bool
  orderRaw : ℤ
  positionRaw : ℤ
  magicMatches : Bool
  symbolMatches : Bool
  side : Option Side
  entryOut : Bool
  filled : ℚ
  price : ℚ
  filledText : Option Text
  priceText : Option Text
  commissionText : Option Text
deriving DecidableEq

inductive TradeMode
  | disabled
  | longOnly
  | shortOnly
  | closeOnly
  | full
deriving DecidableEq

/-- Everything the terminal answers while one request is handled. -/
structure Broker where
  demoHedging : Bool
  symbolMatches : Bool
  connected : Bool
  tradeAllowed : Bool
  tradeMode : TradeMode
  fillOrKill : Bool
  /-- The requested lots, when they parse and the broker's volume rule admits them. -/
  lots : Option ℚ
  tick : Bool
  tickFresh : Bool
  closeTarget : Except Text CloseTarget
  capacity : Text
  orderCheck : Bool × ℕ
  refreshedTarget : Except Text CloseTarget
  refreshedCapacity : Text
  sent : Bool
  result : TradeResult
  dealSelected : Bool
  deal : Deal
  closePostState : Bool

def retcodeDone : ℕ := 10009

/-- Only a code that promises no execution, without any execution fact beside it. -/
def resultIsRejected (result : TradeResult) : Bool :=
  result.order == 0 && result.deal == 0 && result.volume == some 0 &&
    result.retcodeExternal == 0 &&
    [10006, 10018, 10019, 10004, 10020, 10021].contains result.retcode

def sideAllowed (mode : TradeMode) (request : SubmitRequest) : Bool :=
  if request.closing then mode != .disabled
  else match request.order.side with
  | .buy => mode == .full || mode == .longOnly
  | .sell => mode == .full || mode == .shortOnly

/-- The lots, and the position to close, or why the request is not sent. -/
def preflight (broker : Broker) (request : SubmitRequest) : Except Text (ℚ × Option CloseTarget) :=
  if ¬broker.demoHedging then .error "ACCOUNT_MODE_CHANGED".toList
  else if ¬broker.symbolMatches then .error "SYMBOL_MISMATCH".toList
  else if ¬broker.connected then .error "TERMINAL_DISCONNECTED".toList
  else if ¬broker.tradeAllowed then .error "TRADING_NOT_ALLOWED".toList
  else if ¬sideAllowed broker.tradeMode request then .error "SYMBOL_TRADE_MODE".toList
  else if ¬broker.fillOrKill then .error "FOK_UNAVAILABLE".toList
  else match broker.lots with
  | none => .error "VOLUME_INVALID".toList
  | some lots =>
    if ¬broker.tick then .error "TICK_UNAVAILABLE".toList
    else if ¬broker.tickFresh then .error "STALE_TICK".toList
    else if request.closing then broker.closeTarget.map fun target => (lots, some target)
    else if broker.capacity ≠ [] then .error broker.capacity
    else .ok (lots, none)

/-- `Py000ExecutionUint`. -/
def uintText (value : ℕ) : Text := Nat.toDigits 10 value

def tolerance (lots : ℚ) : ℚ := 1 / 10 ^ 9 * max 1 |lots|

/-- The close target is still the one that passed the preflight. -/
def targetUnchanged (target refreshed : CloseTarget) : Bool :=
  refreshed.ticket == target.ticket && refreshed.identifier == target.identifier &&
    refreshed.positionType == target.positionType &&
    decide (|refreshed.volumeBefore - target.volumeBefore| ≤ tolerance target.volumeBefore)

/-- What the last look before the send says. -/
def recheck (broker : Broker) : Option CloseTarget → Option Text
  | some target => match broker.refreshedTarget with
    | .error _ => some "POSITION_CHANGED_AFTER_CHECK".toList
    | .ok refreshed =>
      if targetUnchanged target refreshed then none
      else some "POSITION_CHANGED_AFTER_CHECK".toList
  | none => if broker.refreshedCapacity ≠ [] then some broker.refreshedCapacity else none

/-- All that stands between a reservation and its broker call. -/
def beforeSend (broker : Broker) (request : SubmitRequest) :
    Except (Text × Text) (ℚ × Option CloseTarget) :=
  match preflight broker request with
  | .error reason => .error (reason, "0".toList)
  | .ok (lots, target) =>
    if ¬broker.orderCheck.1 ∨ broker.orderCheck.2 ≠ 0 then
      .error ("ORDER_CHECK_REJECTED".toList, uintText broker.orderCheck.2)
    else match recheck broker target with
    | some reason => .error (reason, "0".toList)
    | none => .ok (lots, target)

/-- The terminal event a submission ends in. -/
inductive Verdict
  | simple (outcome : SimpleOutcome) (reason brokerRetcode : Text)
  | filled (fill : Fill)

/-- The deal is this request's whole fill. -/
def dealMatches (broker : Broker) (request : SubmitRequest) (lots : ℚ)
    (target : Option CloseTarget) : Bool :=
  let deal := broker.deal
  deal.factsRead && decide (0 < deal.orderRaw) && deal.orderRaw.toNat == broker.result.order &&
    decide (0 < deal.positionRaw) && deal.magicMatches && deal.symbolMatches &&
    deal.side == some request.order.side && decide (0 < deal.filled) && decide (0 < deal.price) &&
    (target.all fun target => deal.entryOut && deal.positionRaw.toNat == target.identifier) &&
    decide (|deal.filled - lots| ≤ tolerance lots)

def afterSend (broker : Broker) (request : SubmitRequest) (lots : ℚ)
    (target : Option CloseTarget) : Verdict :=
  let result := broker.result
  let retcode := uintText result.retcode
  if resultIsRejected result then .simple .rejected "ORDER_SEND_REJECTED".toList retcode
  else if ¬broker.sent ∨ result.retcode ≠ retcodeDone ∨ result.order = 0 ∨ result.deal = 0 ∨
      ¬broker.dealSelected then .simple .unknown "ORDER_SEND_UNCERTAIN".toList retcode
  else match dealMatches broker request lots target, broker.deal.filledText,
      broker.deal.priceText, broker.deal.commissionText with
  | true, some filledText, some priceText, some commissionText =>
    if target.isSome ∧ ¬broker.closePostState then
      .simple .unknown "CLOSE_POSTSTATE_UNAVAILABLE".toList retcode
    else .filled {
      filledQuantityLots := filledText
      fillPrice := priceText
      venueOrderId := uintText broker.deal.orderRaw.toNat
      venueDealId := uintText result.deal
      venuePositionId := uintText broker.deal.positionRaw.toNat
      commission := commissionText
      brokerRetcode := retcode }
  | _, _, _, _ => .simple .unknown "FILL_FACT_UNAVAILABLE".toList retcode

inductive ErrorCode
  | recoveryBlocked
  | idempotencyConflict
  | executionDisabled
deriving DecidableEq

structure SubmitError where
  code : ErrorCode
  message : String
deriving DecidableEq

/-- The world's answers to one submission: clocks, writes, memory and broker. -/
structure Answers where
  reservedMs : Text
  terminalMs : Text
  reservedWrite : WriteAnswer
  terminalWrite : WriteAnswer
  reservedStored : Bool
  terminalStored : Bool
  broker : Broker

/-- Persist the terminal event; an outcome that cannot be persisted stops the submissions. -/
def finish (ea : Ea) (request : SubmitRequest) (answers : Answers) :
    Verdict → Ran (Except SubmitError JournalEvent)
  | .simple outcome reason retcode =>
    let ran := appendRejectedOrUnknown ea ea.bootId answers.terminalMs outcome
      request.order.clientRequestId reason retcode answers.terminalWrite answers.terminalStored
    match ran.value with
    | some event => ⟨.ok event, ran.ea, ran.effects⟩
    | none => ⟨.error ⟨.recoveryBlocked, "terminal outcome could not be persisted"⟩,
        { ran.ea with recoveryReady := false }, ran.effects⟩
  | .filled fill =>
    let ran := appendFilled ea ea.bootId answers.terminalMs request.order.clientRequestId fill
      answers.terminalWrite answers.terminalStored
    match ran.value with
    | some event => ⟨.ok event, ran.ea, ran.effects⟩
    | none => ⟨.error ⟨.recoveryBlocked, "fill outcome could not be persisted"⟩,
        { ran.ea with recoveryReady := false }, ran.effects⟩

/-- What follows a reservation: checks, the broker call, the terminal event. -/
def execute (ea : Ea) (request : SubmitRequest) (answers : Answers) :
    Ran (Except SubmitError JournalEvent) :=
  match beforeSend answers.broker request with
  | .error (reason, retcode) => finish ea request answers (.simple .rejected reason retcode)
  | .ok (lots, target) =>
    let ran := finish ea request answers (afterSend answers.broker request lots target)
    ⟨ran.value, ran.ea, .orderSend request ea.events :: ran.effects⟩

/-- What an earlier reservation of the same request answers. -/
def replay (ea : Ea) (request : SubmitRequest) (reserved : JournalEvent) :
    Except SubmitError JournalEvent :=
  if reserved.body.order ≠ some request.order then
    .error ⟨.idempotencyConflict, "client_request_id payload differs from durable reservation"⟩
  else match outcomeEvent ea.events request.order.clientRequestId with
  | some outcome => .ok outcome
  | none => .error ⟨.recoveryBlocked, "submission reservation has no durable terminal outcome"⟩

def submit (ea : Ea) (request : SubmitRequest) (answers : Answers) :
    Ran (Except SubmitError JournalEvent) :=
  if ¬ea.journalReady then
    ⟨.error ⟨.recoveryBlocked, "journal recovery is not ready"⟩, ea, []⟩
  else match reservedEvent ea.events request.order.clientRequestId with
  | some reserved => ⟨replay ea request reserved, ea, []⟩
  | none =>
    if ¬ea.executionEnabled then
      ⟨.error ⟨.executionDisabled,
        "execution requires explicit DEMO mode on a hedging demo account"⟩, ea, []⟩
    else if ¬ea.journalReady ∨ ¬ea.recoveryReady then
      ⟨.error ⟨.recoveryBlocked, "execution recovery is not ready"⟩, ea, []⟩
    else
      let reserved := appendReserved ea ea.bootId answers.reservedMs request.order
        answers.reservedWrite answers.reservedStored
      if ¬reserved.value then
        ⟨.error ⟨.recoveryBlocked, "submission reservation could not be persisted"⟩,
          { reserved.ea with recoveryReady := false }, reserved.effects⟩
      else
        let ran := execute reserved.ea request answers
        ⟨ran.value, ran.ea, reserved.effects ++ ran.effects⟩

/-- The world's answers to one start. -/
structure Boot where
  executionEnabled : Bool
  newStreamId : Text
  bootId : Text
  observedMs : Text
  eaBuildId : Text
  identityWrite : WriteAnswer
  headerWrite : WriteAnswer
  startedWrite : WriteAnswer
  /-- The identity, the sockets and the timer come up. -/
  services : Bool

def onInit (journalNamespace : Text) (disk : Disk) (boot : Boot) : Ran Bool :=
  let loaded := init journalNamespace boot.executionEnabled disk boot.newStreamId
    boot.identityWrite boot.headerWrite
  if ¬loaded.value ∨ ¬boot.services then ⟨false, loaded.ea, loaded.effects⟩
  else
    let ea := { loaded.ea with bootId := boot.bootId }
    if ea.journalReady then
      let started := appendStreamStarted ea boot.bootId boot.observedMs boot.eaBuildId
        boot.executionEnabled boot.startedWrite
      ⟨started.value, started.ea, loaded.effects ++ started.effects⟩
    else ⟨true, ea, loaded.effects⟩

/-- What a call leaves behind when the terminal dies in it: its first effects, and of a write that
was under way any part. -/
inductive Cut : List Effect → List Effect → Prop
  | between (done rest : List Effect) : Cut (done ++ rest) done
  | creating (done rest : List Effect) (file : JournalFile) (contents : Text) (kept part : ℕ)
      (confirmed : Bool) (less : part ≤ kept) :
      Cut (done ++ .create file contents kept confirmed :: rest)
        (done ++ [.create file contents part false])
  | appending (done rest : List Effect) (event : JournalEvent) (kept part : ℕ) (confirmed : Bool)
      (less : part ≤ kept) :
      Cut (done ++ .append event kept confirmed :: rest) (done ++ [.append event part false])

/-- The files, all that ever happened to them and the broker, and the expert if it runs. -/
structure World where
  disk : Disk
  log : List Effect
  process : Option Ea

def World.empty : World := ⟨⟨none, none⟩, [], none⟩

def World.perform (w : World) (effects : List Effect) (process : Option Ea) : World :=
  ⟨effects.foldl Disk.after w.disk, w.log ++ effects, process⟩

def World.started (journalNamespace : Text) (w : World) (boot : Boot) : World :=
  let ran := onInit journalNamespace w.disk boot
  w.perform ran.effects (if ran.value then some ran.ea else none)

def World.submitted (w : World) (ea : Ea) (request : SubmitRequest) (answers : Answers) : World :=
  w.perform (submit ea request answers).effects (some (submit ea request answers).ea)

inductive Step (journalNamespace : Text) : World → World → Prop
  | start (w : World) (boot : Boot) (stopped : w.process = none) :
      Step journalNamespace w (w.started journalNamespace boot)
  | startCut (w : World) (boot : Boot) (stopped : w.process = none) (effects : List Effect)
      (cut : Cut (onInit journalNamespace w.disk boot).effects effects) :
      Step journalNamespace w (w.perform effects none)
  | submit (w : World) (ea : Ea) (running : w.process = some ea) (request : SubmitRequest)
      (answers : Answers) : Step journalNamespace w (w.submitted ea request answers)
  | submitCut (w : World) (ea : Ea) (running : w.process = some ea) (request : SubmitRequest)
      (answers : Answers) (effects : List Effect)
      (cut : Cut (Journal.submit ea request answers).effects effects) :
      Step journalNamespace w (w.perform effects none)
  | stop (w : World) : Step journalNamespace w { w with process := none }

inductive Reachable (journalNamespace : Text) : World → Prop
  | empty : Reachable journalNamespace .empty
  | step {w w' : World} (reached : Reachable journalNamespace w)
      (step : Step journalNamespace w w') : Reachable journalNamespace w'

end ArbNautilus.Journal
