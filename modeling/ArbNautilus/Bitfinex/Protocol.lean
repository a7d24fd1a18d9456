import ArbNautilus.Base.Lines
import Mathlib.Algebra.Order.Field.Rat
import Mathlib.Data.List.Sort

namespace ArbNautilus.Bitfinex

open Base

/-- What the execution client raises, with the text the source raises it with. -/
inductive Raised where
  | executionError (message : String)
  | accountingError (message : String)
  | reportError (message : String)
deriving DecidableEq, Repr

inductive OrderSide where
  | buy
  | sell
deriving DecidableEq, Repr

inductive TimeInForce where
  | gtc
  | ioc
deriving DecidableEq, Repr

/-- The order channel: new, update, and close. -/
inductive OrderOperation where
  | on
  | ou
  | oc
deriving DecidableEq, Repr

def postOnlyFlag : ℕ := 4096

def reduceOnlyFlag : ℕ := 1024

def paperRawSymbol : String := "tTESTXAUTF0:TESTUSDTF0"

/-- `Decimal` amounts are kept by value. -/
structure OrderState where
  venueOrderId : ℕ
  groupId : Option ℕ := none
  clientOrderId : Option ℕ
  symbol : String
  tsCreatedMs : ℕ
  tsUpdatedMs : ℕ
  remainingQty : ℚ
  originalQty : ℚ
  orderType : String
  previousOrderType : Option String := none
  tifExpiryMs : Option ℕ := none
  flags : ℕ
  status : Text
  price : ℚ
  averagePrice : ℚ := 0
  postOnlyMeta : Option Bool := none
deriving DecidableEq

/-- META retains post-only intent when the venue clears its active flag. -/
def OrderState.effectiveFlags (state : OrderState) : ℕ :=
  state.flags ||| if state.postOnlyMeta = some true then postOnlyFlag else 0

/-- Fee-pending execution facts from the low-latency `te` event. -/
structure TradeExecution where
  tradeId : ℕ
  symbol : String
  tsEventMs : ℕ
  venueOrderId : ℕ
  executionQty : ℚ
  executionPrice : ℚ
  orderType : String
  orderPrice : ℚ
  maker : Bool
  clientOrderId : Option ℕ
deriving DecidableEq

/-- The final `tu` event of an execution. -/
structure TradeUpdate extends TradeExecution where
  fee : ℚ
  feeCurrency : String
deriving DecidableEq

inductive NotificationStatus where
  | success
  | error
  | failure
deriving DecidableEq, Repr

structure Notification where
  tsEventMs : ℕ
  operation : OrderOperation
  venueOrderId : Option ℕ
  clientOrderId : Option ℕ
  code : Option ℤ
  status : NotificationStatus
  text : String
deriving DecidableEq

inductive OrderStatus where
  | accepted
  | partiallyFilled
  | filled
  | canceled
  | expired
  | rejected
deriving DecidableEq, Repr

def terminalFilled (state : OrderState) : ℚ := |state.originalQty| - |state.remainingQty|

def sameExecution (interim : TradeExecution) (update : TradeUpdate) : Prop :=
  interim.tradeId = update.tradeId ∧ interim.symbol = update.symbol ∧
  interim.tsEventMs = update.tsEventMs ∧ interim.venueOrderId = update.venueOrderId ∧
  interim.executionQty = update.executionQty ∧
  interim.executionPrice = update.executionPrice ∧ interim.orderType = update.orderType ∧
  interim.orderPrice = update.orderPrice ∧ interim.maker = update.maker ∧
  (interim.clientOrderId = none ∨ interim.clientOrderId = update.clientOrderId)

instance (interim : TradeExecution) (update : TradeUpdate) :
    Decidable (sameExecution interim update) := by
  unfold sameExecution
  infer_instance

/-- `text.startswith(prefix)`. -/
def startsWith (text : Text) (head : String) : Bool := head.toList.isPrefixOf text

def quoted (text : Text) : String := "'" ++ String.ofList text ++ "'"

def startsWithAny (text : Text) (heads : List String) : Bool := heads.any (startsWith text)

section Status

/-! Venue status texts are compared in upper case; `upper` stands for `str.upper`. -/

variable (upper : Text → Text)

def initialRejections : List String :=
  ["POSTONLY CANCELED", "INSUFFICIENT MARGIN", "RSN_DUST", "RSN_PAUSE"]

def initialRejection (status : Text) : Option String :=
  initialRejections.find? (startsWith (upper status))

inductive Disposition where
  | executed
  | canceled
deriving DecidableEq, Repr

def canceledPrefixes : List String :=
  ["CANCELED", "IOC CANCELED", "POSTONLY CANCELED", "INSUFFICIENT MARGIN", "RSN_DUST",
    "RSN_PAUSE"]

def terminalDisposition (state : OrderState) : Except Raised Disposition :=
  let status := upper state.status
  if startsWith status "EXECUTED" then
    if terminalFilled state ≠ |state.originalQty| then
      .error (.executionError "Bitfinex EXECUTED terminal does not report the full order quantity")
    else .ok .executed
  else if startsWithAny status canceledPrefixes then .ok .canceled
  else .error (.executionError ("unsupported terminal order status " ++ quoted state.status))

/-- `_order_status` of the REST history mapper. -/
def orderStatus (status : Text) (isActive : Bool) (filled total : ℚ) :
    Except Raised OrderStatus :=
  let text := upper status
  if isActive then
    if text = "ACTIVE".toList ∧ filled = 0 then .ok .accepted
    else if text = "ACTIVE".toList ∧ filled < total then .ok .partiallyFilled
    else if startsWith text "PARTIALLY FILLED" ∧ 0 < filled ∧ filled < total then
      .ok .partiallyFilled
    else .error (.reportError ("inconsistent active Bitfinex status " ++ quoted status))
  else if startsWithAny text ["EXECUTED", "FORCED EXECUTED"] then
    if filled = total then .ok .filled
    else .error (.reportError "executed Bitfinex order is not fully filled")
  else
    let canceled := startsWithAny text
      ["CANCELED", "IOC CANCELED", "FOK CANCELED", "PARTIALLY FILLED", "RSN"]
    let rejected := startsWithAny text
      ["POSTONLY CANCELED", "INSUFFICIENT MARGIN", "INSUFFICIENT BALANCE"]
    if rejected ∧ filled = 0 then .ok .rejected
    else if (canceled ∨ rejected) ∧ filled < total then .ok .canceled
    else .error (.reportError ("unsupported historical Bitfinex status " ++ quoted status))

end Status

/-- The order the client submitted, and the account profile it checks events against. -/
structure Terms where
  cid : ℕ
  side : OrderSide
  quantity : ℚ
  price : ℚ
  timeInForce : TimeInForce
  isPostOnly : Bool
  isReduceOnly : Bool
  rawSymbol : String
  feeCurrency : String
  /-- `make_qty` and `make_price` keep the value. -/
  exactQty : ℚ → Bool
  exactPrice : ℚ → Bool
  upper : Text → Text
  positive : 0 < quantity

namespace Terms

variable (terms : Terms)

def paper : Bool := terms.rawSymbol = paperRawSymbol

def sign : ℚ := if terms.side = .buy then 1 else -1

def orderType : String := if terms.timeInForce = .ioc then "IOC" else "LIMIT"

def flags : ℕ :=
  if terms.isPostOnly then postOnlyFlag else if terms.isReduceOnly then reduceOnlyFlag else 0

end Terms

end ArbNautilus.Bitfinex
