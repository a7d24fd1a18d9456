import ArbNautilus.Store.Atomic

namespace ArbNautilus.Store

open Base

namespace Native

inductive OrderSide where
  | noOrderSide
  | buy
  | sell
deriving DecidableEq, Repr

inductive OrderType where
  | market
  | limit
  | stopMarket
  | stopLimit
  | marketToLimit
  | marketIfTouched
  | limitIfTouched
  | trailingStopMarket
  | trailingStopLimit
deriving DecidableEq, Repr

inductive TimeInForce where
  | gtc
  | ioc
  | fok
  | gtd
  | day
  | atTheOpen
  | atTheClose
deriving DecidableEq, Repr

inductive OrderStatus where
  | initialized
  | denied
  | emulated
  | released
  | submitted
  | accepted
  | rejected
  | canceled
  | expired
  | triggered
  | pendingUpdate
  | pendingCancel
  | partiallyFilled
  | filled
deriving DecidableEq, Repr

def OrderStatus.name : OrderStatus → String
  | .initialized => "INITIALIZED"
  | .denied => "DENIED"
  | .emulated => "EMULATED"
  | .released => "RELEASED"
  | .submitted => "SUBMITTED"
  | .accepted => "ACCEPTED"
  | .rejected => "REJECTED"
  | .canceled => "CANCELED"
  | .expired => "EXPIRED"
  | .triggered => "TRIGGERED"
  | .pendingUpdate => "PENDING_UPDATE"
  | .pendingCancel => "PENDING_CANCEL"
  | .partiallyFilled => "PARTIALLY_FILLED"
  | .filled => "FILLED"

/-- What every event of an order names. -/
structure EventOwner where
  traderId : String
  strategyId : String
  instrumentId : String
  clientOrderId : String
deriving DecidableEq

structure OrderInitialized extends EventOwner where
  side : OrderSide
  orderType : OrderType
  timeInForce : TimeInForce
  quantity : ℚ
  quoteQuantity : Bool
  reduceOnly : Bool
deriving DecidableEq

structure OrderFilled extends EventOwner where
  accountId : String
  venueOrderId : String
  tradeId : String
  positionId : Option String
  orderSide : OrderSide
  orderType : OrderType
  lastQty : ℚ
deriving DecidableEq

/-- An event of an order's history; any other kind may name its account. -/
inductive OrderEvent where
  | initialized (event : OrderInitialized)
  | filled (event : OrderFilled)
  | other (owner : EventOwner) (accountId : Option String)
deriving DecidableEq

def OrderEvent.owner : OrderEvent → EventOwner
  | .initialized event => event.toEventOwner
  | .filled event => event.toEventOwner
  | .other owner _ => owner

/-- `getattr(event, "account_id", None)`. -/
def OrderEvent.accountId : OrderEvent → Option String
  | .initialized _ => none
  | .filled event => some event.accountId
  | .other _ accountId => accountId

/-- A fill, among other events. -/
def OrderEvent.fill? : OrderEvent → Option OrderFilled
  | .filled event => some event
  | _ => none

/-- An order as the engine's cache holds it. -/
structure Order where
  traderId : String
  strategyId : String
  instrumentId : String
  clientOrderId : String
  venueOrderId : Option String
  positionId : Option String
  accountId : Option String
  side : OrderSide
  orderType : OrderType
  timeInForce : TimeInForce
  isQuoteQuantity : Bool
  isReduceOnly : Bool
  quantity : ℚ
  filledQty : ℚ
  status : OrderStatus
  isClosed : Bool
  tradeIds : List String
  events : List OrderEvent
deriving DecidableEq

/-- The events of an order that are fills, in their order. -/
def Order.fills (order : Order) : List OrderFilled := order.events.filterMap (·.fill?)

/-- `{order.client_order_id.value: order for order in orders}`. -/
def byId (orders : List Order) : Dict String Order :=
  Dict.ofList (orders.map fun order => (order.clientOrderId, order))

def totalQty (fills : List OrderFilled) : ℚ := (fills.map (·.lastQty)).sum

@[simp] theorem totalQty_nil : totalQty [] = 0 := rfl

theorem totalQty_append (fills later : List OrderFilled) :
    totalQty (fills ++ later) = totalQty fills + totalQty later := by
  simp [totalQty]

theorem totalQty_take_drop (fills : List OrderFilled) (count : ℕ) :
    totalQty (fills.take count) + totalQty (fills.drop count) = totalQty fills := by
  rw [← totalQty_append, List.take_append_drop]

end Native

/-- The side of the engine that a business side is written as. -/
def BusinessOrderSide.native : BusinessOrderSide → Native.OrderSide
  | .buy => .buy
  | .sell => .sell

/-- The instruments an owner is built for. -/
structure Instruments where
  sourceInstrumentId : String
  hedgeInstrumentId : String
deriving DecidableEq

/-- A store that a projection takes whole; a standalone store is its own only view. -/
inductive BusinessStore where
  | standalone (store : JsonStateStore)
  | owner (o : MakerStateStore) (instruments : Instruments)

namespace BusinessStore

def viewKeys : BusinessStore → List ViewKey
  | .standalone _ => [.taker]
  | .owner o _ => o.cfg.viewKeys

def view : BusinessStore → ViewKey → StoreState
  | .standalone store => fun _ => store.memory
  | .owner o _ => o.view

theorem viewKeys_nodup (store : BusinessStore) : store.viewKeys.Nodup := by
  cases store with
  | standalone => exact List.nodup_singleton _
  | owner o =>
    simp only [viewKeys, OwnerConfig.viewKeys]
    split <;> decide

/-- `strategy_id_for`: a shared owner names the strategy of each view. -/
def strategyIdFor (cfg : OwnerConfig) (v : ViewKey) : Option String :=
  cfg.sharedStrategyIds.map fun ids => if v = .taker then ids.2 else ids.1

/-- The strategy whose native orders a view holds. -/
def strategyId (store : BusinessStore) (given : String) (v : ViewKey) : String :=
  match store with
  | .standalone _ => given
  | .owner o _ => match strategyIdFor o.cfg v with
    | some id => if id = "" then given else id
    | none => given

end BusinessStore

/-- What every native order of a route carries. -/
structure NativeRoute where
  instrumentId : String
  traderId : String
  strategyId : String

end ArbNautilus.Store
