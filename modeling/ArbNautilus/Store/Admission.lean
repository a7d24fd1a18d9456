import ArbNautilus.Base.Schedule
import ArbNautilus.Store.Conservation
import Mathlib.Algebra.BigOperators.Fin

namespace ArbNautilus.Store

open Base

structure SourceAccount where
  accountId : String
  positionOunces : ℚ
  maxLongOunces : ℚ
  maxShortOunces : ℚ

structure HedgeAccount where
  positionOunces : ℚ
  maxLongOunces : ℚ
  maxShortOunces : ℚ

structure RiskConfig where
  sourceMaxAbs : ℚ
  hedgeMaxAbs : ℚ
  sourceMinKeepAbs : ℚ
  hedgeMinKeepAbs : ℚ
  onlyLong : Bool

inductive OrderSide where
  | noOrderSide
  | buy
  | sell
deriving DecidableEq

/-- A source order in the native cache. -/
structure NativeOrder where
  clientOrderId : String
  strategyId : String
  side : OrderSide
  quantity : ℚ
  filledQty : ℚ
  leavesQty : ℚ
  accountId : Option String
  isClosed : Bool

/-- What one call reads beside the owner: the two quote ticks, the account reader's answer
with its qualification for new budget, the position check and the native orders. -/
structure Market where
  ticks : Bool
  accounts : Option (SourceAccount × HedgeAccount × Bool)
  positionsReady : Bool
  orders : List NativeOrder

/-- `_within_bounds` of one leg. -/
def withinBounds (net buy sell maximum minimum : ℚ) (onlyLong : Bool) : Bool :=
  let upper := net + buy
  let lower := net - sell
  if max net maximum < upper ∨ lower < min net (-maximum) then false
  else if onlyLong = false then true
  else [upper, lower].all fun after =>
    0 ≤ net * after ∧ ¬(|after| < minimum ∧ |after| < |net|)

/-- The exposure bound, and the cumulative BUY and SELL hedge delta bounds. -/
def makerCarryBounds (residual buyLeaves sellLeaves : ℚ) : Except Raised (ℚ × ℚ × ℚ) :=
  if 1 / 2 < |residual| ∨ min buyLeaves sellLeaves < 0 then
    .error (.valueError "invalid Maker carry budget inputs")
  else .ok (
    if buyLeaves ≠ 0 ∧ sellLeaves ≠ 0 then 1 / 2 + max buyLeaves sellLeaves
    else max |residual| |residual + buyLeaves - sellLeaves|,
    if sellLeaves ≠ 0 then max 0 ⌊-residual + sellLeaves + 1 / 2⌋ else 0,
    if buyLeaves ≠ 0 then max 0 ⌊residual + buyLeaves + 1 / 2⌋ else 0)

def MakerStateStore.strategyIdFor (o : MakerStateStore) (v : ViewKey) : Option String :=
  o.cfg.sharedStrategyIds.map fun (maker, taker) => if v = .taker then taker else maker

structure SharedSourceAdmission where
  risk : RiskConfig
  maxUnhedgedOunces : Option ℚ
  reader : Bool

namespace SharedSourceAdmission

/-- The business records under their order identities. -/
def records (o : MakerStateStore) : Dict String (ViewKey × SourceOrderRecord) :=
  Dict.ofList (o.cfg.viewKeys.flatMap fun v =>
    (o.view v).sourceOrders.values.map fun record => (record.clientOrderId, (v, record)))

def native (market : Market) : Dict String NativeOrder :=
  Dict.ofList (market.orders.map fun order => (order.clientOrderId, order))

def expectedSide : BusinessOrderSide → OrderSide
  | .buy => .buy
  | .sell => .sell

/-- The native and the business facts of one order agree. -/
def factsAgree (o : MakerStateStore) (source : SourceAccount) (v : ViewKey)
    (record : SourceOrderRecord) (order : NativeOrder) : Bool :=
  some order.strategyId = o.strategyIdFor v ∧ order.side = expectedSide record.side ∧
    order.quantity = record.quantityOunces ∧ order.filledQty = record.filledOunces ∧
    (order.accountId = none ∨ order.accountId = some source.accountId)

/-- One turn of the loop over the records: the leaves of an open order join its side. The
keys agree by then, so every lookup hits. -/
def addLeaves (o : MakerStateStore) (source : SourceAccount) (orders : Dict String NativeOrder)
    (leaves : ℚ × ℚ) (entry : String × ViewKey × SourceOrderRecord) : Option (ℚ × ℚ) :=
  match orders.get? entry.1 with
  | none => none
  | some order =>
    if factsAgree o source entry.2.1 entry.2.2 order = false then none
    else if order.isClosed then some leaves
    else match entry.2.2.side with
      | .buy => some (leaves.1 + order.leavesQty, leaves.2)
      | .sell => some (leaves.1, leaves.2 + order.leavesQty)

/-- The limits of both legs, once the working leaves are known. -/
def limitsAllow (a : SharedSourceAdmission) (residual : ℚ) (source : SourceAccount)
    (hedge : HedgeAccount) (buy sell : ℚ) : Except Raised Bool :=
  if source.maxLongOunces < buy ∨ source.maxShortOunces < sell ∨
      withinBounds source.positionOunces buy sell a.risk.sourceMaxAbs a.risk.sourceMinKeepAbs
        a.risk.onlyLong = false then .ok false
  else match makerCarryBounds residual buy sell with
    | .error e => .error e
    | .ok (exposure, hedgeBuy, hedgeSell) => .ok (
        (∀ limit ∈ a.maxUnhedgedOunces, exposure ≤ limit) ∧
        hedgeBuy ≤ hedge.maxLongOunces ∧ hedgeSell ≤ hedge.maxShortOunces ∧
        withinBounds hedge.positionOunces hedgeBuy hedgeSell a.risk.hedgeMaxAbs
          a.risk.hedgeMinKeepAbs a.risk.onlyLong)

/-- The gates that read the owner alone. -/
def ownerAdmits (o : MakerStateStore) (v : ViewKey) : Bool :=
  v ∈ o.cfg.viewKeys ∧ (o.view v).canSubmitSource (o.cfg.viewIsAdmissible o.book v) ∧
    ¬o.freezePublicationFailed ∧ o.running ∧ o.unfrozen ∧
    (o.cfg.firstUnfinishedHedge o.book).isNone ∧ o.cfg.sourceBalanceIsAdmissible o.book

/-- A mismatch freezes every view before it refuses. -/
def freezeAndRefuse (o : MakerStateStore) (pub : Publication) (reason : String) :
    Except Raised Bool × MakerStateStore :=
  match o.freezeExternal pub reason o.cfg.viewKeys with
  | (.ok (), o') => (.ok false, o')
  | (.error e, o') => (.error e, o')

/-- The new order's own leaves. -/
def requested (side : BusinessOrderSide) (quantity : ℚ) : ℚ × ℚ :=
  match side with
  | .buy => (quantity, 0)
  | .sell => (0, quantity)

def call (a : SharedSourceAdmission) (market : Market) (o : MakerStateStore) (v : ViewKey)
    (side : BusinessOrderSide) (quantity : ℚ) (pub : Publication) :
    Except Raised Bool × MakerStateStore :=
  if quantity ≤ 0 ∨ a.reader = false ∨ ownerAdmits o v = false ∨ market.ticks = false then
    (.ok false, o)
  else match market.accounts with
    | none => (.ok false, o)
    | some (source, hedge, qualified) =>
      if qualified = false then (.ok false, o)
      else if market.positionsReady = false then
        freezeAndRefuse o pub "shared current venue/native positions differ"
      else if (records o).keys.toFinset ≠ (native market).keys.toFinset then
        freezeAndRefuse o pub "shared source/native ownership differs"
      else match (records o).entries.foldlM (addLeaves o source (native market))
          (requested side quantity) with
        | none => freezeAndRefuse o pub "shared source/native facts differ"
        | some (buy, sell) =>
          (a.limitsAllow (o.cfg.carryResidualOunces o.book) source hedge buy sell, o)

/-- A record's order while it is open, with its leaves. -/
def openOrder (orders : Dict String NativeOrder) (entry : String × ViewKey × SourceOrderRecord) :
    Option (SourceOrderRecord × ℚ) :=
  (orders.get? entry.1).bind fun order =>
    if order.isClosed then none else some (entry.2.2, order.leavesQty)

/-- The working orders a call counts: each open one with its leaves, and the new one. -/
def working (market : Market) (o : MakerStateStore) (new : SourceOrderRecord) (quantity : ℚ) :
    List (SourceOrderRecord × ℚ) :=
  (records o).entries.filterMap (openOrder (native market)) ++ [(new, quantity)]

end SharedSourceAdmission

end ArbNautilus.Store
