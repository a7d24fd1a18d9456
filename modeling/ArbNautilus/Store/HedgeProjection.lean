import ArbNautilus.Store.Native

namespace ArbNautilus.Store

open Base Native

/-- Carry a check of the whole owner, which a standalone store does not need. -/
def BusinessStore.checkOwner (store : BusinessStore) (bound : Instruments → String)
    (instrumentId message : String) : Except Raised Unit :=
  match store with
  | .standalone _ => pure ()
  | .owner o instruments => do
    raiseIf (bound instruments ≠ instrumentId) (.valueError message)
    o.cfg.validate o.book

namespace HedgeProjection

def key (fill : OrderFilled) : String := fill.clientOrderId ++ "|" ++ fill.tradeId

/-- The fill as the store applies it. -/
def business (fill : OrderFilled) : HedgeFill := ⟨fill.clientOrderId, fill.tradeId, fill.lastQty⟩

def plannedIds (intent : HedgeIntent) : Except Raised (List String) := do
  let ids := intent.hedgeLegOrderIds
  let current := intent.hedgeClientOrderId
  raiseIf (ids.length ≠ intent.hedgeLegIndex + current.toList.length ∨
      (current ≠ none ∧ (intent.hedgeLegIndex = intent.hedgePlan.length ∨
        current ≠ ids[intent.hedgeLegIndex]?)))
    (.valueError "hedge projection plan order history differs from its current leg")
  raiseIf (intent.hedgePositionId ≠ none ∧ (intent.hedgePlan.length ≠ 1 ∨
      intent.hedgePlan.head?.bind (·.positionId) ≠ intent.hedgePositionId ∨
      (intent.hedgePositionQuantityOunces ≠ none ∧
        intent.hedgePlan.head?.bind (·.expectedPositionQuantityOunces) ≠
          intent.hedgePositionQuantityOunces)))
    (.valueError "hedge projection plan differs from the bound exit ticket")
  pure ids

/-- The orders an unplanned intent is bound to; a schema-1 intent names its only one once. -/
def unplannedOrders (intent : HedgeIntent) : List String :=
  if intent.hedgeLegOrderIds = [] then intent.hedgeClientOrderId.toList
  else intent.hedgeLegOrderIds

def unplannedIds (intent : HedgeIntent) : Except Raised (List String) := do
  let ids := unplannedOrders intent
  raiseIf (1 < ids.length ∨ (ids ≠ [] ∧ intent.hedgeClientOrderId ≠ ids.head?))
    (.valueError "hedge projection unplanned history has no unique current order")
  raiseIf (∃ quantity ∈ intent.hedgePositionQuantityOunces,
      quantity < intent.hedgeQuantityOunces)
    (.valueError "hedge projection unplanned close exceeds its bound ticket")
  pure ids

def historyIds (intent : HedgeIntent) : Except Raised (List String) :=
  if intent.hedgePlan ≠ [] then plannedIds intent else unplannedIds intent

def orderIds (intent : HedgeIntent) (record : SourceOrderRecord) :
    Except Raised (List String) := do
  raiseIf (intent.hedgePositionId ≠ record.hedgePositionId ∨
      intent.hedgePositionQuantityOunces ≠ record.hedgePositionQuantityOunces)
    (.valueError "hedge projection source/intent ticket binding differs")
  let ids ← historyIds intent
  raiseIf (¬ids.Nodup ∨ ∃ cid ∈ ids, cid = "" ∨ '|' ∈ cid.toList)
    (.valueError "hedge projection order history identity is not unique")
  pure ids

/-- The quantity of the leg a binding names, or of the whole unplanned intent. -/
def boundQuantity (intent : HedgeIntent) (index : ℕ) : ℚ :=
  match intent.hedgePlan[index]? with
  | some leg => leg.quantityOunces
  | none => intent.hedgeQuantityOunces

def boundPosition (intent : HedgeIntent) (index : ℕ) : Option String :=
  match intent.hedgePlan[index]? with
  | some leg => leg.positionId
  | none => intent.hedgePositionId

def checkedFills (route : NativeRoute) (order : Order) (record : SourceOrderRecord)
    (intent : HedgeIntent) (index : ℕ) : Except Raised (List OrderFilled) :=
  let quantity := boundQuantity intent index
  let position := boundPosition intent index
  let side := intent.hedgeSide.native
  let fills := order.fills
  match order.events with
  | .initialized initial :: _ => do
    raiseIf (order.traderId ≠ route.traderId ∨ order.strategyId ≠ route.strategyId ∨
        order.instrumentId ≠ route.instrumentId ∨ order.side ≠ side ∨
        order.orderType ≠ .market ∨ order.timeInForce ≠ .fok ∨ order.isQuoteQuantity ∨
        order.isReduceOnly ≠ position.isSome ∨ order.quantity ≠ quantity ∨
        initial.quantity ≠ quantity ∨ initial.side ≠ side ∨ initial.orderType ≠ .market ∨
        initial.timeInForce ≠ .fok ∨ initial.quoteQuantity ∨
        initial.reduceOnly ≠ position.isSome ∨
        (record.hedgeAccountId ≠ none ∧ order.accountId ≠ none ∧
          record.hedgeAccountId ≠ order.accountId) ∨
        (position ≠ none ∧ order.positionId ≠ none ∧ position ≠ order.positionId))
      (.valueError ("hedge projection order or ticket facts differ: " ++ order.clientOrderId))
    raiseIf (∃ event ∈ order.events,
        event.owner ≠ ⟨route.traderId, route.strategyId, route.instrumentId,
          order.clientOrderId⟩ ∨
        (event.accountId ≠ none ∧ event.accountId ≠ order.accountId))
      (.valueError "hedge projection event ownership differs")
    raiseIf (∃ fill ∈ fills, some fill.accountId ≠ order.accountId ∨
        some fill.venueOrderId ≠ order.venueOrderId ∨ '|' ∈ fill.tradeId.toList ∨
        fill.orderSide ≠ side ∨ fill.orderType ≠ .market ∨ fill.positionId = none ∨
        fill.positionId ≠ order.positionId ∨ fill.lastQty ≤ 0)
      (.valueError "hedge projection fill identity, ticket or quantity differs")
    raiseIf (totalQty fills ≠ order.filledQty ∨ quantity < totalQty fills ∨
        order.tradeIds ≠ fills.map (·.tradeId) ∨
        (order.status = .filled ∧ totalQty fills ≠ quantity))
      (.valueError "hedge projection native fill history is incomplete")
    pure fills
  | _ => .error (.valueError "hedge projection requires original native initialization")

/-- The obligation a native order belongs to, and its leg. -/
structure Binding where
  view : ViewKey
  intent : HedgeIntent
  record : SourceOrderRecord
  index : ℕ

/-- The identities met while the views are walked. -/
structure Walk where
  sources : Finset String := ∅
  intents : Finset String := ∅
  sourceFills : Finset String := ∅
  bindings : Dict String Binding := .empty

def walkSource (w : Walk) (entry : String × SourceOrderRecord) : Except Raised Walk := do
  raiseIf (entry.1 = "" ∨ entry.1 ≠ entry.2.clientOrderId ∨ entry.1 ∈ w.sources)
    (.valueError "hedge projection source dictionary identity differs")
  pure { w with sources := insert entry.1 w.sources }

/-- The fill key names the intent's own source order and trade. -/
def namesSourceFill (intent : HedgeIntent) : Bool :=
  match splitText '|' intent.fillKey with
  | [order, venueOrder, trade] =>
    order ≠ "" ∧ venueOrder ≠ "" ∧ trade ≠ "" ∧ order = intent.sourceClientOrderId ∧
      trade = intent.sourceTradeId
  | _ => false

def bindOrder (message : String) (bindings : Dict String Binding) (entry : String × Binding) :
    Except Raised (Dict String Binding) := do
  raiseIf (bindings.get? entry.1 ≠ none) (.valueError message)
  pure (bindings.set entry.1 entry.2)

/-- The bindings of an intent's own orders, and of its archived rejection. -/
def ownBindings (v : ViewKey) (intent : HedgeIntent) (record : SourceOrderRecord)
    (ids : List String) : List (String × Binding) :=
  ids.zipIdx.map fun (cid, index) => (cid, ⟨v, intent, record, index⟩)

def attemptBindings (v : ViewKey) (intent : HedgeIntent) (record : SourceOrderRecord) :
    List (String × Binding) :=
  intent.rejectedAttempt.toList.map fun attempt =>
    (attempt.clientOrderId, ⟨v, intent, record, attempt.legIndex⟩)

def walkIntent (s : StoreState) (v : ViewKey) (w : Walk) (entry : String × HedgeIntent) :
    Except Raised Walk :=
  let (identity, intent) := entry
  match s.sourceOrders.get? intent.sourceClientOrderId with
  | none => .error (.valueError "hedge projection intent source identity differs")
  | some record => do
    raiseIf (identity = "" ∨ identity ≠ intent.intentId ∨ identity ∈ w.intents ∨
        intent.fillKey ∈ w.sourceFills ∨ intent.sourceSide ≠ record.side ∨
        intent.fillKey ∉ s.seenSourceFills ∨ namesSourceFill intent = false)
      (.valueError "hedge projection intent source identity differs")
    let ids ← orderIds intent record
    let bindings ← (ownBindings v intent record ids).foldlM
      (bindOrder "hedge projection order belongs to multiple intents") w.bindings
    let bindings ← (attemptBindings v intent record).foldlM
      (bindOrder "hedge projection rejected order belongs to multiple intents") bindings
    pure { w with
      intents := insert identity w.intents
      sourceFills := insert intent.fillKey w.sourceFills
      bindings }

def walkView (view : ViewKey → StoreState) (w : Walk) (v : ViewKey) : Except Raised Walk := do
  raiseIf (∃ active ∈ (view v).activeSourceOrderId, (view v).sourceOrders.get? active = none)
    (.valueError "hedge projection active source identity differs")
  let w ← (view v).sourceOrders.entries.foldlM walkSource w
  (view v).hedgeIntents.entries.foldlM (walkIntent (view v) v) w

/-- What the native orders show of the fills already seen. -/
structure Count where
  trades : Finset (String × String) := ∅
  totals : String → ℚ := fun _ => 0
  currentTotals : String → ℚ := fun _ => 0
  keysByView : ViewKey → Finset String := fun _ => ∅
  missing : List (ViewKey × HedgeFill) := []

def claimTrade (trades : Finset (String × String)) (fill : OrderFilled) :
    Except Raised (Finset (String × String)) := do
  raiseIf ((fill.accountId, fill.tradeId) ∈ trades)
    (.valueError "hedge projection native TradeId is duplicated")
  pure (insert (fill.accountId, fill.tradeId) trades)

/-- The fills of an order that its view has seen. -/
def seenOf (s : StoreState) (cid : String) : Finset String :=
  s.seenHedgeFills.filter fun key => (splitText '|' key).head? = some cid

/-- The part of an order's fills that its view has seen, by number. -/
def countFills (view : ViewKey → StoreState) (c : Count) (cid : String) (b : Binding)
    (order : Order) (fills : List OrderFilled) : Except Raised Count := do
  let trades ← fills.foldlM claimTrade c.trades
  let seen := seenOf (view b.view) cid
  let count := seen.card
  raiseIf (seen ≠ ((fills.map key).take count).toFinset)
    (.valueError "hedge projection seen fills are not a complete contiguous prefix")
  let counted := totalQty (fills.take count)
  raiseIf (b.intent.hedgeClientOrderId ≠ some cid ∧
      (order.status ≠ .filled ∨ count ≠ fills.length))
    (.valueError "hedge projection advanced historical leg is incomplete")
  raiseIf (fills.drop count ≠ [] ∧ (b.intent.status = .completed ∨
      b.intent.hedgeClientOrderId ≠ some cid ∨ order.status ≠ .filled))
    (.valueError "hedge projection missing fills require a complete current FOK")
  pure {
    trades
    totals := Function.update c.totals b.intent.intentId (c.totals b.intent.intentId + counted)
    currentTotals :=
      if b.intent.hedgeClientOrderId = some cid then
        Function.update c.currentTotals b.intent.intentId counted
      else c.currentTotals
    keysByView := Function.update c.keysByView b.view
      (c.keysByView b.view ∪ (fills.map key).toFinset)
    missing := c.missing ++ (fills.drop count).map fun fill => (b.view, business fill) }

def countOrder (store : BusinessStore) (route : NativeRoute) (orders : Dict String Order)
    (view : ViewKey → StoreState) (c : Count) (entry : String × Binding) : Except Raised Count :=
  let (cid, b) := entry
  match orders.get? cid with
  | none => .error (.keyError cid)
  | some order => do
    let fills ← checkedFills
      { route with strategyId := store.strategyId route.strategyId b.view }
      order b.record b.intent b.index
    if isRejectedAttempt b.intent cid then do
      raiseIf (order.status ≠ .rejected ∨ order.filledQty ≠ 0 ∨ fills ≠ [] ∨ order.tradeIds ≠ [])
        (.valueError "hedge projection archived rejection has conflicting native facts")
      -- Its complete zero-fill evidence stays in the required order set.
      pure c
    else countFills view c cid b order fills

def checkIntent (c : Count) (intent : HedgeIntent) : Except Raised Unit := do
  let total := c.totals intent.intentId
  raiseIf (total ≠ intent.hedgeFilledOunces ∨ intent.hedgeQuantityOunces < total)
    (.valueError "hedge projection seen prefix differs from aggregate fill")
  raiseIf (intent.hedgePlan ≠ [] ∧
      (c.currentTotals intent.intentId ≠ intent.hedgeLegFilledOunces ∨
        total ≠ intent.hedgeLegFilledOunces +
          planQuantity (intent.hedgePlan.take intent.hedgeLegIndex)))
    (.valueError "hedge projection seen prefix differs from current leg progress")
  raiseIf (intent.status = .completed ∧ total ≠ intent.hedgeQuantityOunces)
    (.valueError "hedge projection completed intent is not fully seen")

def checkSeen (view : ViewKey → StoreState) (c : Count) (v : ViewKey) : Except Raised Unit := do
  raiseIf (¬(view v).seenHedgeFills ⊆ c.keysByView v)
    (.valueError "hedge projection seen fill has no owned native order")
  (view v).hedgeIntents.values.forM (checkIntent c)

/-- Validate all bound hedge orders: the fills their views have not seen. -/
def missingFills (store : BusinessStore) (orders : List Order) (route : NativeRoute)
    (reason : String) : Except Raised (List (ViewKey × HedgeFill)) := do
  raiseIf (reason = "") (.valueError "hedge projection requires a non-empty HOLD reason")
  store.checkOwner (·.hedgeInstrumentId) route.instrumentId
    "hedge projection Maker instrument differs"
  let w ← store.viewKeys.foldlM (walkView store.view) {}
  raiseIf (¬Disjoint w.sources w.bindings.keys.toFinset ∨
      (byId orders).entries.length ≠ orders.length ∨
      (byId orders).keys.toFinset ≠ w.bindings.keys.toFinset)
    (.valueError "hedge projection requires the exact complete hedge order set")
  let c ← w.bindings.entries.foldlM (countOrder store route (byId orders) store.view) {}
  store.viewKeys.forM (checkSeen store.view c)
  pure c.missing

/-- Hold every view, apply the missing fills and publish once. -/
def publish (store : BusinessStore) (reason : String) (missing : List (ViewKey × HedgeFill))
    (pub : Publication) : Except Raised Unit × BusinessStore :=
  match store with
  | .standalone store =>
    let (result, store') := store.commit pub
      (store.memory.projectHedgeFills reason (missing.map Prod.snd))
    (result, .standalone store')
  | .owner o instruments =>
    let (result, o') := o.transact pub (o.projectHedgeFills reason missing)
    (result, .owner o' instruments)

/-- Validate all bound hedge orders, then publish only held current-fill suffixes. -/
def projectHedgeFills (store : BusinessStore) (orders : List Order) (route : NativeRoute)
    (reason : String) (pub : Publication) : Except Raised ℕ × BusinessStore :=
  match missingFills store orders route reason with
  | .error e => (.error e, store)
  | .ok missing =>
    if missing = [] then (.ok 0, store)
    else
      let (result, store') := publish store reason missing pub
      (result.map fun _ => missing.length, store')

end HedgeProjection

end ArbNautilus.Store
