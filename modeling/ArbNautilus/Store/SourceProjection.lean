import ArbNautilus.Store.HedgeProjection

/-! What is missing of a source order's fills, read off the native orders and appended. -/

namespace ArbNautilus.Store.SourceProjection

open Base Native

def key (fill : OrderFilled) : String :=
  fill.clientOrderId ++ "|" ++ fill.venueOrderId ++ "|" ++ fill.tradeId

def checkedFills (route : NativeRoute) (order : Order) (record : SourceOrderRecord) :
    Except Raised (List OrderFilled) :=
  let side := record.side.native
  let fills := order.fills
  let differs :=
    Raised.valueError ("source projection order facts differ: " ++ record.clientOrderId)
  match order.events with
  | .initialized initial :: _ => do
    raiseIf (order.traderId ≠ route.traderId ∨ order.strategyId ≠ route.strategyId ∨
        order.instrumentId ≠ route.instrumentId ∨ order.clientOrderId ≠ record.clientOrderId ∨
        order.side ≠ side ∨ '|' ∈ record.clientOrderId.toList ∨ order.isQuoteQuantity ∨
        record.quantityOunces ≤ 0 ∨ record.filledOunces < 0 ∨
        record.quantityOunces < record.filledOunces ∨ order.quantity ≠ record.quantityOunces ∨
        initial.quantity ≠ record.quantityOunces ∨
        (record.sourceAccountId ≠ none ∧ order.accountId ≠ none ∧
          order.accountId ≠ record.sourceAccountId))
      differs
    raiseIf (∃ event ∈ order.events, event.owner ≠ ⟨route.traderId, route.strategyId,
        route.instrumentId, order.clientOrderId⟩)
      (.valueError "source projection event ownership differs")
    raiseIf (∃ fill ∈ fills, some fill.accountId ≠ order.accountId ∨
        some fill.venueOrderId ≠ order.venueOrderId ∨ '|' ∈ fill.venueOrderId.toList ∨
        '|' ∈ fill.tradeId.toList ∨ fill.orderSide ≠ side ∨ fill.orderType ≠ order.orderType ∨
        fill.lastQty ≤ 0)
      (.valueError "source projection fill identity or quantity differs")
    raiseIf (totalQty fills ≠ order.filledQty ∨ record.quantityOunces < totalQty fills ∨
        order.tradeIds ≠ fills.map (·.tradeId))
      (.valueError "source projection native fill history is incomplete")
    pure fills
  | _ => .error differs

/-- The fills of an order that its view has seen. -/
def seenOf (s : StoreState) (cid : String) : Finset String :=
  s.seenSourceFills.filter fun key => (splitText '|' key).head? = some cid

/-- What the walk over the source orders has met. -/
structure Facts where
  nativeFills : Dict String OrderFilled := .empty
  trades : Finset (String × String) := ∅
  suffixes : List (String × List OrderFilled) := []
  prefixes : List (String × List String) := []

def claimFill (claims : Dict String OrderFilled × Finset (String × String)) (fill : OrderFilled) :
    Except Raised (Dict String OrderFilled × Finset (String × String)) := do
  raiseIf (claims.1.get? (key fill) ≠ none ∨ (fill.accountId, fill.tradeId) ∈ claims.2)
    (.valueError "source projection native TradeId is duplicated")
  pure (claims.1.set (key fill) fill, insert (fill.accountId, fill.tradeId) claims.2)

/-- The part of an order's fills that its view has seen, by number. -/
def comparePrefix (s : StoreState) (cid : String) (record : SourceOrderRecord)
    (fills : List OrderFilled) (facts : Facts) : Except Raised Facts := do
  let claims ← fills.foldlM claimFill (facts.nativeFills, facts.trades)
  let seen := seenOf s cid
  let count := seen.card
  raiseIf (seen ≠ ((fills.map key).take count).toFinset)
    (.valueError "source projection seen fills are not a complete contiguous prefix")
  raiseIf (totalQty (fills.take count) ≠ record.filledOunces)
    (.valueError "source projection seen prefix quantity differs")
  pure {
    nativeFills := claims.1
    trades := claims.2
    suffixes :=
      if fills.drop count = [] then facts.suffixes
      else facts.suffixes ++ [(cid, fills.drop count)]
    prefixes := facts.prefixes ++ [(cid, (fills.map key).take count)] }

def compareOrder (store : BusinessStore) (route : NativeRoute) (orders : Dict String Order)
    (facts : Facts) (entry : String × (ViewKey × SourceOrderRecord)) : Except Raised Facts :=
  let (cid, v, record) := entry
  match orders.get? cid with
  | none => .error (.keyError cid)
  | some order => do
    let fills ← checkedFills
      { route with strategyId := store.strategyId route.strategyId v } order record
    comparePrefix (store.view v) cid record fills facts

/-- An intent that was recorded for a fill the native orders do not show. -/
def Unrecorded (s : StoreState) (fills : Dict String OrderFilled) (intent : HedgeIntent) : Bool :=
  match fills.get? intent.fillKey, s.sourceOrders.get? intent.sourceClientOrderId with
  | some fill, some record => intent.fillKey ∉ s.seenSourceFills ∨
      intent.sourceClientOrderId ≠ fill.clientOrderId ∨ intent.sourceTradeId ≠ fill.tradeId ∨
      intent.sourceSide ≠ record.side ∨ intent.sourceFillOunces ≠ fill.lastQty
  | _, _ => true

def checkRecordedIntent (s : StoreState) (fills : Dict String OrderFilled)
    (claimed : Finset String) (entry : String × HedgeIntent) : Except Raised (Finset String) := do
  raiseIf (entry.1 ≠ entry.2.intentId ∨ entry.2.fillKey ∈ claimed)
    (.valueError "source projection recorded intent identity is not unique")
  raiseIf (Unrecorded s fills entry.2)
    (.valueError "source projection recorded intent differs from fill")
  pure (insert entry.2.fillKey claimed)

def checkRecordedFacts (view : ViewKey → StoreState) (fills : Dict String OrderFilled)
    (claimed : Finset String) (v : ViewKey) : Except Raised (Finset String) :=
  (view v).hedgeIntents.entries.foldlM (checkRecordedIntent (view v) fills) claimed

def signedFilled (records : List SourceOrderRecord) : ℚ :=
  (records.map fun record => record.filledOunces * record.side.sign).sum

def signedHedges (intents : List HedgeIntent) : ℚ :=
  (intents.map fun intent => -intent.hedgeSide.sign * intent.hedgeQuantityOunces).sum

def headIs (cid : String) (fillKey : String) : Bool := (splitText '|' fillKey).head? = some cid

def checkAllocation (fills : Dict String OrderFilled) (item : Allocation) : Except Raised Unit :=
  match fills.get? item.fillKey with
  | none => .error (.keyError item.fillKey)
  | some fill =>
    let sign : ℚ := if fill.orderSide = .buy then 1 else -1
    raiseIf (item.signedFillOunces ≠ sign * fill.lastQty)
      (.valueError "source projection recorded Maker allocation quantity differs")

/-- The keys of the fills that a migration took over. -/
def checkpointKeys (cfg : OwnerConfig) : List String := cfg.legacyOrders.flatMap (·.fillKeys)

def checkPrefix (o : MakerStateStore) (item : String × List String) : Except Raised Unit :=
  raiseIf ((o.book.allocations.map (·.fillKey)).filter (headIs item.1) ≠
      item.2.filter fun key => key ∉ checkpointKeys o.cfg)
    (.valueError "source projection Maker allocation order differs")

/-- The balance that was recorded, against the native fills. -/
def checkBalance (store : BusinessStore) (facts : Facts) : Except Raised Unit :=
  match store with
  | .owner o _ => do
    facts.prefixes.forM (checkPrefix o)
    o.book.allocations.forM (checkAllocation facts.nativeFills)
  | .standalone store =>
    raiseIf (store.memory.roundingResidual ≠ signedFilled store.memory.sourceOrders.values -
        signedHedges store.memory.hedgeIntents.values)
      (.valueError "source projection recorded Taker residual is inconsistent")

/-- `_validate_source_projection_tail`. -/
def checkMakerTail (o : MakerStateStore) (cid : String) (seen : List String) :
    Except Raised Unit := do
  raiseIf (∃ item ∈ o.cfg.legacyOrders, item.clientOrderId = cid)
    (.valueError "source projection cannot append to a legacy Maker checkpoint order")
  match seen.getLast? with
  | none =>
    raiseIf (o.book.allocations ≠ [])
      (.valueError "source projection Maker suffix has no allocation anchor")
  | some last =>
    let later := (o.book.allocations.map (·.fillKey)).dropWhile (· ≠ last)
    raiseIf (later = [] ∨ ∃ fillKey ∈ later.tail, headIs cid fillKey = false)
      (.valueError "source projection Maker suffix crosses another source allocation")

/-- A historical Taker order that is still open, or whose native order ended another way. -/
def Unresolved (orders : Dict String Order) (record : SourceOrderRecord) : Bool :=
  (orders.get? record.clientOrderId).map (·.status.name) ≠ some record.status ∨
    ¬(record.status = "FILLED" ∧ record.filledOunces = record.quantityOunces ∨
      record.status ∈ ["DENIED", "REJECTED"] ∧ record.filledOunces = 0)

def checkTakerTail (s : StoreState) (candidate : String) (orders : Dict String Order) :
    Except Raised Unit :=
  let records := s.sourceOrders.values
  if records.length = 1 then pure ()
  else do
    raiseIf (s.activeSourceOrderId ≠ some candidate)
      (.valueError "source projection cannot order historical Taker late fills")
    let historical := records.filter (·.clientOrderId ≠ candidate)
    let oldIntents := s.hedgeIntents.values.filter (·.sourceClientOrderId ≠ candidate)
    raiseIf ((∃ record ∈ historical, Unresolved orders record) ∨
        ∃ intent ∈ oldIntents, intent.status ≠ .completed ∨
          intent.hedgeFilledOunces ≠ intent.hedgeQuantityOunces)
      (.valueError "source projection historical Taker orders or hedges are unresolved")
    raiseIf (signedFilled historical - signedHedges oldIntents ≠ 0)
      (.valueError "source projection historical Taker residual is not zero")

def checkTail (store : BusinessStore) (orders : Dict String Order) (cid : String)
    (seen : List String) : Except Raised Unit :=
  match store with
  | .owner o _ => checkMakerTail o cid seen
  | .standalone store => checkTakerTail store.memory cid orders

def checkIdentities (view : ViewKey → StoreState) (v : ViewKey) : Except Raised Unit :=
  raiseIf ((∃ entry ∈ (view v).sourceOrders.entries, entry.1 = "" ∨
    entry.1 ≠ entry.2.clientOrderId) ∨
      ∃ active ∈ (view v).activeSourceOrderId, (view v).sourceOrders.get? active = none)
    (.valueError "source projection source dictionary or active identity differs")

/-- Every source order with its view, under its identity. -/
def recordEntries (store : BusinessStore) : List (String × (ViewKey × SourceOrderRecord)) :=
  store.viewKeys.flatMap fun v =>
    (store.view v).sourceOrders.values.map fun record => (record.clientOrderId, (v, record))

def records (store : BusinessStore) : Dict String (ViewKey × SourceOrderRecord) :=
  Dict.ofList (recordEntries store)

/-- The fill as the store records it. -/
def business (side : BusinessOrderSide) (fill : OrderFilled) : SourceFill :=
  ⟨key fill, fill.clientOrderId, fill.tradeId, side, fill.lastQty⟩

/-- Compare every source order with its native one. -/
def gather (store : BusinessStore) (orders : List Order) (route : NativeRoute) :
    Except Raised Facts := do
  store.checkOwner (·.sourceInstrumentId) route.instrumentId
    "source projection Maker instrument differs"
  store.viewKeys.forM (checkIdentities store.view)
  raiseIf ((records store).entries.length ≠ (recordEntries store).length ∨
      (byId orders).entries.length ≠ orders.length ∨
      (records store).keys.toFinset ≠ (byId orders).keys.toFinset)
    (.valueError "source projection requires the exact complete source order set")
  let facts ← (records store).entries.foldlM (compareOrder store route (byId orders)) {}
  raiseIf (∃ v ∈ store.viewKeys, ¬(store.view v).seenSourceFills ⊆ facts.nativeFills.keys.toFinset)
    (.valueError "source projection seen fill has no native order")
  let _ ← store.viewKeys.foldlM (checkRecordedFacts store.view facts.nativeFills) ∅
  checkBalance store facts
  pure facts

/-- The one suffix that no view has seen, and the view of its order. -/
def dueSuffix (store : BusinessStore) (orders : List Order) (route : NativeRoute)
    (reason : String) : Except Raised (Option (ViewKey × List SourceFill)) := do
  raiseIf (reason = "") (.valueError "source projection requires a non-empty HOLD reason")
  let facts ← gather store orders route
  match facts.suffixes with
  | [] => pure none
  | [(cid, suffix)] =>
    checkTail store (byId orders) cid ((facts.prefixes.lookup cid).getD [])
    match (records store).get? cid with
    | none => .error (.keyError cid)
    | some (v, record) => pure (some (v, suffix.map (business record.side)))
  | _ => .error (.valueError "source projection cannot order multiple source suffixes")

/-- Hold every view, append the suffix and publish once. -/
def publish (digest : String → String) (store : BusinessStore) (reason : String) (v : ViewKey)
    (suffix : List SourceFill) (pub : Publication) : Except Raised Unit × BusinessStore :=
  match store with
  | .standalone store =>
    let (result, store') := store.commit pub (store.memory.projectSourceFills digest reason suffix)
    (result, .standalone store')
  | .owner o instruments =>
    let (result, o') := o.transact pub (o.projectSourceFills digest v reason suffix)
    (result, .owner o' instruments)

/-- Validate all known source orders, then atomically append at most one suffix. -/
def projectSourceFills (digest : String → String) (store : BusinessStore) (orders : List Order)
    (route : NativeRoute) (reason : String) (pub : Publication) : Except Raised ℕ × BusinessStore :=
  match dueSuffix store orders route reason with
  | .error e => (.error e, store)
  | .ok none => (.ok 0, store)
  | .ok (some (v, suffix)) =>
    let (result, store') := publish digest store reason v suffix pub
    (result.map fun _ => suffix.length, store')

end ArbNautilus.Store.SourceProjection
