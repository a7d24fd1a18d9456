import ArbNautilus.Store.Owner
import Mathlib.Data.Finset.Card
import Mathlib.Data.Finset.Union

namespace ArbNautilus.Store

open Base

namespace OwnerConfig

variable (cfg : OwnerConfig)

/-- The side a Maker view trades; a Taker view trades both. -/
def viewSide : ViewKey → Option BusinessOrderSide
  | .bid => some .buy
  | .ask => some .sell
  | .taker => none

/-- The identities met so far while the views are walked. -/
structure Identities where
  sourceIds : Finset String := ∅
  fillKeys : Finset String := ∅
  intentIds : Finset String := ∅
  hedgeIds : Finset String := ∅
  hedgeFillKeys : Finset String := ∅
  sourceTrades : Finset (Option String × String) := ∅
  hedgeTrades : Finset (Option String × String) := ∅

/-- The account and trade of a source fill key that names one of the state's orders. -/
def sourceTrade (s : StoreState) (fillKey : String) : Option (Option String × String) :=
  match splitText '|' fillKey with
  | [order, venueOrder, trade] =>
    if order = "" ∨ venueOrder = "" ∨ trade = "" then none
    else (s.sourceOrders.get? order).map fun record => (record.sourceAccountId, trade)
  | _ => none

def hedgeTrade (accounts : Dict String (Option String)) (fillKey : String) :
    Option (Option String × String) :=
  match splitText '|' fillKey with
  | [order, trade] =>
    if order = "" ∨ trade = "" then none
    else (accounts.get? order).map fun account => (account, trade)
  | _ => none

def checkRecord (side : Option BusinessOrderSide) (ids : Identities)
    (entry : String × SourceOrderRecord) : Except Raised Identities := do
  raiseIf (entry.1 ≠ entry.2.clientOrderId ∨ entry.1 = "" ∨ entry.1 ∈ ids.sourceIds)
    (.valueError "conflicting Maker source identity")
  raiseIf (∃ expected ∈ side, entry.2.side ≠ expected)
    (.valueError "Maker source direction differs from its view")
  pure { ids with sourceIds := insert entry.1 ids.sourceIds }

/-- The order identities an intent holds. -/
def heldOrders (intent : HedgeIntent) : Finset String :=
  intent.hedgeOrderIds.toFinset ∪ intent.hedgeClientOrderId.toList.toFinset

def checkIntent (s : StoreState) (side : Option BusinessOrderSide)
    (acc : Identities × Dict String (Option String)) (entry : String × HedgeIntent) :
    Except Raised (Identities × Dict String (Option String)) := do
  let (ids, accounts) := acc
  let (key, intent) := entry
  raiseIf (key ≠ intent.intentId ∨ key ∈ ids.intentIds)
    (.valueError "conflicting Maker intent identity")
  raiseIf (∃ expected ∈ side, intent.sourceSide ≠ expected)
    (.valueError "Maker intent direction differs from its view")
  match s.sourceOrders.get? intent.sourceClientOrderId with
  | none => .error (.valueError "Maker intent source fill identity is missing")
  | some record => do
    raiseIf (intent.fillKey ∉ s.seenSourceFills)
      (.valueError "Maker intent source fill identity is missing")
    raiseIf (intent.sourceSide ≠ record.side)
      (.valueError "intent direction differs from its source order")
    let parts := splitText '|' intent.fillKey
    raiseIf (parts[0]? ≠ some intent.sourceClientOrderId ∨ parts[2]? ≠ some intent.sourceTradeId)
      (.valueError "Maker intent source fill identity differs")
    raiseIf (¬Disjoint ids.hedgeIds (heldOrders intent))
      (.valueError "conflicting Maker hedge order identity")
    let named := intent.hedgeOrderIds ++ intent.hedgeClientOrderId.toList
    pure ({ ids with
        intentIds := insert key ids.intentIds
        hedgeIds := ids.hedgeIds ∪ heldOrders intent },
      named.foldl (fun accounts order => accounts.set order record.hedgeAccountId) accounts)

/-- The trades of a set of keys, which must be fresh and distinct. A set has no order, so
its walk is checked as a whole. -/
def checkTrades (trade : String → Option (Option String × String)) (keys : Finset String)
    (known : Finset (Option String × String)) (invalid conflicting : String) :
    Except Raised (Finset (Option String × String)) := do
  raiseIf (∃ key ∈ keys, trade key = none) (.valueError invalid)
  let trades := keys.image fun key => (trade key).getD (none, "")
  raiseIf (trades.card ≠ keys.card ∨ ¬Disjoint known trades) (.valueError conflicting)
  pure (known ∪ trades)

def checkView (b : Book) (ids : Identities) (v : ViewKey) : Except Raised Identities := do
  let s := b.views v
  raiseIf (∃ active ∈ s.activeSourceOrderId, s.sourceOrders.get? active = none)
    (.valueError "Maker active source identity is missing")
  raiseIf (s.netUnhedgedOunces ≠ 0)
    (.valueError "Maker view residual must be zero; allocations own the balance")
  let ids ← s.sourceOrders.entries.foldlM (checkRecord (viewSide v)) ids
  raiseIf (¬Disjoint ids.fillKeys s.seenSourceFills ∨ ¬Disjoint ids.hedgeFillKeys s.seenHedgeFills)
    (.valueError "conflicting Maker fill identity")
  let sourceTrades ← checkTrades (sourceTrade s) s.seenSourceFills ids.sourceTrades
    "Maker source fill identity is invalid" "conflicting Maker source fill identity"
  let ids := { ids with
    fillKeys := ids.fillKeys ∪ s.seenSourceFills
    hedgeFillKeys := ids.hedgeFillKeys ∪ s.seenHedgeFills
    sourceTrades }
  let (ids, accounts) ← s.hedgeIntents.entries.foldlM (checkIntent s (viewSide v)) (ids, .empty)
  let hedgeTrades ← checkTrades (hedgeTrade accounts) s.seenHedgeFills ids.hedgeTrades
    "Maker hedge fill identity is invalid" "conflicting Maker hedge fill identity"
  pure { ids with hedgeTrades }

/-- The progress of a walk over legacy orders and allocations. -/
structure Tally where
  allocated : Finset String
  totals : Dict String ℚ
  balances : Dict Route ℚ
  intents : Dict String HedgeIntent

def records (b : Book) : Dict String SourceOrderRecord :=
  Dict.ofList (cfg.viewKeys.flatMap fun v => (b.views v).sourceOrders.entries)

def intentsByFill (b : Book) : Dict String HedgeIntent :=
  Dict.ofList (cfg.viewKeys.flatMap fun v =>
    (b.views v).hedgeIntents.values.map fun intent => (intent.fillKey, intent))

def seenFills (b : Book) : Finset String :=
  cfg.viewKeys.toFinset.biUnion fun v => (b.views v).seenSourceFills

/-- One intent of a legacy order: its fills and quantity join the order's. -/
def checkLegacyIntent (byId : Dict String HedgeIntent) (item : LegacyOrder)
    (acc : Dict String HedgeIntent × ℚ × ℚ) (intentId : String) :
    Except Raised (Dict String HedgeIntent × ℚ × ℚ) :=
  let (intents, known, allocated) := acc
  match byId.get? intentId with
  | none => .error (.valueError "legacy checkpoint intent identity differs")
  | some intent => do
    raiseIf (intent.sourceClientOrderId ≠ item.clientOrderId ∨ intent.fillKey ∉ item.fillKeys ∨
        intent.sourceFillOunces ≤ 0 ∨ intents.get? intent.fillKey = none)
      (.valueError "legacy checkpoint intent identity differs")
    pure (intents.erase intent.fillKey, known + intent.sourceFillOunces,
      allocated + intent.hedgeSide.hedgeSign * intent.hedgeQuantityOunces)

def checkLegacyOrder (b : Book) (byId : Dict String HedgeIntent) (tally : Tally)
    (item : LegacyOrder) : Except Raised Tally := do
  let cid := item.clientOrderId
  match (cfg.records b).get? cid with
  | none => .error (.valueError "legacy checkpoint source binding or quantity differs")
  | some record => do
    raiseIf (tally.totals.get? cid ≠ none ∨
        (b.views item.direction.view).sourceOrders.get? cid = none ∨ item.route ≠ route record ∨
        item.filledOunces < 0)
      (.valueError "legacy checkpoint source binding or quantity differs")
    raiseIf (¬item.fillKeys.Nodup ∨ ¬Disjoint tally.allocated item.fillKeys.toFinset ∨
        (∃ key ∈ item.fillKeys, (splitText '|' key).head? ≠ some cid) ∨
        (item.fillKeys ≠ [] ↔ ¬0 < item.filledOunces) ∨ ¬item.intentIds.Nodup)
      (.valueError "legacy checkpoint fill identities differ")
    let (intents, known, allocated) ←
      item.intentIds.foldlM (checkLegacyIntent byId item) (tally.intents, 0, 0)
    let unknown : ℤ := item.fillKeys.length - item.intentIds.length
    raiseIf (allocated ≠ item.allocatedOunces ∨ item.filledOunces < known ∨
        (unknown = 0 ∧ known ≠ item.filledOunces) ∨ (0 < unknown ∧ item.filledOunces ≤ known))
      (.valueError "legacy checkpoint cumulative or fixed allocation differs")
    pure { tally with
      allocated := tally.allocated ∪ item.fillKeys.toFinset
      totals := tally.totals.set cid item.filledOunces
      intents }

def checkAllocation (b : Book) (tally : Tally) (item : Allocation) : Except Raised Tally := do
  raiseIf (item.fillKey ∉ cfg.seenFills b ∨ item.fillKey ∈ tally.allocated)
    (.valueError "Maker allocation fill identity is missing or duplicated")
  let cid := (splitText '|' item.fillKey).headD ""
  match (cfg.records b).get? cid with
  | none => .error (.keyError cid)
  | some record => do
    raiseIf (item.signedFillOunces = 0 ∨ ¬(0 < item.signedFillOunces ↔ record.side = .buy) ∨
        item.route ≠ route record)
      (.valueError "Maker allocation direction, quantity or route differs")
    let combined := (tally.balances.get? item.route).getD 0 + item.signedFillOunces
    raiseIf (item.allocatedOunces ≠ roundHedgeOunces combined)
      (.valueError "Maker allocation does not match ordered route residual")
    let next : Tally := {
      allocated := insert item.fillKey tally.allocated
      balances := tally.balances.set item.route (combined - item.allocatedOunces)
      totals := tally.totals.set cid ((tally.totals.get? cid).getD 0 + |item.signedFillOunces|)
      intents := tally.intents.erase item.fillKey }
    match tally.intents.get? item.fillKey with
    | none =>
      if item.allocatedOunces = 0 then pure next
      else .error (.valueError "Maker allocated quantity does not match its hedge intent")
    | some intent => do
      raiseIf (item.allocatedOunces = 0)
        (.valueError "unallocated Maker fill cannot own a hedge intent")
      raiseIf (intent.hedgeQuantityOunces ≠ |item.allocatedOunces| ∨
          intent.sourceFillOunces ≠ |item.signedFillOunces| ∨
          ¬(intent.hedgeSide = .sell ↔ 0 < item.allocatedOunces))
        (.valueError "Maker allocated quantity does not match its hedge intent")
      pure next

def openingTally (b : Book) : Tally where
  allocated := ∅
  totals := .empty
  balances := Dict.ofList (cfg.checkpointBalances.image Prod.fst)
  intents := cfg.intentsByFill b

def validateAllocations (b : Book) : Except Raised Unit := do
  raiseIf ((cfg.intentsByFill b).entries.length ≠
      (cfg.viewKeys.map fun v => (b.views v).hedgeIntents.entries.length).sum)
    (.valueError "multiple Maker intents claim the same allocation")
  let byId := Dict.ofList ((cfg.intentsByFill b).values.map fun intent =>
    (intent.intentId, intent))
  let checkpoint ← cfg.legacyOrders.foldlM (cfg.checkLegacyOrder b byId) (cfg.openingTally b)
  let tally ← b.allocations.foldlM (cfg.checkAllocation b) checkpoint
  raiseIf (tally.allocated ≠ cfg.seenFills b ∨ tally.intents.entries ≠ [] ∨
      ∃ entry ∈ (cfg.records b).entries,
        (tally.totals.get? entry.1).getD 0 ≠ entry.2.filledOunces)
    (.valueError "Maker allocation history differs from source/intent facts")

/-- Everything a published book must satisfy. -/
def validate (b : Book) : Except Raised Unit := do
  raiseIf (cfg.sharedStrategyIds.isSome ∧ (cfg.legacySources ≠ none ∨ cfg.legacyOrders ≠ []))
    (.valueError "shared state cannot claim legacy allocation order")
  raiseIf (b.cycleFreezeOnly ∧ ∃ v ∈ cfg.viewKeys, missing (b.views v).sourceFreezeReason ∨
      (b.views v).sourceFreezeReason ≠ (b.views .bid).sourceFreezeReason)
    (.valueError "Maker cycle freeze provenance requires both matching freezes")
  let ids ← cfg.viewKeys.foldlM (checkView b) {}
  raiseIf (¬Disjoint ids.sourceIds ids.hedgeIds)
    (.valueError "conflicting Maker source/hedge order identity")
  cfg.validateAllocations b

end OwnerConfig

end ArbNautilus.Store
