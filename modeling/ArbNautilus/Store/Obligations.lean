import ArbNautilus.Store.Json

namespace ArbNautilus.Store

open Base

structure HedgeFill where
  clientOrderId : String
  tradeId : String
  fillOunces : ℚ
deriving DecidableEq

def HedgeFill.fillKey (fill : HedgeFill) : String := fill.clientOrderId ++ "|" ++ fill.tradeId

namespace StoreState

def fillStatus (quantity filled : ℚ) : String :=
  if quantity ≤ filled then "FILLED" else "PARTIALLY_FILLED"

/-- `_reserve_source_fill` up to its allocation. -/
def recordSourceFill (s : StoreState) (record : SourceOrderRecord) (fill : SourceFill)
    (blockedReason : Option String) : Except Raised StoreState := do
  raiseIf (record.side ≠ fill.sourceSide)
    (.valueError "source fill side does not match submitted order")
  raiseIf (fill.fillOunces ≤ 0) (.valueError "fill quantity must be positive")
  let filled := record.filledOunces + fill.fillOunces
  let status := fillStatus record.quantityOunces filled
  let recorded := { s with
    seenSourceFills := insert fill.fillKey s.seenSourceFills
    sourceOrders := s.sourceOrders.set fill.clientOrderId
      { record with filledOunces := filled, status } }
  if blockedReason = none ∧ status = "FILLED" ∧
      s.activeSourceOrderId = some fill.clientOrderId then
    pure (recorded.releaseSource fill.clientOrderId)
  else pure recorded

/-- The intent a rounded allocation opens; `digest` abbreviates the SHA-256 of the key. -/
def openedIntent (digest : String → String) (record : SourceOrderRecord) (fill : SourceFill)
    (blockedReason : Option String) (rounded : ℤ) : IntentFields where
  intentId := "hedge-" ++ digest fill.fillKey
  fillKey := fill.fillKey
  sourceClientOrderId := fill.clientOrderId
  sourceTradeId := fill.tradeId
  sourceSide := fill.sourceSide
  sourceFillOunces := fill.fillOunces
  hedgeSide := if 0 < rounded then .sell else .buy
  hedgeQuantityOunces := |rounded|
  hedgePositionId := record.hedgePositionId
  hedgePositionQuantityOunces := record.hedgePositionQuantityOunces
  status := if blockedReason.isSome then .blocked else .pending

def openHedgeIntent (digest : String → String) (s : StoreState) (record : SourceOrderRecord)
    (fill : SourceFill) (blockedReason : Option String) (rounded : ℤ) :
    Except Raised (StoreState × Option HedgeIntent) :=
  if rounded = 0 then .ok (s, none)
  else do
    let intent ← (openedIntent digest record fill blockedReason rounded).make
    pure ({ s with hedgeIntents := s.hedgeIntents.set intent.intentId intent }, some intent)

def allocateSourceFill (s : StoreState) (signedFill : ℚ) : StoreState × ℤ :=
  let combined := s.netUnhedgedOunces + signedFill
  let rounded := roundHedgeOunces combined
  ({ s with netUnhedgedOunces := combined - rounded }, rounded)

/-- Record one actual fill and, when integer ounces accrue, one intent. -/
def applySourceFill (digest : String → String) (s : StoreState) (fill : SourceFill)
    (blockedReason : Option String) : Except Raised (StoreState × Option HedgeIntent) :=
  if fill.fillKey ∈ s.seenSourceFills then .ok (s, none)
  else match s.sourceOrders.get? fill.clientOrderId with
    | none => .ok (s, none)
    | some record => do
      let recorded ← s.recordSourceFill record fill blockedReason
      let (allocated, rounded) := recorded.allocateSourceFill fill.signedFill
      allocated.openHedgeIntent digest record fill blockedReason rounded

def reserveSourceFill (digest : String → String) (s : StoreState) (fill : SourceFill) :
    Change StoreState (Option HedgeIntent) :=
  if fill.fillKey ∈ s.seenSourceFills ∨ ¬s.knowsSourceOrder fill.clientOrderId then .keeps none
  else match s.applySourceFill digest fill none with
    | .error e => .raises e
    | .ok (t, intent) => .reserves t intent

def bindHedgeOrder (s : StoreState) (intentId clientOrderId : String) :
    Change StoreState Unit :=
  match s.hedgeIntents.get? intentId with
  | none => .raises (.keyError intentId)
  | some intent =>
    if intent.status ≠ .pending ∨ intent.hedgeClientOrderId ≠ none ∨ clientOrderId = "" ∨
        ∃ existing ∈ s.hedgeIntents.values,
          existing.hedgeClientOrderId = some clientOrderId ∨
            clientOrderId ∈ existing.hedgeOrderIds then
      .raises (.valueError "hedge order binding requires a pending unique leg")
    else
      match { intent.toIntentFields with
        hedgeClientOrderId := some clientOrderId
        hedgeOrderIds := intent.hedgeOrderIds ++ [clientOrderId]
        status := .submitting : IntentFields }.make with
      | .error e => .raises e
      | .ok bound => .publishes (s.setIntent intentId bound) ()

def checkBinding (intent : HedgeIntent) (plan : List HedgeLeg) : Except Raised Unit := do
  raiseIf (intent.status ≠ .pending ∨ intent.hedgeClientOrderId ≠ none ∨
      intent.hedgeFilledOunces ≠ 0)
    (.valueError "hedge plan must be bound before the first hedge order")
  raiseIf (plan = []) (.valueError "hedge plan must contain at least one leg")
  raiseIf (∃ leg ∈ plan, leg.side ≠ intent.hedgeSide)
    (.valueError "hedge plan side does not match the durable intent")
  raiseIf (planQuantity plan ≠ intent.hedgeQuantityOunces - intent.hedgeFilledOunces)
    (.valueError "hedge plan quantity does not match the durable intent")

/-- Durably bind one deterministic multi-ticket plan before its first order. -/
def bindHedgePlan (s : StoreState) (intentId : String) (plan : List HedgeLeg) :
    Change StoreState HedgeIntent :=
  match s.hedgeIntents.get? intentId with
  | none => .raises (.keyError intentId)
  | some intent =>
    if intent.hedgePlan ≠ [] then
      if intent.hedgePlan ≠ plan then
        .raises (.valueError "hedge intent already has a different ticket plan")
      else .keeps intent
    else match checkBinding intent plan with
      | .error e => .raises e
      | .ok () =>
        match { intent.toIntentFields with
          hedgePlan := plan
          hedgeLegIndex := 0
          hedgeLegFilledOunces := 0 : IntentFields }.make with
        | .error e => .raises e
        | .ok planned => .publishes (s.setIntent intentId planned) planned

/-- Persist a known planning block without inventing a venue outcome. -/
def blockHedgeIntent (s : StoreState) (intentId reason : String) : Change StoreState Unit :=
  match s.hedgeIntents.get? intentId with
  | none => .raises (.keyError intentId)
  | some intent =>
    if intent.status = .completed then
      .raises (.valueError "completed hedge intent cannot be blocked")
    else if reason = "" then .raises (.valueError "hedge block reason must not be empty")
    else match { intent.toIntentFields with status := .blocked : IntentFields }.make with
      | .error e => .raises e
      | .ok blocked => .publishes { s.setIntent intentId blocked with
          haltReason := some ("hedge " ++ intentId ++ " blocked: " ++ reason) } ()

def intentForHedgeOrder (s : StoreState) (clientOrderId : String) : Option HedgeIntent :=
  s.hedgeIntents.first fun intent =>
    intent.hedgeClientOrderId = some clientOrderId ∨ isRejectedAttempt intent clientOrderId

def conflictReason (clientOrderId fact : String) : String :=
  "archived rejected hedge " ++ clientOrderId ++ " has conflicting " ++ fact

/-- Keep contradictory old evidence out of the current leg's quantity. -/
def holdRejectedAttempt (s : StoreState) (intent : HedgeIntent) (clientOrderId fact : String) :
    Except Raised (StoreState × Bool) := do
  let blocked ← { intent.toIntentFields with status := .blocked : IntentFields }.make
  let reason := conflictReason clientOrderId fact
  pure ({ s.setIntent intent.intentId blocked with haltReason := some reason },
    decide (blocked ≠ intent ∨ s.haltReason ≠ some reason))

def updateHedgeStatus (s : StoreState) (clientOrderId : String) (status : ObligationStatus)
    (nativeStatus : Option String) : Change StoreState Unit :=
  match s.intentForHedgeOrder clientOrderId with
  | none => .keeps ()
  | some intent =>
    if isRejectedAttempt intent clientOrderId then
      if status ≠ .rejected ∨ (nativeStatus ≠ none ∧ nativeStatus ≠ some "REJECTED") then
        match s.holdRejectedAttempt intent clientOrderId "terminal status" with
        | .error e => .raises e
        | .ok (t, changed) => if changed then .publishes t () else .keeps ()
      else .keeps ()
    else if intent.status.Unresolved then .keeps ()
    else match { intent.toIntentFields with status : IntentFields }.make with
      | .error e => .raises e
      | .ok updated => .publishes { s.setIntent intent.intentId updated with
          haltReason :=
            if status = .rejected ∨ status = .unknown then
              some ("hedge " ++ clientOrderId ++ " has unresolved status " ++ status.value)
            else s.haltReason } ()

/-- A fill that cannot advance its leg is kept as quantity and holds the intent. -/
def holdFill (intent : HedgeIntent) (fill : HedgeFill) (legFilled : ℚ) : IntentFields :=
  { intent.toIntentFields with
    hedgeFilledOunces := intent.hedgeFilledOunces + fill.fillOunces
    hedgeLegFilledOunces := legFilled
    status := .blocked }

/-- Every planned leg is submitted MARKET/FOK: the exact fill is its terminal event. -/
def finishLeg (intent : HedgeIntent) (fill : HedgeFill) : IntentFields :=
  { intent.toIntentFields with
    hedgeFilledOunces := intent.hedgeFilledOunces + fill.fillOunces
    status := if intent.hedgeLegIndex + 1 = intent.hedgePlan.length then .completed else .pending
    hedgeClientOrderId := none
    hedgeLegIndex := intent.hedgeLegIndex + 1
    hedgeLegFilledOunces := 0 }

def addFill (intent : HedgeIntent) (fill : HedgeFill) : IntentFields :=
  { intent.toIntentFields with
    hedgeFilledOunces := intent.hedgeFilledOunces + fill.fillOunces
    status := if intent.hedgeQuantityOunces ≤ intent.hedgeFilledOunces + fill.fillOunces then
        .completed
      else .accepted }

/-- `_apply_hedge_fill` behind its lookup: what the intent becomes and the halt it leaves. -/
def advanceFields (intent : HedgeIntent) (fill : HedgeFill) (halt blockedReason : Option String) :
    IntentFields × Option String :=
  if blockedReason.isSome ∨ intent.status.Unresolved then
    (holdFill intent fill
      (if intent.hedgePlan ≠ [] ∧ intent.hedgeLegIndex < intent.hedgePlan.length then
        intent.hedgeLegFilledOunces + fill.fillOunces
      else intent.hedgeLegFilledOunces),
    match blockedReason with
    | none => some ("hedge " ++ fill.clientOrderId ++ " filled after unresolved status " ++
        intent.status.value)
    | some reason => some (halt.getD reason))
  else if intent.hedgePlan = [] then (addFill intent fill, halt)
  else match intent.hedgePlan[intent.hedgeLegIndex]? with
    | none => (holdFill intent fill intent.hedgeLegFilledOunces,
        some ("hedge " ++ fill.clientOrderId ++ " filled after its ticket plan completed"))
    | some leg =>
      if fill.fillOunces ≠ leg.quantityOunces - intent.hedgeLegFilledOunces then
        (holdFill intent fill (intent.hedgeLegFilledOunces + fill.fillOunces),
          some ("hedge " ++ fill.clientOrderId ++ " fill quantity " ++
            decimalText fill.fillOunces ++ " does not match planned leg remainder " ++
            decimalText (leg.quantityOunces - intent.hedgeLegFilledOunces)))
      else (finishLeg intent fill, halt)

/-- Apply a fill without I/O; a held projection never advances the current leg. -/
def applyFill (s : StoreState) (fill : HedgeFill) (blockedReason : Option String) :
    Except Raised (StoreState × Bool) :=
  if fill.fillKey ∈ s.seenHedgeFills then .ok (s, false)
  else match s.intentForHedgeOrder fill.clientOrderId with
    | none => .ok (s, false)
    | some intent =>
      if isRejectedAttempt intent fill.clientOrderId then
        s.holdRejectedAttempt intent fill.clientOrderId "late fill"
      else do
        raiseIf (fill.fillOunces ≤ 0) (.valueError "hedge fill quantity must be positive")
        let (fields, halt) := advanceFields intent fill s.haltReason blockedReason
        let advanced ← fields.make
        pure ({ s.setIntent intent.intentId advanced with
          seenHedgeFills := insert fill.fillKey s.seenHedgeFills
          haltReason := halt }, true)

def applyHedgeFill (s : StoreState) (fill : HedgeFill) : Change StoreState Bool :=
  if fill.fillKey ∈ s.seenHedgeFills ∨ s.intentForHedgeOrder fill.clientOrderId = none then
    .keeps false
  else match s.applyFill fill none with
    | .error e => .raises e
    | .ok (t, changed) => if changed then .reserves t true else .keeps false

end StoreState

end ArbNautilus.Store
