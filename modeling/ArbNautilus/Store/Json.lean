import ArbNautilus.Base.Dict
import ArbNautilus.Base.Rounding
import ArbNautilus.Store.Models

namespace ArbNautilus.Store

open Base

structure SourceOrderRecord where
  clientOrderId : String
  side : BusinessOrderSide
  quantityOunces : ℚ
  sourceAccountId : Option String := none
  sourceClientId : Option String := none
  hedgeAccountId : Option String := none
  hedgeClientId : Option String := none
  hedgePositionId : Option String := none
  hedgePositionQuantityOunces : Option ℚ := none
  filledOunces : ℚ := 0
  status : String := "SUBMITTING"
deriving DecidableEq

structure StoreState where
  sourceOrders : Dict String SourceOrderRecord
  activeSourceOrderId : Option String
  seenSourceFills : Finset String
  seenHedgeFills : Finset String
  hedgeIntents : Dict String HedgeIntent
  netUnhedgedOunces : ℚ
  haltReason : Option String
  sourceFreezeReason : Option String
deriving DecidableEq

def StoreState.emptyState : StoreState := ⟨.empty, none, ∅, ∅, .empty, 0, none, none⟩

/-- Whether the atomic replacement of the state file took place. -/
inductive Publication where
  | published
  | failed
  | parentSyncFailed
deriving DecidableEq, Repr

/-- What a call leaves to its publication. A published change stays in memory
even when the write fails; a reserved one is then taken back. -/
inductive Change (σ : Type) (α : Type) where
  | raises (error : Raised)
  | keeps (value : α)
  | publishes (state : σ) (value : α)
  | reserves (state : σ) (value : α)

/-- BUY adds to the source position. -/
def BusinessOrderSide.sign : BusinessOrderSide → ℚ
  | .buy => 1
  | .sell => -1

/-- A SELL hedge still owed leaves the source fill it answers unhedged. -/
def BusinessOrderSide.hedgeSign : BusinessOrderSide → ℚ
  | .buy => -1
  | .sell => 1

/-- `round(float(value))`, exact on the amounts the venues report. -/
def roundHedgeOunces (value : ℚ) : ℤ := nearestEven value

def sourceReconcileReason (clientOrderId : String) : String :=
  "source " ++ clientOrderId ++ " terminal event requires fill reconciliation"

def isRejectedAttempt (intent : HedgeIntent) (clientOrderId : String) : Prop :=
  ∃ attempt ∈ intent.rejectedAttempt, attempt.clientOrderId = clientOrderId

instance (intent : HedgeIntent) (clientOrderId : String) :
    Decidable (isRejectedAttempt intent clientOrderId) :=
  inferInstanceAs (Decidable (∃ attempt ∈ intent.rejectedAttempt, _))

/-- `str` of a `Decimal` written without trailing zeros. -/
def decimalText (value : ℚ) : String :=
  let places := ((List.range 29).find? fun k => (10 ^ k % value.den) = 0).getD 28
  let digits := Nat.repr (value.num.natAbs * 10 ^ places / value.den)
  let lead : ℤ := digits.length - places
  let sign := if value < 0 then "-" else ""
  sign ++
    if places = 0 then digits
    else if 0 < lead then
      String.ofList (digits.toList.take lead.toNat) ++ "." ++
        String.ofList (digits.toList.drop lead.toNat)
    else if -6 < lead then "0." ++ String.ofList (List.replicate (-lead).toNat '0') ++ digits
    else
      String.ofList (digits.toList.take 1) ++
        (if digits.length = 1 then "" else "." ++ String.ofList (digits.toList.drop 1)) ++
        "E-" ++ Nat.repr (1 - lead).toNat

namespace StoreState

/-- The quantity an intent still owes, signed as the source fill it answers. -/
def outstanding (intent : HedgeIntent) : ℚ :=
  intent.hedgeSide.hedgeSign * (intent.hedgeQuantityOunces - intent.hedgeFilledOunces)

/-- The `net_unhedged_ounces` property; a view reads its residual from the owner. -/
def netUnhedged (s : StoreState) (roundingResidual : ℚ) : ℚ :=
  roundingResidual + s.hedgeIntents.total outstanding

def roundingResidual (s : StoreState) : ℚ := s.netUnhedgedOunces

def sourceBalanceIsAdmissible (s : StoreState) : Bool :=
  s.roundingResidual = 0 ∧ s.netUnhedged s.roundingResidual = 0

def allCompleted (s : StoreState) : Bool :=
  s.hedgeIntents.values.all (·.status = .completed)

def canSubmitSource (s : StoreState) (admissible : Bool) : Bool :=
  s.haltReason = none ∧ s.sourceFreezeReason = none ∧ s.activeSourceOrderId = none ∧
    admissible ∧ s.allCompleted

def freezeSourceSubmissions (s : StoreState) (reason : String) : Change StoreState Unit :=
  if reason = "" then .raises (.valueError "freeze reason must not be empty")
  else if s.sourceFreezeReason.isSome then .keeps ()
  else .publishes { s with sourceFreezeReason := some reason } ()

def terminalStatuses : List String := ["FILLED", "DENIED", "REJECTED", "CANCELED", "EXPIRED"]

def cycleEvidenceComplete (s : StoreState) (admissible : Bool) : Bool :=
  s.haltReason = none ∧ s.activeSourceOrderId = none ∧
    s.sourceOrders.values.all (·.status ∈ terminalStatuses) ∧ s.allCompleted ∧ admissible

def clearSourceFreeze (s : StoreState) (admissible : Bool) : Change StoreState Unit :=
  if s.cycleEvidenceComplete admissible then
    .publishes { s with sourceFreezeReason := none } ()
  else .raises (.runtimeError "Maker cycle evidence is incomplete")

def setIntent (s : StoreState) (intentId : String) (intent : HedgeIntent) : StoreState :=
  { s with hedgeIntents := s.hedgeIntents.set intentId intent }

/-- Replace each intent of a list by what `f` makes of it. -/
def mapIntents (f : HedgeIntent → Except Raised HedgeIntent) (s : StoreState)
    (intents : List HedgeIntent) : Except Raised StoreState :=
  intents.foldlM (fun t intent => do
    let replaced ← f intent
    pure (t.setIntent intent.intentId replaced)) s

def inFlight : List ObligationStatus := [.pending, .submitting, .submitted, .accepted]

def markUnknown (intent : HedgeIntent) : Except Raised HedgeIntent :=
  IntentFields.make { intent.toIntentFields with status := .unknown }

/-- Turn any crash-surviving in-flight work into an explicit stop. -/
def recoverForStart (s : StoreState) : Change StoreState (Option String) :=
  let unresolved := s.hedgeIntents.values.filter (·.status ≠ .completed)
  if s.activeSourceOrderId = none ∧ unresolved = [] then .keeps s.haltReason
  else
    let hedges := if unresolved = [] then [] else
      ["hedges=" ++ String.intercalate "," (unresolved.map (·.intentId))]
    let finish (s : StoreState) (details : List String) : Change StoreState (Option String) :=
      match mapIntents markUnknown s (unresolved.filter (·.status ∈ inFlight)) with
      | .error e => .raises e
      | .ok t =>
        let halt := t.haltReason.getD
          ("restart requires reconciliation: " ++ String.intercalate " " details)
        .publishes { t with haltReason := some halt } (some halt)
    match s.activeSourceOrderId with
    | none => finish s hedges
    | some active =>
      match s.sourceOrders.get? active with
      | none => .raises (.keyError active)
      | some current =>
        finish { s with sourceOrders :=
            s.sourceOrders.set active { current with status := "UNKNOWN" } }
          (("source=" ++ active) :: hedges)

end StoreState

structure SourceRequest where
  clientOrderId : String
  side : BusinessOrderSide
  quantityOunces : ℚ
  sourceAccountId : Option String := none
  sourceClientId : Option String := none
  hedgeAccountId : Option String := none
  hedgeClientId : Option String := none
  hedgePositionId : Option String := none
  hedgePositionQuantityOunces : Option ℚ := none
  sourceFreezeReason : Option String := none

def SourceRequest.record (r : SourceRequest) : SourceOrderRecord where
  clientOrderId := r.clientOrderId
  side := r.side
  quantityOunces := r.quantityOunces
  sourceAccountId := r.sourceAccountId
  sourceClientId := r.sourceClientId
  hedgeAccountId := r.hedgeAccountId
  hedgeClientId := r.hedgeClientId
  hedgePositionId := r.hedgePositionId
  hedgePositionQuantityOunces := r.hedgePositionQuantityOunces

structure SourceFill where
  fillKey : String
  clientOrderId : String
  tradeId : String
  sourceSide : BusinessOrderSide
  fillOunces : ℚ
deriving DecidableEq

/-- The fill as a change of the source position. -/
def SourceFill.signedFill (fill : SourceFill) : ℚ :=
  if fill.sourceSide = .buy then fill.fillOunces else -fill.fillOunces

namespace StoreState

def checkRequest (s : StoreState) (admissible : Bool) (r : SourceRequest) :
    Except Raised Unit := do
  raiseIf (s.canSubmitSource admissible = false)
    (.runtimeError "source submission blocked by persisted state")
  raiseIf (r.quantityOunces ≤ 0) (.valueError "source quantity must be positive")
  raiseIf (r.sourceFreezeReason = some "")
    (.valueError "source freeze reason must not be empty")
  raiseIf (r.hedgePositionId.isNone ≠ r.hedgePositionQuantityOunces.isNone)
    (.valueError "hedge position ID and quantity must appear together")
  raiseIf (r.hedgePositionId = some "") (.valueError "hedge position ID must not be empty")
  raiseIf (∃ quantity ∈ r.hedgePositionQuantityOunces, quantity ≤ 0)
    (.valueError "hedge position quantity must be positive and finite")

def beginSource (s : StoreState) (admissible : Bool) (r : SourceRequest) :
    Change StoreState Unit :=
  match s.checkRequest admissible r with
  | .error e => .raises e
  | .ok () => .publishes { s with
      sourceOrders := s.sourceOrders.set r.clientOrderId r.record
      activeSourceOrderId := some r.clientOrderId
      sourceFreezeReason := r.sourceFreezeReason } ()

def knowsSourceOrder (s : StoreState) (clientOrderId : String) : Prop :=
  s.sourceOrders.get? clientOrderId ≠ none

instance (s : StoreState) (clientOrderId : String) : Decidable (s.knowsSourceOrder clientOrderId) :=
  inferInstanceAs (Decidable (_ ≠ _))

def updateSourceStatus (s : StoreState) (clientOrderId status : String) :
    Change StoreState Unit :=
  match s.sourceOrders.get? clientOrderId with
  | none => .keeps ()
  | some record =>
    .publishes { s with
      sourceOrders := s.sourceOrders.set clientOrderId { record with status }
      activeSourceOrderId :=
        if status ∈ ["DENIED", "FILLED", "REJECTED"] ∧
            s.activeSourceOrderId = some clientOrderId then none
        else s.activeSourceOrderId
      haltReason :=
        if status ∈ ["CANCELED", "EXPIRED"] ∧ s.haltReason = none then
          some (sourceReconcileReason clientOrderId)
        else s.haltReason } ()

/-- Leave an active source once its order has no more to report. -/
def releaseSource (s : StoreState) (clientOrderId : String) : StoreState :=
  { s with
    activeSourceOrderId :=
      if s.activeSourceOrderId = some clientOrderId then none else s.activeSourceOrderId
    haltReason :=
      if s.haltReason = some (sourceReconcileReason clientOrderId) then none else s.haltReason }

def confirmSourceReconciled (s : StoreState) (clientOrderId : String) : Change StoreState Unit :=
  match s.sourceOrders.get? clientOrderId with
  | none => .raises (.valueError "source order is not awaiting terminal reconciliation")
  | some record =>
    if record.status ∈ ["CANCELED", "EXPIRED"] then .reserves (s.releaseSource clientOrderId) ()
    else .raises (.valueError "source order is not awaiting terminal reconciliation")

def markSourceUnknown (s : StoreState) (clientOrderId reason : String) : Change StoreState Unit :=
  .publishes { s with
    sourceOrders := match s.sourceOrders.get? clientOrderId with
      | none => s.sourceOrders
      | some record => s.sourceOrders.set clientOrderId { record with status := "UNKNOWN" }
    haltReason := some reason } ()

end StoreState

end ArbNautilus.Store
