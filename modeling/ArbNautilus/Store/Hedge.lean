import ArbNautilus.Store.Maker
import Mathlib.Data.Prod.Lex
import Mathlib.Data.String.Basic

namespace ArbNautilus.Store

open Base

/-- An open MT5 ticket as the native cache reports it. -/
structure Position where
  id : String
  isLong : Bool
  isShort : Bool
  quantity : ℚ
deriving DecidableEq

/-- `str(exc)`. -/
def Raised.message : Raised → String
  | .valueError message | .typeError message | .runtimeError message
  | .hedgePlanningError message | .hedgeLaneBusy message => message
  | .keyError key => "'" ++ key ++ "'"
  | .osError | .parentDirectorySyncError => ""

/-- What `next_hedge_leg` turns into a durable block. -/
def Raised.plansBlock : Raised → Bool
  | .hedgePlanningError _ | .hedgeLaneBusy _ | .typeError _ | .valueError _ => true
  | _ => false

def Position.side (position : Position) : Except Raised BusinessOrderSide :=
  if position.isLong ∧ ¬position.isShort then .ok .buy
  else if position.isShort ∧ ¬position.isLong then .ok .sell
  else .error (.hedgePlanningError ("MT5 position " ++ position.id ++ " has an invalid direction"))

/-- Native numeric identifiers come first, by value; an engine identifier is ASCII. -/
def positionIdSortKey (id : String) : ℕ ×ₗ ℕ ×ₗ String :=
  if id ≠ "" ∧ id.toList.all Char.isDigit then
    toLex (0, toLex (id.toList.foldl (fun value c => value * 10 + (c.toNat - '0'.toNat)) 0, id))
  else toLex (1, toLex (0, id))

def Position.before (a b : Position) : Prop := positionIdSortKey a.id ≤ positionIdSortKey b.id

instance : DecidableRel Position.before := fun _ _ => inferInstanceAs (Decidable (_ ≤ _))

/-- The snapshot loop: identities and quantities first, in the order given. -/
def checkPosition (seen : List String) (position : Position) : Except Raised (List String) := do
  raiseIf (position.id = "" ∨ position.id ∈ seen)
    (.hedgePlanningError "MT5 open positions contain a duplicate position ID")
  let _ ← position.side
  raiseIf (position.quantity ≤ 0) (.hedgePlanningError
    ("MT5 position " ++ position.id ++ " has a non-positive or invalid quantity"))
  pure (position.id :: seen)

/-- Close opposing tickets in turn while any of the delta remains. -/
def closeLegs (side : BusinessOrderSide) : ℚ → List Position → Except Raised (ℚ × List HedgeLeg)
  | remaining, [] => .ok (remaining, [])
  | remaining, position :: positions => do
    let positionSide ← position.side
    if positionSide = side then closeLegs side remaining positions
    else
      let leg ← HedgeLegFields.make {
        side
        quantityOunces := min remaining position.quantity
        positionId := some position.id
        expectedPositionSide := some positionSide
        expectedPositionQuantityOunces := some position.quantity }
      let remaining := remaining - min remaining position.quantity
      if remaining = 0 then pure (remaining, [leg])
      else do
        let (rest, legs) ← closeLegs side remaining positions
        pure (rest, leg :: legs)

/-- Close opposing MT5 tickets in PositionId order, then open any residual. -/
def planHedgeDelta (positions : List Position) (side : BusinessOrderSide) (quantityOunces : ℚ) :
    Except Raised (List HedgeLeg) := do
  raiseIf (quantityOunces ≤ 0)
    (.valueError "hedge quantity must be a positive finite Decimal")
  let _ ← positions.foldlM checkPosition []
  let (remaining, legs) ← closeLegs side quantityOunces (positions.insertionSort Position.before)
  if 0 < remaining then do
    let residual ← HedgeLegFields.make { side, quantityOunces := remaining }
    pure (legs ++ [residual])
  else pure legs

/-- Reauthenticate a planned close target immediately before its wire call. -/
def validateHedgeLeg (leg : HedgeLeg) (positions : List Position) : Except Raised Unit :=
  match leg.positionId with
  | none => do
    let sides ← positions.mapM Position.side
    raiseIf (∃ side ∈ sides, side ≠ leg.side)
      (.hedgePlanningError "opposing MT5 ticket appeared before the planned open residual")
  | some target =>
    match positions.filter (·.id = target) with
    | [position] => do
      let side ← position.side
      raiseIf (some side ≠ leg.expectedPositionSide) (.hedgePlanningError
        ("MT5 position " ++ target ++ " direction drifted after planning"))
      raiseIf (some position.quantity ≠ leg.expectedPositionQuantityOunces) (.hedgePlanningError
        ("MT5 position " ++ target ++ " quantity drifted after planning"))
    | _ => .error (.hedgePlanningError
        ("MT5 position " ++ target ++ " disappeared after planning"))

/-- The one-shot exact-ticket promise, when one was persisted. -/
def validateBoundExit (intent : HedgeIntent) (plan : List HedgeLeg) : Except Raised Unit :=
  match intent.hedgePositionId with
  | none => .ok ()
  | some target =>
    match plan with
    | [leg] => raiseIf (leg.positionId ≠ some target ∨
        leg.expectedPositionQuantityOunces ≠ intent.hedgePositionQuantityOunces)
      (.hedgePlanningError "exit hedge MT5 position ID disappeared or changed")
    | _ => .error (.hedgePlanningError "exit hedge MT5 position ID disappeared or changed")

namespace MakerStateStore

/-- The plan an intent has, or the one it is given now. -/
def ensurePlan (o : MakerStateStore) (v : ViewKey) (intent : HedgeIntent)
    (positions : List Position) (pub : Publication) : Except Raised HedgeIntent × MakerStateStore :=
  if intent.hedgePlan ≠ [] then (.ok intent, o)
  else
    let planned := do
      let plan ← planHedgeDelta positions intent.hedgeSide
        (intent.hedgeQuantityOunces - intent.hedgeFilledOunces)
      validateBoundExit intent plan
      pure plan
    match planned with
    | .error e => (.error e, o)
    | .ok plan => o.commitView v pub ((o.view v).bindHedgePlan intent.intentId plan)

def currentLeg (intent : HedgeIntent) (positions : List Position) : Except Raised HedgeLeg :=
  match intent.hedgePlan[intent.hedgeLegIndex]? with
  | none => .error (.hedgePlanningError "hedge ticket plan has no remaining leg")
  | some leg => do
    validateHedgeLeg leg positions
    pure leg

/-- The body that a planning failure interrupts. -/
def tryNextLeg (o : MakerStateStore) (v : ViewKey) (intent : HedgeIntent)
    (positions : List Position) (pub : Publication) : Except Raised HedgeLeg × MakerStateStore :=
  match o.ensurePlan v intent positions pub with
  | (.error e, o') => (.error e, o')
  | (.ok planned, o') => (currentLeg planned positions, o')

/-- Persist a plan once and revalidate its next exact ticket before submit. A planning
failure blocks the intent. -/
def nextHedgeLeg (o : MakerStateStore) (v : ViewKey) (intentId : String)
    (positions : List Position) (planned blocked : Publication) :
    Except Raised HedgeLeg × MakerStateStore :=
  match (o.view v).hedgeIntents.get? intentId with
  | none => (.error (.keyError intentId), o)
  | some intent =>
    if o.cfg.hedgeDispatchReady o.book v intentId = false then
      (.error (.hedgeLaneBusy "an earlier hedge obligation still owns the route"), o)
    else match o.tryNextLeg v intent positions planned with
      | (.ok leg, o') => (.ok leg, o')
      | (.error e, o') =>
        if e.plansBlock then
          match (o'.view v).hedgeIntents.get? intentId with
          | none => (.error (.keyError intentId), o')
          | some current =>
            if current.status = .completed then (.error (.hedgePlanningError e.message), o')
            else match o'.commitView v blocked
                ((o'.view v).blockHedgeIntent intentId e.message) with
              | (.error e', o'') => (.error e', o'')
              | (.ok (), o'') => (.error (.hedgePlanningError e.message), o'')
        else (.error e, o')

def bindHedgeLeg (o : MakerStateStore) (v : ViewKey) (intentId clientOrderId : String)
    (pub : Publication) : Except Raised Unit × MakerStateStore :=
  o.commitView v pub ((o.view v).bindHedgeOrder intentId clientOrderId)

end MakerStateStore

end ArbNautilus.Store
