import ArbNautilus.Base.Raise
import Mathlib.Algebra.Order.BigOperators.Group.List
import Mathlib.Data.Finset.Basic
import Mathlib.Data.Rat.Floor
import Mathlib.Tactic.Linarith

namespace ArbNautilus.Store

open Base

/-- What the modelled calls raise, with the text the source raises it with. -/
inductive Raised where
  | valueError (message : String)
  | typeError (message : String)
  | runtimeError (message : String)
  | keyError (key : String)
  | osError
  | parentDirectorySyncError
  | hedgePlanningError (message : String)
  | hedgeLaneBusy (message : String)
deriving DecidableEq, Repr

inductive SourceDirection where
  | long
  | short
deriving DecidableEq, Repr

inductive BusinessOrderSide where
  | buy
  | sell
deriving DecidableEq, Repr

inductive ObligationStatus where
  | pending
  | submitting
  | submitted
  | accepted
  | completed
  | blocked
  | rejected
  | unknown
deriving DecidableEq, Repr

def ObligationStatus.value : ObligationStatus → String
  | .pending => "PENDING"
  | .submitting => "SUBMITTING"
  | .submitted => "SUBMITTED"
  | .accepted => "ACCEPTED"
  | .completed => "COMPLETED"
  | .blocked => "BLOCKED"
  | .rejected => "REJECTED"
  | .unknown => "UNKNOWN"

/-- The statuses only an operator settles. -/
def ObligationStatus.Unresolved (status : ObligationStatus) : Prop :=
  status = .blocked ∨ status = .rejected ∨ status = .unknown

instance (status : ObligationStatus) : Decidable status.Unresolved :=
  inferInstanceAs (Decidable (_ ∨ _))

/-- `Decimal` quantities are kept by value. -/
structure HedgeLegFields where
  side : BusinessOrderSide
  quantityOunces : ℚ
  positionId : Option String := none
  expectedPositionSide : Option BusinessOrderSide := none
  expectedPositionQuantityOunces : Option ℚ := none
deriving DecidableEq

def HedgeLegFields.postInit (leg : HedgeLegFields) : Except Raised Unit := do
  raiseIf (leg.quantityOunces ≤ 0)
    (.valueError "hedge leg quantity must be a positive finite Decimal")
  if leg.positionId.isSome then
    raiseIf (leg.positionId = some "")
      (.valueError "hedge close leg position ID must not be empty")
    raiseIf (leg.expectedPositionSide = none)
      (.typeError "hedge close leg requires the expected position side")
    raiseIf (∀ expected ∈ leg.expectedPositionQuantityOunces, expected ≤ 0)
      (.valueError "hedge close leg requires a positive expected position quantity")
    raiseIf (leg.expectedPositionSide = some leg.side)
      (.valueError "hedge close leg side must oppose the position side")
    raiseIf (∃ expected ∈ leg.expectedPositionQuantityOunces, expected < leg.quantityOunces)
      (.valueError "hedge close leg exceeds the expected position quantity")
  else
    raiseIf (leg.expectedPositionSide ≠ none)
      (.valueError "hedge open leg cannot bind an expected position side")
    raiseIf (leg.expectedPositionQuantityOunces ≠ none)
      (.valueError "hedge open leg cannot bind an expected position quantity")

/-- One deterministic MT5 HEDGING action within a signed hedge delta. -/
structure HedgeLeg extends HedgeLegFields where
  checked : toHedgeLegFields.postInit = .ok ()
deriving DecidableEq

def HedgeLegFields.make (leg : HedgeLegFields) : Except Raised HedgeLeg :=
  match h : leg.postInit with
  | .ok () => .ok ⟨leg, h⟩
  | .error e => .error e

theorem HedgeLeg.quantity_pos (leg : HedgeLeg) : 0 < leg.quantityOunces := by
  have checked := leg.checked
  simp only [HedgeLegFields.postInit, bind_eq_ok, raiseIf_eq_ok] at checked
  obtain ⟨_, positive, _⟩ := checked
  exact not_le.1 positive

structure RejectedFields where
  clientOrderId : String
  legIndex : ℕ
deriving DecidableEq

def RejectedFields.postInit (attempt : RejectedFields) : Except Raised Unit :=
  raiseIf (attempt.clientOrderId = "" ∨ '|' ∈ attempt.clientOrderId.toList)
    (.valueError "rejected hedge attempt requires a non-empty order ID")

/-- The sole archived zero-fill rejection; its native order remains evidence. -/
structure RejectedHedgeAttempt extends RejectedFields where
  checked : toRejectedFields.postInit = .ok ()
deriving DecidableEq

def planQuantity (plan : List HedgeLeg) : ℚ := (plan.map (·.quantityOunces)).sum

structure IntentFields where
  intentId : String
  fillKey : String
  sourceClientOrderId : String
  sourceTradeId : String
  sourceSide : BusinessOrderSide
  sourceFillOunces : ℚ
  hedgeSide : BusinessOrderSide
  hedgeQuantityOunces : ℚ
  hedgePositionId : Option String := none
  hedgePositionQuantityOunces : Option ℚ := none
  status : ObligationStatus := .pending
  hedgeClientOrderId : Option String := none
  hedgeFilledOunces : ℚ := 0
  hedgePlan : List HedgeLeg := []
  hedgeLegIndex : ℕ := 0
  hedgeLegFilledOunces : ℚ := 0
  hedgeOrderIds : List String := []
  rejectedAttempt : Option RejectedHedgeAttempt := none
deriving DecidableEq

namespace IntentFields

/-- One order per planned leg, without the rejected history. -/
def hedgeLegOrderIds (i : IntentFields) : List String :=
  match i.rejectedAttempt with
  | none => i.hedgeOrderIds
  | some attempt => i.hedgeOrderIds.filter (· ≠ attempt.clientOrderId)

def checkAttempt (i : IntentFields) (attempt : RejectedHedgeAttempt) : Except Raised Unit := do
  raiseIf (i.hedgePlan = [] ∨ attempt.clientOrderId ∉ i.hedgeOrderIds ∨
      i.hedgePlan.length ≤ attempt.legIndex ∨
      i.hedgeOrderIds.idxOf attempt.clientOrderId ≠ attempt.legIndex ∨
      i.hedgeLegIndex < attempt.legIndex ∨ i.hedgeClientOrderId = some attempt.clientOrderId)
    (.valueError "rejected hedge attempt does not match its retained plan history")
  raiseIf (i.hedgeLegOrderIds.length ≠ i.hedgeLegIndex + i.hedgeClientOrderId.toList.length ∨
      (i.hedgeClientOrderId ≠ none ∧ (i.hedgeLegIndex = i.hedgePlan.length ∨
        i.hedgeClientOrderId ≠ i.hedgeLegOrderIds[i.hedgeLegIndex]?)))
    (.valueError "rejected hedge attempt has inconsistent subsequent leg history")

def checkAttempts (i : IntentFields) : Except Raised Unit :=
  match i.rejectedAttempt with
  | none => pure ()
  | some attempt => i.checkAttempt attempt

def checkLeg (i : IntentFields) : Except Raised Unit :=
  if i.hedgeLegIndex = i.hedgePlan.length then
    raiseIf (i.hedgeLegFilledOunces ≠ 0)
      (.valueError "completed hedge plan cannot retain a partial leg fill")
  else
    raiseIf (i.status ≠ .blocked ∧
        ∃ leg ∈ i.hedgePlan[i.hedgeLegIndex]?, leg.quantityOunces ≤ i.hedgeLegFilledOunces)
      (.valueError "hedge leg progress must advance at the planned quantity")

def checkPlan (i : IntentFields) : Except Raised Unit := do
  raiseIf (∃ leg ∈ i.hedgePlan, leg.side ≠ i.hedgeSide)
    (.valueError "hedge plan side does not match its intent")
  raiseIf (planQuantity i.hedgePlan ≠ i.hedgeQuantityOunces)
    (.valueError "hedge plan quantity does not match its intent")
  i.checkLeg
  raiseIf (i.status ≠ .blocked ∧ i.hedgeFilledOunces ≠
      i.hedgeLegFilledOunces + planQuantity (i.hedgePlan.take i.hedgeLegIndex))
    (.valueError "hedge aggregate fill does not match its leg progress")
  raiseIf (i.status = .completed ∧ (i.hedgeLegIndex ≠ i.hedgePlan.length ∨
      i.hedgeFilledOunces ≠ i.hedgeQuantityOunces))
    (.valueError "completed hedge intent has incomplete plan progress")

def checkProgress (i : IntentFields) : Except Raised Unit :=
  if i.hedgePlan = [] then
    raiseIf (i.hedgeLegIndex ≠ 0 ∨ i.hedgeLegFilledOunces ≠ 0)
      (.valueError "unplanned hedge intent cannot have leg progress")
  else
    i.checkPlan

def postInit (i : IntentFields) : Except Raised Unit := do
  raiseIf (i.hedgePositionId = none ∧ i.hedgePositionQuantityOunces ≠ none)
    (.valueError "bound hedge position quantity requires a position ID")
  raiseIf (∃ quantity ∈ i.hedgePositionQuantityOunces, quantity ≤ 0)
    (.valueError "bound hedge position quantity must be positive and finite")
  raiseIf (i.hedgeQuantityOunces ≤ 0)
    (.valueError "hedge intent quantity must be a positive finite Decimal")
  raiseIf (i.hedgeFilledOunces < 0)
    (.valueError "hedge filled quantity must be a non-negative finite Decimal")
  raiseIf (i.hedgePlan.length < i.hedgeLegIndex)
    (.valueError "hedge plan index is out of bounds")
  raiseIf (i.hedgeLegFilledOunces < 0)
    (.valueError "hedge leg fill must be a non-negative finite Decimal")
  raiseIf ("" ∈ i.hedgeOrderIds ∨ ¬i.hedgeOrderIds.Nodup)
    (.valueError "hedge order history must contain unique non-empty IDs")
  i.checkAttempts
  i.checkProgress

end IntentFields

structure HedgeIntent extends IntentFields where
  checked : toIntentFields.postInit = .ok ()
deriving DecidableEq

/-- Construction, and `replace`, run the same check. -/
def IntentFields.make (i : IntentFields) : Except Raised HedgeIntent :=
  match h : i.postInit with
  | .ok () => .ok ⟨i, h⟩
  | .error e => .error e

/-- What a plan and its progress agree on. -/
structure IntentFields.PlanSound (i : IntentFields) : Prop where
  sides : ∀ leg ∈ i.hedgePlan, leg.side = i.hedgeSide
  quantity : planQuantity i.hedgePlan = i.hedgeQuantityOunces
  done : i.hedgeLegIndex = i.hedgePlan.length → i.hedgeLegFilledOunces = 0
  progress : i.hedgeLegIndex ≠ i.hedgePlan.length → i.status ≠ .blocked →
    ∀ leg ∈ i.hedgePlan[i.hedgeLegIndex]?, i.hedgeLegFilledOunces < leg.quantityOunces
  filled : i.status ≠ .blocked → i.hedgeFilledOunces =
    i.hedgeLegFilledOunces + planQuantity (i.hedgePlan.take i.hedgeLegIndex)
  completed : i.status = .completed →
    i.hedgeLegIndex = i.hedgePlan.length ∧ i.hedgeFilledOunces = i.hedgeQuantityOunces

/-- What an archived rejection and the order history agree on. -/
structure IntentFields.AttemptSound (i : IntentFields) (attempt : RejectedHedgeAttempt) : Prop where
  planned : i.hedgePlan ≠ []
  retained : attempt.clientOrderId ∈ i.hedgeOrderIds
  legBound : attempt.legIndex < i.hedgePlan.length
  position : i.hedgeOrderIds.idxOf attempt.clientOrderId = attempt.legIndex
  past : attempt.legIndex ≤ i.hedgeLegIndex
  released : i.hedgeClientOrderId ≠ some attempt.clientOrderId
  history : i.hedgeLegOrderIds.length = i.hedgeLegIndex + i.hedgeClientOrderId.toList.length
  current : i.hedgeClientOrderId ≠ none → i.hedgeLegIndex ≠ i.hedgePlan.length ∧
    i.hedgeClientOrderId = i.hedgeLegOrderIds[i.hedgeLegIndex]?

/-- The facts construction establishes. -/
structure IntentFields.Sound (i : IntentFields) : Prop where
  ticket : i.hedgePositionId = none → i.hedgePositionQuantityOunces = none
  ticketPositive : ∀ quantity ∈ i.hedgePositionQuantityOunces, 0 < quantity
  quantityPositive : 0 < i.hedgeQuantityOunces
  filledNonneg : 0 ≤ i.hedgeFilledOunces
  indexBound : i.hedgeLegIndex ≤ i.hedgePlan.length
  legFilledNonneg : 0 ≤ i.hedgeLegFilledOunces
  orderIds : "" ∉ i.hedgeOrderIds ∧ i.hedgeOrderIds.Nodup
  attempt : ∀ attempt ∈ i.rejectedAttempt, i.AttemptSound attempt
  unplanned : i.hedgePlan = [] → i.hedgeLegIndex = 0 ∧ i.hedgeLegFilledOunces = 0
  planned : i.hedgePlan ≠ [] → i.PlanSound

theorem IntentFields.checkLeg_eq_ok (i : IntentFields) : i.checkLeg = .ok () ↔
    (i.hedgeLegIndex = i.hedgePlan.length → i.hedgeLegFilledOunces = 0) ∧
    (i.hedgeLegIndex ≠ i.hedgePlan.length → i.status ≠ .blocked →
      ∀ leg ∈ i.hedgePlan[i.hedgeLegIndex]?, i.hedgeLegFilledOunces < leg.quantityOunces) := by
  unfold checkLeg
  by_cases last : i.hedgeLegIndex = i.hedgePlan.length <;> simp [last]

theorem IntentFields.checkPlan_eq_ok (i : IntentFields) : i.checkPlan = .ok () ↔ i.PlanSound := by
  simp only [checkPlan, bind_unit_eq_ok, raiseIf_eq_ok, checkLeg_eq_ok]
  constructor
  · rintro ⟨sides, quantity, ⟨done, progress⟩, filled, completed⟩
    exact ⟨by simpa using sides, by simpa using quantity, done, progress, by simpa using filled,
      by simpa using completed⟩
  · intro sound
    exact ⟨by simpa using sound.sides, by simpa using sound.quantity, ⟨sound.done, sound.progress⟩,
      by simpa using sound.filled, by simpa using sound.completed⟩

theorem IntentFields.checkAttempt_eq_ok (i : IntentFields) (attempt : RejectedHedgeAttempt) :
    i.checkAttempt attempt = .ok () ↔ i.AttemptSound attempt := by
  simp only [checkAttempt, bind_unit_eq_ok, raiseIf_eq_ok, not_or, not_not, not_le, not_lt,
    not_and]
  constructor
  · rintro ⟨⟨planned, retained, legBound, position, past, released⟩, history, current⟩
    exact ⟨planned, retained, legBound, position, past, released, history, current⟩
  · intro sound
    exact ⟨⟨sound.planned, sound.retained, sound.legBound, sound.position, sound.past,
      sound.released⟩, sound.history, sound.current⟩

theorem IntentFields.postInit_eq_ok (i : IntentFields) : i.postInit = .ok () ↔ i.Sound := by
  have attempt : i.checkAttempts = .ok () ↔
      ∀ attempt ∈ i.rejectedAttempt, i.AttemptSound attempt := by
    unfold checkAttempts
    cases i.rejectedAttempt <;> simp [checkAttempt_eq_ok]
  have plan : i.checkProgress = .ok () ↔
      (i.hedgePlan = [] → i.hedgeLegIndex = 0 ∧ i.hedgeLegFilledOunces = 0) ∧
      (i.hedgePlan ≠ [] → i.PlanSound) := by
    unfold checkProgress
    by_cases empty : i.hedgePlan = [] <;> simp [empty, checkPlan_eq_ok]
  simp only [postInit, bind_unit_eq_ok, raiseIf_eq_ok, attempt, plan]
  constructor
  · rintro ⟨ticket, ticketPositive, quantity, filled, index, legFilled, ids, attempt, unplanned,
      planned⟩
    exact ⟨by simpa using ticket, by simpa using ticketPositive, not_le.1 quantity,
      not_lt.1 filled, not_lt.1 index, not_lt.1 legFilled, by simpa using ids, attempt, unplanned,
      planned⟩
  · intro sound
    exact ⟨by simpa using sound.ticket, by simpa using sound.ticketPositive,
      not_le.2 sound.quantityPositive, not_lt.2 sound.filledNonneg, not_lt.2 sound.indexBound,
      not_lt.2 sound.legFilledNonneg, by simpa using sound.orderIds, sound.attempt,
      sound.unplanned, sound.planned⟩

theorem HedgeIntent.sound (i : HedgeIntent) : i.Sound := i.postInit_eq_ok.1 i.checked

theorem IntentFields.make_eq_ok {i : IntentFields} {made : HedgeIntent} (h : i.make = .ok made) :
    made.toIntentFields = i := by
  unfold make at h
  split at h
  · cases h; rfl
  · cases h

theorem IntentFields.Sound.make {i : IntentFields} (h : i.Sound) :
    ∃ made : HedgeIntent, i.make = .ok made ∧ made.toIntentFields = i := by
  have checked := i.postInit_eq_ok.2 h
  refine ⟨⟨i, checked⟩, ?_, rfl⟩
  unfold IntentFields.make
  split
  · rfl
  · simp_all

end ArbNautilus.Store
