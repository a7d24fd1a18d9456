import ArbNautilus.Base.Fraction
import ArbNautilus.Base.JsonDump
import ArbNautilus.Base.Text
import ArbNautilus.Store.Json
import Mathlib.Data.Finset.Sort
import Mathlib.Data.String.Basic

/-! The state of one view as its file has it. -/

namespace ArbNautilus.Store

open Base

/-- A decoded value. A number with a fraction is kept as `str` writes it. -/
abbrev Value := Json Text

def key (name : String) : PyStr := .text name.toList

/-- The rows of an object. -/
abbrev Members := List (PyStr × Value)

section Scalars

-- `str` of a list or a dict
variable (repr : Value → String)

/-- `str(value)`. A text with a lone surrogate has no place in a state. -/
def strOf : Value → Except Raised String
  | .str (.text text) => .ok (String.ofList text)
  | .str (.broken _) => .error (.valueError "text with a lone surrogate")
  | .null => .ok "None"
  | .bool value => .ok (if value then "True" else "False")
  | .int value => .ok (String.ofList (intText value))
  | .real text => .ok (String.ofList text)
  | .arr items => .ok (repr (.arr items))
  | .obj members => .ok (repr (.obj members))

/-- `Decimal(str(value))`. A state keeps the finite ones, by their value. -/
def decimalOf (value : Value) : Except Raised ℚ := do
  let text ← strOf repr value
  match Decimal.parse text.toList with
  | some (.finite number) => .ok number.value
  | some .special => .error (.valueError "quantity is not finite")
  | none => .error (.valueError "invalid literal for Decimal")

/-- The member of an enumeration whose value `str(value)` is. -/
def enumOf {α : Type} (members : List α) (name : α → String) (label : String) (value : Value) :
    Except Raised α := do
  let text ← strOf repr value
  match members.find? fun member => name member = text with
  | some member => .ok member
  | none => .error (.valueError ("'" ++ text ++ "' is not a valid " ++ label))

def BusinessOrderSide.value : BusinessOrderSide → String
  | .buy => "BUY"
  | .sell => "SELL"

def sideOf (value : Value) : Except Raised BusinessOrderSide :=
  enumOf repr [.buy, .sell] BusinessOrderSide.value "BusinessOrderSide" value

def statusOf (value : Value) : Except Raised ObligationStatus :=
  enumOf repr
    [.pending, .submitting, .submitted, .accepted, .completed, .blocked, .rejected, .unknown]
    ObligationStatus.value "ObligationStatus" value

/-- `None` stays what it is. -/
def optionalOf {α : Type} (read : Value → Except Raised α) : Value → Except Raised (Option α)
  | .null => .ok none
  | value => some <$> read value

/-- `_exact_int`, of what is no negative index. -/
def exactInt : Value → Except Raised ℕ
  | .int value =>
    if value < 0 then .error (.valueError "hedge plan index is out of bounds") else .ok value.toNat
  | _ => .error (.valueError "persisted hedge plan index must be an exact int")

/-- What a `for` loop takes of a value. -/
def iterate : Value → Except Raised (List Value)
  | .arr items => .ok items
  | .obj members => .ok (members.map fun member => .str member.1)
  | .str (.text text) => .ok (text.map fun c => .str (.text [c]))
  | .str (.broken codes) => .ok (codes.map fun code => .str (.ofCodes [code]))
  | _ => .error (.typeError "object is not iterable")

/-- The members of an object; anything else has no `items` and no `get`. -/
def membersOf : Value → Except Raised Members
  | .obj members => .ok members
  | _ => .error (.typeError "object has no attribute 'items'")

/-- `row[name]`. -/
def item (row : Members) (name : String) : Except Raised Value :=
  match Json.member? (key name) row with
  | some value => .ok value
  | none => .error (.keyError name)

/-- `row.get(name, default)`. -/
def itemOr (row : Members) (name : String) (default : Value) : Value :=
  (Json.member? (key name) row).getD default

/-- A fill key, as a text of whole characters. The lone half of a surrogate pair, and in a set what
is no text, are refused here before anything splits them. -/
def fillKeyOf : Value → Except Raised String
  | .str (.text text) => .ok (String.ofList text)
  | _ => .error (.typeError "fill key is no text")

def fillKeysOf (value : Value) : Except Raised (Finset String) := do
  let items ← iterate value
  let fillKeys ← items.mapM fillKeyOf
  pure fillKeys.toFinset

end Scalars

section Read

variable (repr : Value → String)

def sourceOrderOf (value : Value) : Except Raised SourceOrderRecord := do
  let row ← membersOf value
  let clientOrderId ← item row "client_order_id" >>= strOf repr
  let side ← item row "side" >>= sideOf repr
  let quantityOunces ← item row "quantity_ounces" >>= decimalOf repr
  let sourceAccountId ← optionalOf (strOf repr) (itemOr row "source_account_id" .null)
  let sourceClientId ← optionalOf (strOf repr) (itemOr row "source_client_id" .null)
  let hedgeAccountId ← optionalOf (strOf repr) (itemOr row "hedge_account_id" .null)
  let hedgeClientId ← optionalOf (strOf repr) (itemOr row "hedge_client_id" .null)
  let hedgePositionId ← optionalOf (strOf repr) (itemOr row "hedge_position_id" .null)
  let hedgePositionQuantityOunces ←
    optionalOf (decimalOf repr) (itemOr row "hedge_position_quantity_ounces" .null)
  let filledOunces ← item row "filled_ounces" >>= decimalOf repr
  let status ← item row "status" >>= strOf repr
  pure ⟨clientOrderId, side, quantityOunces, sourceAccountId, sourceClientId, hedgeAccountId,
    hedgeClientId, hedgePositionId, hedgePositionQuantityOunces, filledOunces, status⟩

/-- `_hedge_leg_from_payload`. -/
def hedgeLegOf (value : Value) : Except Raised HedgeLeg := do
  let row ← membersOf value
  let side ← item row "side" >>= sideOf repr
  let quantityOunces ← item row "quantity_ounces" >>= decimalOf repr
  let positionId ← optionalOf (strOf repr) (itemOr row "position_id" .null)
  let expectedPositionSide ← optionalOf (sideOf repr) (itemOr row "expected_position_side" .null)
  let expectedPositionQuantityOunces ←
    optionalOf (decimalOf repr) (itemOr row "expected_position_quantity_ounces" .null)
  HedgeLegFields.make ⟨side, quantityOunces, positionId, expectedPositionSide,
    expectedPositionQuantityOunces⟩

/-- Exactly these keys. -/
def hasFields (row : Members) (names : List String) : Bool :=
  row.all (fun member => (names.map key).contains member.1) &&
    (names.map key).all fun name => (row.map Prod.fst).contains name

def RejectedFields.make (attempt : RejectedFields) : Except Raised RejectedHedgeAttempt :=
  match h : attempt.postInit with
  | .ok () => .ok ⟨attempt, h⟩
  | .error e => .error e

/-- `_rejected_attempt_from_payload` of what is not `None`. -/
def rejectedAttemptOf (value : Value) : Except Raised RejectedHedgeAttempt :=
  match value with
  | .obj row => do
    raiseIf (hasFields row ["client_order_id", "leg_index"] = false)
      (.valueError "invalid rejected hedge attempt record")
    let named ← item row "client_order_id"
    match named with
    | .str (.text text) => do
      let legIndex ← item row "leg_index" >>= exactInt
      RejectedFields.make ⟨String.ofList text, legIndex⟩
    | _ => .error (.valueError "invalid rejected hedge attempt record")
  | _ => .error (.valueError "invalid rejected hedge attempt record")

def hedgeIntentOf (value : Value) : Except Raised HedgeIntent := do
  let row ← membersOf value
  let intentId ← item row "intent_id" >>= strOf repr
  let fillKey ← item row "fill_key" >>= strOf repr
  let sourceClientOrderId ← item row "source_client_order_id" >>= strOf repr
  let sourceTradeId ← item row "source_trade_id" >>= strOf repr
  let sourceSide ← item row "source_side" >>= sideOf repr
  let sourceFillOunces ← item row "source_fill_ounces" >>= decimalOf repr
  let hedgeSide ← item row "hedge_side" >>= sideOf repr
  let hedgeQuantityOunces ← item row "hedge_quantity_ounces" >>= decimalOf repr
  let hedgePositionId ← optionalOf (strOf repr) (itemOr row "hedge_position_id" .null)
  let hedgePositionQuantityOunces ←
    optionalOf (decimalOf repr) (itemOr row "hedge_position_quantity_ounces" .null)
  let status ← item row "status" >>= statusOf repr
  let hedgeClientOrderId ← item row "hedge_client_order_id" >>= optionalOf (strOf repr)
  let hedgeFilledOunces ← item row "hedge_filled_ounces" >>= decimalOf repr
  let hedgePlan ← iterate (itemOr row "hedge_plan" (.arr [])) >>= List.mapM (hedgeLegOf repr)
  let hedgeLegIndex ← exactInt (itemOr row "hedge_leg_index" (.int 0))
  let hedgeLegFilledOunces ← decimalOf repr (itemOr row "hedge_leg_filled_ounces" (.int 0))
  let hedgeOrderIds ← iterate (itemOr row "hedge_order_ids" (.arr [])) >>= List.mapM (strOf repr)
  let rejectedAttempt ← optionalOf rejectedAttemptOf (itemOr row "rejected_attempt" .null)
  IntentFields.make ⟨intentId, fillKey, sourceClientOrderId, sourceTradeId, sourceSide,
    sourceFillOunces, hedgeSide, hedgeQuantityOunces, hedgePositionId, hedgePositionQuantityOunces,
    status, hedgeClientOrderId, hedgeFilledOunces, hedgePlan, hedgeLegIndex, hedgeLegFilledOunces,
    hedgeOrderIds, rejectedAttempt⟩

/-- One member of an object of records. -/
def namedOf {α : Type} (read : Value → Except Raised α) (member : PyStr × Value) :
    Except Raised (String × α) := do
  let name ← fillKeyOf (.str member.1)
  let record ← read member.2
  pure (name, record)

def isNull : Value → Bool
  | .null => true
  | _ => false

/-- Schema 1 knows no rejected attempt; schema 2 always says whether there is one. -/
def attemptMatchesSchema (version : ℤ) (value : Value) : Except Raised Bool := do
  let row ← membersOf value
  pure (if version = 1 then isNull (itemOr row "rejected_attempt" .null)
    else (row.map Prod.fst).contains (key "rejected_attempt"))

/-- The fills of the order an archived attempt retired. -/
def fillsOfAttempt (intent : HedgeIntent) (fills : Finset String) : Prop :=
  ∃ attempt ∈ intent.rejectedAttempt, ∃ fill ∈ fills,
    (splitText '|' fill).head? = some attempt.clientOrderId

instance (intent : HedgeIntent) (fills : Finset String) : Decidable (fillsOfAttempt intent fills) :=
  inferInstanceAs (Decidable (∃ attempt ∈ intent.rejectedAttempt, _))

def schemaOf : Value → Except Raised ℤ
  | .int version =>
    if version = 1 ∨ version = 2 then .ok version
    else .error (.valueError "unsupported state schema")
  | _ => .error (.valueError "unsupported state schema")

/-- `_from_payload`. -/
def fromPayload (row : Members) : Except Raised StoreState := do
  let version ← schemaOf (itemOr row "schema_version" .null)
  let sourceRaw ← item row "source_orders"
  let intentsRaw ← item row "hedge_intents" >>= membersOf
  let fitting ← intentsRaw.mapM fun member => attemptMatchesSchema version member.2
  raiseIf (false ∈ fitting) (.valueError "rejected hedge attempt does not match state schema")
  let sourceRows ← membersOf sourceRaw
  let sourceOrders ← sourceRows.mapM (namedOf (sourceOrderOf repr))
  let hedgeIntents ← intentsRaw.mapM (namedOf (hedgeIntentOf repr))
  let activeSourceOrderId ← item row "active_source_order_id" >>= optionalOf (strOf repr)
  let seenSourceFills ← item row "seen_source_fills" >>= fillKeysOf
  let seenHedgeFills ← item row "seen_hedge_fills" >>= fillKeysOf
  let netUnhedgedOunces ← item row "net_unhedged_ounces" >>= decimalOf repr
  let haltReason ← item row "halt_reason" >>= optionalOf (strOf repr)
  let sourceFreezeReason ← optionalOf (strOf repr) (itemOr row "source_freeze_reason" .null)
  let intents := Dict.ofList hedgeIntents
  raiseIf (∃ intent ∈ intents.values, fillsOfAttempt intent seenHedgeFills)
    (.valueError "archived rejected hedge attempt cannot have recorded fills")
  pure ⟨Dict.ofList sourceOrders, activeSourceOrderId, seenSourceFills, seenHedgeFills, intents,
    netUnhedgedOunces, haltReason, sourceFreezeReason⟩

end Read

section Write

def textJson (text : String) : Value := .str (.text text.toList)

def decimalJson (value : ℚ) : Value := .str (.text (Decimal.ofRat value).format)

def optionalJson {α : Type} (write : α → Value) : Option α → Value
  | none => .null
  | some value => write value

/-- `sorted`. -/
def sortedTexts (texts : Finset String) : List String := texts.sort (· ≤ ·)

def textsJson (texts : List String) : Value := .arr (texts.map textJson)

def SourceOrderRecord.toJson (record : SourceOrderRecord) : Value := .obj [
  (key "client_order_id", textJson record.clientOrderId),
  (key "side", textJson record.side.value),
  (key "quantity_ounces", decimalJson record.quantityOunces),
  (key "source_account_id", optionalJson textJson record.sourceAccountId),
  (key "source_client_id", optionalJson textJson record.sourceClientId),
  (key "hedge_account_id", optionalJson textJson record.hedgeAccountId),
  (key "hedge_client_id", optionalJson textJson record.hedgeClientId),
  (key "hedge_position_id", optionalJson textJson record.hedgePositionId),
  (key "hedge_position_quantity_ounces",
    optionalJson decimalJson record.hedgePositionQuantityOunces),
  (key "filled_ounces", decimalJson record.filledOunces),
  (key "status", textJson record.status)]

def HedgeLegFields.toJson (leg : HedgeLegFields) : Value := .obj [
  (key "side", textJson leg.side.value),
  (key "quantity_ounces", decimalJson leg.quantityOunces),
  (key "position_id", optionalJson textJson leg.positionId),
  (key "expected_position_side",
    optionalJson (fun side => textJson side.value) leg.expectedPositionSide),
  (key "expected_position_quantity_ounces",
    optionalJson decimalJson leg.expectedPositionQuantityOunces)]

def RejectedFields.toJson (attempt : RejectedFields) : Value := .obj [
  (key "client_order_id", textJson attempt.clientOrderId),
  (key "leg_index", .int attempt.legIndex)]

def IntentFields.toJson (intent : IntentFields) : Value := .obj [
  (key "intent_id", textJson intent.intentId),
  (key "fill_key", textJson intent.fillKey),
  (key "source_client_order_id", textJson intent.sourceClientOrderId),
  (key "source_trade_id", textJson intent.sourceTradeId),
  (key "source_side", textJson intent.sourceSide.value),
  (key "source_fill_ounces", decimalJson intent.sourceFillOunces),
  (key "hedge_side", textJson intent.hedgeSide.value),
  (key "hedge_quantity_ounces", decimalJson intent.hedgeQuantityOunces),
  (key "hedge_position_id", optionalJson textJson intent.hedgePositionId),
  (key "hedge_position_quantity_ounces",
    optionalJson decimalJson intent.hedgePositionQuantityOunces),
  (key "status", textJson intent.status.value),
  (key "hedge_client_order_id", optionalJson textJson intent.hedgeClientOrderId),
  (key "hedge_filled_ounces", decimalJson intent.hedgeFilledOunces),
  (key "hedge_plan", .arr (intent.hedgePlan.map fun leg => leg.toHedgeLegFields.toJson)),
  (key "hedge_leg_index", .int intent.hedgeLegIndex),
  (key "hedge_leg_filled_ounces", decimalJson intent.hedgeLegFilledOunces),
  (key "hedge_order_ids", textsJson intent.hedgeOrderIds),
  (key "rejected_attempt",
    optionalJson (fun attempt => attempt.toRejectedFields.toJson) intent.rejectedAttempt)]

/-- The rows of a dict. A dict is the same whatever the order of its rows. -/
def rowsJson {α : Type} (write : α → Value) (rows : Dict String α) : Value :=
  .obj (rows.entries.map fun entry => (key entry.1, write entry.2))

/-- `_to_payload`. -/
def StoreState.toPayload (s : StoreState) : Members := [
  (key "schema_version", .int 2),
  (key "source_orders", rowsJson SourceOrderRecord.toJson s.sourceOrders),
  (key "active_source_order_id", optionalJson textJson s.activeSourceOrderId),
  (key "seen_source_fills", textsJson (sortedTexts s.seenSourceFills)),
  (key "seen_hedge_fills", textsJson (sortedTexts s.seenHedgeFills)),
  (key "hedge_intents", rowsJson (fun intent => intent.toIntentFields.toJson) s.hedgeIntents),
  (key "net_unhedged_ounces", decimalJson s.netUnhedgedOunces),
  (key "halt_reason", optionalJson textJson s.haltReason),
  (key "source_freeze_reason", optionalJson textJson s.sourceFreezeReason)]

end Write

section Fractions

/-- Every quantity of a record can be written. -/
structure SourceOrderRecord.Written (record : SourceOrderRecord) : Prop where
  quantity : Decimal.IsFraction record.quantityOunces
  position : ∀ q ∈ record.hedgePositionQuantityOunces, Decimal.IsFraction q
  filled : Decimal.IsFraction record.filledOunces

structure HedgeLegFields.Written (leg : HedgeLegFields) : Prop where
  quantity : Decimal.IsFraction leg.quantityOunces
  expected : ∀ q ∈ leg.expectedPositionQuantityOunces, Decimal.IsFraction q

structure IntentFields.Written (intent : IntentFields) : Prop where
  sourceFill : Decimal.IsFraction intent.sourceFillOunces
  quantity : Decimal.IsFraction intent.hedgeQuantityOunces
  position : ∀ q ∈ intent.hedgePositionQuantityOunces, Decimal.IsFraction q
  filled : Decimal.IsFraction intent.hedgeFilledOunces
  plan : ∀ leg ∈ intent.hedgePlan, leg.toHedgeLegFields.Written
  legFilled : Decimal.IsFraction intent.hedgeLegFilledOunces

/-- A state its file can hold. -/
structure StoreState.Written (s : StoreState) : Prop where
  orders : ∀ record ∈ s.sourceOrders.values, record.Written
  intents : ∀ intent ∈ s.hedgeIntents.values, intent.toIntentFields.Written
  net : Decimal.IsFraction s.netUnhedgedOunces
  retired : ∀ intent ∈ s.hedgeIntents.values, ¬fillsOfAttempt intent s.seenHedgeFills

end Fractions

section RoundTrip

variable {repr : Value → String}

@[simp] theorem strOf_textJson (text : String) : strOf repr (textJson text) = .ok text := by
  simp [strOf, textJson]

theorem decimalOf_decimalJson {q : ℚ} (fraction : Decimal.IsFraction q) :
    decimalOf repr (decimalJson q) = .ok q := by
  obtain ⟨d, read, value⟩ := Decimal.parse_ofRat fraction
  simp [decimalOf, decimalJson, strOf, read, value]

@[simp] theorem sideOf_textJson (side : BusinessOrderSide) :
    sideOf repr (textJson side.value) = .ok side := by
  cases side <;> simp [sideOf, enumOf, BusinessOrderSide.value]

@[simp] theorem statusOf_textJson (status : ObligationStatus) :
    statusOf repr (textJson status.value) = .ok status := by
  cases status <;> simp [statusOf, enumOf, ObligationStatus.value]

theorem optionalOf_optionalJson {α : Type} {read : Value → Except Raised α} {write : α → Value}
    {value : Option α} (present : ∀ a, write a ≠ .null)
    (reads : ∀ a ∈ value, read (write a) = .ok a) :
    optionalOf read (optionalJson write value) = .ok value := by
  cases value with
  | none => rfl
  | some a =>
    have shown := present a
    have back := reads a rfl
    unfold optionalJson optionalOf
    split
    · rename_i null
      exact absurd null shown
    · rw [back]
      rfl

@[simp] theorem optional_text (value : Option String) :
    optionalOf (strOf repr) (optionalJson textJson value) = .ok value :=
  optionalOf_optionalJson (by simp [textJson]) (by simp)

@[simp] theorem optional_side (value : Option BusinessOrderSide) :
    optionalOf (sideOf repr) (optionalJson (fun side => textJson side.value) value) = .ok value :=
  optionalOf_optionalJson (by simp [textJson]) (by simp)

theorem optional_decimal {value : Option ℚ} (fractions : ∀ q ∈ value, Decimal.IsFraction q) :
    optionalOf (decimalOf repr) (optionalJson decimalJson value) = .ok value := by
  apply optionalOf_optionalJson
  · simp [decimalJson]
  · intro q member
    exact decimalOf_decimalJson (fractions q member)

theorem mapM_reads {α β : Type} {read : β → Except Raised α} {write : α → β} {values : List α}
    (reads : ∀ a ∈ values, read (write a) = .ok a) : (values.map write).mapM read = .ok values := by
  induction values with
  | nil => rfl
  | cons a values ih =>
    rw [List.map_cons, List.mapM_cons, reads a (by simp),
      ih fun b member => reads b (by simp [member])]
    rfl

theorem fillKeysOf_textsJson (fills : Finset String) :
    fillKeysOf (textsJson (sortedTexts fills)) = .ok fills := by
  have reads : ((sortedTexts fills).map textJson).mapM fillKeyOf = .ok (sortedTexts fills) :=
    mapM_reads fun text _ => by simp [fillKeyOf, textJson]
  have whole : (sortedTexts fills).toFinset = fills := by simp [sortedTexts]
  simp [fillKeysOf, textsJson, iterate, reads, whole]

theorem sourceOrderOf_toJson {record : SourceOrderRecord} (written : record.Written) :
    sourceOrderOf repr record.toJson = .ok record := by
  have quantity := @decimalOf_decimalJson repr _ written.quantity
  have position := @optional_decimal repr _ written.position
  have filled := @decimalOf_decimalJson repr _ written.filled
  simp [sourceOrderOf, SourceOrderRecord.toJson, membersOf, item, itemOr, Json.member?, key,
    quantity, position, filled]

theorem HedgeLeg.make_toFields (leg : HedgeLeg) : leg.toHedgeLegFields.make = .ok leg := by
  unfold HedgeLegFields.make
  split
  · rfl
  · rename_i e raised
    rw [leg.checked] at raised
    cases raised

theorem HedgeIntent.make_toFields (intent : HedgeIntent) :
    intent.toIntentFields.make = .ok intent := by
  unfold IntentFields.make
  split
  · rfl
  · rename_i e raised
    rw [intent.checked] at raised
    cases raised

theorem RejectedHedgeAttempt.make_toFields (attempt : RejectedHedgeAttempt) :
    attempt.toRejectedFields.make = .ok attempt := by
  unfold RejectedFields.make
  split
  · rfl
  · rename_i e raised
    rw [attempt.checked] at raised
    cases raised

theorem hedgeLegOf_toJson {leg : HedgeLeg} (written : leg.toHedgeLegFields.Written) :
    hedgeLegOf repr leg.toHedgeLegFields.toJson = .ok leg := by
  have quantity := @decimalOf_decimalJson repr _ written.quantity
  have expected := @optional_decimal repr _ written.expected
  have made := leg.make_toFields
  simp [hedgeLegOf, HedgeLegFields.toJson, membersOf, item, itemOr, Json.member?, key, quantity,
    expected, made]

@[simp] theorem exactInt_natCast (index : ℕ) : exactInt (.int index) = .ok index := by
  simp [exactInt]

theorem rejectedAttemptOf_toJson (attempt : RejectedHedgeAttempt) :
    rejectedAttemptOf attempt.toRejectedFields.toJson = .ok attempt := by
  have made := attempt.make_toFields
  simp [rejectedAttemptOf, RejectedFields.toJson, hasFields, item, Json.member?, key, textJson,
    made]

theorem hedgeIntentOf_toJson {intent : HedgeIntent} (written : intent.toIntentFields.Written) :
    hedgeIntentOf repr intent.toIntentFields.toJson = .ok intent := by
  have sourceFill := @decimalOf_decimalJson repr _ written.sourceFill
  have quantity := @decimalOf_decimalJson repr _ written.quantity
  have position := @optional_decimal repr _ written.position
  have filled := @decimalOf_decimalJson repr _ written.filled
  have legFilled := @decimalOf_decimalJson repr _ written.legFilled
  have plan : (intent.hedgePlan.map fun leg => leg.toHedgeLegFields.toJson).mapM (hedgeLegOf repr) =
      .ok intent.hedgePlan :=
        mapM_reads fun leg member => hedgeLegOf_toJson (written.plan leg member)
  have orders : (intent.hedgeOrderIds.map textJson).mapM (strOf repr) = .ok intent.hedgeOrderIds :=
    mapM_reads fun text _ => strOf_textJson text
  have attempt : optionalOf rejectedAttemptOf
      (optionalJson (fun attempt => attempt.toRejectedFields.toJson) intent.rejectedAttempt) =
        .ok intent.rejectedAttempt :=
    optionalOf_optionalJson (by simp [RejectedFields.toJson]) fun a _ => rejectedAttemptOf_toJson a
  have made := intent.make_toFields
  simp [hedgeIntentOf, IntentFields.toJson, membersOf, item, itemOr, Json.member?, key, sourceFill,
    quantity, position, filled, legFilled, iterate, textsJson, plan, orders, attempt, made]

theorem rows_read {α : Type} {read : Value → Except Raised α} {write : α → Value}
    {rows : Dict String α} (reads : ∀ a ∈ rows.values, read (write a) = .ok a) :
    (rows.entries.map fun entry => (key entry.1, write entry.2)).mapM (namedOf read) =
      .ok rows.entries := by
  apply mapM_reads
  intro entry member
  have back := reads entry.2 (List.mem_map_of_mem member)
  simp [namedOf, fillKeyOf, key, back]

theorem ofList_entries {α : Type} (rows : Dict String α) : Dict.ofList rows.entries = rows := by
  have same := Dict.entries_ofList_of_nodup rows.nodup
  cases made : Dict.ofList rows.entries
  cases rows
  rw [made] at same
  simpa using same

theorem attempts_match (rows : Dict String HedgeIntent) :
    (rows.entries.map fun entry => (key entry.1, entry.2.toIntentFields.toJson)).mapM
      (fun member => attemptMatchesSchema 2 member.2) = .ok (rows.entries.map fun _ => true) := by
  generalize rows.entries = entries
  induction entries with
  | nil => rfl
  | cons entry entries ih =>
    have fits : attemptMatchesSchema 2 entry.2.toIntentFields.toJson = .ok true := by
      simp [attemptMatchesSchema, IntentFields.toJson, membersOf, key]
    rw [List.map_cons, List.mapM_cons, fits, ih]
    rfl

/-- A state reads back from what it writes. -/
theorem fromPayload_toPayload {s : StoreState} (written : s.Written) :
    fromPayload repr s.toPayload = .ok s := by
  have net := @decimalOf_decimalJson repr _ written.net
  have orders := @rows_read _ (sourceOrderOf repr) SourceOrderRecord.toJson s.sourceOrders
    fun record member => sourceOrderOf_toJson (written.orders record member)
  have intents := @rows_read _ (hedgeIntentOf repr) (fun intent => intent.toIntentFields.toJson)
    s.hedgeIntents fun intent member => hedgeIntentOf_toJson (written.intents intent member)
  have fitting := attempts_match s.hedgeIntents
  have sourceFills := fillKeysOf_textsJson s.seenSourceFills
  have hedgeFills := fillKeysOf_textsJson s.seenHedgeFills
  have retired : ¬∃ intent ∈ s.hedgeIntents.values, fillsOfAttempt intent s.seenHedgeFills := by
    rintro ⟨intent, member, fills⟩
    exact written.retired intent member fills
  have item (name : String) (value : Value)
    (named : Json.member? (key name) s.toPayload = some value) :
      item s.toPayload name = .ok value := by simp [Store.item, named]
  simp only [fromPayload, bind_eq_ok, raiseIf_eq_ok, pure_eq_ok, exists_const]
  refine ⟨2, rfl, _, item _ _ rfl, _, ⟨_, item _ _ rfl, rfl⟩, _, fitting, by simp, _, rfl, _,
    orders, _,
    intents, _, ⟨_, item _ _ rfl, optional_text _⟩, _, ⟨_, item _ _ rfl, sourceFills⟩, _,
    ⟨_, item _ _ rfl, hedgeFills⟩, _, ⟨_, item _ _ rfl, net⟩, _, ⟨_, item _ _ rfl, optional_text _⟩,
    _, optional_text _, ?_, ?_⟩
  · rw [ofList_entries]
    exact retired
  · rw [ofList_entries, ofList_entries]

end RoundTrip

section Reads

variable {repr : Value → String}

theorem isFraction_of_decimalOf {value : Value} {q : ℚ} (read : decimalOf repr value = .ok q) :
    Decimal.IsFraction q := by
  simp only [decimalOf, bind_eq_ok] at read
  obtain ⟨text, -, parsed⟩ := read
  split at parsed
  · cases parsed
    exact Decimal.isFraction_value _
  · cases parsed
  · cases parsed

theorem optionalOf_eq_ok {α : Type} {P : α → Prop} {read : Value → Except Raised α} {value : Value}
    {result : Option α} (reads : ∀ v a, read v = .ok a → P a)
    (got : optionalOf read value = .ok result) : ∀ a ∈ result, P a := by
  unfold optionalOf at got
  split at got
  · cases got
    intro a member
    cases member
  · simp only [map_eq_ok] at got
    obtain ⟨a, found, rfl⟩ := got
    intro b member
    obtain rfl := Option.some.inj member
    exact reads _ _ found

theorem mapM_yields {α β : Type} {P : α → Prop} {read : β → Except Raised α} {values : List β}
    {results : List α} (reads : ∀ v a, read v = .ok a → P a)
    (got : values.mapM read = .ok results) : ∀ a ∈ results, P a := by
  induction values generalizing results with
  | nil =>
    cases got
    intro a member
    cases member
  | cons value values ih =>
    simp only [List.mapM_cons, bind_eq_ok, pure_eq_ok] at got
    obtain ⟨a, first, rest, more, rfl⟩ := got
    intro b member
    obtain rfl | later := List.mem_cons.1 member
    · exact reads _ _ first
    · exact ih more b later

theorem sourceOrderOf_written {value : Value} {record : SourceOrderRecord}
    (read : sourceOrderOf repr value = .ok record) : record.Written := by
  simp only [sourceOrderOf, bind_eq_ok, pure_eq_ok] at read
  obtain ⟨_, -, _, -, _, -, _, ⟨_, -, quantity⟩, _, -, _, -, _, -, _, -, _, -, _, position, _,
    ⟨_, -, filled⟩, _, -, rfl⟩ := read
  constructor
  · exact isFraction_of_decimalOf quantity
  · exact optionalOf_eq_ok (fun _ _ => isFraction_of_decimalOf) position
  · exact isFraction_of_decimalOf filled

theorem HedgeLegFields.make_eq_ok {fields : HedgeLegFields} {leg : HedgeLeg}
    (made : fields.make = .ok leg) : leg.toHedgeLegFields = fields := by
  unfold HedgeLegFields.make at made
  split at made
  · cases made
    rfl
  · cases made

theorem hedgeLegOf_written {value : Value} {leg : HedgeLeg}
    (read : hedgeLegOf repr value = .ok leg) :
    leg.toHedgeLegFields.Written := by
  simp only [hedgeLegOf, bind_eq_ok] at read
  obtain ⟨_, -, _, -, _, ⟨_, -, quantity⟩, _, -, _, -, _, expected, made⟩ := read
  rw [HedgeLegFields.make_eq_ok made]
  constructor
  · exact isFraction_of_decimalOf quantity
  · exact optionalOf_eq_ok (fun _ _ => isFraction_of_decimalOf) expected

theorem hedgeIntentOf_written {value : Value} {intent : HedgeIntent}
    (read : hedgeIntentOf repr value = .ok intent) : intent.toIntentFields.Written := by
  simp only [hedgeIntentOf, bind_eq_ok] at read
  obtain ⟨_, -, _, -, _, -, _, -, _, -, _, -, _, ⟨_, -, sourceFill⟩, _, -, _, ⟨_, -, quantity⟩, _,
    -, _,
    position, _, -, _, -, _, ⟨_, -, filled⟩, _, ⟨_, -, plan⟩, _, -, _, legFilled, _, -, _, -,
    made⟩ := read
  rw [IntentFields.make_eq_ok made]
  constructor
  · exact isFraction_of_decimalOf sourceFill
  · exact isFraction_of_decimalOf quantity
  · exact optionalOf_eq_ok (fun _ _ => isFraction_of_decimalOf) position
  · exact isFraction_of_decimalOf filled
  · exact mapM_yields (fun _ _ => hedgeLegOf_written) plan
  · exact isFraction_of_decimalOf legFilled

theorem namedOf_yields {α : Type} {P : α → Prop} {read : Value → Except Raised α}
    (reads : ∀ v a, read v = .ok a → P a) {member : PyStr × Value} {entry : String × α}
    (got : namedOf read member = .ok entry) : P entry.2 := by
  simp only [namedOf, bind_eq_ok, pure_eq_ok] at got
  obtain ⟨_, -, _, found, rfl⟩ := got
  exact reads _ _ found

theorem ofList_yields {α : Type} {P : α → Prop} {entries : List (String × α)}
    (all : ∀ entry ∈ entries, P entry.2) : ∀ a ∈ (Dict.ofList entries).values, P a := by
  intro a member
  obtain ⟨k, found⟩ := (Dict.mem_values_iff _ _).1 member
  exact all _ (Dict.mem_of_get?_ofList found)

/-- What is read can be written. -/
theorem fromPayload_written {row : Members} {s : StoreState} (read : fromPayload repr row = .ok s) :
    s.Written := by
  simp only [fromPayload, bind_eq_ok, raiseIf_eq_ok, pure_eq_ok, exists_const] at read
  obtain ⟨_, -, _, -, _, -, _, -, -, _, -, _, orders, _, intents, _, -, _, -, _, -, _, ⟨_, -, net⟩,
    _, -,
    _, -, retired, rfl⟩ := read
  constructor
  · exact ofList_yields (mapM_yields
      (fun _ _ => namedOf_yields fun _ _ => sourceOrderOf_written) orders)
  · exact ofList_yields (mapM_yields
      (fun _ _ => namedOf_yields fun _ _ => hedgeIntentOf_written) intents)
  · exact isFraction_of_decimalOf net
  · intro intent member fills
    exact retired ⟨intent, member, fills⟩

end Reads

end ArbNautilus.Store
