import ArbNautilus.Base.Calendar
import ArbNautilus.Base.Decimal
import ArbNautilus.Base.Dict
import ArbNautilus.Base.Handler
import ArbNautilus.Base.Json
import ArbNautilus.Base.Raise
import ArbNautilus.Store.Json
import Mathlib.Data.List.Sort

namespace ArbNautilus.Bitfinex.Cids

open Base Handler
open Store (Publication)

def maxCid : ℤ := 2 ^ 45 - 1

inductive CidError
  | cidError (message : String)
  | feeConflict (message : String)
  | parentDirectorySync
  | osError
deriving DecidableEq, Repr

section Records

structure CidBinding where
  clientOrderId : PyStr
  cid : ℤ
  allocatedUtcDate : PyStr
deriving DecidableEq, Repr

/-- Evidence of a fill already applied to the native cache. `D` are the amounts. -/
structure NativeFill (D : Type) where
  tradeId : PyStr
  nativeFillOrigin : PyStr
  signedQuantity : D
  price : D
  tsEventNs : ℤ
  liquiditySide : PyStr
  commission : D
  commissionCurrency : PyStr
deriving DecidableEq

/-- Venue trade facts; an absent final fee is pending, not zero. -/
structure FeeTrade (D : Type) where
  tradeId : ℤ
  tsEventMs : ℤ
  executionQty : D
  executionPrice : D
  orderType : PyStr
  orderPrice : D
  maker : Bool
  rawFee : Option D
  feeCurrency : Option PyStr
deriving DecidableEq

structure FeeMetadata (D : Type) where
  cid : ℤ
  venueOrderId : ℤ
  instrumentId : PyStr
  rawSymbol : PyStr
  nativeFills : List (NativeFill D) := []
  venueTrades : List (FeeTrade D) := []
deriving DecidableEq

variable {D E : Type}

def NativeFill.map (f : D → E) (fill : NativeFill D) : NativeFill E where
  tradeId := fill.tradeId
  nativeFillOrigin := fill.nativeFillOrigin
  signedQuantity := f fill.signedQuantity
  price := f fill.price
  tsEventNs := fill.tsEventNs
  liquiditySide := fill.liquiditySide
  commission := f fill.commission
  commissionCurrency := fill.commissionCurrency

def FeeTrade.map (f : D → E) (trade : FeeTrade D) : FeeTrade E where
  tradeId := trade.tradeId
  tsEventMs := trade.tsEventMs
  executionQty := f trade.executionQty
  executionPrice := f trade.executionPrice
  orderType := trade.orderType
  orderPrice := f trade.orderPrice
  maker := trade.maker
  rawFee := trade.rawFee.map f
  feeCurrency := trade.feeCurrency

def FeeMetadata.map (f : D → E) (metadata : FeeMetadata D) : FeeMetadata E where
  cid := metadata.cid
  venueOrderId := metadata.venueOrderId
  instrumentId := metadata.instrumentId
  rawSymbol := metadata.rawSymbol
  nativeFills := metadata.nativeFills.map (·.map f)
  venueTrades := metadata.venueTrades.map (·.map f)

/-- What `==` compares two fills by. -/
def NativeFill.facts (fill : NativeFill Decimal) : NativeFill ℚ := fill.map Decimal.value

def FeeTrade.facts (trade : FeeTrade Decimal) : FeeTrade ℚ := trade.map Decimal.value

def FeeMetadata.facts (metadata : FeeMetadata Decimal) : FeeMetadata ℚ :=
  metadata.map Decimal.value

/-- The scope of fee metadata, without its rows. -/
def FeeMetadata.scope (metadata : FeeMetadata D) : FeeMetadata D :=
  { metadata with nativeFills := [], venueTrades := [] }

def FeeTrade.pending (trade : FeeTrade D) : FeeTrade D :=
  { trade with rawFee := none, feeCurrency := none }

end Records

/-- What one process holds in memory. -/
structure CidStore where
  accountId : PyStr
  byClient : Dict PyStr CidBinding := .empty
  byCid : Dict ℤ CidBinding := .empty
  lastCid : ℤ := 0
  feeMetadata : Dict ℤ (FeeMetadata Decimal) := .empty
  accountingConflict : Bool := false
  feesDurable : Bool := true

/-- The file of a store: absent, not JSON, or the value of its text. -/
inductive File
  | absent
  | garbled
  | holds (value : Json ℚ)

/-- The file, as it is read and as it is known to survive, and one process over it. -/
structure Process where
  file : File
  durable : File
  store : CidStore

section Payload

def key (name : String) : PyStr := .text name.toList

def decimalJson (d : Decimal) : Json ℚ := .str (.text d.format)

def CidBinding.toJson (binding : CidBinding) : Json ℚ := .obj
  [(key "client_order_id", .str binding.clientOrderId), (key "cid", .int binding.cid),
    (key "allocated_utc_date", .str binding.allocatedUtcDate)]

def NativeFill.toJson (fill : NativeFill Decimal) : Json ℚ := .obj
  [(key "trade_id", .str fill.tradeId), (key "native_fill_origin", .str fill.nativeFillOrigin),
    (key "signed_quantity", decimalJson fill.signedQuantity), (key "price", decimalJson fill.price),
    (key "ts_event_ns", .int fill.tsEventNs), (key "liquidity_side", .str fill.liquiditySide),
    (key "commission", decimalJson fill.commission),
    (key "commission_currency", .str fill.commissionCurrency)]

def FeeTrade.toJson (trade : FeeTrade Decimal) : Json ℚ := .obj
  [(key "trade_id", .int trade.tradeId), (key "ts_event_ms", .int trade.tsEventMs),
    (key "execution_qty", decimalJson trade.executionQty),
    (key "execution_price", decimalJson trade.executionPrice),
    (key "order_type", .str trade.orderType), (key "order_price", decimalJson trade.orderPrice),
    (key "maker", .bool trade.maker), (key "raw_fee", (trade.rawFee.map decimalJson).getD .null),
    (key "fee_currency", (trade.feeCurrency.map .str).getD .null)]

def FeeMetadata.toJson (metadata : FeeMetadata Decimal) : Json ℚ := .obj
  [(key "cid", .int metadata.cid), (key "venue_order_id", .int metadata.venueOrderId),
    (key "instrument_id", .str metadata.instrumentId), (key "raw_symbol", .str metadata.rawSymbol),
    (key "native_fills", .arr (metadata.nativeFills.map NativeFill.toJson)),
    (key "venue_trades", .arr (metadata.venueTrades.map FeeTrade.toJson))]

namespace CidStore

def bindings (s : CidStore) : List CidBinding := s.byClient.values

/-- What `_persist` writes. -/
def payload (s : CidStore) (lastCid : ℤ) (bindings : List CidBinding) : Json ℚ := .obj
  [(key "schema_version", .int 2), (key "account_id", .str s.accountId),
    (key "last_cid", .int lastCid), (key "accounting_conflict", .bool s.accountingConflict),
    (key "bindings",
      .arr ((bindings.insertionSort (·.cid ≤ ·.cid)).map CidBinding.toJson)),
    (key "fee_metadata",
      .arr ((s.feeMetadata.values.insertionSort (·.cid ≤ ·.cid)).map FeeMetadata.toJson))]

end CidStore

end Payload

section Load

def refuse {α : Type} (message : String) : Except CidError α := .error (.cidError message)

/-- `_text`. -/
def text (value : Json ℚ) (label : String) : Except CidError PyStr :=
  match value with
  | .str value => if value.isEmpty then refuse (label ++ " must be a non-empty string")
    else .ok value
  | _ => refuse (label ++ " must be a non-empty string")

/-- `_nonnegative_int`. -/
def nonnegativeInt (value : Json ℚ) (label : String) : Except CidError ℤ :=
  match value with
  | .int value =>
    if value < 0 then refuse (label ++ " must be a non-negative exact integer") else .ok value
  | _ => refuse (label ++ " must be a non-negative exact integer")

/-- `_cid`. -/
def cidOf (value : Json ℚ) : Except CidError ℤ := do
  let parsed ← nonnegativeInt value "cid"
  raiseIf (¬(1 ≤ parsed ∧ parsed ≤ maxCid)) (.cidError "cid must be between 1 and 35184372088831")
  pure parsed

/-- `_decimal`. -/
def decimalOf (value : Json ℚ) (nonzero positive : Bool) : Except CidError Decimal :=
  match value with
  | .str (.text text) => match Decimal.parse text with
    | none => refuse "invalid fee decimal"
    | some .special => refuse "invalid finite fee quantity/price/amount"
    | some (.finite parsed) =>
      if (nonzero ∧ parsed.value = 0) ∨ (positive ∧ parsed.value ≤ 0) then
        refuse "invalid finite fee quantity/price/amount"
      else .ok parsed
  | .str (.broken _) => refuse "invalid fee decimal"
  | _ => refuse "fee amounts must be decimal strings"

/-- `dict.get`, with `None` for what is missing. -/
def get (row : List (PyStr × Json ℚ)) (name : String) : Json ℚ :=
  (Json.member? (key name) row).getD .null

/-- Exactly these keys. -/
def hasFields (row : List (PyStr × Json ℚ)) (names : List String) : Bool :=
  row.all (fun member => (names.map key).contains member.1) &&
    (names.map key).all fun name => (row.map Prod.fst).contains name

/-- `_fields`. -/
def fields (value : Json ℚ) (names : List String) : Except CidError (List (PyStr × Json ℚ)) :=
  match value with
  | .obj row => if hasFields row names then .ok row else refuse "fee metadata fields are invalid"
  | _ => refuse "fee metadata fields are invalid"

/-- `_array`. -/
def array (value : Json ℚ) : Except CidError (List (Json ℚ)) :=
  match value with
  | .arr items => .ok items
  | _ => refuse "fee metadata rows must be arrays"

/-- The text is the canonical one of the date it names. -/
def canonicalDate : PyStr → Bool
  | .text value => (Date.ofIsoformat value).any fun date => date.isoformat = value
  | .broken _ => false

/-- `_binding`. -/
def bindingOf (value : Json ℚ) : Except CidError CidBinding :=
  match value with
  | .obj row => do
    raiseIf (hasFields row ["client_order_id", "cid", "allocated_utc_date"] = false)
      (.cidError "binding fields are invalid")
    let allocated ← text (get row "allocated_utc_date") "allocated_utc_date"
    raiseIf (canonicalDate allocated = false) (.cidError "allocated_utc_date is not canonical")
    let clientOrderId ← text (get row "client_order_id") "client_order_id"
    let cid ← cidOf (get row "cid")
    pure ⟨clientOrderId, cid, allocated⟩
  | _ => refuse "binding must be an object"

def fillOrigins : List PyStr := ["te_paper", "tu", "rest", "inferred", "unknown"].map key

def liquiditySides : List PyStr := ["MAKER", "TAKER", "NO_LIQUIDITY_SIDE"].map key

def orderTypes : List PyStr := ["IOC", "LIMIT"].map key

/-- `_native_fill`. -/
def nativeFillOf (value : Json ℚ) : Except CidError (NativeFill Decimal) := do
  let row ← fields value ["trade_id", "native_fill_origin", "signed_quantity", "price",
    "ts_event_ns", "liquidity_side", "commission", "commission_currency"]
  let origin ← text (get row "native_fill_origin") "native_fill_origin"
  let liquidity ← text (get row "liquidity_side") "liquidity_side"
  raiseIf (origin ∉ fillOrigins ∨ liquidity ∉ liquiditySides)
    (.cidError "invalid native fill origin or liquidity")
  let tradeId ← text (get row "trade_id") "trade_id"
  let signedQuantity ← decimalOf (get row "signed_quantity") true false
  let price ← decimalOf (get row "price") false true
  let tsEventNs ← nonnegativeInt (get row "ts_event_ns") "ts_event_ns"
  let commission ← decimalOf (get row "commission") false false
  let commissionCurrency ← text (get row "commission_currency") "commission_currency"
  pure ⟨tradeId, origin, signedQuantity, price, tsEventNs, liquidity, commission,
    commissionCurrency⟩

def isNull : Json ℚ → Bool
  | .null => true
  | _ => false

/-- Nothing for `None`, else what `read` makes of the value. -/
def optional {α : Type} (read : Json ℚ → Except CidError α) (value : Json ℚ) :
    Except CidError (Option α) :=
  if isNull value then .ok none else some <$> read value

def boolOf (value : Json ℚ) : Option Bool :=
  match value with
  | .bool value => some value
  | _ => none

/-- `_fee_trade`. -/
def feeTradeOf (value : Json ℚ) : Except CidError (FeeTrade Decimal) := do
  let row ← fields value ["trade_id", "ts_event_ms", "execution_qty", "execution_price",
    "order_type", "order_price", "maker", "raw_fee", "fee_currency"]
  let tradeId ← nonnegativeInt (get row "trade_id") "trade_id"
  let orderType ← text (get row "order_type") "order_type"
  match boolOf (get row "maker") with
  | none => refuse "invalid fee trade identity/type/maker"
  | some maker => do
    raiseIf (tradeId = 0 ∨ orderType ∉ orderTypes)
      (.cidError "invalid fee trade identity/type/maker")
    raiseIf (isNull (get row "raw_fee") ≠ isNull (get row "fee_currency"))
      (.cidError "final fee needs both amount and currency")
    let tsEventMs ← nonnegativeInt (get row "ts_event_ms") "ts_event_ms"
    let executionQty ← decimalOf (get row "execution_qty") true false
    let executionPrice ← decimalOf (get row "execution_price") false true
    let orderPrice ← decimalOf (get row "order_price") false true
    let rawFee ← optional (decimalOf · false false) (get row "raw_fee")
    let feeCurrency ← optional (text · "fee_currency") (get row "fee_currency")
    pure ⟨tradeId, tsEventMs, executionQty, executionPrice, orderType, orderPrice, maker, rawFee,
      feeCurrency⟩

/-- `_fee_metadata`. -/
def feeMetadataOf (value : Json ℚ) : Except CidError (FeeMetadata Decimal) := do
  let row ← fields value ["cid", "venue_order_id", "instrument_id", "raw_symbol", "native_fills",
    "venue_trades"]
  let native ← (← array (get row "native_fills")).mapM nativeFillOf
  let trades ← (← array (get row "venue_trades")).mapM feeTradeOf
  raiseIf (¬(native.map (·.tradeId)).Nodup ∨ ¬(trades.map (·.tradeId)).Nodup)
    (.cidError "duplicate fee trade identity")
  let venueOrderId ← nonnegativeInt (get row "venue_order_id") "venue_order_id"
  raiseIf (venueOrderId = 0) (.cidError "fee venue_order_id must be positive")
  let cid ← cidOf (get row "cid")
  let instrumentId ← text (get row "instrument_id") "instrument_id"
  let rawSymbol ← text (get row "raw_symbol") "raw_symbol"
  pure ⟨cid, venueOrderId, instrumentId, rawSymbol, native, trades⟩

namespace CidStore

/-- `_fee_scope`. -/
def feeScope (s : CidStore) (scope : FeeMetadata Decimal) :
    Except CidError (FeeMetadata Decimal) := do
  raiseIf (s.byCid.get? scope.cid = none ∨ scope.nativeFills ≠ [] ∨ scope.venueTrades ≠ [])
    (.cidError "fee scope must reference an existing CID without fill rows")
  let current := (s.feeMetadata.get? scope.cid).getD scope
  raiseIf (current.scope ≠ scope ∨ ∃ row ∈ s.feeMetadata.values,
      row.cid ≠ scope.cid ∧ row.venueOrderId = scope.venueOrderId)
    (.cidError "fee metadata changes CID/order identity")
  pure current

def loadBinding (s : CidStore) (value : Json ℚ) : Except CidError CidStore := do
  let binding ← bindingOf value
  raiseIf (s.byClient.get? binding.clientOrderId ≠ none ∨ s.byCid.get? binding.cid ≠ none)
    (.cidError "duplicate persisted binding")
  pure { s with
    byClient := s.byClient.set binding.clientOrderId binding
    byCid := s.byCid.set binding.cid binding }

def loadFeeMetadata (s : CidStore) (value : Json ℚ) : Except CidError CidStore := do
  let metadata ← feeMetadataOf value
  raiseIf (s.feeMetadata.get? metadata.cid ≠ none) (.cidError "duplicate fee metadata CID")
  let _ ← s.feeScope metadata.scope
  pure { s with feeMetadata := s.feeMetadata.set metadata.cid metadata }

/-- `max` of the keys, zero where there are none. -/
def maxKey (keys : List ℤ) : ℤ := keys.foldl max 0

def loadFees (s : CidStore) (raw : List (PyStr × Json ℚ)) : Except CidError CidStore := do
  match boolOf (get raw "accounting_conflict") with
  | none => refuse "accounting_conflict must be a boolean"
  | some conflict => match get raw "fee_metadata" with
    | .arr rows => rows.foldlM loadFeeMetadata { s with accountingConflict := conflict }
    | _ => refuse "fee_metadata must be an array"

def schemaOf (raw : List (PyStr × Json ℚ)) : Option ℤ :=
  match get raw "schema_version" with
  | .int version => if version = 1 ∨ version = 2 then some version else none
  | _ => none

def isStr (value : Json ℚ) (expected : PyStr) : Bool :=
  match value with
  | .str value => value = expected
  | _ => false

/-- The store of an account that has read its file. -/
def load (accountId : PyStr) : File → Except CidError CidStore
  | .absent => .ok { accountId }
  | .garbled => refuse "CID state is not JSON"
  | .holds (.obj raw) => match schemaOf raw with
    | none => refuse "unsupported CID state schema"
    | some version => do
      raiseIf (isStr (get raw "account_id") accountId = false)
        (.cidError "CID state account_id does not match configuration")
      let lastCid ← nonnegativeInt (get raw "last_cid") "last_cid"
      match get raw "bindings" with
      | .arr rows => do
        let s ← rows.foldlM loadBinding { accountId }
        raiseIf (lastCid ≠ maxKey s.byCid.keys)
          (.cidError "last_cid does not match persisted bindings")
        let s := { s with lastCid }
        if version = 2 then s.loadFees raw else pure s
      | _ => refuse "bindings must be an array"
  | .holds _ => refuse "unsupported CID state schema"

/-- `__init__`. -/
def init (accountId : PyStr) (file : File) : Except CidError CidStore := do
  let accountId ← text (.str accountId) "account_id"
  load accountId file

end CidStore

end Load

section Calls

namespace CidStore

/-- `_remember`. -/
def remember (s : CidStore) (binding : CidBinding) : CidStore :=
  { s with
    byClient := s.byClient.set binding.clientOrderId binding
    byCid := s.byCid.set binding.cid binding
    lastCid := binding.cid }

end CidStore

abbrev StoreCall (α : Type) := Handler Process CidError α

def changeStore (f : CidStore → CidStore) : StoreCall Unit :=
  change fun p => { p with store := f p.store }

/-- `_persist`, with what becomes of the replacement of the file. -/
def persist (outcome : Publication) (lastCid : ℤ) (bindings : List CidBinding) :
    StoreCall Unit := do
  raiseWhen (outcome = .failed) .osError
  change fun p => { p with file := .holds (p.store.payload lastCid bindings) }
  raiseWhen (outcome = .parentSyncFailed) .parentDirectorySync
  change fun p => { p with durable := p.file, store := { p.store with feesDurable := true } }

def allocatedDate (epochMs : ℤ) :
    PyStr := .text (Date.ofDays (epochMs / 1000 / 86400).toNat).isoformat

def allocate (outcome : Publication) (clientOrderId : PyStr) (epochMs : ℤ) :
    StoreCall CidBinding := do
  let clientId ← check (text (.str clientOrderId) "client_order_id")
  let s ← look (·.store)
  raiseWhen (s.byClient.get? clientId ≠ none) (.cidError "client_order_id is already bound")
  let nowMs ← check (nonnegativeInt (.int epochMs) "epoch_ms")
  let cid := max nowMs (s.lastCid + 1)
  raiseWhen (maxCid < cid) (.cidError "CID exceeds int45 maximum 35184372088831")
  let binding : CidBinding := ⟨clientId, cid, allocatedDate nowMs⟩
  fun p => match persist outcome cid (s.bindings ++ [binding]) p with
    | (.ok (), q) => (.ok binding, { q with store := q.store.remember binding })
    | (.error .parentDirectorySync, q) =>
      (.error .parentDirectorySync, { q with store := q.store.remember binding })
    | (.error e, q) => (.error e, q)

/-- Write what is in memory: `_persist(self._last_cid, tuple(self._by_client.values()))`. -/
def persistAll (outcome : Publication) : StoreCall Unit := do
  let s ← look (·.store)
  persist outcome s.lastCid s.bindings

/-- `_save_fee_metadata`. -/
def saveFeeMetadata (outcome : Publication) (metadata : FeeMetadata Decimal) : StoreCall Unit := do
  let s ← look (·.store)
  if (s.feeMetadata.get? metadata.cid).map FeeMetadata.facts = some metadata.facts ∧ s.feesDurable
  then pure ()
  else do
    changeStore fun s =>
      { s with feeMetadata := s.feeMetadata.set metadata.cid metadata, feesDurable := false }
    persistAll outcome

def recordNativeFill (outcome : Publication) (scope : FeeMetadata Decimal)
    (fill : NativeFill Decimal) : StoreCall Unit := do
  let s ← look (·.store)
  let current ← check (s.feeScope scope)
  match current.nativeFills.find? (·.tradeId = fill.tradeId) with
  | some previous => do
    raiseWhen (previous.facts ≠ fill.facts)
      (.cidError "native fill changed its applied facts or origin")
    saveFeeMetadata outcome current
  | none => saveFeeMetadata outcome { current with nativeFills := current.nativeFills ++ [fill] }

/-- What `record_venue_trade` keeps of a trade it knows already. -/
def settledTrade (previous : Option (FeeTrade Decimal)) (trade : FeeTrade Decimal) :
    Except CidError (FeeTrade Decimal) :=
  match previous with
  | none => .ok trade
  | some previous => do
    raiseIf (previous.pending.facts ≠ trade.pending.facts)
      (.cidError "Bitfinex trade ID changed its execution facts or fee")
    raiseIf (previous.rawFee.isSome ∧ trade.rawFee.isSome ∧ previous.facts ≠ trade.facts)
      (.feeConflict "Bitfinex trade ID changed its final fee facts")
    -- A repeated interim trade must never erase a final fee.
    pure (if previous.rawFee.isSome then previous else trade)

def recordVenueTrade (outcome : Publication) (scope : FeeMetadata Decimal)
    (trade : FeeTrade Decimal) : StoreCall Unit := do
  let s ← look (·.store)
  let current ← check (s.feeScope scope)
  let trade ← check
    (settledTrade (current.venueTrades.find? (·.tradeId = trade.tradeId)) trade)
  let rows := Dict.ofList (current.venueTrades.map fun row => (row.tradeId, row))
  saveFeeMetadata outcome { current with venueTrades := (rows.set trade.tradeId trade).values }

def markAccountingConflict (outcome : Publication) : StoreCall Unit := do
  let s ← look (·.store)
  if s.accountingConflict ∧ s.feesDurable then pure ()
  else do
    changeStore fun s => { s with accountingConflict := true, feesDurable := false }
    persistAll outcome

end Calls

end ArbNautilus.Bitfinex.Cids
