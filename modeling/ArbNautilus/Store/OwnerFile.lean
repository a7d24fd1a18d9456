import ArbNautilus.Base.Binary64
import ArbNautilus.Store.Maker
import ArbNautilus.Store.Payload

/-! The file of an allocation owner: what `_to_payload` writes and `_load` reads. -/

namespace ArbNautilus.Store

open Base

def ViewKey.name : ViewKey → String
  | .bid => "bid"
  | .ask => "ask"
  | .taker => "taker"

def SourceDirection.value : SourceDirection → String
  | .long => "bid"
  | .short => "ask"

def routeFields : List String :=
  ["source_account_id", "source_client_id", "hedge_account_id", "hedge_client_id",
    "isolated_source_order_id"]

/-- The two instruments an owner's file is bound to. -/
structure InstrumentBindings where
  sourceInstrumentId : String
  hedgeInstrumentId : String
deriving DecidableEq

/-- Another error in the place of any. -/
def orRaise {α : Type} (message : String) : Except Raised α → Except Raised α
  | .ok a => .ok a
  | .error _ => .error (.valueError message)

/-- Another error in the place of a missing or ill-typed member. -/
def orInvalid {α : Type} (message : String) : Except Raised α → Except Raised α
  | .error (.keyError _) | .error (.typeError _) => .error (.valueError message)
  | result => result

theorem orRaise_eq_ok {α : Type} {message : String} {x : Except Raised α} {a : α} :
    orRaise message x = .ok a ↔ x = .ok a := by
  unfold orRaise
  split <;> simp

theorem orInvalid_eq_ok {α : Type} {message : String} {x : Except Raised α} {a : α} :
    orInvalid message x = .ok a ↔ x = .ok a := by
  unfold orInvalid
  split <;> simp

section Read

variable (repr : Value → String)

/-- `Decimal(value)`, which takes a float as it is. A list of digits is not taken. -/
def numberOf : Value → Except Raised ℚ
  | .str text => decimalOf repr (.str text)
  | .int value => .ok value
  | .bool value => .ok (if value then 1 else 0)
  | .real text => match Decimal.parse text with
    | some (.finite number) => .ok (Binary64.nearest number.value)
    | _ => .error (.valueError "quantity is not finite")
  | _ => .error (.typeError "conversion to Decimal is not supported")

def routeTextOf : Value → Except Raised (Option String)
  | .null => .ok none
  | value => some <$> fillKeyOf value

def routeOf : Value → Except Raised Route
  | .obj row => do
    raiseIf (hasFields row routeFields = false) (.valueError "route fields differ")
    let sourceAccountId ← routeTextOf (itemOr row "source_account_id" .null)
    let sourceClientId ← routeTextOf (itemOr row "source_client_id" .null)
    let hedgeAccountId ← routeTextOf (itemOr row "hedge_account_id" .null)
    let hedgeClientId ← routeTextOf (itemOr row "hedge_client_id" .null)
    let isolatedSourceOrderId ← routeTextOf (itemOr row "isolated_source_order_id" .null)
    pure ⟨sourceAccountId, sourceClientId, hedgeAccountId, hedgeClientId, isolatedSourceOrderId⟩
  | _ => .error (.typeError "route is no object")

/-- One record of `_read_allocations`. -/
def allocationOf : Value → Except Raised Allocation
  | .obj row => do
    raiseIf (hasFields row ["fill_key", "route", "signed_fill_ounces", "allocated_ounces"] = false)
      (.valueError "invalid Maker allocation record")
    let fillKey ← orRaise "invalid Maker allocation record"
      (fillKeyOf (itemOr row "fill_key" .null))
    let route ← orRaise "invalid Maker allocation route snapshot"
      (routeOf (itemOr row "route" .null))
    let signed ← orRaise "invalid Maker allocation quantity"
      (numberOf repr (itemOr row "signed_fill_ounces" .null))
    let allocated ← orRaise "invalid Maker allocation quantity"
      (numberOf repr (itemOr row "allocated_ounces" .null))
    pure ⟨fillKey, route, signed, allocated⟩
  | _ => .error (.valueError "invalid Maker allocation record")

/-- `_read_allocations`. -/
def readAllocations : Value → Except Raised (List Allocation)
  | .arr items => items.mapM (allocationOf repr)
  | _ => .error (.valueError "Maker allocations must be an ordered list")

def directionOf (value : Value) : Except Raised SourceDirection := do
  let text ← fillKeyOf value
  enumOf repr [.long, .short] SourceDirection.value "SourceDirection" (textJson text)

def textsOf : Value → Except Raised (List String)
  | .arr items => items.mapM fillKeyOf
  | _ => .error (.typeError "texts are no list")

/-- One order of `_read_checkpoint`. -/
def legacyOrderOf : Value → Except Raised LegacyOrder
  | .obj row => do
    raiseIf (hasFields row ["client_order_id", "direction", "route", "filled_ounces", "fill_keys",
      "intent_ids", "allocated_ounces"] = false) (.valueError "invalid legacy checkpoint order")
    let clientOrderId ← orRaise "invalid legacy checkpoint order"
      (fillKeyOf (itemOr row "client_order_id" .null))
    let route ← orRaise "invalid legacy checkpoint route or identities"
      (routeOf (itemOr row "route" .null))
    let fillKeys ← orRaise "invalid legacy checkpoint route or identities"
      (textsOf (itemOr row "fill_keys" .null))
    let intentIds ← orRaise "invalid legacy checkpoint route or identities"
      (textsOf (itemOr row "intent_ids" .null))
    let direction ← orRaise "invalid legacy checkpoint quantity or direction"
      (directionOf repr (itemOr row "direction" .null))
    let filledOunces ← orRaise "invalid legacy checkpoint quantity or direction"
      (numberOf repr (itemOr row "filled_ounces" .null))
    let allocatedOunces ← orRaise "invalid legacy checkpoint quantity or direction"
      (numberOf repr (itemOr row "allocated_ounces" .null))
    pure ⟨clientOrderId, direction, route, filledOunces, fillKeys, intentIds, allocatedOunces⟩
  | _ => .error (.valueError "invalid legacy checkpoint order")

/-- The text of a SHA-256. -/
def isDigest (text : String) : Prop :=
  text.toList.length = 64 ∧ ∀ c ∈ text.toList, c ∈ "0123456789abcdef".toList

instance (text : String) : Decidable (isDigest text) := inferInstanceAs (Decidable (_ ∧ _))

def legacySourceOf : Value → Except Raised (String × String)
  | .obj row => do
    raiseIf (hasFields row ["path", "sha256"] = false)
      (.valueError "invalid legacy checkpoint source metadata")
    let path ← orRaise "invalid legacy checkpoint source metadata"
      (fillKeyOf (itemOr row "path" .null))
    let digest ← orRaise "invalid legacy checkpoint source metadata"
      (fillKeyOf (itemOr row "sha256" .null))
    raiseIf (path = "" ∨ ¬isDigest digest) (.valueError "invalid legacy checkpoint source metadata")
    pure (path, digest)
  | _ => .error (.valueError "invalid legacy checkpoint source metadata")

def arrayOf (message : String) : Value → Except Raised (List Value)
  | .arr items => .ok items
  | _ => .error (.valueError message)

def isText (value : Value) (expected : String) : Bool :=
  match value with
  | .str text => text = key expected
  | _ => false

/-- `_read_checkpoint`. -/
def readCheckpoint : Value → Except Raised (List (String × String) × List LegacyOrder)
  | .obj row => do
    raiseIf (hasFields row ["projection", "sources", "orders"] = false ∨
      isText (itemOr row "projection" .null) "bid_then_ask" = false)
      (.valueError "invalid legacy checkpoint")
    let sources ← arrayOf "invalid legacy checkpoint" (itemOr row "sources" .null)
    let orders ← arrayOf "invalid legacy checkpoint" (itemOr row "orders" .null)
    raiseIf (sources.length ≠ 1 ∧ sources.length ≠ 2) (.valueError "invalid legacy checkpoint")
    let sources ← sources.mapM legacySourceOf
    raiseIf (¬(sources.map Prod.fst).Nodup) (.valueError "duplicate legacy checkpoint source")
    let orders ← orders.mapM (legacyOrderOf repr)
    pure (sources, orders)
  | _ => .error (.valueError "invalid legacy checkpoint")

def versionOf : Value → Option ℤ
  | .int version => some version
  | _ => none

def ownerFields (shared : Bool) (version : ℤ) : List String :=
  ["schema_version", "kind", "source_instrument_id", "hedge_instrument_id", "directions",
    "allocations"] ++
    (if version ∈ [4, 6, 8] then ["legacy_checkpoint"] else []) ++
    (if version ∈ [5, 6, 7, 8, 9] then ["cycle_freeze_only"] else []) ++
    (if shared then ["strategy_ids"] else [])

def isStrategyBindings (value : Value) : Option (String × String) → Bool
  | none => true
  | some (maker, taker) => match value with
    | .obj row => hasFields row ["bid", "ask", "taker"] && isText (itemOr row "bid" .null) maker &&
        isText (itemOr row "ask" .null) maker && isText (itemOr row "taker" .null) taker
    | _ => false

def boolOf : Value → Except Raised Bool
  | .bool value => .ok value
  | _ => .error (.valueError "Maker cycle freeze provenance must be a boolean")

def hasSchema (version : ℤ) : Value → Bool
  | .obj row => versionOf (itemOr row "schema_version" .null) = some version
  | _ => false

/-- What `__init__` is given of an owner besides its path. -/
structure OwnerArgs where
  instruments : InstrumentBindings
  sharedStrategyIds : Option (String × String) := none
  residualLimit : ℚ := 0
  carryRoute : Option Route := none

def OwnerArgs.config (args : OwnerArgs) (legacySources : Option (List (String × String)))
    (legacyOrders : List LegacyOrder) : OwnerConfig :=
  ⟨args.sharedStrategyIds, args.residualLimit, args.carryRoute, legacySources, legacyOrders⟩

def ownerKind (args : OwnerArgs) : String :=
  if args.sharedStrategyIds.isSome then "shared" else "maker"

/-- The views of an owner; a view it does not have stays empty. -/
def readView (args : OwnerArgs) (row : Members) (v : ViewKey) : Except Raised StoreState :=
  if v ∈ (args.config none []).viewKeys then do
    let state ← membersOf (itemOr row v.name .null)
    fromPayload repr state
  else .ok .emptyState

def viewsOf (bid ask taker : StoreState) : ViewKey → StoreState
  | .bid => bid
  | .ask => ask
  | .taker => taker

def expectedSchema (version : ℤ) : ℤ := if version ∈ [7, 8, 9] then 2 else 1

/-- The state behind a file's header. -/
def loadState (args : OwnerArgs) (version : ℤ) (cycleFreezeOnly : Bool) (row directions : Members) :
    Except Raised (OwnerConfig × Book) := do
  raiseIf (hasFields directions ((args.config none []).viewKeys.map ViewKey.name) = false)
    (.valueError "state owner requires exactly its configured views")
  raiseIf (∃ member ∈ directions, hasSchema (expectedSchema version) member.2 = false)
    (.valueError "invalid Maker direction schema")
  orInvalid "invalid Maker direction state" (do
    let checkpoint ←
      if version ∈ [4, 6, 8] then
        some <$> readCheckpoint repr (itemOr row "legacy_checkpoint" .null)
      else .ok none
    let allocations ← readAllocations repr (itemOr row "allocations" .null)
    let bid ← readView repr args directions .bid
    let ask ← readView repr args directions .ask
    let taker ← readView repr args directions .taker
    pure (args.config (checkpoint.map Prod.fst) ((checkpoint.map Prod.snd).getD []),
      ⟨viewsOf bid ask taker, allocations, cycleFreezeOnly⟩))

/-- `_load`. -/
def load (args : OwnerArgs) (file : Value) : Except Raised (OwnerConfig × Book) :=
  let unsupported := Raised.valueError
    "unsupported Maker state schema; legacy state requires migration"
  match file with
  | .obj row =>
    match versionOf (itemOr row "schema_version" .null) with
    | none => .error unsupported
    | some version => do
      let shared := args.sharedStrategyIds.isSome
      raiseIf (hasFields row (ownerFields shared version) = false ∨
        version ∉ (if shared then [9] else [3, 4, 5, 6, 7, 8])) unsupported
      raiseIf (isStrategyBindings (itemOr row "strategy_ids" .null) args.sharedStrategyIds = false)
        (.valueError "shared state strategy bindings differ")
      let cycleFreezeOnly ← boolOf (itemOr row "cycle_freeze_only" (.bool false))
      raiseIf (isText (itemOr row "kind" .null) (ownerKind args) = false ∨
          isText (itemOr row "source_instrument_id" .null) args.instruments.sourceInstrumentId =
          false ∨
          isText (itemOr row "hedge_instrument_id" .null) args.instruments.hedgeInstrumentId =
          false)
        (.valueError "Maker state kind or instrument binding differs")
      match itemOr row "directions" .null with
      | .obj directions => loadState repr args version cycleFreezeOnly row directions
      | _ => .error (.valueError "state owner requires exactly its configured views")
  | _ => .error unsupported

/-- `__init__` over an existing file: what is loaded is validated. -/
def openOwner (args : OwnerArgs) (file : Value) : Except Raised MakerStateStore := do
  let (cfg, book) ← load repr args file
  cfg.validate book
  pure ⟨cfg, book, book, false⟩

end Read

section Write

def Route.toJson (route : Route) : Value := .obj [
  (key "source_account_id", optionalJson textJson route.sourceAccountId),
  (key "source_client_id", optionalJson textJson route.sourceClientId),
  (key "hedge_account_id", optionalJson textJson route.hedgeAccountId),
  (key "hedge_client_id", optionalJson textJson route.hedgeClientId),
  (key "isolated_source_order_id", optionalJson textJson route.isolatedSourceOrderId)]

def Allocation.toJson (item : Allocation) : Value := .obj [
  (key "fill_key", textJson item.fillKey),
  (key "route", item.route.toJson),
  (key "signed_fill_ounces", decimalJson item.signedFillOunces),
  (key "allocated_ounces", decimalJson item.allocatedOunces)]

def LegacyOrder.toJson (item : LegacyOrder) : Value := .obj [
  (key "client_order_id", textJson item.clientOrderId),
  (key "direction", textJson item.direction.value),
  (key "route", item.route.toJson),
  (key "filled_ounces", decimalJson item.filledOunces),
  (key "fill_keys", textsJson item.fillKeys),
  (key "intent_ids", textsJson item.intentIds),
  (key "allocated_ounces", decimalJson item.allocatedOunces)]

def legacySourceJson (source : String × String) : Value := .obj [
  (key "path", textJson source.1),
  (key "sha256", textJson source.2)]

def checkpointJson (sources : List (String × String)) (orders : List LegacyOrder) : Value := .obj [
  (key "projection", textJson "bid_then_ask"),
  (key "sources", .arr (sources.map legacySourceJson)),
  (key "orders", .arr (orders.map LegacyOrder.toJson))]

/-- `_strategy_bindings`. -/
def strategyBindings (ids : String × String) : Value := .obj [
  (key "bid", textJson ids.1),
  (key "ask", textJson ids.1),
  (key "taker", textJson ids.2)]

def OwnerConfig.writtenVersion (cfg : OwnerConfig) : ℤ :=
  if cfg.sharedStrategyIds.isSome then 9 else if cfg.legacySources.isNone then 7 else 8

def directionsJson (cfg : OwnerConfig) (b : Book) : Members :=
  cfg.viewKeys.map fun v => (key v.name, .obj (b.views v).toPayload)

/-- `_to_payload` of the owner. -/
def OwnerConfig.toPayload (cfg : OwnerConfig) (args : OwnerArgs) (b : Book) : Value := .obj <|
  [(key "schema_version", .int cfg.writtenVersion),
    (key "cycle_freeze_only", .bool b.cycleFreezeOnly),
    (key "kind", textJson (ownerKind args)),
    (key "source_instrument_id", textJson args.instruments.sourceInstrumentId),
    (key "hedge_instrument_id", textJson args.instruments.hedgeInstrumentId),
    (key "allocations", .arr (b.allocations.map Allocation.toJson)),
    (key "directions", .obj (directionsJson cfg b))] ++
  (cfg.sharedStrategyIds.toList.map fun ids => (key "strategy_ids", strategyBindings ids)) ++
  (cfg.legacySources.toList.map fun sources =>
    (key "legacy_checkpoint", checkpointJson sources cfg.legacyOrders))

end Write

section RoundTrip

variable {repr : Value → String}

theorem fillKeyOf_textJson (text : String) : fillKeyOf (textJson text) = .ok text := by
  simp [fillKeyOf, textJson]

@[simp] theorem orRaise_ok {α : Type} (message : String) (a : α) :
    orRaise message (.ok a) = .ok a := rfl

theorem orInvalid_of_ok {α : Type} {message : String} {x : Except Raised α} {a : α}
    (h : x = .ok a) :
    orInvalid message x = .ok a := by
  rw [h]
  rfl

theorem numberOf_decimalJson {q : ℚ} (fraction : Decimal.IsFraction q) :
    numberOf repr (decimalJson q) = .ok q := decimalOf_decimalJson fraction

theorem routeTextOf_optionalJson (value : Option String) :
    routeTextOf (optionalJson textJson value) = .ok value := by
  cases value with
  | none => rfl
  | some text => simp [optionalJson, routeTextOf, textJson, fillKeyOf]

theorem routeOf_toJson (route : Route) : routeOf route.toJson = .ok route := by
  simp [routeOf, Route.toJson, routeFields, hasFields, itemOr, Json.member?, key,
    routeTextOf_optionalJson]

theorem allocationOf_toJson {item : Allocation} (signed : Decimal.IsFraction item.signedFillOunces)
    (allocated : Decimal.IsFraction item.allocatedOunces) :
    allocationOf repr item.toJson = .ok item := by
  have fill := fillKeyOf_textJson item.fillKey
  have route := routeOf_toJson item.route
  have first := @numberOf_decimalJson repr _ signed
  have second := @numberOf_decimalJson repr _ allocated
  simp [allocationOf, Allocation.toJson, hasFields, itemOr, Json.member?, key, fill, route, first,
    second]

theorem directionOf_textJson (direction : SourceDirection) :
    directionOf repr (textJson direction.value) = .ok direction := by
  cases direction <;>
    simp [directionOf, fillKeyOf_textJson, enumOf, SourceDirection.value]

theorem textsOf_textsJson (texts : List String) : textsOf (textsJson texts) = .ok texts :=
  mapM_reads fun text _ => fillKeyOf_textJson text

theorem legacyOrderOf_toJson {item : LegacyOrder} (filled : Decimal.IsFraction item.filledOunces)
    (allocated : Decimal.IsFraction item.allocatedOunces) :
    legacyOrderOf repr item.toJson = .ok item := by
  have named := fillKeyOf_textJson item.clientOrderId
  have direction := @directionOf_textJson repr item.direction
  have route := routeOf_toJson item.route
  have fills := textsOf_textsJson item.fillKeys
  have intents := textsOf_textsJson item.intentIds
  have first := @numberOf_decimalJson repr _ filled
  have second := @numberOf_decimalJson repr _ allocated
  simp [legacyOrderOf, LegacyOrder.toJson, hasFields, itemOr, Json.member?, key, named, direction,
    route, fills, intents, first, second]

theorem legacySourceOf_json {source : String × String} (named : source.1 ≠ "")
    (digest : isDigest source.2) : legacySourceOf (legacySourceJson source) = .ok source := by
  simp [legacySourceOf, legacySourceJson, hasFields, itemOr, Json.member?, key, fillKeyOf_textJson,
    named, digest]

/-- What a checkpoint's sources satisfy. -/
structure SourcesWritten (sources : List (String × String)) : Prop where
  count : sources.length = 1 ∨ sources.length = 2
  nodup : (sources.map Prod.fst).Nodup
  named : ∀ source ∈ sources, source.1 ≠ ""
  digest : ∀ source ∈ sources, isDigest source.2

theorem readCheckpoint_json {sources : List (String × String)} {orders : List LegacyOrder}
    (written : SourcesWritten sources)
    (filled : ∀ item ∈ orders, Decimal.IsFraction item.filledOunces)
    (allocated : ∀ item ∈ orders, Decimal.IsFraction item.allocatedOunces) :
    readCheckpoint repr (checkpointJson sources orders) = .ok (sources, orders) := by
  have paths : (sources.map legacySourceJson).mapM legacySourceOf = .ok sources :=
    mapM_reads fun source member =>
      legacySourceOf_json (written.named source member) (written.digest source member)
  have items : (orders.map LegacyOrder.toJson).mapM (legacyOrderOf repr) = .ok orders :=
    mapM_reads fun item member => legacyOrderOf_toJson (filled item member) (allocated item member)
  have count : ¬sources.length = 1 → sources.length = 2 := written.count.resolve_left
  have nodup := written.nodup
  simp [readCheckpoint, checkpointJson, hasFields, itemOr, Json.member?, key, isText, textJson,
    arrayOf, paths, items, nodup]
  exact count

/-- An owner its file can hold. -/
structure OwnerWritten (args : OwnerArgs) (cfg : OwnerConfig) (b : Book) : Prop where
  config : cfg = args.config cfg.legacySources cfg.legacyOrders
  standalone : args.sharedStrategyIds.isSome → cfg.legacySources = none
  unmigrated : cfg.legacySources = none → cfg.legacyOrders = []
  sources : ∀ sources ∈ cfg.legacySources, SourcesWritten sources
  filled : ∀ item ∈ cfg.legacyOrders, Decimal.IsFraction item.filledOunces
  allocated : ∀ item ∈ cfg.legacyOrders, Decimal.IsFraction item.allocatedOunces
  signed : ∀ item ∈ b.allocations, Decimal.IsFraction item.signedFillOunces
  rounded : ∀ item ∈ b.allocations, Decimal.IsFraction item.allocatedOunces
  views : ∀ v ∈ cfg.viewKeys, (b.views v).Written
  absent : ∀ v ∉ cfg.viewKeys, b.views v = .emptyState

theorem viewKeys_config (args : OwnerArgs) (sources : Option (List (String × String)))
    (orders : List LegacyOrder) :
    (args.config sources orders).viewKeys =
      if args.sharedStrategyIds.isSome then [.bid, .ask, .taker] else [.bid, .ask] := rfl

variable {args : OwnerArgs} {cfg : OwnerConfig} {b : Book}

theorem readView_directionsJson (written : OwnerWritten args cfg b) (v : ViewKey) :
    readView repr args (directionsJson cfg b) v = .ok (b.views v) := by
  have same : (args.config none []).viewKeys = cfg.viewKeys := by
    rw [written.config]
    rfl
  unfold readView
  rw [same]
  by_cases known : v ∈ cfg.viewKeys
  · have reads := @fromPayload_toPayload repr _ (written.views v known)
    have found : itemOr (directionsJson cfg b) v.name .null = .obj (b.views v).toPayload := by
      rw [directionsJson, ← same, viewKeys_config]
      rw [← same, viewKeys_config] at known
      cases shared : args.sharedStrategyIds.isSome <;> cases v <;>
        simp [shared, itemOr, Json.member?, key, ViewKey.name] at known ⊢
    rw [if_pos known, found]
    simpa [membersOf] using reads
  · rw [if_neg known, written.absent v known]

theorem directionsJson_fields (cfg : OwnerConfig) (b : Book) :
    hasFields (directionsJson cfg b) (cfg.viewKeys.map ViewKey.name) = true := by
  simp only [hasFields, directionsJson, List.map_map, List.all_map, Bool.and_eq_true,
    List.all_eq_true,
    Function.comp_apply, List.contains_iff_mem, List.mem_map]
  constructor
  · intro v member
    exact ⟨v, member, rfl⟩
  · intro v member
    exact ⟨v, member, rfl⟩

theorem directionsJson_schema (cfg : OwnerConfig) (b : Book) :
    ¬∃ member ∈ directionsJson cfg b, hasSchema 2 member.2 = false := by
  rintro ⟨member, listed, other⟩
  obtain ⟨v, -, rfl⟩ := List.mem_map.1 listed
  cases other

theorem loadState_toPayload (written : OwnerWritten args cfg b) {row : Members}
    (allocations : itemOr row "allocations" .null = .arr (b.allocations.map Allocation.toJson))
    (checkpoint : ∀ sources ∈ cfg.legacySources,
      itemOr row "legacy_checkpoint" .null = checkpointJson sources cfg.legacyOrders) :
    loadState repr args cfg.writtenVersion b.cycleFreezeOnly row (directionsJson cfg b) =
      .ok (cfg, b) := by
  have same : (args.config none []).viewKeys = cfg.viewKeys := by
    rw [written.config]
    rfl
  have version : expectedSchema cfg.writtenVersion = 2 := by
    unfold OwnerConfig.writtenVersion
    split_ifs <;> rfl
  have items : readAllocations repr (itemOr row "allocations" .null) = .ok b.allocations := by
    rw [allocations]
    exact mapM_reads fun item member =>
      allocationOf_toJson (written.signed item member) (written.rounded item member)
  have legacy : (if cfg.writtenVersion ∈ [4, 6, 8] then
        some <$> readCheckpoint repr (itemOr row "legacy_checkpoint" .null) else .ok none) =
      .ok (cfg.legacySources.map fun sources => (sources, cfg.legacyOrders)) := by
    cases migrated : cfg.legacySources with
    | none =>
      have other : cfg.writtenVersion ∉ [4, 6, 8] := by
        unfold OwnerConfig.writtenVersion
        rw [migrated]
        cases cfg.sharedStrategyIds.isSome <;> decide
      rw [if_neg other]
      rfl
    | some sources =>
      have alone : cfg.sharedStrategyIds = none := by
        rw [written.config]
        by_contra shared
        have none := written.standalone (Option.isSome_iff_ne_none.2 shared)
        rw [migrated] at none
        cases none
      have eight : cfg.writtenVersion = 8 := by
        unfold OwnerConfig.writtenVersion
        rw [alone, migrated]
        rfl
      rw [eight, if_pos (by decide), checkpoint sources migrated,
        readCheckpoint_json (written.sources sources migrated) written.filled written.allocated]
      rfl
  have fields := directionsJson_fields cfg b
  have schema := directionsJson_schema cfg b
  have whole : (⟨viewsOf (b.views .bid) (b.views .ask) (b.views .taker), b.allocations,
      b.cycleFreezeOnly⟩ : Book) = b := by
    obtain ⟨views, _, _⟩ := b
    congr 1
    funext v
    cases v <;> rfl
  have config : args.config ((cfg.legacySources.map fun sources => (sources, cfg.legacyOrders)).map
      Prod.fst) (((cfg.legacySources.map fun sources => (sources, cfg.legacyOrders)).map
      Prod.snd).getD []) = cfg := by
    cases migrated : cfg.legacySources with
    | none =>
      have none := written.unmigrated migrated
      rw [written.config, migrated, none]
      rfl
    | some sources =>
      rw [written.config, migrated]
      rfl
  simp only [loadState, bind_eq_ok, raiseIf_eq_ok, exists_const]
  refine ⟨by simp [same, fields], by rwa [version], orInvalid_of_ok ?_⟩
  have bid := @readView_directionsJson repr _ _ _ written .bid
  have ask := @readView_directionsJson repr _ _ _ written .ask
  have taker := @readView_directionsJson repr _ _ _ written .taker
  have both := congrArg₂ Prod.mk config whole
  split at legacy <;> rename_i migrated
  · rw [if_pos migrated, legacy, items, bid, ask, taker]
    exact congrArg Except.ok both
  · rw [if_neg migrated, items, bid, ask, taker]
    rw [← Except.ok.inj legacy] at both
    exact congrArg Except.ok both

theorem isText_textJson (text : String) : isText (textJson text) text = true := by
  simp [isText, textJson, key]

/-- An owner reads back from what it writes. -/
theorem load_toPayload (written : OwnerWritten args cfg b) :
    load repr args (cfg.toPayload args b) = .ok (cfg, b) := by
  have shared : cfg.sharedStrategyIds = args.sharedStrategyIds := by
    rw [written.config]
    rfl
  have texts := isText_textJson
  have state := @loadState_toPayload repr _ _ _ written
  unfold load OwnerConfig.toPayload
  dsimp only
  cases ids : args.sharedStrategyIds with
  | none =>
    rw [ids] at shared
    cases migrated : cfg.legacySources with
    | none =>
      have version : cfg.writtenVersion = 7 := by
        simp [OwnerConfig.writtenVersion, shared, migrated]
      rw [version] at state ⊢
      simp [shared, itemOr, Json.member?, key, versionOf, ownerFields, hasFields,
        isStrategyBindings, boolOf, texts]
      apply state
      · simp [itemOr, Json.member?, key]
      · simp [migrated]
    | some sources =>
      have version : cfg.writtenVersion = 8 := by
        simp [OwnerConfig.writtenVersion, shared, migrated]
      rw [version] at state ⊢
      simp [shared, itemOr, Json.member?, key, versionOf, ownerFields, hasFields,
        isStrategyBindings, boolOf, texts]
      apply state
      · simp [itemOr, Json.member?, key]
      · simp [migrated, itemOr, Json.member?, key]
  | some ids' =>
    have migrated := written.standalone (by rw [ids]; rfl)
    rw [ids] at shared
    have version : cfg.writtenVersion = 9 := by simp [OwnerConfig.writtenVersion, shared]
    rw [version] at state ⊢
    simp [shared, migrated, itemOr, Json.member?, key, versionOf, ownerFields, hasFields,
      isStrategyBindings, boolOf, texts, strategyBindings]
    apply state
    · simp [itemOr, Json.member?, key]
    · simp [migrated]

end RoundTrip

end ArbNautilus.Store
