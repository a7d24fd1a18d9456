import ArbNautilus.Store.StateFiles

/-! The offline conversion of a legacy Maker state into an owner at another prefix. -/

namespace ArbNautilus.Store

open Base

def isFile : Option Entry → Bool
  | some (.file _) => true
  | _ => false

/-- `_input_paths`. -/
def inputPaths (files : Files) (stem : String) : Except Raised (List String) := do
  if files (makerStatePath stem) ≠ none then pure [makerStatePath stem]
  else do
    raiseIf (∃ path ∈ makerLegacyPaths stem, isFile (files path) = false)
      (.valueError "legacy migration requires both old direction files; one is missing")
    pure (makerLegacyPaths stem)

/-- `_require_new_output`. -/
def requireNewOutput (files : Files) (stem : String) : Except Raised Unit :=
  raiseIf (∃ path ∈ makerStatePath stem :: makerLegacyPaths stem, files path ≠ none)
    (.valueError "migration output state already exists")

section Checkpoint

/-- The intents that hedge an order. -/
def intentsFor (s : StoreState) (cid : String) : List HedgeIntent :=
  s.hedgeIntents.values.filter (·.sourceClientOrderId = cid)

def fillsFor (s : StoreState) (cid : String) : Finset String :=
  s.seenSourceFills.filter fun fill => (splitText '|' fill).head? = some cid

def legacyOrder (direction : SourceDirection) (s : StoreState)
    (entry : String × SourceOrderRecord) : LegacyOrder where
  clientOrderId := entry.1
  direction
  route := route entry.2
  filledOunces := entry.2.filledOunces
  fillKeys := sortedTexts (fillsFor s entry.1)
  intentIds := ((intentsFor s entry.1).map (·.intentId)).insertionSort (· ≤ ·)
  allocatedOunces := ((intentsFor s entry.1).map Ledger.signedQuantity).sum

/-- One direction of `_checkpoint_orders`. -/
def directionOrders (direction : SourceDirection) (s : StoreState) :
    Except Raised (List LegacyOrder) := do
  let orders := (s.sourceOrders.entries.insertionSort fun a b => a.1 ≤ b.1).map
    (legacyOrder direction s)
  raiseIf ((orders.map OwnerConfig.legacyNet).sum ≠ s.netUnhedgedOunces)
    (.valueError "legacy direction cumulative/allocation conservation differs")
  pure orders

/-- `_checkpoint_orders`. -/
def checkpointOrders (bid ask : StoreState) : Except Raised (List LegacyOrder) := do
  let bids ← directionOrders .long bid
  let asks ← directionOrders .short ask
  pure (bids ++ asks)

end Checkpoint

section Migrate

-- `str` of a list or a dict, `json.loads` of a legacy file's bytes, and SHA-256
variable (repr : Value → String) (loads : List UInt8 → Option Value)
  (sha256 : List UInt8 → String)

def legacyFields : List String :=
  ["schema_version", "kind", "source_instrument_id", "hedge_instrument_id", "directions"]

def legacyHeader (instruments : InstrumentBindings) : Value → Except Raised (List Value)
  | .obj row => do
    raiseIf (hasFields row legacyFields = false ∨
        versionOf (itemOr row "schema_version" .null) ≠ some 2)
      (.valueError "migration accepts only legacy Maker schema v2 or both v1 files")
    raiseIf (isText (itemOr row "kind" .null) "maker" = false ∨
        isText (itemOr row "source_instrument_id" .null) instruments.sourceInstrumentId = false ∨
        isText (itemOr row "hedge_instrument_id" .null) instruments.hedgeInstrumentId = false)
      (.valueError "legacy Maker instrument binding differs")
    match itemOr row "directions" .null with
    | .obj directions => do
      raiseIf (hasFields directions ["bid", "ask"] = false)
        (.valueError "legacy Maker requires both directions")
      pure [itemOr directions "bid" .null, itemOr directions "ask" .null]
    | _ => .error (.valueError "legacy Maker requires both directions")
  | _ => .error (.valueError "migration accepts only legacy Maker schema v2 or both v1 files")

def legacyItems (instruments : InstrumentBindings) : List Value → Except Raised (List Value)
  | [header] => legacyHeader instruments header
  | items => .ok items

def decode (content : List UInt8) : Except Raised Value :=
  match loads content with
  | some value => .ok value
  | none => .error (.valueError "Expecting value")

/-- `_read_states`. -/
def readStates (instruments : InstrumentBindings) (contents : List (List UInt8)) :
    Except Raised (StoreState × StoreState) := do
  let raw ← contents.mapM (decode loads)
  let items ← legacyItems instruments raw
  raiseIf (∃ item ∈ items, hasSchema 1 item = false)
    (.valueError "invalid legacy direction schema")
  match items with
  | [bid, ask] => orInvalid "invalid legacy direction state" (do
    let bid ← membersOf bid >>= fromPayload repr
    let ask ← membersOf ask >>= fromPayload repr
    pure (bid, ask))
  | _ => .error (.valueError "zip() argument 2 is not as long as argument 1")

/-- A legacy state as its view starts: the checkpoint owns its balance. -/
def StoreState.unowed (s : StoreState) : StoreState := { s with netUnhedgedOunces := 0 }

def ownerArgs (instruments : InstrumentBindings) : OwnerArgs := { instruments }

/-- The owner of two legacy states. -/
def migratedOwner (instruments : InstrumentBindings) (sources : List (String × String))
    (orders : List LegacyOrder) (bid ask : StoreState) : MakerStateStore :=
  let book : Book := ⟨viewsOf bid.unowed ask.unowed .emptyState, [], false⟩
  ⟨(ownerArgs instruments).config (some sources) orders, book, book, false⟩

/-- The states at a prefix, and the files they are read from. -/
def legacyStates (files : Files) (stem : String) (instruments : InstrumentBindings) :
    Except Raised ((List String × List (List UInt8)) × StoreState × StoreState) := do
  let paths ← inputPaths files stem
  let contents ← paths.mapM (readBytes files)
  let states ← readStates repr loads instruments contents
  pure ((paths, contents), states)

/-- `migrate_maker_state` up to its publication. The files may change while it runs: `later` is
what its second look finds. -/
def migratedState (source destination : String) (instruments : InstrumentBindings) (stopped : Bool)
    (now later : Files) : Except Raised MakerStateStore := do
  raiseIf (stopped = false) (.valueError "migration requires an explicit stopped declaration")
  raiseIf (source = destination) (.valueError "migration requires a different output prefix")
  requireNewOutput now destination
  let ((paths, contents), bid, ask) ← legacyStates repr loads now source instruments
  raiseIf (instruments.sourceInstrumentId = "" ∨ instruments.hedgeInstrumentId = "")
    (.valueError "Maker state requires both instrument bindings")
  let orders ← checkpointOrders bid ask
  let sources := (paths.zip contents).map fun input => (input.1, sha256 input.2)
  let owner := migratedOwner instruments sources orders bid ask
  owner.cfg.validate owner.book
  let again ← inputPaths later source
  raiseIf (paths ≠ again)
    (.valueError "legacy input changed during migration; stable stopped input is required")
  let reread ← paths.mapM (readBytes later)
  raiseIf (contents ≠ reread)
    (.valueError "legacy input changed during migration; stable stopped input is required")
  requireNewOutput later destination
  pure owner

/-- `migrate_maker_state`, over resolved prefixes. -/
def migrateMakerState (source destination : String) (instruments : InstrumentBindings)
    (stopped : Bool) (now later : Files) (pub : Publication) :
    Except Raised MakerStateStore × Files :=
  match migratedState repr loads sha256 source destination instruments stopped now later with
  | .error e => (.error e, later)
  | .ok owner => match pub with
    | .published => (.ok owner, publishOwner (ownerArgs instruments) owner destination later)
    | .failed => (.error .osError, later)
    | .parentSyncFailed =>
      (.error .parentDirectorySyncError,
        publishOwner (ownerArgs instruments) owner destination later)

end Migrate

end ArbNautilus.Store
