import ArbNautilus.Mt5.Codec
import ArbNautilus.Mt5.Wire

namespace ArbNautilus.Mt5.Codec

open Base

section Requests

inductive Request
  | hello (requestId : Text)
  | snapshot (requestId : Text) (binding : Binding)
  | submitMarketDelta (requestId : Text) (binding : Binding)
      (clientRequestId side quantityLots : Text)
  | closePosition (requestId : Text) (binding : Binding)
      (clientRequestId side quantityLots positionTicket positionIdentifier : Text)
  | executionEvents (requestId : Text) (binding : Binding) (afterCursor : Text) (limit : ℤ)
deriving DecidableEq, Repr

namespace Request

def requestId : Request → Text
  | .hello requestId | .snapshot requestId _ | .submitMarketDelta requestId _ _ _ _
  | .closePosition requestId _ _ _ _ _ _ | .executionEvents requestId _ _ _ => requestId

def op : Request → String
  | .hello _ => "hello"
  | .snapshot _ _ => "get_snapshot"
  | .submitMarketDelta _ _ _ _ _ => "submit_market_delta"
  | .closePosition _ _ _ _ _ _ _ => "close_position"
  | .executionEvents _ _ _ _ => "get_execution_events"

def binding? : Request → Option Binding
  | .hello _ => none
  | .snapshot _ binding | .submitMarketDelta _ binding _ _ _
  | .closePosition _ binding _ _ _ _ _ | .executionEvents _ binding _ _ => some binding

end Request

def str (text : Text) : Json ℚ := .str (.text text)

/-- `Binding.from_wire` of `Binding.to_wire`. -/
def bindingChecks (b : Binding) : List Check :=
  validatedIdentifier (str b.accountId) "binding.account_id" maxIdentifierLength ++
  validatedIdentifier (str b.symbol) "binding.symbol" maxIdentifierLength ++
  validatedSafeToken (str b.eaBuildId) "binding.ea_build_id" ++
  validatedSafeToken (str b.streamId) "binding.stream_id" ++
  validatedSafeToken (str b.bootId) "binding.boot_id"

/-- What both order requests share. -/
def orderChecks (clientRequestId side quantityLots : Text) : List Check :=
  validatedSafeToken (str clientRequestId) "request.client_request_id" ++
  require (isWord (str side) "buy" || isWord (str side) "sell")
    "request side must be buy or sell" ++
  decimalString (str quantityLots) "request.quantity_lots" true

/-- `validate_request`. -/
def requestChecks (request : Request) : List Check :=
  validatedIdentifier (str request.requestId) "request.request_id" 64 ++
  match request with
  | .hello _ => []
  | .snapshot _ binding => bindingChecks binding
  | .submitMarketDelta _ binding clientRequestId side quantityLots =>
    bindingChecks binding ++ orderChecks clientRequestId side quantityLots
  | .closePosition _ binding clientRequestId side quantityLots positionTicket positionIdentifier =>
    bindingChecks binding ++ orderChecks clientRequestId side quantityLots ++
    [.uint64 (str positionTicket) "request.position_ticket" true,
      .uint64 (str positionIdentifier) "request.position_identifier" true]
  | .executionEvents _ binding afterCursor limit =>
    bindingChecks binding ++ [.uint64 (str afterCursor) "request.after_cursor" false] ++
    exactInt (.int limit) "request.limit" 1 maxEventsLimit

def validateRequest (request : Request) : Except PyError Unit := runAll (requestChecks request)

end Requests

section Identity

def identityKeys : List String :=
  ["account_id", "broker_login", "broker_server", "server_timezone", "server_timezone_source",
    "boot_id", "ea_build_id", "declared_source_sha256", "execution_enabled", "magic", "stream_id",
    "symbol", "terminal_build"]

def accountIdDomain : Text := "py000.mt5/account-id/v1".toList ++ [Char.ofNat 0]

/-- `normalized_account_id`, over the hexadecimal SHA-256 of bytes. -/
def normalizedAccountId (sha256 : List UInt8 → Text) (server login : Text) : Text :=
  let utf8 (text : Text) : List UInt8 := text.flatMap String.utf8EncodeChar
  let length := (utf8 server).length
  "mt5-sha256-".toList ++ sha256 (utf8 accountIdDomain ++
    [UInt8.ofNat (length / 2 ^ 24), UInt8.ofNat (length / 2 ^ 16), UInt8.ofNat (length / 2 ^ 8),
      UInt8.ofNat length] ++ utf8 server ++ [0] ++ utf8 login)

def isPlaceholderSha (sha : Text) : Bool :=
  sha.length ≠ 64 || sha.any (fun c => c ∉ "0123456789abcdef".toList) || sha.all (· = '0')

/-- `Identity.__post_init__`. -/
def identityPostInit (sha256 : List UInt8 → Text) (value : Json ℚ) : List Check :=
  let field := get value
  validatedText (field "broker_server") "broker_server" 128 ++
  [.uint64 (field "broker_login") "broker_login" true] ++
  validatedIdentifier (field "account_id") "account_id" maxIdentifierLength ++
  require (isText (field "account_id")
      (normalizedAccountId sha256 (textOf (field "broker_server")) (textOf (field "broker_login"))))
    "account_id is not derived from server+login" ++
  validatedIdentifier (field "symbol") "symbol" maxIdentifierLength ++
  validatedText (field "server_timezone") "server_timezone" 64 ++
  require (isWord (field "server_timezone_source") "configured_input")
    "server_timezone_source mismatch" ++
  exactInt (field "terminal_build") "terminal_build" 1 (2 ^ 31 - 1) ++
  validatedSafeToken (field "ea_build_id") "ea_build_id" ++
  validatedIdentifier (field "declared_source_sha256") "declared_source_sha256" 64 ++
  require (!isPlaceholderSha (textOf (field "declared_source_sha256")))
    "declared_source_sha256 must be non-placeholder lowercase SHA-256" ++
  validatedSafeToken (field "stream_id") "stream_id" ++
  validatedSafeToken (field "boot_id") "boot_id" ++
  [.uint64 (field "magic") "magic" false] ++
  validatedBool (field "execution_enabled") "execution_enabled"

/-- `Identity.from_wire`. -/
def identityChecks (sha256 : List UInt8 → Text) (value : Json ℚ) : List Check :=
  let field := get value
  closedObject value "identity" identityKeys ++
  validatedBool (field "execution_enabled") "identity.execution_enabled" ++
  validatedIdentifier (field "account_id") "identity.account_id" maxIdentifierLength ++
  validatedText (field "broker_server") "identity.broker_server" 128 ++
  [.uint64 (field "broker_login") "identity.broker_login" true] ++
  validatedText (field "server_timezone") "identity.server_timezone" 64 ++
  validatedIdentifier (field "symbol") "identity.symbol" maxIdentifierLength ++
  exactInt (field "terminal_build") "identity.terminal_build" 1 (2 ^ 31 - 1) ++
  validatedSafeToken (field "ea_build_id") "identity.ea_build_id" ++
  validatedIdentifier (field "declared_source_sha256") "identity.declared_source_sha256" 64 ++
  validatedSafeToken (field "stream_id") "identity.stream_id" ++
  validatedSafeToken (field "boot_id") "identity.boot_id" ++
  [.uint64 (field "magic") "identity.magic" false] ++
  identityPostInit sha256 value

def bindingOf (identity : Json ℚ) : Binding where
  accountId := textOf (get identity "account_id")
  symbol := textOf (get identity "symbol")
  eaBuildId := textOf (get identity "ea_build_id")
  streamId := textOf (get identity "stream_id")
  bootId := textOf (get identity "boot_id")

end Identity

section Snapshot

/-- `_validated_recovery_state`; the set is looked into before the type is checked. -/
def recoveryState (value : Json ℚ) (label : String) : List Check :=
  [.oneOf value ["ready", "blocked"] (label ++ " must be ready or blocked")]

def decimalFields (value : Json ℚ) (label : String) (fields : List String) : List Check :=
  fields.flatMap fun field => decimalString (get value field) (label ++ "." ++ field) false

def boolFields (value : Json ℚ) (label : String) (fields : List String) : List Check :=
  fields.flatMap fun field => validatedBool (get value field) (label ++ "." ++ field)

/-- `_validate_account`. -/
def accountChecks (value : Json ℚ) : List Check :=
  let label := "snapshot.account"
  closedObject value label
    ["balance", "broker_login", "broker_server", "currency", "equity", "leverage", "margin",
      "margin_free", "margin_level", "trade_allowed", "trade_expert"] ++
  decimalString (get value "balance") "snapshot.account.balance" false ++
  [.uint64 (get value "broker_login") "snapshot.account.broker_login" true] ++
  validatedText (get value "broker_server") "snapshot.account.broker_server" 128 ++
  validatedIdentifier (get value "currency") "snapshot.account.currency" 16 ++
  decimalFields value label ["equity", "margin", "margin_free", "margin_level"] ++
  exactInt (get value "leverage") "snapshot.account.leverage" 1 (2 ^ 31 - 1) ++
  boolFields value label ["trade_allowed", "trade_expert"]

/-- `_validate_authority_flags`. -/
def authorityFlags (value : Json ℚ) : List Check :=
  let label := "snapshot.authority_flags"
  closedObject value label
    ["account_trade_allowed", "account_trade_expert", "market_open_hint", "mql_trade_allowed",
      "symbol_trade_mode", "terminal_connected", "terminal_trade_allowed"] ++
  boolFields value label ["account_trade_allowed", "account_trade_expert", "market_open_hint",
    "mql_trade_allowed", "terminal_connected", "terminal_trade_allowed"] ++
  exactInt (get value "symbol_trade_mode") "snapshot.authority_flags.symbol_trade_mode" 0
    (2 ^ 31 - 1)

def swapRate (value : Json ℚ) (index : ℕ) : List Check :=
  let label := "snapshot.symbol_spec.swap_rates[" ++ Nat.repr index ++ "]"
  decimalString value label false ++
  require (decimalValue (textOf value) ∈ [0, 1, 3]) (label ++ " must be 0, 1, or 3")

/-- `_validate_symbol_spec`. -/
def symbolSpecChecks (value : Json ℚ) : List Check :=
  let label := "snapshot.symbol_spec"
  closedObject value label
    ["contract_size", "currency_base", "currency_margin", "currency_profit", "digits",
      "expiration_mode", "filling_mode", "freeze_level", "margin_initial", "margin_maintenance",
      "order_mode", "point", "stops_level", "symbol", "swap_long", "swap_mode", "swap_rates",
      "swap_short", "tick_size", "tick_value", "tick_value_loss", "tick_value_profit",
      "trade_calc_mode", "trade_mode", "volume_limit", "volume_max", "volume_min",
      "volume_step"] ++
  decimalFields value label ["contract_size", "margin_initial", "margin_maintenance", "point",
    "swap_long", "swap_short", "tick_size", "tick_value", "tick_value_loss", "tick_value_profit",
    "volume_limit", "volume_max", "volume_min", "volume_step"] ++
  validatedIdentifier (get value "symbol") "snapshot.symbol_spec.symbol" maxIdentifierLength ++
  (["currency_base", "currency_margin", "currency_profit"].flatMap fun field =>
    validatedIdentifier (get value field) (label ++ "." ++ field) 16) ++
  require (isArray (get value "swap_rates") && (itemsOf (get value "swap_rates")).length = 7)
    "snapshot.symbol_spec.swap_rates must be a seven-item array" ++
  ((itemsOf (get value "swap_rates")).zipIdx.flatMap fun item => swapRate item.1 item.2) ++
  exactInt (get value "digits") "snapshot.symbol_spec.digits" 0 16 ++
  (["expiration_mode", "filling_mode", "freeze_level", "order_mode", "stops_level", "swap_mode",
    "trade_calc_mode", "trade_mode"].flatMap fun field =>
      exactInt (get value field) (label ++ "." ++ field) 0 (2 ^ 31 - 1))

def decimalPlaces (text : Text) : ℕ := ((text.dropWhile (· ≠ '.')).drop 1).length

/-- `_validate_execution_limits`. -/
def executionLimits (value : Json ℚ) : List Check :=
  closedObject value "snapshot.execution_limits" ["max_order_lots"] ++
  decimalString (get value "max_order_lots") "snapshot.execution_limits.max_order_lots" true ++
  require (decimalPlaces (textOf (get value "max_order_lots")) ≤ 8)
    "snapshot.execution_limits.max_order_lots exceeds 8 decimal places"

/-- `_validate_position`; the set of sides is looked into before the type is checked. -/
def positionChecks (value : Json ℚ) : List Check :=
  let label := "snapshot.position"
  closedObject value label
    ["comment", "identifier", "magic", "price_current", "price_open", "profit", "side",
      "stop_loss", "swap", "take_profit", "ticket", "time_msc", "volume_lots"] ++
  validatedOptionalText (get value "comment") "snapshot.position.comment" 128 ++
  (["identifier", "magic", "ticket", "time_msc"].map fun field =>
    .uint64 (get value field) (label ++ "." ++ field) (field ≠ "magic")) ++
  decimalFields value label
    ["price_current", "price_open", "profit", "stop_loss", "swap", "take_profit"] ++
  decimalString (get value "volume_lots") "snapshot.position.volume_lots" true ++
  [.oneOf (get value "side") ["buy", "sell"] "snapshot.position.side must be buy or sell"]

/-- `_validate_time_provenance`. -/
def timeProvenance (value identity : Json ℚ) : List Check :=
  closedObject value "snapshot.time"
    ["observed_utc_ms", "observed_utc_precision_ms", "observed_utc_source", "server_quote_time_ms",
      "server_quote_time_source", "server_timezone"] ++
  [.uint64 (get value "observed_utc_ms") "snapshot.time.observed_utc_ms" true] ++
  require (isWord (get value "observed_utc_precision_ms") "1000")
    "UTC observation precision mismatch" ++
  require (isWord (get value "observed_utc_source") "mt5_time_gmt_second_precision")
    "UTC observation source mismatch" ++
  [.uint64 (get value "server_quote_time_ms") "snapshot.time.server_quote_time_ms" true] ++
  require (isWord (get value "server_quote_time_source") "mt5_time_current_last_known_quote")
    "server quote time source mismatch" ++
  require (isText (get value "server_timezone") (textOf (get identity "server_timezone")))
    "snapshot timezone differs from identity"

/-- `_validate_session`; the set of freshness words is looked into before any type check. -/
def sessionChecks (value : Json ℚ) (terminalConnected : Bool) : List Check :=
  let field := get value
  let sampled := !isNull (field "sample_server_time_ms")
  let aged := !isNull (field "freshness_age_ms")
  let unknown := isWord (field "freshness") "unknown"
  let open? := isBool (field "scheduled_open") true && terminalConnected &&
    isWord (field "freshness") "fresh"
  closedObject value "snapshot.session"
    ["freshness", "freshness_age_ms", "freshness_source", "sample_server_time_ms",
      "sample_server_time_source", "scheduled_open", "session_schedule_available", "session_open",
      "session_source"] ++
  boolFields value "snapshot.session" ["session_open", "scheduled_open",
    "session_schedule_available"] ++
  (if sampled then
    [.uint64 (field "sample_server_time_ms") "snapshot.session.sample_server_time_ms" true]
      else []) ++
  require (isWord (field "sample_server_time_source")
      "mt5_time_trade_server_calculated_second_precision") "session sample time source mismatch" ++
  require (isWord (field "session_source") "mt5_symbol_info_session_trade_at_time_trade_server")
    "session source mismatch" ++
  [.oneOf (field "freshness") ["fresh", "stale", "unknown"] "session freshness mismatch"] ++
  (if aged then [.uint64 (field "freshness_age_ms") "snapshot.session.freshness_age_ms" false]
    else []) ++
  require (unknown = !aged) "session freshness and age disagree" ++
  require (isWord (field "freshness_source") "mt5_symbol_info_tick_vs_time_trade_server")
    "session freshness source mismatch" ++
  require (sampled || unknown && isBool (field "session_schedule_available") false &&
      isBool (field "scheduled_open") false) "unknown session time cannot establish schedule" ++
  require (!isBool (field "session_schedule_available") false ||
      isBool (field "scheduled_open") false) "unavailable schedule cannot be open" ++
  require (isBool (field "session_open") open?) "session_open overstates current availability"

/-- `_validate_snapshot_data`. -/
def snapshotChecks (sha256 : List UInt8 → Text) (value : Json ℚ) : List Check :=
  let identity := get value "identity"
  let account := get value "account"
  let spec := get value "symbol_spec"
  let connected := isBool (get (get value "authority_flags") "terminal_connected") true
  closedObject value "snapshot data"
    ["account", "authority_flags", "execution_enabled", "execution_limits", "identity", "positions",
      "recovery_state", "session", "symbol_spec", "time"] ++
  identityChecks sha256 identity ++
  validatedBool (get value "execution_enabled") "snapshot.execution_enabled" ++
  require (isBool (get value "execution_enabled") (isBool (get identity "execution_enabled") true))
    "snapshot execution_enabled differs from identity" ++
  executionLimits (get value "execution_limits") ++
  recoveryState (get value "recovery_state") "snapshot.recovery_state" ++
  timeProvenance (get value "time") identity ++
  authorityFlags (get value "authority_flags") ++
  sessionChecks (get value "session") connected ++
  accountChecks account ++
  require (isText (get account "broker_login") (textOf (get identity "broker_login")))
    "snapshot account login differs from identity" ++
  require (isText (get account "broker_server") (textOf (get identity "broker_server")))
    "snapshot account server differs from identity" ++
  symbolSpecChecks spec ++
  require (isText (get spec "symbol") (textOf (get identity "symbol")))
    "snapshot symbol differs from identity" ++
  require (isArray (get value "positions")) "snapshot.positions must be an array" ++
  (itemsOf (get value "positions")).flatMap positionChecks

end Snapshot

section Events

def natOf (value : Json ℚ) : ℕ := Nat.ofDigitChars 10 (textOf value) 0

def terminalTypes : List String := ["order_rejected", "order_filled", "order_unknown"]

def eventTypes : List String := ["stream_started", "submission_reserved"] ++ terminalTypes

def closeTarget : List String := ["position_identifier", "position_ticket"]

def targeted (payload : Json ℚ) : Bool := closeTarget.any (hasKey payload)

def payloadKeys (eventType : Json ℚ) (target : List String) : List String :=
  ["client_request_id", "side", "quantity_lots"] ++ target ++
    if isWord eventType "submission_reserved" then []
    else if isWord eventType "order_rejected" || isWord eventType "order_unknown" then
      ["reason", "broker_retcode"]
    else ["broker_retcode", "commission", "fill_price", "filled_quantity_lots", "venue_deal_id",
      "venue_order_id", "venue_position_id"]

/-- `_validate_submission_payload`. -/
def submissionPayload (payload eventType : Json ℚ) : List Check :=
  let label := String.ofList (textOf eventType) ++ " payload"
  let target := targeted payload
  let uint64 (field : String) (positive : Bool) : Check :=
    .uint64 (get payload field) ("event.payload." ++ field) positive
  require (isObject payload) (label ++ " must be an object") ++
  require (!target || closeTarget.all (hasKey payload))
    (label ++ " must carry both close target fields") ++
  closedObject payload label (payloadKeys eventType (if target then closeTarget else [])) ++
  validatedSafeToken (get payload "client_request_id") "event.payload.client_request_id" ++
  require (isWord (get payload "side") "buy" || isWord (get payload "side") "sell")
    "event.payload.side must be buy or sell" ++
  decimalString (get payload "quantity_lots") "event.payload.quantity_lots" true ++
  (if target then [uint64 "position_identifier" true, uint64 "position_ticket" true] else []) ++
  if isWord eventType "order_rejected" || isWord eventType "order_unknown" then
    validatedSafeToken (get payload "reason") "event.payload.reason" ++
    [uint64 "broker_retcode" false]
  else if isWord eventType "order_filled" then
    decimalString (get payload "filled_quantity_lots") "event.payload.filled_quantity_lots" true ++
    decimalString (get payload "fill_price") "event.payload.fill_price" true ++
    decimalString (get payload "commission") "event.payload.commission" false ++
    [uint64 "venue_order_id" true, uint64 "venue_deal_id" true, uint64 "venue_position_id" true,
      uint64 "broker_retcode" false] ++
    require (!target || isText (get payload "venue_position_id")
        (textOf (get payload "position_identifier")))
      "close fill venue_position_id differs from position_identifier"
  else []

def eventKeys : List String :=
  ["event_seq", "event_time_ms", "event_type", "stream_id", "boot_id", "payload"]

/-- `_validate_event`. -/
def eventChecks (value : Json ℚ) (streamId : Text) : List Check :=
  let eventType := get value "event_type"
  let payload := get value "payload"
  closedObject value "execution event" eventKeys ++
  [.uint64 (get value "event_seq") "event.event_seq" true,
    .uint64 (get value "event_time_ms") "event.event_time_ms" true] ++
  validatedSafeToken (get value "boot_id") "event.boot_id" ++
  validatedSafeToken eventType "event.event_type" ++
  require (eventTypes.any (isWord eventType)) "v1 event_type is unsupported" ++
  require (isText (get value "stream_id") streamId) "event stream_id differs from page" ++
  if isWord eventType "stream_started" then
    closedObject payload "stream_started payload" ["ea_build_id", "execution_enabled"] ++
    validatedSafeToken (get payload "ea_build_id") "event.payload.ea_build_id" ++
    validatedBool (get payload "execution_enabled") "event.payload.execution_enabled"
  else submissionPayload payload eventType

def contiguous : List ℕ → Bool
  | [] | [_] => true
  | a :: b :: rest => b = a + 1 && contiguous (b :: rest)

/-- `_validate_events_data`. -/
def eventsChecks (sha256 : List UInt8 → Text) (value : Json ℚ) : List Check :=
  let identity := get value "identity"
  let streamId := textOf (get value "stream_id")
  let first := natOf (get value "first_retained_cursor")
  let last := natOf (get value "last_cursor")
  let next := natOf (get value "next_cursor")
  let hasMore := isBool (get value "has_more") true
  let events := itemsOf (get value "events")
  let sequences := events.map fun event => natOf (get event "event_seq")
  let starts := events.filter fun event => isWord (get event "event_type") "stream_started"
  closedObject value "events data"
    ["events", "first_retained_cursor", "has_more", "identity", "last_cursor", "next_cursor",
      "stream_id"] ++
  identityChecks sha256 identity ++
  validatedSafeToken (get value "stream_id") "events.stream_id" ++
  require (isText (get identity "stream_id") streamId) "event page stream differs from identity" ++
  [.uint64 (get value "first_retained_cursor") "first_retained_cursor" false,
    .uint64 (get value "last_cursor") "last_cursor" false,
    .uint64 (get value "next_cursor") "next_cursor" false] ++
  require (first ≤ next ∧ next ≤ last) "event page cursors are not ordered" ++
  validatedBool (get value "has_more") "events.has_more" ++
  require (hasMore = decide (next < last)) "events.has_more differs from cursors" ++
  require (isArray (get value "events") && events.length ≤ maxEventsLimit)
    "events must be a bounded array" ++
  events.flatMap (eventChecks · streamId) ++
  require (starts.map fun event => textOf (get event "boot_id")).Nodup
    "event page repeats a stream_started boot_id" ++
  require (contiguous sequences) "event page sequence is not contiguous" ++
  require (sequences.getLast?.all (· = next)) "next_cursor differs from final event" ++
  require (!sequences.isEmpty || !hasMore) "empty event page cannot have_more"

end Events

section Messages

def capabilities : List String :=
  ["close_position", "get_execution_events", "get_snapshot", "hello", "submit_market_delta"]

def errorCodes : List String :=
  ["BINDING_MISMATCH", "CURSOR_AHEAD", "CURSOR_EXPIRED", "EXECUTION_DISABLED",
    "IDEMPOTENCY_CONFLICT", "MALFORMED", "RECOVERY_BLOCKED", "SCHEMA_MISMATCH",
    "SNAPSHOT_UNAVAILABLE", "UNKNOWN_OP"]

def protocolName : String := "py000.mt5"

def isVersion (value : Json ℚ) : Bool :=
  match value with
  | .int version => version = 1
  | _ => false

variable (sha256 : List UInt8 → Text)

def submitChecks (value : Json ℚ) : List Check :=
  let identity := get value "identity"
  let outcome := get value "outcome"
  closedObject value "submit data" ["identity", "outcome"] ++
  identityChecks sha256 identity ++
  closedObject outcome "submit outcome" eventKeys ++
  eventChecks outcome (textOf (get identity "stream_id")) ++
  require (terminalTypes.any (isWord (get outcome "event_type")))
    "submit outcome must be a terminal execution event"

/-- `_validate_success_data`. -/
def successChecks (op value : Json ℚ) : List Check :=
  require (capabilities.any (isWord op)) "successful response op is unknown" ++
  if isWord op "hello" then
    closedObject value "hello data" ["capabilities", "identity", "recovery_state"] ++
    require (Json.same (get value "capabilities")
      (.arr (capabilities.map fun word => str word.toList)))
      "hello capabilities mismatch" ++
    identityChecks sha256 (get value "identity") ++
    recoveryState (get value "recovery_state") "hello.recovery_state"
  else if isWord op "get_snapshot" then snapshotChecks sha256 value
  else if isWord op "get_execution_events" then eventsChecks sha256 value
  else submitChecks sha256 value

/-- The fields that open every message. -/
def envelope (data : Json ℚ) (label : String) : List Check :=
  require (isWord (get data "protocol") protocolName) (label ++ " protocol mismatch") ++
  require (isVersion (get data "version")) (label ++ " version mismatch")

def commonKeys : List String := ["protocol", "version", "request_id", "op", "ok"]

/-- `_decode_response`. -/
def anyResponse (data : Json ℚ) : List Check :=
  let op := get data "op"
  let error := get data "error"
  envelope data "response" ++
  validatedIdentifier (get data "request_id") "response.request_id" 64 ++
  validatedIdentifier op "response.op" 64 ++
  require (isBool (get data "ok") true || isBool (get data "ok") false)
    "response ok must be bool" ++
  if isBool (get data "ok") true then
    closedObject data "success response" (commonKeys ++ ["data"]) ++
    successChecks sha256 op (get data "data")
  else
    closedObject data "error response" (commonKeys ++ ["error"]) ++
    closedObject error "error" ["code", "message"] ++
    validatedIdentifier (get error "code") "error.code" 64 ++
    require (errorCodes.any (isWord (get error "code"))) "unknown response error code" ++
    require (!isWord (get error "code") "SNAPSHOT_UNAVAILABLE" || isWord op "get_snapshot")
      "SNAPSHOT_UNAVAILABLE requires get_snapshot" ++
    validatedText (get error "message") "error.message" maxTextLength

def bound (holds : Bool) (message : String) : List Check :=
  [.require holds "BINDING_MISMATCH" message]

def sameOrder (payload : Json ℚ) (clientRequestId side quantityLots : Text) : Bool :=
  isText (get payload "client_request_id") clientRequestId &&
    isText (get payload "quantity_lots") quantityLots && isText (get payload "side") side

/-- What a successful response to this request must answer. -/
def answerChecks (request : Request) (data : Json ℚ) : List Check :=
  let outcome := get data "outcome"
  let payload := get outcome "payload"
  match request with
  | .hello _ | .snapshot _ _ => []
  | .submitMarketDelta _ _ clientRequestId side quantityLots =>
    bound (!targeted payload) "market delta outcome contains a close target" ++
    bound (sameOrder payload clientRequestId side quantityLots)
      "submit outcome differs from request"
  | .closePosition _ _ clientRequestId side quantityLots positionTicket positionIdentifier =>
    bound (closeTarget.all (hasKey payload)) "close outcome omits its target position" ++
    bound (!isWord (get outcome "event_type") "order_filled" ||
        isText (get payload "venue_position_id") positionIdentifier)
      "close fill differs from its target position" ++
    bound (sameOrder payload clientRequestId side quantityLots &&
        isText (get payload "position_identifier") positionIdentifier &&
        isText (get payload "position_ticket") positionTicket)
      "submit outcome differs from request"
  | .executionEvents _ _ afterCursor limit =>
    let events := itemsOf (get data "events")
    let after := Nat.ofDigitChars 10 afterCursor 0
    let next := natOf (get data "next_cursor")
    let hasMore := isBool (get data "has_more") true
    require (events.length ≤ limit) "event page exceeds requested limit" ++
    require (natOf (get data "first_retained_cursor") ≤ after ∧
        after ≤ natOf (get data "last_cursor")) "event page does not contain after_cursor" ++
    (match events with
      | event :: _ => require (natOf (get event "event_seq") = after + 1)
          "first event does not follow after_cursor"
      | [] => require (next = after) "empty page advanced its cursor") ++
    require (!hasMore || !events.isEmpty && after < next) "event page cannot make forward progress"

def responseChecks (request : Request) (response : Json ℚ) : List Check :=
  let data := get response "data"
  anyResponse sha256 response ++
  bound (isText (get response "request_id") request.requestId && isWord (get response "op")
    request.op)
    "response envelope differs from request" ++
  match request.binding? with
  | none => []
  | some binding =>
    if isBool (get response "ok") true then
      identityChecks sha256 (get data "identity") ++
      bound (bindingOf (get data "identity") = binding)
        "response identity differs from request binding" ++
      answerChecks request data
    else []

def pubKeys : List String :=
  ["protocol", "version", "message_type", "event_time_ms", "event_time_source", "identity",
    "market_open_hint"]

def pubChecks (data : Json ℚ) : List Check :=
  let messageType := get data "message_type"
  let lastTick := get data "last_tick_time_ms"
  envelope data "PUB" ++
  identityChecks sha256 (get data "identity") ++
  [.uint64 (get data "event_time_ms") "PUB event_time_ms" true] ++
  validatedBool (get data "market_open_hint") "PUB market_open_hint" ++
  if isWord messageType "tick" then
    closedObject data "tick PUB" (pubKeys ++ ["bid", "ask"]) ++
    require (isWord (get data "event_time_source") "mt5_symbol_info_tick")
      "tick time source mismatch" ++
    decimalString (get data "bid") "tick.bid" true ++
    decimalString (get data "ask") "tick.ask" true ++
    require (decimalValue (textOf (get data "bid")) ≤ decimalValue (textOf (get data "ask")))
      "tick bid exceeds ask"
  else if isWord messageType "heartbeat" then
    closedObject data "heartbeat PUB" (pubKeys ++ ["last_tick_time_ms"]) ++
    require (isWord (get data "event_time_source") "mt5_time_gmt_second_precision")
      "heartbeat time source mismatch" ++
    if isNull lastTick then []
    else [.uint64 lastTick "heartbeat.last_tick_time_ms" true]
  else require false "PUB message_type mismatch"

/-- `decode_response_for`. -/
def decodeResponseFor (request : Request) (raw : Raw) : Except PyError (Json ℚ) := do
  validateRequest request
  let response ← decodeJsonObject raw
  runAll (responseChecks sha256 request response)
  pure response

/-- `decode_pub`. -/
def decodePub (raw : Raw) : Except PyError (Json ℚ) := do
  let data ← decodeJsonObject raw
  runAll (pubChecks sha256 data)
  pure data

end Messages

end ArbNautilus.Mt5.Codec
