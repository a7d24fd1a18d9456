import ArbNautilus.Base.JsonSize
import ArbNautilus.Journal.Cursor
import ArbNautilus.Mt5.Requests

/-! What the expert answers to a request for events. -/

namespace ArbNautilus.Mt5.Ea

open Base Journal
open Codec (str)

section Json

def member (name : String) (value : Json ℚ) : PyStr × Json ℚ := (.text name.toList, value)

/-- What the source concatenates: no spaces, every string through `Py000Quoted`. -/
def jsonText (value : Json ℚ) : Text := printValue quotedText (fun _ => []) value

def identityJson (identity : Identity) : Json ℚ :=
  .obj [member "account_id" (str identity.accountId),
    member "broker_login" (str identity.brokerLogin),
    member "broker_server" (str identity.brokerServer),
    member "server_timezone" (str identity.serverTimezone),
    member "server_timezone_source" (str "configured_input".toList),
    member "boot_id" (str identity.bootId),
    member "ea_build_id" (str identity.eaBuildId),
    member "declared_source_sha256" (str identity.declaredSourceSha256),
    member "execution_enabled" (.bool identity.executionEnabled),
    member "magic" (str identity.magic),
    member "stream_id" (str identity.streamId),
    member "symbol" (str identity.symbol),
    member "terminal_build" (.int identity.terminalBuild)]

/-- `Py000ResponsePrefix`. -/
def responsePrefix (requestId op : Text) (ok : Bool) : List (PyStr × Json ℚ) :=
  [member "protocol" (str "py000.mt5".toList), member "version" (.int 1),
    member "request_id" (str requestId), member "op" (str op), member "ok" (.bool ok)]

def errorResponse (requestId op : Text) (code message : String) : Json ℚ :=
  .obj (responsePrefix requestId op false ++ [member "error" (.obj
    [member "code" (str code.toList), member "message" (str message.toList)])])

/-- The two last members of a payload that has a close target. -/
def closeTarget (order : Submission) : List (PyStr × Json ℚ) :=
  if order.hasCloseTarget then
    [member "position_identifier" (str order.positionIdentifier),
      member "position_ticket" (str order.positionTicket)]
  else []

def orderMembers (order : Submission) : List (PyStr × Json ℚ) :=
  [member "client_request_id" (str order.clientRequestId), member "side" (str order.side.text),
    member "quantity_lots" (str order.quantityLots)]

def simplePayload (order : Submission) (reason brokerRetcode : Text) : Json ℚ :=
  .obj (orderMembers order ++ [member "reason" (str reason),
    member "broker_retcode" (str brokerRetcode)] ++ closeTarget order)

def payloadJson : EventBody → Json ℚ
  | .streamStarted eaBuildId executionEnabled =>
    .obj [member "ea_build_id" (str eaBuildId), member "execution_enabled" (.bool executionEnabled)]
  | .submissionReserved order => .obj (orderMembers order ++ closeTarget order)
  | .orderRejected order reason brokerRetcode | .orderUnknown order reason brokerRetcode =>
    simplePayload order reason brokerRetcode
  | .orderFilled order fill =>
    .obj (orderMembers order ++ [member "filled_quantity_lots" (str fill.filledQuantityLots),
      member "fill_price" (str fill.fillPrice), member "venue_order_id" (str fill.venueOrderId),
      member "venue_deal_id" (str fill.venueDealId),
      member "venue_position_id" (str fill.venuePositionId),
      member "commission" (str fill.commission),
      member "broker_retcode" (str fill.brokerRetcode)] ++ closeTarget order)

def eventJson (event : JournalEvent) : Json ℚ :=
  .obj [member "boot_id" (str event.bootId), member "event_seq" (str event.eventSeq),
    member "event_time_ms" (str event.eventTimeMs),
    member "event_type" (str event.body.eventType.text),
    member "payload" (payloadJson event.body), member "stream_id" (str event.streamId)]

/-- `Py000JournalEventJson`. -/
def journalEventJson (event : JournalEvent) : Option (Json ℚ) :=
  if event.body.order.all Submission.closeTargetValid then some (eventJson event) else none

end Json

section Pages

/-- The globals a request for events is answered from. -/
structure Server where
  ea : Journal.Ea
  identity : Identity

/-- The events of a page so far, and the cursor behind them. -/
structure Page where
  events : List (Json ℚ)
  next : Text

def maxWire : ℕ := 65536

variable (server : Server) (request : Request)

def pageData (page : Page) : Json ℚ :=
  .obj [member "events" (.arr page.events),
    member "first_retained_cursor" (str server.ea.firstCursor),
    member "has_more" (.bool (compareUint page.next (lastCursor server.ea) < 0)),
    member "identity" (identityJson server.identity),
    member "last_cursor" (str (lastCursor server.ea)),
    member "next_cursor" (str page.next),
    member "stream_id" (str server.ea.streamId)]

def pageResponse (page : Page) : Json ℚ :=
  .obj (responsePrefix request.requestId request.op true ++ [member "data" (pageData server page)])

/-- The loop over the journal; nothing where an event has no text. -/
def pageLoop (page : Page) : List JournalEvent → Option Page
  | [] => some page
  | event :: events =>
    if compareUint event.eventSeq request.afterCursor ≤ 0 then pageLoop page events
    else if request.limit ≤ page.events.length then some page
    else match journalEventJson event with
      | none => none
      | some json =>
        let candidate : Page := ⟨page.events ++ [json], event.eventSeq⟩
        if maxWire < utf8Size (jsonText (pageResponse server request candidate)) then some page
        else pageLoop candidate events

/-- `Py000EventsResponse`. -/
def eventsResponse : Json ℚ :=
  let error := errorResponse request.requestId request.op
  let last := lastCursor server.ea
  if ¬server.ea.journalReady then error "RECOVERY_BLOCKED" "journal recovery is blocked"
  else if 0 < compareUint request.afterCursor last then
    error "CURSOR_AHEAD" "after_cursor exceeds last_cursor"
  else if compareUint request.afterCursor server.ea.firstCursor < 0 then
    error "CURSOR_EXPIRED" "after_cursor precedes retained stream"
  else match pageLoop server request ⟨[], request.afterCursor⟩ server.ea.events with
    | none => error "SCHEMA_MISMATCH" "journal event cannot satisfy v1 grammar"
    | some page =>
      if page.events.length = 0 ∧ compareUint request.afterCursor last < 0 then
        error "SCHEMA_MISMATCH" "single event exceeds wire budget"
      else pageResponse server request page

/-- What is left of a parse error behind `SCHEMA: `. -/
def parseFailure (message : String) : String × String :=
  if message = "UNKNOWN_OP" then ("UNKNOWN_OP", "unsupported operation")
  else if "SCHEMA: ".toList.isPrefixOf message.toList then
    ("SCHEMA_MISMATCH", String.ofList (message.toList.drop 8))
  else ("MALFORMED", message)

/-- `Py000HandleRequest`, with what the expert answers to a request of another kind, and the names
an unparsed request is answered with. -/
def handleRequest (others : Request → Text) (unparsed : Text × Text) (source : Text) : Text :=
  match parseRequest source with
  | .error message =>
    let (code, message) := parseFailure message
    jsonText (errorResponse unparsed.1 unparsed.2 code message)
  | .ok request =>
    if request.op ≠ "get_execution_events".toList then others request
    else if request.binding ≠ server.identity.binding then
      jsonText (errorResponse request.requestId request.op "BINDING_MISMATCH"
        "request binding does not match current EA")
    else
      let response := eventsResponse server request
      if maxWire < utf8Size (jsonText response) then
        jsonText (errorResponse request.requestId request.op "SCHEMA_MISMATCH"
          "response exceeds 64 KiB wire limit")
      else jsonText response

end Pages

end ArbNautilus.Mt5.Ea
