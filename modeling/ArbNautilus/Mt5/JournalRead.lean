import ArbNautilus.Mt5.EventsPages
import ArbNautilus.Mt5.Tasks
import ArbNautilus.Mt5.Totality

/-! The client's transport against the expert, and a whole journal read through it. -/

namespace ArbNautilus.Mt5

open Base Journal Codec Coroutine

section Decoded

/-- `Identity.from_wire` of a value that passed it. -/
def identityFrom (value : Json ℚ) : Identity where
  accountId := textOf (get value "account_id")
  brokerServer := textOf (get value "broker_server")
  brokerLogin := textOf (get value "broker_login")
  serverTimezone := textOf (get value "server_timezone")
  symbol := textOf (get value "symbol")
  terminalBuild := match get value "terminal_build" with
    | .int build => build.toNat
    | _ => 0
  eaBuildId := textOf (get value "ea_build_id")
  declaredSourceSha256 := textOf (get value "declared_source_sha256")
  streamId := textOf (get value "stream_id")
  bootId := textOf (get value "boot_id")
  magic := textOf (get value "magic")
  executionEnabled := isBool (get value "execution_enabled") true

def orderFrom (payload : Json ℚ) : Option Submission := do
  let side ← Side.ofText (textOf (get payload "side"))
  pure {
    clientRequestId := textOf (get payload "client_request_id")
    side
    quantityLots := textOf (get payload "quantity_lots")
    positionTicket := textOf (get payload "position_ticket")
    positionIdentifier := textOf (get payload "position_identifier") }

def fillFrom (payload : Json ℚ) : Fill where
  filledQuantityLots := textOf (get payload "filled_quantity_lots")
  fillPrice := textOf (get payload "fill_price")
  venueOrderId := textOf (get payload "venue_order_id")
  venueDealId := textOf (get payload "venue_deal_id")
  venuePositionId := textOf (get payload "venue_position_id")
  commission := textOf (get payload "commission")
  brokerRetcode := textOf (get payload "broker_retcode")

def bodyFrom (type : EventType) (payload : Json ℚ) : Option EventBody :=
  let reason := textOf (get payload "reason")
  let brokerRetcode := textOf (get payload "broker_retcode")
  match type with
  | .streamStarted =>
    some (.streamStarted (textOf (get payload "ea_build_id"))
      (isBool (get payload "execution_enabled") true))
  | .submissionReserved => (orderFrom payload).map .submissionReserved
  | .orderRejected => (orderFrom payload).map (.orderRejected · reason brokerRetcode)
  | .orderUnknown => (orderFrom payload).map (.orderUnknown · reason brokerRetcode)
  | .orderFilled => (orderFrom payload).map (.orderFilled · (fillFrom payload))

/-- The event an accepted value stands for. -/
def eventFrom (value : Json ℚ) : Option JournalEvent := do
  let type ← EventType.ofText (textOf (get value "event_type"))
  let body ← bodyFrom type (get value "payload")
  pure {
    eventSeq := textOf (get value "event_seq")
    eventTimeMs := textOf (get value "event_time_ms")
    streamId := textOf (get value "stream_id")
    bootId := textOf (get value "boot_id")
    body }

def pageFrom (data : Json ℚ) : EventPage where
  identity := identityFrom (get data "identity")
  streamId := textOf (get data "stream_id")
  firstRetainedCursor := textOf (get data "first_retained_cursor")
  lastCursor := textOf (get data "last_cursor")
  nextCursor := textOf (get data "next_cursor")
  hasMore := isBool (get data "has_more") true
  events := (itemsOf (get data "events")).filterMap eventFrom

theorem identityFrom_json (identity : Identity) :
    identityFrom (Ea.identityJson identity) = identity := by
  obtain ⟨account, server, login, zone, symbol, build, ea, sha, stream, boot, magic, enabled⟩ :=
    identity
  cases enabled <;> rfl

/-- An order has both parts of a close target, or neither. -/
theorem closeTarget_cases {order : Submission} (target : order.closeTargetValid = true) :
    Ea.closeTarget order = [Ea.member "position_identifier" (str order.positionIdentifier),
        Ea.member "position_ticket" (str order.positionTicket)] ∨
      Ea.closeTarget order = [] ∧ order.positionTicket = [] ∧ order.positionIdentifier = [] := by
  unfold Ea.closeTarget
  by_cases present : order.hasCloseTarget = true
  · exact .inl (if_pos present)
  · refine .inr ⟨if_neg present, ?_⟩
    simp only [Submission.closeTargetValid, Bool.and_eq_true, beq_iff_eq] at target
    simp only [Submission.hasCloseTarget, Bool.and_eq_true, decide_eq_true_eq,
      not_and] at present
    have both : 0 < order.positionTicket.length ↔ 0 < order.positionIdentifier.length :=
      decide_eq_decide.1 target.1
    have none : ¬0 < order.positionTicket.length := fun more => present more (both.1 more)
    have none' : ¬0 < order.positionIdentifier.length := fun more => none (both.2 more)
    exact ⟨List.length_eq_zero_iff.1 (by omega), List.length_eq_zero_iff.1 (by omega)⟩

theorem bodyFrom_json {body : EventBody} (target : body.order.all Submission.closeTargetValid) :
    bodyFrom body.eventType (Ea.payloadJson body) = some body := by
  cases body with
  | streamStarted eaBuildId enabled => cases enabled <;> rfl
  | submissionReserved order | orderRejected order reason brokerRetcode
  | orderUnknown order reason brokerRetcode | orderFilled order fill =>
    obtain ⟨id, side, lots, ticket, identifier⟩ := order
    simp only [Ea.payloadJson, Ea.simplePayload]
    rcases closeTarget_cases target with both | ⟨none, rfl, rfl⟩
    · rw [both]
      cases side <;> rfl
    · rw [none]
      cases side <;> rfl

theorem eventFrom_json {event : JournalEvent} (valid : event.valid = true) :
    eventFrom (Ea.eventJson event) = some event := by
  have type : EventType.ofText (textOf (get (Ea.eventJson event) "event_type")) =
      some event.body.eventType := EventType.ofText_text _
  have body : bodyFrom event.body.eventType (get (Ea.eventJson event) "payload") =
      some event.body := bodyFrom_json (closeTargetValid_of_valid valid)
  rw [eventFrom, type, Option.bind_eq_bind, Option.bind_some, body]
  rfl

theorem hasMore_data (server : Ea.Server) (cursor : Text) (page : List JournalEvent) :
    isBool (get (Ea.pageData server (pageOf cursor page)) "has_more") true =
      decide (compareUint (tailCursor cursor page) (lastCursor server.ea) < 0) := by
  change decide (decide _ = true) = _
  rw [Bool.decide_eq_true]
  rfl

theorem pageFrom_hasMore (server : Ea.Server) (cursor : Text) (page : List JournalEvent) :
    (pageFrom (Ea.pageData server (pageOf cursor page))).hasMore =
      decide (compareUint (tailCursor cursor page) (lastCursor server.ea) < 0) :=
  hasMore_data server cursor page

theorem pageFrom_data {server : Ea.Server} {cursor : Text} {page : List JournalEvent}
    (valid : ∀ event ∈ page, event.valid = true) :
    pageFrom (Ea.pageData server (pageOf cursor page)) = {
      identity := server.identity
      streamId := server.ea.streamId
      firstRetainedCursor := server.ea.firstCursor
      lastCursor := lastCursor server.ea
      nextCursor := tailCursor cursor page
      hasMore := decide (compareUint (tailCursor cursor page) (lastCursor server.ea) < 0)
      events := page } := by
  have events : (page.map Ea.eventJson).filterMap eventFrom = page := by
    rw [List.filterMap_map]
    exact (List.filterMap_congr fun event member => eventFrom_json (valid event member)).trans
      List.filterMap_some
  have more := hasMore_data server cursor page
  unfold pageFrom
  congr 1
  · exact identityFrom_json server.identity

end Decoded

section Link

/-- What joins a client to an expert: the client's digest and its text of a float, the expert, and
what that answers to requests that this development does not follow. -/
structure Link where
  sha256 : List UInt8 → Text
  floatRepr : ℚ → Text
  server : Ea.Server
  others : Ea.Request → Text
  unparsed : Text × Text

namespace Link

variable (link : Link)

/-- The expert's answer to a request that the client encodes. -/
def reply (request : Codec.Request) : Except PyError Text := do
  let wire ← requestToWire request
  let payload ← encodeJson link.floatRepr wire
  pure (Ea.handleRequest link.server link.others link.unparsed payload)

/-- `_round_trip`. -/
def roundTrip (request : Codec.Request) : Except PyError (Json ℚ) := do
  let answer ← link.reply request
  decodeResponseFor link.sha256 request (.bytes (wireBytes answer))

/-- `_success_data`. -/
def successData (response : Json ℚ) : Except Raised (Json ℚ) :=
  if isBool (get response "ok") true then .ok (get response "data")
  else
    let error := get response "error"
    .error (.remoteError (String.ofList (textOf (get error "code")))
      (String.ofList (textOf (get error "message"))))

def raised : PyError → Raised
  | .wireError code message => .other "WireError" (code ++ ": " ++ message)
  | .valueError message => .other "ValueError" message
  | .typeError message => .other "TypeError" message

/-- `Mt5V1Transport.execution_events`. -/
def executionEvents (requestId : Text) (binding : Binding) (afterCursor : Text) (limit : ℕ) :
    Except Raised (Json ℚ) :=
  match link.roundTrip (.executionEvents requestId binding afterCursor limit) with
  | .error e => .error (raised e)
  | .ok response => successData response

/-- The expert at the other end of a task's waits; it is only asked for events. -/
def answer (requestId : Text → Text) : (wait : Wait) → Except Raised (Reply wait)
  | .executionEvents binding afterCursor limit =>
    (link.executionEvents (requestId afterCursor) binding afterCursor limit).map pageFrom
  | .lock | .sleep | .pollTask | .open | .hello | .snapshot _ | .mutation _ => .error .timeoutError

end Link

variable {link : Link}

theorem binding_valid {sha256 : List UInt8 → Text} {identity : Identity}
    (accepted : Passes (identityChecks sha256 (Ea.identityJson identity))) :
    Ea.bindingValid identity.binding = true := by
  unfold identityChecks at accepted
  simp only [passes_append, passes_cons, passes_nil, and_true, and_assoc] at accepted
  obtain ⟨-, -, account, -, -, -, symbol, -, ea, -, stream, boot, -, -⟩ := accepted
  rw [← bindingChecks_agree]
  unfold bindingChecks
  simp only [passes_append, and_assoc]
  exact ⟨(identifier_agrees _ _ _).2 ((identifier_agrees _ _ _).1 account),
    (identifier_agrees _ _ _).2 ((identifier_agrees _ _ _).1 symbol),
    (safeToken_agrees _ _).2 ((safeToken_agrees _ _).1 ea),
    (safeToken_agrees _ _).2 ((safeToken_agrees _ _).1 stream),
    (safeToken_agrees _ _).2 ((safeToken_agrees _ _).1 boot)⟩

/-- The client's request for the events after a cursor. -/
abbrev eventsRequest (link : Link) (requestId cursor : Text) (limit : ℕ) : Codec.Request :=
  .executionEvents requestId link.server.identity.binding cursor limit

theorem eventsRequest_valid (genuine : Genuine link.sha256 link.server) {requestId cursor : Text}
    (named : visibleIdentifier requestId 64 = true)
    (canonical : canonicalUint64 cursor false = true) {limit : ℕ} (positive : 1 ≤ limit)
    (small : limit ≤ 500) :
    validateRequest (eventsRequest link requestId cursor limit) = .ok () := by
  rw [validateRequest_iff]
  refine ⟨named, ?_, canonical, by omega, by omega⟩
  rintro binding ⟨⟩
  exact binding_valid genuine.accepted

/-- What the expert sends the client from inside its journal's range. -/
structure Sends (link : Link) (requestId cursor : Text) (limit : ℕ) (page : List JournalEvent)
    (text : Text) (response : Json ℚ) : Prop where
  reply : link.reply (eventsRequest link requestId cursor limit) = .ok text
  size : utf8Size text ≤ 65536
  decoded : link.roundTrip (eventsRequest link requestId cursor limit) = .ok response
  ok : isBool (get response "ok") true = true
  data : get response "data" = Ea.pageData link.server (pageOf cursor page)
  short : page.length ≤ limit

/-- The expert answers the request that the client encoded. -/
theorem reply_events (genuine : Genuine link.sha256 link.server) {requestId cursor : Text}
    (named : visibleIdentifier requestId 64 = true)
    (canonical : canonicalUint64 cursor false = true) {limit : ℕ} (positive : 1 ≤ limit)
    (small : limit ≤ 500) :
    ∃ parsed : Ea.Request, parsed.requestId = requestId ∧
      parsed.op = "get_execution_events".toList ∧
      parsed.afterCursor = cursor ∧ parsed.limit = limit ∧
      link.reply (eventsRequest link requestId cursor limit) = .ok
        (if Ea.maxWire < utf8Size (Ea.jsonText (Ea.eventsResponse link.server parsed)) then
          Ea.jsonText (Ea.errorResponse parsed.requestId parsed.op "SCHEMA_MISMATCH"
            "response exceeds 64 KiB wire limit")
        else Ea.jsonText (Ea.eventsResponse link.server parsed)) := by
  have valid := eventsRequest_valid genuine named canonical positive small
  obtain ⟨wire, encoded, payload⟩ := encode_request link.floatRepr valid
  have parses := listed_parses valid
  have carries := made_carries valid
  generalize (eventsRequest link requestId cursor limit).made = parsed at parses carries
  obtain ⟨-, -, name, op, bound, after, count⟩ := carries
  have op' : parsed.op = "get_execution_events".toList := op
  have binding : parsed.binding = link.server.identity.binding := bound _ rfl
  refine ⟨parsed, name, op', after, Int.ofNat_inj.1 count, ?_⟩
  rw [Link.reply, encoded]
  change (encodeJson link.floatRepr wire >>= _) = _
  rw [payload]
  change Except.ok (Ea.handleRequest _ _ _ _) = _
  unfold Ea.handleRequest
  rw [parses]
  dsimp only
  rw [if_neg (not_not.2 op'), if_neg (not_not.2 binding)]

theorem sends_page (genuine : Genuine link.sha256 link.server) {cursor : Text}
    {later : List JournalEvent} (stands : Stands link.server cursor later) {requestId : Text}
    (named : visibleIdentifier requestId 64 = true) {limit : ℕ} (positive : 1 ≤ limit)
    (small : limit ≤ 500) :
    ∃ page rest text response, later = page ++ rest ∧ (page = [] → rest = []) ∧
      Sends link requestId cursor limit page text response := by
  have valid := eventsRequest_valid genuine named stands.range.1 positive small
  obtain ⟨parsed, rfl, op, rfl, rfl, reply⟩ :=
    reply_events genuine named stands.range.1 positive small
  obtain ⟨page, rest, rfl, answers, short, goesOn, fits⟩ :=
    eventsResponse_page genuine stands positive named op
  rw [answers, if_neg (not_lt.2 fits)] at reply
  have build := (identity_short genuine.accepted).1
  have taken := taken_page link.server parsed parsed.afterCursor page (by omega)
  have decoded : link.roundTrip
      (eventsRequest link parsed.requestId parsed.afterCursor parsed.limit) =
        .ok (Ea.pageResponse link.server parsed (pageOf parsed.afterCursor page)) := by
    have passes : runAll _ = .ok () := response_passes genuine stands goesOn op named
      (show (parsed.limit : ℤ) ≤ 500 by omega) (show (page.length : ℤ) ≤ parsed.limit by omega)
    have read : decodeJsonObject (.bytes (wireBytes (Ea.jsonText
        (Ea.pageResponse link.server parsed (pageOf parsed.afterCursor page))))) =
        .ok (Ea.pageResponse link.server parsed (pageOf parsed.afterCursor page)) :=
      decode_jsonText taken fits
    rw [Link.roundTrip, reply]
    change decodeResponseFor _ _ _ = _
    rw [decodeResponseFor, valid]
    change (decodeJsonObject _ >>= _) = _
    rw [read]
    change (runAll _ >>= _) = _
    rw [passes]
    rfl
  exact ⟨page, rest, _, _, rfl, goesOn, reply, fits, decoded, rfl, rfl, short⟩

/-- An error that the expert answers with raises in the client. -/
theorem error_raises {requestId cursor name op : Text} {limit : ℕ} {code message : String}
    (reply : link.reply (eventsRequest link requestId cursor limit) =
      .ok (Ea.jsonText (Ea.errorResponse name op code message))) :
    ∃ e, link.executionEvents requestId link.server.identity.binding cursor limit = .error e := by
  unfold Link.executionEvents
  cases round : link.roundTrip (eventsRequest link requestId cursor limit) with
  | error e => exact ⟨_, rfl⟩
  | ok response =>
    rw [Link.roundTrip, reply] at round
    change decodeResponseFor _ _ _ = _ at round
    unfold decodeResponseFor at round
    obtain ⟨-, -, round⟩ := bind_eq_ok.1 round
    obtain ⟨decoded, read, round⟩ := bind_eq_ok.1 round
    obtain ⟨-, -, same⟩ := bind_eq_ok.1 round
    obtain rfl := Except.ok.inj same
    obtain rfl := decoded_same (taken_error name op code message).1 read
    exact ⟨_, rfl⟩

/-- So does a cursor before the journal. -/
theorem expired_raises (genuine : Genuine link.sha256 link.server)
    (kept : JournalReady link.server.ea) {requestId cursor : Text}
    (named : visibleIdentifier requestId 64 = true)
    (canonical : canonicalUint64 cursor false = true)
    (low : cursorValue cursor < cursorValue link.server.ea.firstCursor) {limit : ℕ}
    (positive : 1 ≤ limit) (small : limit ≤ 500) :
    ∃ e, link.executionEvents requestId link.server.identity.binding cursor limit = .error e := by
  obtain ⟨parsed, rfl, -, rfl, rfl, reply⟩ := reply_events genuine named canonical positive small
  have error : ∃ code message, Ea.eventsResponse link.server parsed =
      Ea.errorResponse parsed.requestId parsed.op code message := by
    have digits := (canonicalUint64_value.1 canonical).1
    have first := (canonicalUint64_value.1 kept.first).1
    unfold Ea.eventsResponse
    dsimp only
    rw [if_neg (not_not.2 kept.ready), if_pos ((compareUint_neg digits first).2 low)]
    split_ifs
    · exact ⟨_, _, rfl⟩
    · exact ⟨_, _, rfl⟩
  obtain ⟨code, message, error⟩ := error
  rw [error] at reply
  split_ifs at reply
  · exact error_raises reply
  · exact error_raises reply

/-- The page's data as the transport gives it. -/
theorem Sends.executionEvents {requestId cursor : Text} {limit : ℕ} {page : List JournalEvent}
    {text : Text} {response : Json ℚ}
    (sends : Sends link requestId cursor limit page text response) :
    link.executionEvents requestId link.server.identity.binding cursor limit =
      .ok (Ea.pageData link.server (pageOf cursor page)) := by
  rw [Link.executionEvents, sends.decoded]
  dsimp only
  rw [Link.successData, if_pos sends.ok, sends.data]

end Link

section Follow

variable {link : Link} {cursor : Text} {later : List JournalEvent}

/-- The pages from a cursor on, until one says that there is no more. -/
def Link.follow (link : Link) (requestId : Text → Text) (limit : ℕ) :
    ℕ → Text → Except Raised (List (Json ℚ))
  | 0, _ => .ok []
  | turns + 1, cursor => do
    let data ← link.executionEvents (requestId cursor) link.server.identity.binding cursor limit
    if isBool (get data "has_more") true then do
      let pages ← Link.follow link requestId limit turns (textOf (get data "next_cursor"))
      pure (data :: pages)
    else pure [data]

theorem follow_whole (genuine : Genuine link.sha256 link.server) {requestId : Text → Text}
    (named : ∀ cursor, visibleIdentifier (requestId cursor) 64 = true) {limit : ℕ}
    (positive : 1 ≤ limit) (small : limit ≤ 500) {cursor : Text} {later : List JournalEvent}
    (stands : Stands link.server cursor later) :
    ∃ needed ≤ max 1 later.length, ∀ turns, needed ≤ turns →
      ∃ pages, link.follow requestId limit turns cursor = .ok pages ∧
        pages.length = needed ∧
        (pages.flatMap fun data => itemsOf (get data "events")) = later.map Ea.eventJson := by
  induction size : later.length using Nat.strong_induction_on generalizing cursor later with
  | _ size' ih =>
    subst size
    obtain ⟨page, rest, text, response, rfl, goesOn, sends⟩ :=
      sends_page genuine stands (named cursor) positive small
    have data := sends.executionEvents
    have more := hasMore_data link.server cursor page
    by_cases last : rest = []
    · have noMore := decide_eq_false (mt stands.hasMore.1 (not_not.2 last))
      refine ⟨1, Nat.le_max_left _ _, fun turns enough => ?_⟩
      obtain ⟨turns, rfl⟩ := Nat.exists_eq_add_of_le' enough
      refine ⟨[Ea.pageData link.server (pageOf cursor page)], ?_, rfl, ?_⟩
      · rw [Link.follow, data]
        change ite _ _ _ = _
        rw [more, noMore]
        rfl
      · rw [last, List.append_nil, List.flatMap_singleton]
        rfl
    · have goes := decide_eq_true (stands.hasMore.2 last)
      have some : page ≠ [] := fun none => last (goesOn none)
      have shorter := List.length_pos_iff.2 some
      obtain ⟨needed, bound, follows⟩ :=
        ih rest.length (by rw [List.length_append]; omega) stands.next rfl
      have left := List.length_pos_iff.2 last
      refine ⟨needed + 1, by rw [List.length_append]; omega, fun turns enough => ?_⟩
      obtain ⟨turns, rfl⟩ := Nat.exists_eq_add_of_le' (Nat.le_of_add_left_le enough)
      obtain ⟨pages, read, count, events⟩ := follows turns (Nat.le_of_add_le_add_right enough)
      refine ⟨Ea.pageData link.server (pageOf cursor page) :: pages, ?_,
        by rw [List.length_cons, count], ?_⟩
      · rw [Link.follow, data]
        change ite _ _ _ = _
        rw [more, goes, if_pos rfl]
        change (Link.follow link requestId limit turns (tailCursor cursor page) >>= _) = _
        rw [read]
        rfl
      · rw [List.flatMap_cons, events, List.map_append]
        rfl

end Follow

section Complete

variable {link : Link}

theorem intOf_eq (digits : Text) : intOf digits = cursorValue digits :=
  Nat.ofDigitChars_eq_foldl.symm

theorem readEvents_page {r : Reading} (canonical : canonicalUint64 r.cursor false = true)
    {events : List JournalEvent} (chained : Chained r.cursor events) :
    events.foldlM readEvent r =
      .ok { r with cursor := tailCursor r.cursor events, events := r.events ++ events } := by
  induction events generalizing r with
  | nil => rw [List.append_nil]; rfl
  | cons event events ih =>
    obtain ⟨more, sequence, rest⟩ := chained
    obtain ⟨next, worth⟩ := increment_next canonical more
    rw [← sequence] at next worth
    have step : readEvent r event =
        .ok { r with cursor := event.eventSeq, events := r.events ++ [event] } := by
      rw [readEvent, intOf_eq, intOf_eq, raiseIf, if_neg (not_not.2 worth)]
      rfl
    rw [List.foldlM_cons, step, tailCursor_cons]
    refine (ih next rest).trans ?_
    simp

/-- The client's checks of a page that the expert sent hold. -/
theorem readPage_page (genuine : Genuine link.sha256 link.server)
    (zero : link.server.ea.firstCursor = ['0']) {r : Reading} {page rest : List JournalEvent}
    (stands : Stands link.server r.cursor (page ++ rest))
    (known : r.lastCursor = none ∨ r.lastCursor = some (lastCursor link.server.ea)) :
    readPage link.server.identity r (pageFrom (Ea.pageData link.server (pageOf r.cursor page))) =
      .ok ⟨tailCursor r.cursor page, r.events ++ page, some (lastCursor link.server.ea)⟩ := by
  have valid : ∀ event ∈ page, event.valid = true :=
    fun event member => (stands.served event (List.mem_append_left rest member)).valid
  have chained := stands.chained.append.1
  have tail : ¬(decide (compareUint (tailCursor r.cursor page) (lastCursor link.server.ea) < 0) =
      false ∧ tailCursor r.cursor page ≠ lastCursor link.server.ea) := by
    rintro ⟨noMore, other⟩
    have done : rest = [] := not_not.1 (mt stands.hasMore.2 (of_decide_eq_false noMore))
    rw [stands.last, done, List.append_nil] at other
    exact other rfl
  have seen : ¬(r.lastCursor ≠ none ∧ r.lastCursor ≠ some (lastCursor link.server.ea)) := by
    rintro ⟨some, other⟩
    exact known.elim some other
  have read := readEvents_page (r := { r with lastCursor := some (lastCursor link.server.ea) })
    stands.range.1 chained
  have same : ¬(link.server.identity ≠ link.server.identity ∨
      link.server.ea.streamId ≠ link.server.identity.streamId) := by
    rintro (other | other)
    · exact other rfl
    · exact other genuine.stream.symm
  rw [pageFrom_data valid]
  simp only [readPage, validatePageIdentity, bind_eq_ok, raiseIf_eq_ok, pure_eq_ok]
  exact ⟨(), same, (), not_not.2 zero, (), seen, _, read, (), fun other => other rfl, (), tail, rfl⟩

theorem answer_events (genuine : Genuine link.sha256 link.server) {cursor : Text}
    {later : List JournalEvent} (stands : Stands link.server cursor later) {requestId : Text → Text}
    (named : ∀ cursor, visibleIdentifier (requestId cursor) 64 = true) {limit : ℕ}
    (positive : 1 ≤ limit) (small : limit ≤ 500) :
    ∃ page rest, later = page ++ rest ∧ (page = [] → rest = []) ∧
      link.answer requestId (.executionEvents link.server.identity.binding cursor limit) =
        .ok (pageFrom (Ea.pageData link.server (pageOf cursor page))) := by
  obtain ⟨page, rest, text, response, split, goesOn, sends⟩ :=
    sends_page genuine stands (named cursor) positive small
  refine ⟨page, rest, split, goesOn, ?_⟩
  change (link.executionEvents _ _ _ _).map pageFrom = _
  rw [sends.executionEvents]
  rfl

theorem answer_raises {requestId : Text → Text} {binding : Binding} {cursor : Text} {limit : ℕ}
    {e : Raised}
    (raised : link.executionEvents (requestId cursor) binding cursor limit = .error e) :
    link.answer requestId (.executionEvents binding cursor limit) = .error e := by
  change (link.executionEvents _ _ _ _).map pageFrom = _
  rw [raised]
  rfl

/-- One page of a reading that goes well. -/
theorem readPages_turn {answer : (wait : Wait) → Except Raised (Reply wait)} {config : Config}
    {identity : Identity} {r s : Reading} {page : EventPage}
    (answers : answer (.executionEvents identity.binding r.cursor config.eventPageLimit) = .ok page)
    (passed : readPage identity r page = .ok s) (pages : ℕ) (client : Client) :
    (readPages config identity (pages + 1) r).answeredBy answer client =
      (if page.hasMore then readPages config identity pages s
        else pure (s.events, s.cursor) : Task _).answeredBy answer client := by
  rw [readPages]
  refine (answeredBy_bind answer client _ _ (t := client) (a := page) ?_).trans
    (answeredBy_bind answer client _ _ ?_)
  · exact (answeredBy_ask answer client _).trans (Prod.ext answers rfl)
  · rw [answeredBy_check, passed]

def pageBudgetExceeded : Raised :=
  .executionError "execution journal pagination exceeded its page budget"

theorem readPages_answered (genuine : Genuine link.sha256 link.server)
    (zero : link.server.ea.firstCursor = ['0']) {requestId : Text → Text}
    (named : ∀ cursor, visibleIdentifier (requestId cursor) 64 = true) {limit : ℕ}
    (positive : 1 ≤ limit) (small : limit ≤ 500) {r : Reading} {later : List JournalEvent}
    (stands : Stands link.server r.cursor later)
    (known : r.lastCursor = none ∨ r.lastCursor = some (lastCursor link.server.ea)) :
    ∃ needed ≤ max 1 later.length, 1 ≤ needed ∧ ∀ (config : Config) (pages : ℕ) (client : Client),
      config.eventPageLimit = limit →
      (readPages config link.server.identity pages r).answeredBy (link.answer requestId) client =
        (if needed ≤ pages then .ok (r.events ++ later, lastCursor link.server.ea)
          else .error pageBudgetExceeded, client) := by
  induction size : later.length using Nat.strong_induction_on generalizing r later with
  | _ size' ih =>
    subst size
    obtain ⟨page, rest, rfl, goesOn, answers⟩ :=
      answer_events genuine stands named positive small
    have passed := readPage_page genuine zero stands known
    by_cases last : rest = []
    · refine ⟨1, Nat.le_max_left _ _, Nat.le_refl 1, fun config pages client limited => ?_⟩
      have noMore := decide_eq_false (mt stands.hasMore.1 (not_not.2 last))
      cases pages with
      | zero => rfl
      | succ pages =>
        subst limited
        rw [readPages_turn answers passed, pageFrom_hasMore, noMore, stands.last, last,
          if_pos (Nat.le_add_left 1 pages)]
        simp
    · have goes := decide_eq_true (stands.hasMore.2 last)
      have shorter := List.length_pos_iff.2 fun none => last (goesOn none)
      have left := List.length_pos_iff.2 last
      have next : Stands link.server
          (Reading.cursor ⟨tailCursor r.cursor page, r.events ++ page,
            some (lastCursor link.server.ea)⟩) rest := stands.next
      obtain ⟨needed, bound, least, follows⟩ :=
        ih rest.length (by rw [List.length_append]; omega) next (.inr rfl) rfl
      refine ⟨needed + 1, by rw [List.length_append]; omega, Nat.le_add_left 1 needed,
        fun config pages client limited => ?_⟩
      cases pages with
      | zero => rfl
      | succ pages =>
        have later := follows config pages client limited
        subst limited
        rw [readPages_turn answers passed, pageFrom_hasMore, goes, if_pos rfl]
        refine later.trans ?_
        simp

theorem readCompleteJournal_answered (genuine : Genuine link.sha256 link.server)
    (kept : JournalReady link.server.ea) (zero : link.server.ea.firstCursor = ['0'])
    {requestId : Text → Text} (named : ∀ cursor, visibleIdentifier (requestId cursor) 64 = true)
    {limit : ℕ} (positive : 1 ≤ limit) (small : limit ≤ 500) :
    ∃ needed ≤ max 1 link.server.ea.events.length, ∀ (config : Config) (client : Client),
      config.eventPageLimit = limit →
      (readCompleteJournal config link.server.identity).answeredBy (link.answer requestId) client =
        (if needed ≤ config.eventPaginationMaxPages then
            .ok (link.server.ea.events, lastCursor link.server.ea)
          else .error pageBudgetExceeded, client) := by
  have stands : Stands link.server (Reading.cursor ⟨['0'], [], none⟩) link.server.ea.events :=
    ⟨kept, [], rfl, zero.symm⟩
  obtain ⟨needed, bound, -, reads⟩ :=
    readPages_answered genuine zero named positive small stands (.inl rfl)
  refine ⟨needed, bound, fun config client limited => ?_⟩
  have run := reads config config.eventPaginationMaxPages client limited
  unfold readCompleteJournal withPaginationTimeout
  split_ifs at run ⊢ with enough
  · exact answeredBy_tryCatch _ _ _ _ run
  · exact answeredBy_tryCatch_error _ _ _ _ run

/-- A first question that raises ends the reading. -/
theorem readCompleteJournal_raises {answer : (wait : Wait) → Except Raised (Reply wait)}
    {config : Config} {identity : Identity} {e : Raised}
    (answers : answer (.executionEvents identity.binding ['0'] config.eventPageLimit) = .error e)
    (some : 0 < config.eventPaginationMaxPages) (client : Client) :
    ∃ e', (readCompleteJournal config identity).answeredBy answer client = (.error e', client) := by
  obtain ⟨pages, more⟩ := Nat.exists_eq_add_one.2 some
  have run : (readPages config identity config.eventPaginationMaxPages
      ⟨['0'], [], none⟩).answeredBy answer client = (.error e, client) := by
    rw [more, readPages]
    refine answeredBy_bind_error answer client _ _ ?_
    exact (answeredBy_ask answer client _).trans (Prod.ext answers rfl)
  unfold readCompleteJournal withPaginationTimeout
  rw [answeredBy_tryCatch_error _ _ _ _ run]
  cases e with
  | timeoutError => exact ⟨_, rfl⟩
  | _ => exact ⟨_, rfl⟩

end Complete

section Pages

/-- The events behind a cursor. -/
def laterEvents (ea : Journal.Ea) (cursor : Text) : List JournalEvent :=
  ea.events.filter fun event => cursorValue cursor < cursorValue event.eventSeq

theorem stands_later {server : Ea.Server} (kept : JournalReady server.ea) {cursor : Text}
    (canonical : canonicalUint64 cursor false = true)
    (low : cursorValue server.ea.firstCursor ≤ cursorValue cursor)
    (high : cursorValue cursor ≤ cursorValue (lastCursor server.ea)) :
    Stands server cursor (laterEvents server.ea cursor) := by
  rw [lastCursor_eq] at high
  obtain ⟨done, later, events, place⟩ := kept.chained.stands kept.first canonical low high
  have stands : Stands server cursor later := ⟨kept, done, events, place⟩
  have chained := kept.chained
  rw [events] at chained
  have none : done.filter (fun event => cursorValue cursor < cursorValue event.eventSeq) = [] := by
    apply List.filter_eq_nil_iff.2
    intro event member
    have behind := (chained.append.1.behind kept.first event member).2.2
    rw [← place] at behind
    simpa using behind
  have all :
      later.filter (fun event => cursorValue cursor < cursorValue event.eventSeq) = later := by
    apply List.filter_eq_self.2
    intro event member
    have ahead := (stands.chained.behind canonical event member).2.1
    simpa using ahead
  rw [laterEvents, events, List.filter_append, none, all]
  exact stands

/-- A ready journal is served page by page: every page is within the wire's budget, is taken by the
client, and moves the cursor while there is more; following the cursor gives every later event once
and in order, and a journal that starts at zero is read as it is. -/
theorem journal_pages {link : Link} (genuine : Genuine link.sha256 link.server)
    (driven : Driven link.server.ea) (ready : link.server.ea.journalReady = true)
    {requestId : Text → Text} (named : ∀ cursor, visibleIdentifier (requestId cursor) 64 = true)
    {limit : ℕ} (positive : 1 ≤ limit) (small : limit ≤ 500) :
    (∀ cursor, canonicalUint64 cursor false = true →
      cursorValue link.server.ea.firstCursor ≤ cursorValue cursor →
      cursorValue cursor ≤ cursorValue (lastCursor link.server.ea) →
      (∃ page rest text response, laterEvents link.server.ea cursor = page ++ rest ∧
        Sends link (requestId cursor) cursor limit page text response ∧
        (isBool (get (get response "data") "has_more") true = true ↔ rest ≠ []) ∧
        (isBool (get (get response "data") "has_more") true = true →
          cursorValue cursor < cursorValue (textOf (get (get response "data") "next_cursor")))) ∧
      ∃ needed ≤ max 1 (laterEvents link.server.ea cursor).length, ∀ turns, needed ≤ turns →
        ∃ pages, link.follow requestId limit turns cursor = .ok pages ∧ pages.length = needed ∧
          (pages.flatMap fun data => itemsOf (get data "events")) =
            (laterEvents link.server.ea cursor).map Ea.eventJson) ∧
    (link.server.ea.firstCursor = ['0'] →
      ∃ needed ≤ max 1 link.server.ea.events.length, ∀ (config : Config) (client : Client),
        config.eventPageLimit = limit →
        (readCompleteJournal config link.server.identity).answeredBy (link.answer requestId)
            client =
          (if needed ≤ config.eventPaginationMaxPages then
              .ok (link.server.ea.events, lastCursor link.server.ea)
            else .error pageBudgetExceeded, client)) := by
  have kept := ready_of_driven driven ready
  refine ⟨fun cursor canonical low high => ?_, fun zero =>
    readCompleteJournal_answered genuine kept zero named positive small⟩
  have stands := stands_later kept canonical low high
  refine ⟨?_, follow_whole genuine named positive small stands⟩
  obtain ⟨page, rest, text, response, split, goesOn, sends⟩ :=
    sends_page genuine stands (named cursor) positive small
  rw [split] at stands
  have more : isBool (get (get response "data") "has_more") true = true ↔ rest ≠ [] := by
    rw [sends.data, hasMore_data, decide_eq_true_iff, stands.hasMore]
  refine ⟨page, rest, text, response, split, sends, more, fun goes => ?_⟩
  have nonempty := List.length_pos_iff.2 fun none => more.1 goes (goesOn none)
  have worth := stands.values.2.2.1
  rw [sends.data]
  change _ < cursorValue (tailCursor cursor page)
  omega

def demoEaIdentity : Identity where
  accountId := "mt5-sha256-".toList ++ demoSha []
  brokerServer := "Broker-Demo".toList
  brokerLogin := "1001".toList
  serverTimezone := "UTC".toList
  symbol := "XAUUSD".toList
  terminalBuild := 4000
  eaBuildId := "ea-1".toList
  declaredSourceSha256 := List.replicate 64 'a'
  streamId := "stream-1".toList
  bootId := "boot-1".toList
  magic := "7".toList
  executionEnabled := true

/-- The expert of a demo account, with this journal. -/
def demoLink (ea : Journal.Ea) : Link where
  sha256 := demoSha
  floatRepr _ := []
  server := ⟨ea, demoEaIdentity⟩
  others _ := []
  unparsed := ("invalid".toList, "unknown".toList)

theorem demoLink_genuine {ea : Journal.Ea} (stream : ea.streamId = "stream-1".toList) :
    Genuine (demoLink ea).sha256 (demoLink ea).server := by
  have accepted : runAll (identityChecks demoSha (Ea.identityJson demoEaIdentity)) = .ok () := by
    decide +kernel
  exact ⟨stream.symm, accepted⟩

theorem journal_pages_counted :
    (∃ page rest text response, laterEvents countedEa "1".toList = page ++ rest ∧
      Sends (demoLink countedEa) "events-1".toList "1".toList 1 page text response) ∧
    ∃ needed ≤ 3, ∀ (config : Config) (client : Client), config.eventPageLimit = 1 →
      needed ≤ config.eventPaginationMaxPages →
      (readCompleteJournal config demoEaIdentity).answeredBy
        ((demoLink countedEa).answer fun _ => "events-1".toList) client =
          (.ok (countedEa.events, "3".toList), client) := by
  have stream : countedEa.streamId = "stream-1".toList := by decide +kernel
  have ready : countedEa.journalReady = true := by decide +kernel
  have named : visibleIdentifier "events-1".toList 64 = true := by decide +kernel
  have low : cursorValue countedEa.firstCursor ≤ cursorValue "1".toList := by decide +kernel
  have high : cursorValue "1".toList ≤ cursorValue (lastCursor countedEa) := by decide +kernel
  have zero : countedEa.firstCursor = ['0'] := by decide +kernel
  have size : countedEa.events.length = 3 := by decide +kernel
  have last : lastCursor countedEa = "3".toList := by decide +kernel
  have driven := countedEa_driven
  generalize countedEa = ea at stream ready low high zero size last driven ⊢
  obtain ⟨served, complete⟩ := @journal_pages (demoLink ea) (demoLink_genuine stream) driven ready
    (fun _ => "events-1".toList) (fun _ => named) 1 (Nat.le_refl 1) (by decide)
  obtain ⟨page, rest, text, response, split, sends, -⟩ :=
    (served "1".toList (by decide +kernel) low high).1
  obtain ⟨needed, bound, reads⟩ := complete zero
  refine ⟨⟨page, rest, text, response, split, sends⟩, needed, ?_,
    fun config client one enough => ?_⟩
  · exact bound.trans (by change max 1 ea.events.length ≤ 3; omega)
  · have run := reads config client one
    rw [if_pos enough] at run
    exact last ▸ run

/-- A journal whose first cursor is five. -/
def laterEa : Journal.Ea :=
  (init bootNamespace true ⟨some bootIdentity, some (wireText (sealLine
    (headerFields bootNamespace "stream-1".toList "5".toList)))⟩ [] .refused .refused).ea

/-- A client that reads one event a page, and this many pages. -/
def onePageConfig (pages : ℕ) : Config where
  instrumentId := []
  expectedAccountId := []
  expectedSymbol := []
  expectedMagic := []
  expectedEaBuildId := []
  expectedSourceSha256 := []
  expectedMaxOrderLots := 0
  expectedStreamId := []
  expectedServerTimezone := []
  snapshotRefreshIntervalMs := 0
  eventPageLimit := 1
  eventPaginationMaxPages := pages
  usd := some
  balances _ _ _ := true

/-- The client asks for the events from zero on, whatever the journal's first cursor is. -/
theorem later_journal_unread : ¬∀ (link : Link), Genuine link.sha256 link.server →
    Driven link.server.ea → link.server.ea.journalReady = true → ∀ requestId : Text → Text,
    (∀ cursor, visibleIdentifier (requestId cursor) 64 = true) → ∀ limit, 1 ≤ limit → limit ≤ 500 →
    ∃ needed, ∀ (config : Config) (client : Client), config.eventPageLimit = limit →
      needed ≤ config.eventPaginationMaxPages →
      (readCompleteJournal config link.server.identity).answeredBy (link.answer requestId) client =
        (.ok (link.server.ea.events, lastCursor link.server.ea), client) := by
  intro claim
  have stream : laterEa.streamId = "stream-1".toList := by decide +kernel
  have ready : laterEa.journalReady = true := by decide +kernel
  have named : visibleIdentifier "events-1".toList 64 = true := by decide +kernel
  have later : cursorValue ['0'] < cursorValue laterEa.firstCursor := by decide +kernel
  have driven : Driven laterEa := .init ..
  generalize laterEa = ea at stream ready later driven
  have genuine := demoLink_genuine stream
  obtain ⟨needed, reads⟩ := claim (demoLink ea) genuine driven ready (fun _ => "events-1".toList)
    (fun _ => named) 1 (Nat.le_refl 1) (by decide)
  obtain ⟨e, raised⟩ := expired_raises genuine (ready_of_driven driven ready) named
    (show canonicalUint64 ['0'] false = true by decide) later (Nat.le_refl 1) (by decide)
  obtain ⟨e', failed⟩ := @readCompleteJournal_raises ((demoLink ea).answer fun _ => _)
    (onePageConfig (needed + 1)) _ e (answer_raises raised) (Nat.succ_pos needed)
    (.initial ⟨0, 0, none⟩)
  have run := reads (onePageConfig (needed + 1)) (.initial ⟨0, 0, none⟩) rfl (Nat.le_succ needed)
  have ends := failed.symm.trans run
  cases ends

end Pages

end ArbNautilus.Mt5
