import ArbNautilus.Base.Bytes
import ArbNautilus.Journal.Stretch
import ArbNautilus.Mt5.EventsResponse

/-! What the expert writes is what the client's decoder reads. -/

namespace ArbNautilus.Mt5.Codec

open Base Journal

section TakenBack

/-- A value the decoder gives back as it is, below this depth. -/
def TakenBack (depth : ℕ) (value : Json ℚ) : Prop :=
  value.Readable hooks ∧ validateTree depth value = .ok ()

variable {depth : ℕ}

theorem taken_str (shallow : depth ≤ maxJsonDepth) (text : Text) : TakenBack depth (str text) := by
  refine ⟨⟨text, rfl⟩, ?_⟩
  rw [str, validateTree, bind_unit_eq_ok, raiseIf_eq_ok]
  exact ⟨Nat.not_lt.2 shallow, rfl⟩

theorem taken_bool (shallow : depth ≤ maxJsonDepth) (value : Bool) :
    TakenBack depth (.bool value) := by
  refine ⟨trivial, ?_⟩
  rw [validateTree, bind_unit_eq_ok, raiseIf_eq_ok]
  exact ⟨Nat.not_lt.2 shallow, rfl⟩

theorem intText_natCast (n : ℕ) : intText (n : ℤ) = Nat.toDigits 10 n := by
  rw [intText, if_neg (Int.not_lt.2 (Int.natCast_nonneg n)), Int.natAbs_natCast]

theorem short_digits {n : ℕ} (small : n < 10 ^ 20) :
    (Nat.toDigits 10 n).length ≤ maxJsonIntDigits :=
  (Nat.length_toDigits_le_iff (by decide) (by decide)).2 small

theorem boundedJsonInt_natCast {n : ℕ} (small : n < 10 ^ 20) :
    boundedJsonInt (intText n) = .ok (n : ℤ) := by
  have noSign : (Nat.toDigits 10 n).head? ≠ some '-' := by
    obtain ⟨c, more, written, digit⟩ := toDigits_front n
    rw [written]
    intro minus
    exact ne_of_isDigit digit (by decide) (Option.some.inj minus)
  unfold boundedJsonInt
  simp only [intText_natCast, noSign, if_false, Nat.ofDigitChars_ten_toDigits]
  rw [if_neg (Nat.not_lt.2 (short_digits small))]

theorem taken_natCast (shallow : depth ≤ maxJsonDepth) {n : ℕ} (small : n < 10 ^ 20) :
    TakenBack depth (.int n) := by
  refine ⟨boundedJsonInt_natCast small, ?_⟩
  rw [validateTree, bind_unit_eq_ok, raiseIf_eq_ok]
  exact ⟨Nat.not_lt.2 shallow, rfl⟩

theorem validateItems_ok {items : List (Json ℚ)} :
    validateItems depth items = .ok () ↔ ∀ item ∈ items, validateTree depth item = .ok () := by
  induction items with
  | nil => simp [validateItems, pure, Except.pure]
  | cons item items ih =>
    rw [validateItems, bind_unit_eq_ok, ih, List.forall_mem_cons, and_comm]

theorem validateMembers_ok {members : List (PyStr × Json ℚ)} :
    validateMembers depth members = .ok () ↔
      ∀ member ∈ members, validateTree depth member.2 = .ok () := by
  induction members with
  | nil => simp [validateMembers, pure, Except.pure]
  | cons member members ih =>
    rw [validateMembers, bind_unit_eq_ok, ih, List.forall_mem_cons, and_comm]

theorem taken_arr (shallow : depth ≤ maxJsonDepth) {items : List (Json ℚ)}
    (taken : ∀ item ∈ items, TakenBack (depth + 1) item) : TakenBack depth (.arr items) := by
  constructor
  · rw [Json.Readable, readableItems_iff]
    exact fun item member => (taken item member).1
  · rw [validateTree, bind_unit_eq_ok, raiseIf_eq_ok, validateItems_ok]
    exact ⟨Nat.not_lt.2 shallow, fun item member => (taken item member).2⟩

/-- An object with these names, each once. -/
theorem taken_obj (shallow : depth ≤ maxJsonDepth) {members : List (PyStr × Json ℚ)}
    (names : List String) (named : members.map Prod.fst = names.map fun name => .text name.toList)
    (once : names.Nodup) (taken : ∀ member ∈ members, TakenBack (depth + 1) member.2) :
    TakenBack depth (.obj members) := by
  have keys : ∀ member ∈ members, ∃ text, member.1 = .text text := by
    intro member inside
    have key := List.mem_map_of_mem (f := Prod.fst) inside
    rw [named] at key
    obtain ⟨name, -, same⟩ := List.mem_map.1 key
    exact ⟨_, same.symm⟩
  have single : (members.map Prod.fst).Nodup := by
    rw [named]
    refine once.map fun a b same => ?_
    exact String.toList_injective (PyStr.text.inj same)
  constructor
  · rw [Json.Readable, readableMembers_iff]
    exact ⟨if_pos single, fun member inside => ⟨keys member inside, (taken member inside).1⟩⟩
  · have whole : (members.any fun member => isBroken member.1) = false := by
      apply List.any_eq_false.2
      intro member inside
      obtain ⟨text, key⟩ := keys member inside
      simp [key, isBroken]
    rw [validateTree, bind_unit_eq_ok, raiseIf_eq_ok, bind_unit_eq_ok, raiseIf_eq_ok, whole,
      validateMembers_ok]
    exact ⟨Nat.not_lt.2 shallow, Bool.false_ne_true, fun member inside => (taken member inside).2⟩

/-- The bytes of a text. -/
def wireBytes (text : Text) : ByteArray := (utf8 text).toByteArray

theorem size_wireBytes (text : Text) : (wireBytes text).size = utf8Size text := by
  have length : (utf8 text).length = utf8Size text := by
    induction text with
    | nil => rfl
    | cons c text ih =>
      rw [utf8, List.flatMap_cons, List.length_append, String.length_utf8EncodeChar, ← utf8, ih,
        utf8Size_cons]
  rw [wireBytes, List.size_toByteArray, length]

theorem decode_wireBytes {text : Text} (short : utf8Size text ≤ maxWireBytes) :
    (Raw.bytes (wireBytes text)).decode = .ok text := by
  have decoded : String.fromUTF8? (wireBytes text) = some (String.ofList text) := by
    have valid : (wireBytes text).IsValidUTF8 := (String.ofList text).isValidUTF8
    rw [String.fromUTF8?, dif_pos valid]
    rfl
  change (if maxWireBytes < (wireBytes text).size then _ else _) = _
  rw [size_wireBytes, if_neg (Nat.not_lt.2 short), decoded]
  exact congrArg Except.ok String.toList_ofList

/-- Nothing else is decoded from an object's bytes. -/
theorem decoded_same {members : List (PyStr × Json ℚ)}
    (readable : Json.Readable hooks (.obj members)) {decoded : Json ℚ}
    (read : decodeJsonObject (.bytes (wireBytes (Ea.jsonText (.obj members)))) = .ok decoded) :
    decoded = .obj members := by
  have loaded : hooks.loads (Ea.jsonText (.obj members)) = .ok (.obj members) :=
    loads_printValue (quotes_quotedText hooks) readable
  unfold decodeJsonObject at read
  obtain ⟨text, raw, read⟩ := bind_eq_ok.1 read
  have same : text = Ea.jsonText (.obj members) := by
    by_cases short : utf8Size (Ea.jsonText (.obj members)) ≤ maxWireBytes
    · rw [decode_wireBytes short] at raw
      exact (Except.ok.inj raw).symm
    · change (if maxWireBytes < (wireBytes _).size then _ else _) = _ at raw
      rw [size_wireBytes, if_pos (not_le.1 short)] at raw
      cases raw
  rw [same, loaded] at read
  obtain ⟨value, found, read⟩ := bind_eq_ok.1 read
  obtain rfl := Except.ok.inj found
  obtain ⟨-, -, kept⟩ := bind_eq_ok.1 read
  exact (Except.ok.inj kept).symm

/-- A value that is taken is decoded from its text's bytes. -/
theorem decode_jsonText {members : List (PyStr × Json ℚ)} (taken : TakenBack 0 (.obj members))
    (short : utf8Size (Ea.jsonText (.obj members)) ≤ maxWireBytes) :
    decodeJsonObject (.bytes (wireBytes (Ea.jsonText (.obj members)))) = .ok (.obj members) := by
  have read : hooks.loads (Ea.jsonText (.obj members)) = .ok (.obj members) :=
    loads_printValue (quotes_quotedText hooks) taken.1
  unfold decodeJsonObject
  rw [decode_wireBytes short]
  simp only [bind, Except.bind, read, taken.2, pure, Except.pure]

theorem taken_error (requestId op : Text) (code message : String) :
    TakenBack 0 (Ea.errorResponse requestId op code message) := by
  have version : TakenBack 1 (.int 1) := taken_natCast (n := 1) (by decide) (by decide)
  have error : TakenBack 1 (.obj [Ea.member "code" (str code.toList),
      Ea.member "message" (str message.toList)]) := by
    apply taken_obj (by decide) ["code", "message"] rfl (by decide)
    simp [Ea.member, taken_str (show 2 ≤ maxJsonDepth by decide)]
  apply taken_obj (by decide) ["protocol", "version", "request_id", "op", "ok", "error"] rfl
    (by decide)
  refine List.forall_mem_append.2 ⟨?_, List.forall_mem_singleton.2 error⟩
  simp [Ea.responsePrefix, Ea.member, version, taken_str (show 1 ≤ maxJsonDepth by decide),
    taken_bool (show 1 ≤ maxJsonDepth by decide)]

theorem taken_identity (shallow : depth < maxJsonDepth) {identity : Identity}
    (build : identity.terminalBuild < 10 ^ 20) : TakenBack depth (Ea.identityJson identity) := by
  have text : ∀ value, TakenBack (depth + 1) (str value) := taken_str shallow
  apply taken_obj shallow.le ["account_id", "broker_login", "broker_server", "server_timezone",
    "server_timezone_source", "boot_id", "ea_build_id", "declared_source_sha256",
    "execution_enabled", "magic", "stream_id", "symbol", "terminal_build"] rfl (by decide)
  simp [Ea.member, text, taken_bool shallow, taken_natCast shallow build]

/-- The payload of an order event: the order, what the event adds, and the close target. -/
theorem taken_order (shallow : depth < maxJsonDepth) (order : Submission)
    {details : List (PyStr × Json ℚ)} (names : List String)
    (named : details.map Prod.fst = names.map fun name => .text name.toList)
    (once : (["client_request_id", "side", "quantity_lots"] ++ names ++
      ["position_identifier", "position_ticket"]).Nodup)
    (taken : ∀ member ∈ details, TakenBack (depth + 1) member.2) :
    TakenBack depth (.obj (Ea.orderMembers order ++ details ++ Ea.closeTarget order)) := by
  have text : ∀ value, TakenBack (depth + 1) (str value) := taken_str shallow
  have front : ∀ member ∈ Ea.orderMembers order ++ details, TakenBack (depth + 1) member.2 := by
    rw [List.forall_mem_append]
    exact ⟨by simp [Ea.orderMembers, Ea.member, text], taken⟩
  by_cases target : order.hasCloseTarget = true
  · rw [Ea.closeTarget, if_pos target]
    refine taken_obj shallow.le _ ?_ once (List.forall_mem_append.2 ⟨front, ?_⟩)
    · rw [List.map_append, List.map_append, named, List.map_append, List.map_append]
      rfl
    · simp [Ea.member, text]
  · rw [Ea.closeTarget, if_neg target, List.append_nil]
    refine taken_obj shallow.le _ ?_ (List.nodup_append.1 once).1 front
    rw [List.map_append, named, List.map_append]
    rfl

theorem taken_payload (shallow : depth < maxJsonDepth) (body : EventBody) :
    TakenBack depth (Ea.payloadJson body) := by
  have text : ∀ value, TakenBack (depth + 1) (str value) := taken_str shallow
  have refusal : ∀ order reason brokerRetcode,
      TakenBack depth (Ea.simplePayload order reason brokerRetcode) := by
    intro order reason brokerRetcode
    apply taken_order shallow order ["reason", "broker_retcode"] rfl (by decide)
    simp [Ea.member, text]
  cases body with
  | streamStarted eaBuildId executionEnabled =>
    apply taken_obj shallow.le ["ea_build_id", "execution_enabled"] rfl (by decide)
    simp [Ea.member, text, taken_bool shallow]
  | submissionReserved order =>
    exact taken_order shallow order [] rfl (by decide) (List.forall_mem_nil _)
  | orderRejected order reason brokerRetcode => exact refusal order reason brokerRetcode
  | orderUnknown order reason brokerRetcode => exact refusal order reason brokerRetcode
  | orderFilled order fill =>
    apply taken_order shallow order ["filled_quantity_lots", "fill_price", "venue_order_id",
      "venue_deal_id", "venue_position_id", "commission", "broker_retcode"] rfl (by decide)
    simp [Ea.member, text]

theorem taken_event (shallow : depth + 1 < maxJsonDepth) (event : JournalEvent) :
    TakenBack depth (Ea.eventJson event) := by
  have text : ∀ value, TakenBack (depth + 1) (str value) := taken_str shallow.le
  apply taken_obj (Nat.le_of_lt (Nat.lt_of_succ_lt shallow)) ["boot_id", "event_seq",
    "event_time_ms", "event_type", "payload", "stream_id"] rfl (by decide)
  simp [Ea.member, text, taken_payload shallow]

/-- A page of a journal's events. -/
def pageOf (cursor : Text) (events : List JournalEvent) : Ea.Page :=
  ⟨events.map Ea.eventJson, tailCursor cursor events⟩

theorem taken_page (server : Ea.Server) (request : Ea.Request) (cursor : Text)
    (events : List JournalEvent) (build : server.identity.terminalBuild < 10 ^ 20) :
    TakenBack 0 (Ea.pageResponse server request (pageOf cursor events)) := by
  have listed : TakenBack 2 (.arr (events.map Ea.eventJson)) := by
    refine taken_arr (by decide) fun item member => ?_
    obtain ⟨event, -, rfl⟩ := List.mem_map.1 member
    exact taken_event (by decide) event
  have data : TakenBack 1 (Ea.pageData server (pageOf cursor events)) := by
    apply taken_obj (by decide) ["events", "first_retained_cursor", "has_more", "identity",
      "last_cursor", "next_cursor", "stream_id"] rfl (by decide)
    simp [Ea.member, pageOf, listed, taken_str (show 2 ≤ maxJsonDepth by decide),
      taken_bool (show 2 ≤ maxJsonDepth by decide),
      taken_identity (show 2 < maxJsonDepth by decide) build]
  have version : TakenBack 1 (.int 1) := taken_natCast (n := 1) (by decide) (by decide)
  apply taken_obj (by decide) ["protocol", "version", "request_id", "op", "ok", "data"] rfl
    (by decide)
  simp [Ea.responsePrefix, Ea.member, data, version, taken_str (show 1 ≤ maxJsonDepth by decide),
    taken_bool (show 1 ≤ maxJsonDepth by decide)]

end TakenBack

section Events

theorem side_passes (side : Side) (message : String) :
    Passes (require (isWord (str side.text) "buy" || isWord (str side.text) "sell") message) := by
  rw [passes_require]
  cases side with
  | buy => decide
  | sell => decide

/-- What the decoder asks of every order that the expert checked. -/
structure OrderPasses (order : Submission) : Prop where
  token : ∀ label, Passes (validatedSafeToken (str order.clientRequestId) label)
  lots : ∀ label, Passes (decimalString (str order.quantityLots) label true)
  ticket : order.hasCloseTarget = true →
    ∀ label, (Check.uint64 (str order.positionTicket) label true).passes
  identifier : order.hasCloseTarget = true →
    ∀ label, (Check.uint64 (str order.positionIdentifier) label true).passes

theorem canonical_target {order : Submission} (valid : order.valid = true)
    (present : order.hasCloseTarget = true) : canonicalUint64 order.positionTicket true = true ∧
      canonicalUint64 order.positionIdentifier true = true := by
  simp only [Submission.valid, Bool.and_eq_true] at valid
  simp only [Submission.hasCloseTarget, Bool.and_eq_true, decide_eq_true_eq] at present
  simpa [Submission.closeTargetValid, present] using valid.2

theorem orderPasses {order : Submission} (valid : order.valid = true) : OrderPasses order := by
  have both := canonical_target valid
  simp only [Submission.valid, Bool.and_eq_true] at valid
  obtain ⟨⟨id, lots⟩, -⟩ := valid
  exact ⟨fun label => (safeToken_agrees _ label).2 id, fun label => (decimal_agrees _ label).2 lots,
    fun present label => (uint64_agrees _ label true).2 (both present).1,
    fun present label => (uint64_agrees _ label true).2 (both present).2⟩

theorem passes_pair {first second : Check} (one : first.passes) (two : second.passes) :
    Passes [first, second] := by
  simp [one, two]

section Payloads

variable {order : Submission}

theorem reserved_passes (valid : order.valid = true) :
    Passes (submissionPayload (Ea.payloadJson (.submissionReserved order))
      (str EventType.submissionReserved.text)) := by
  obtain ⟨token, lots, ticket, identifier⟩ := orderPasses valid
  have side := (passes_require _ _).1 (side_passes order.side "")
  unfold submissionPayload Ea.payloadJson Ea.closeTarget
  by_cases present : order.hasCloseTarget = true
  all_goals
    simp only [present, if_true, if_false, Bool.false_eq_true, passes_append, passes_require,
      and_assoc, closedObject]
  · exact ⟨rfl, rfl, rfl, rfl, token _, side, lots _,
      passes_pair (identifier present _) (ticket present _), rfl⟩
  · exact ⟨rfl, rfl, rfl, rfl, token _, side, lots _, rfl, rfl⟩

theorem refusal_passes (valid : order.valid = true) {reason brokerRetcode : Text}
    (safe : safeToken reason = true) (code : canonicalUint64 brokerRetcode false = true)
    {type : EventType} (refusal : type = .orderRejected ∨ type = .orderUnknown) :
    Passes (submissionPayload (Ea.simplePayload order reason brokerRetcode) (str type.text)) := by
  obtain ⟨token, lots, ticket, identifier⟩ := orderPasses valid
  have side := (passes_require _ _).1 (side_passes order.side "")
  have told := (safeToken_agrees reason "event.payload.reason").2 safe
  have coded := (uint64_agrees brokerRetcode "event.payload.broker_retcode" false).2 code
  have details : Passes (validatedSafeToken (str reason) "event.payload.reason" ++
      [.uint64 (str brokerRetcode) "event.payload.broker_retcode" false]) := by
    simp only [passes_append, passes_cons, passes_nil]
    exact ⟨told, coded, trivial⟩
  unfold submissionPayload Ea.simplePayload Ea.closeTarget
  rcases refusal with rfl | rfl
  all_goals
    by_cases present : order.hasCloseTarget = true
    all_goals
      simp only [present, if_true, if_false, Bool.false_eq_true, passes_append, passes_require,
        and_assoc, closedObject]
  · exact ⟨rfl, rfl, rfl, rfl, token _, side, lots _,
      passes_pair (identifier present _) (ticket present _), details⟩
  · exact ⟨rfl, rfl, rfl, rfl, token _, side, lots _, rfl, details⟩
  · exact ⟨rfl, rfl, rfl, rfl, token _, side, lots _,
      passes_pair (identifier present _) (ticket present _), details⟩
  · exact ⟨rfl, rfl, rfl, rfl, token _, side, lots _, rfl, details⟩

theorem filled_passes (valid : order.valid = true) {fill : Fill} (fills : fill.valid = true)
    (closes : FillsTarget (.orderFilled order fill)) :
    Passes (submissionPayload (Ea.payloadJson (.orderFilled order fill))
      (str EventType.orderFilled.text)) := by
  obtain ⟨token, lots, ticket, identifier⟩ := orderPasses valid
  have side := (passes_require _ _).1 (side_passes order.side "")
  simp only [Fill.valid, Bool.and_eq_true] at fills
  obtain ⟨⟨⟨⟨⟨⟨filled, price⟩, venueOrder⟩, deal⟩, position⟩, commission⟩, code⟩ := fills
  unfold submissionPayload Ea.payloadJson Ea.closeTarget
  have details : ∀ matched, matched = true → Passes (
      decimalString (str fill.filledQuantityLots) "event.payload.filled_quantity_lots" true ++
      decimalString (str fill.fillPrice) "event.payload.fill_price" true ++
      decimalString (str fill.commission) "event.payload.commission" false ++
      [.uint64 (str fill.venueOrderId) "event.payload.venue_order_id" true,
        .uint64 (str fill.venueDealId) "event.payload.venue_deal_id" true,
        .uint64 (str fill.venuePositionId) "event.payload.venue_position_id" true,
        .uint64 (str fill.brokerRetcode) "event.payload.broker_retcode" false] ++
      require matched "close fill venue_position_id differs from position_identifier") := by
    intro matched same
    simp only [passes_append, passes_cons, passes_nil, passes_require, and_assoc]
    exact ⟨(decimal_agrees _ _).2 filled, (decimal_agrees _ _).2 price,
      (signed_agrees _ _).2 commission, (uint64_agrees _ _ _).2 venueOrder,
      (uint64_agrees _ _ _).2 deal, (uint64_agrees _ _ _).2 position, (uint64_agrees _ _ _).2 code,
      trivial, same⟩
  by_cases present : order.hasCloseTarget = true
  all_goals
    simp only [present, if_true, if_false, Bool.false_eq_true, passes_append, passes_require,
      and_assoc, closedObject]
  · exact ⟨rfl, rfl, rfl, rfl, token _, side, lots _,
      passes_pair (identifier present _) (ticket present _),
      details _ (decide_eq_true (closes present))⟩
  · exact ⟨rfl, rfl, rfl, rfl, token _, side, lots _, rfl, details _ rfl⟩
end Payloads

/-- A line the journal keeps, and the page's stream. -/
structure Served (streamId : Text) (event : JournalEvent) : Prop where
  valid : event.valid = true
  stream : event.streamId = streamId
  closes : FillsTarget event.body

theorem event_passes {streamId : Text} {event : JournalEvent} (served : Served streamId event) :
    Passes (eventChecks (Ea.eventJson event) streamId) := by
  obtain ⟨valid, rfl, closes⟩ := served
  simp only [JournalEvent.valid, Bool.and_eq_true] at valid
  obtain ⟨⟨⟨⟨sequence, time⟩, -⟩, boot⟩, body⟩ := valid
  have typed : ∀ type : EventType, safeToken type.text = true ∧
      eventTypes.any (isWord (str type.text)) = true := by
    intro type
    cases type <;> decide
  have payload : Passes (if isWord (str event.body.eventType.text) "stream_started" then
      closedObject (Ea.payloadJson event.body) "stream_started payload"
        ["ea_build_id", "execution_enabled"] ++
      validatedSafeToken (get (Ea.payloadJson event.body) "ea_build_id")
        "event.payload.ea_build_id" ++
      validatedBool (get (Ea.payloadJson event.body) "execution_enabled")
        "event.payload.execution_enabled"
    else submissionPayload (Ea.payloadJson event.body) (str event.body.eventType.text)) := by
    cases kind : event.body with
    | streamStarted eaBuildId executionEnabled =>
      rw [kind] at body
      change Passes (closedObject _ _ _ ++ _ ++ _)
      simp only [passes_append, passes_require, and_assoc, closedObject, validatedBool]
      refine ⟨rfl, rfl, (safeToken_agrees _ _).2 body, ?_⟩
      cases executionEnabled <;> rfl
    | submissionReserved order =>
      rw [kind] at body
      exact reserved_passes body
    | orderRejected order reason brokerRetcode =>
      simp only [kind, EventBody.valid, Bool.and_eq_true] at body
      exact refusal_passes body.1.1 body.1.2 body.2 (.inl rfl)
    | orderUnknown order reason brokerRetcode =>
      simp only [kind, EventBody.valid, Bool.and_eq_true] at body
      exact refusal_passes body.1.1 body.1.2 body.2 (.inr rfl)
    | orderFilled order fill =>
      rw [kind] at closes
      simp only [kind, EventBody.valid, Bool.and_eq_true] at body
      exact filled_passes body.1 body.2 closes
  unfold eventChecks
  simp only [passes_append, passes_cons, passes_nil, passes_require, and_true, and_assoc,
    closedObject]
  exact ⟨rfl, rfl, (uint64_agrees _ _ _).2 sequence, (uint64_agrees _ _ _).2 time,
    (safeToken_agrees _ _).2 boot, (safeToken_agrees _ _).2 (typed _).1, (typed _).2,
    decide_eq_true rfl, payload⟩

end Events

section Page

/-- What a ready journal keeps. -/
structure JournalReady (ea : Journal.Ea) : Prop where
  ready : ea.journalReady = true
  safe : safeToken ea.streamId = true
  first : canonicalUint64 ea.firstCursor false = true
  chained : Chained ea.firstCursor ea.events
  served : ∀ event ∈ ea.events, Served ea.streamId event
  boots : (startedBoots ea.events).Nodup

theorem ready_of_driven {ea : Journal.Ea} (driven : Driven ea) (ready : ea.journalReady = true) :
    JournalReady ea := by
  obtain ⟨safe, valid, history⟩ := driven.readySound ready
  obtain ⟨first, chained⟩ := driven.chained
  exact ⟨ready, safe, first, chained, fun event member => ⟨valid event member,
    driven.oneStream ready event member, fillsTarget_of_history history event member⟩,
    (startedBoots_nodup history).1⟩

/-- Where a cursor stands in a server's journal: what it has not got past yet. -/
structure Stands (server : Ea.Server) (cursor : Text) (later : List JournalEvent) : Prop where
  kept : JournalReady server.ea
  place : ∃ done, server.ea.events = done ++ later ∧ cursor = tailCursor server.ea.firstCursor done

/-- The identity names the journal's stream, and the client takes it. -/
structure Genuine (sha256 : List UInt8 → Text) (server : Ea.Server) : Prop where
  stream : server.identity.streamId = server.ea.streamId
  accepted : Passes (identityChecks sha256 (Ea.identityJson server.identity))

variable {sha256 : List UInt8 → Text} {server : Ea.Server} {cursor : Text}
  {page later : List JournalEvent}

theorem Stands.chained (stands : Stands server cursor later) : Chained cursor later := by
  obtain ⟨done, events, rfl⟩ := stands.place
  have chained := stands.kept.chained
  rw [events] at chained
  exact chained.append.2

theorem Stands.range (stands : Stands server cursor later) :
    canonicalUint64 cursor false = true ∧
      cursorValue server.ea.firstCursor ≤ cursorValue cursor := by
  obtain ⟨done, events, rfl⟩ := stands.place
  have chained := stands.kept.chained
  rw [events] at chained
  obtain ⟨canonical, worth⟩ := chained.append.1.tail stands.kept.first
  exact ⟨canonical, by omega⟩

theorem Stands.last (stands : Stands server cursor later) :
    lastCursor server.ea = tailCursor cursor later := by
  obtain ⟨done, events, rfl⟩ := stands.place
  rw [lastCursor_eq, events, tailCursor_append]

theorem Stands.served (stands : Stands server cursor later) :
    ∀ event ∈ later, Served server.ea.streamId event := by
  obtain ⟨done, events, -⟩ := stands.place
  intro event member
  apply stands.kept.served
  rw [events]
  exact List.mem_append_right done member

theorem Stands.values (stands : Stands server cursor (page ++ later)) :
    canonicalUint64 (tailCursor cursor page) false = true ∧
      canonicalUint64 (lastCursor server.ea) false = true ∧
      cursorValue (tailCursor cursor page) = cursorValue cursor + page.length ∧
      cursorValue (lastCursor server.ea) = cursorValue cursor + page.length + later.length := by
  obtain ⟨next, worth⟩ := stands.chained.append.1.tail stands.range.1
  obtain ⟨last, total⟩ := stands.chained.tail stands.range.1
  rw [stands.last]
  rw [List.length_append] at total
  exact ⟨next, last, worth, by omega⟩

/-- A page leaves the cursor behind its events. -/
theorem Stands.next (stands : Stands server cursor (page ++ later)) :
    Stands server (tailCursor cursor page) later := by
  obtain ⟨kept, done, events, rfl⟩ := stands
  exact ⟨kept, done ++ page, by rw [events, List.append_assoc],
    (tailCursor_append _ done page).symm⟩

/-- A page says that there is more exactly when there is. -/
theorem Stands.hasMore (stands : Stands server cursor (page ++ later)) :
    compareUint (tailCursor cursor page) (lastCursor server.ea) < 0 ↔ later ≠ [] := by
  obtain ⟨next, last, worth, total⟩ := stands.values
  rw [compareUint_neg (canonicalUint64_value.1 next).1 (canonicalUint64_value.1 last).1, worth,
    total, ← List.length_pos_iff]
  omega

theorem passes_bound (holds : Bool) (message : String) :
    Passes (bound holds message) ↔ holds = true := by
  unfold bound
  rw [passes_cons]
  simp [Check.passes, Check.run]

theorem passes_flatMap {α : Type} (f : α → List Check) (items : List α) :
    Passes (items.flatMap f) ↔ ∀ item ∈ items, Passes (f item) := by
  induction items with
  | nil => simp
  | cons item items ih => rw [List.flatMap_cons, passes_append, ih, List.forall_mem_cons]

theorem startedBoots_json (events : List JournalEvent) :
    (((events.map Ea.eventJson).filter fun event =>
      isWord (get event "event_type") "stream_started").map fun event =>
        textOf (get event "boot_id")) = startedBoots events := by
  have starts : ∀ type : EventType,
      isWord (str type.text) "stream_started" = (type == .streamStarted) := by
    intro type
    cases type <;> decide
  rw [List.filter_map, List.map_map, startedBoots]
  exact congrArg (List.map _) (List.filter_congr fun event _ => starts event.body.eventType)

theorem getLast?_seq (cursor : Text) (events : List JournalEvent) :
    (events.map fun event => cursorValue event.eventSeq).getLast?.all
      (· = cursorValue (tailCursor cursor events)) = true := by
  rw [List.getLast?_map, tailCursor]
  cases events.getLast? with
  | none => rfl
  | some event => simp

theorem bool_passes (value : Bool) (label : String) :
    Passes (validatedBool (.bool value) label) := by
  rw [validatedBool, passes_require]
  cases value <;> rfl

/-- A page with nothing in it says that there is no more. -/
theorem empty_page (stands : Stands server cursor ([] ++ later)) (done : later = []) :
    (!isBool (get (Ea.pageData server (pageOf cursor [])) "has_more") true) = true := by
  have none := mt stands.hasMore.1 (not_not.2 done)
  change (!decide (decide (compareUint (tailCursor cursor []) (lastCursor server.ea) < 0) =
    true)) = true
  rw [decide_eq_false none]
  rfl

/-- The decoder takes each page of a journal. -/
theorem page_passes (genuine : Genuine sha256 server)
    (stands : Stands server cursor (page ++ later))
    (goesOn : page = [] → later = []) (small : page.length ≤ maxEventsLimit) :
    Passes (eventsChecks sha256 (Ea.pageData server (pageOf cursor page))) := by
  obtain ⟨next, last, worth, total⟩ := stands.values
  have low := stands.range.2
  have served : ∀ event ∈ page, Served server.ea.streamId event :=
    fun event member => stands.served event (List.mem_append_left later member)
  have boots : (startedBoots page).Nodup := by
    obtain ⟨done, events, -⟩ := stands.place
    have boots := stands.kept.boots
    simp only [events, startedBoots, List.filter_append, List.map_append] at boots
    exact (List.nodup_append.1 (List.nodup_append.1 boots).2.1).1
  have numbers : ((page.map Ea.eventJson).map fun event => natOf (get event "event_seq")) =
      page.map fun event => cursorValue event.eventSeq := by
    rw [List.map_map]
    rfl
  have ordered : cursorValue server.ea.firstCursor ≤ cursorValue (tailCursor cursor page) ∧
      cursorValue (tailCursor cursor page) ≤ cursorValue (lastCursor server.ea) :=
    ⟨by omega, by omega⟩
  have more : decide (compareUint (tailCursor cursor page) (lastCursor server.ea) < 0) =
      decide (cursorValue (tailCursor cursor page) < cursorValue (lastCursor server.ea)) :=
    decide_eq_decide.2
      (compareUint_neg (canonicalUint64_value.1 next).1 (canonicalUint64_value.1 last).1)
  have counted : (page.map Ea.eventJson).length ≤ maxEventsLimit := by
    rwa [List.length_map]
  unfold eventsChecks
  simp only [passes_append, passes_cons, passes_nil, passes_require, passes_flatMap, and_true,
    and_assoc, closedObject]
  refine ⟨rfl, rfl, genuine.accepted, (safeToken_agrees _ _).2 stands.kept.safe,
    decide_eq_true genuine.stream, (uint64_agrees _ _ _).2 stands.kept.first,
    (uint64_agrees _ _ _).2 last, (uint64_agrees _ _ _).2 next, decide_eq_true ordered,
    bool_passes _ _, decide_eq_true ?_, ?_, ?_, ?_, ?_, ?_, ?_⟩
  · change decide (_ = true) = _
    rw [Bool.decide_eq_true]
    exact more
  · exact decide_eq_true counted
  · intro item member
    obtain ⟨event, inside, rfl⟩ := List.mem_map.1 member
    exact event_passes (served event inside)
  · exact decide_eq_true ((startedBoots_json page).symm ▸ boots)
  · change contiguous ((page.map Ea.eventJson).map _) = true
    rw [numbers]
    exact stands.chained.append.1.contiguous stands.range.1
  · change ((page.map Ea.eventJson).map _).getLast?.all _ = true
    rw [numbers]
    exact getLast?_seq cursor page
  · cases page with
    | nil => exact empty_page stands (goesOn rfl)
    | cons event page => rfl

theorem events_success {data : Json ℚ} (passes : Passes (eventsChecks sha256 data)) :
    Passes (successChecks sha256 (str "get_execution_events".toList) data) := by
  unfold successChecks
  rw [if_neg (by decide), if_neg (by decide), if_pos (by decide)]
  exact (passes_append _ _).2 ⟨(passes_require _ _).2 (by decide), passes⟩

/-- The decoder takes a page as the answer to the request it was made for. -/
theorem response_passes (genuine : Genuine sha256 server)
    (stands : Stands server cursor (page ++ later)) (goesOn : page = [] → later = [])
    {request : Ea.Request} (op : request.op = "get_execution_events".toList)
    (named : visibleIdentifier request.requestId 64 = true) {limit : ℤ} (small : limit ≤ 500)
    (short : page.length ≤ limit) :
    Passes (responseChecks sha256
      (.executionEvents request.requestId server.identity.binding cursor limit)
      (Ea.pageResponse server request (pageOf cursor page))) := by
  have low := stands.range.2
  obtain ⟨-, -, worth, total⟩ := stands.values
  have whole := page_passes genuine stands goesOn (show page.length ≤ 500 by omega)
  have around : cursorValue server.ea.firstCursor ≤ cursorValue cursor ∧
      cursorValue cursor ≤ cursorValue (lastCursor server.ea) := ⟨low, by omega⟩
  have counted : ((page.map Ea.eventJson).length : ℤ) ≤ limit := by
    rwa [List.length_map]
  rw [Ea.pageResponse, op]
  unfold responseChecks anyResponse envelope
  simp only [passes_append, passes_require, and_assoc]
  refine ⟨rfl, rfl, (identifier_agrees _ _ _).2 named, (identifier_agrees _ _ _).2 (by decide),
    rfl, ?_, ?_, ?_⟩
  · rw [if_pos (by rfl)]
    simp only [passes_append, passes_require, and_assoc, closedObject]
    exact ⟨rfl, rfl, events_success whole⟩
  · rw [passes_bound]
    exact Bool.and_eq_true_iff.2 ⟨decide_eq_true rfl, decide_eq_true rfl⟩
  · change Passes (identityChecks sha256 (Ea.identityJson server.identity) ++ bound _ _ ++
      answerChecks _ (Ea.pageData server (pageOf cursor page)))
    unfold answerChecks
    simp only [passes_append, passes_bound, passes_require, and_assoc]
    refine ⟨genuine.accepted, decide_eq_true rfl, decide_eq_true counted, decide_eq_true around,
      ?_, ?_⟩
    · cases page with
      | nil => exact (passes_require _ _).2 (decide_eq_true rfl)
      | cons event page =>
        obtain ⟨more, sequence, -⟩ := stands.chained
        have next := (increment_next stands.range.1 more).2
        rw [← sequence] at next
        exact (passes_require _ _).2 (decide_eq_true next)
    · cases page with
      | nil => exact Bool.or_eq_true_iff.2 (.inl (empty_page stands (goesOn rfl)))
      | cons event page =>
        have advanced : decide (cursorValue cursor <
            cursorValue (tailCursor cursor (event :: page))) = true := by
          rw [worth, List.length_cons, decide_eq_true_eq]
          omega
        exact Bool.or_eq_true_iff.2 (.inr advanced)

end Page

end ArbNautilus.Mt5.Codec
