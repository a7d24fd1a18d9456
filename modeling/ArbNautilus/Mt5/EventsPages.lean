import ArbNautilus.Mt5.EventsWire
import ArbNautilus.Mt5.RequestWire

/-! A journal read page by page. -/

namespace ArbNautilus.Mt5.Codec

open Base Journal

section Sizes

theorem short_token {value : Text} (safe : safeToken value = true) : value.length ≤ 128 := by
  simp only [safeToken, Bool.and_eq_true] at safe
  exact ((visibleIdentifier_iff _ _).1 safe.1).2.1

theorem short_uint {value : Text} {positive : Bool}
    (canonical : canonicalUint64 value positive = true) : value.length ≤ 128 := by
  have short := ((canonicalUint64_iff _ _).1 canonical).2.1
  omega

theorem short_decimal {value : Text} (positive : positiveDecimal value = true) :
    value.length ≤ 128 := by
  simp only [positiveDecimal, Bool.and_eq_true, decide_eq_true_eq] at positive
  omega

theorem short_signed {value : Text} (signed : signedDecimal value = true) : value.length ≤ 128 := by
  simp only [signedDecimal, Bool.and_eq_true, decide_eq_true_eq] at signed
  omega

theorem bound_short {value : Text} (short : value.length ≤ 128) : (str value).bound ≤ 770 := by
  rw [str, bound_str]
  omega

/-- The member has a short name and a short value. -/
def ShortMember (member : PyStr × Json ℚ) : Prop :=
  member.1.codes.length ≤ 24 ∧ member.2.bound ≤ 770

theorem shortValue {name : String} (named : name.toList.length ≤ 24) {value : Json ℚ}
    (small : value.bound ≤ 770) : ShortMember (Ea.member name value) := by
  refine ⟨?_, small⟩
  simpa [Ea.member, PyStr.codes] using named

theorem shortMember {name : String} (named : name.toList.length ≤ 24) {value : Text}
    (short : value.length ≤ 128) : ShortMember (Ea.member name (str value)) :=
  shortValue named (bound_short short)

theorem bound_order {order : Submission} (valid : order.valid = true)
    {details : List (PyStr × Json ℚ)} (few : details.length ≤ 7)
    (each : ∀ member ∈ details, ShortMember member) :
    (Json.obj (Ea.orderMembers order ++ details ++ Ea.closeTarget order)).bound ≤ 11018 := by
  have target := canonical_target valid
  simp only [Submission.valid, Bool.and_eq_true] at valid
  obtain ⟨⟨id, lots⟩, -⟩ := valid
  have side : order.side.text.length ≤ 128 := by
    cases order.side with
    | buy => decide
    | sell => decide
  have front : ∀ member ∈ Ea.orderMembers order, ShortMember member := by
    simp only [Ea.orderMembers, List.forall_mem_cons]
    exact ⟨shortMember (by decide) (short_token id), shortMember (by decide) side,
      shortMember (by decide) (short_decimal lots), List.forall_mem_nil _⟩
  have last : (Ea.closeTarget order).length ≤ 2 ∧
      ∀ member ∈ Ea.closeTarget order, ShortMember member := by
    unfold Ea.closeTarget
    split_ifs with present
    · simp only [List.forall_mem_cons]
      exact ⟨by simp, shortMember (by decide) (short_uint (target present).2),
        shortMember (by decide) (short_uint (target present).1), List.forall_mem_nil _⟩
    · exact ⟨by simp, List.forall_mem_nil _⟩
  have total := membersBound_le (List.forall_mem_append.2
    ⟨List.forall_mem_append.2 ⟨front, each⟩, last.2⟩)
  have three : (Ea.orderMembers order).length = 3 := rfl
  simp only [List.length_append, three] at total
  rw [Json.bound]
  omega

theorem bound_payload {body : EventBody} (valid : body.valid = true) :
    (Ea.payloadJson body).bound ≤ 11018 := by
  have refusal : ∀ order : Submission, ∀ reason brokerRetcode : Text,
      (order.valid && safeToken reason && canonicalUint64 brokerRetcode false) = true →
      (Ea.simplePayload order reason brokerRetcode).bound ≤ 11018 := by
    intro order reason brokerRetcode valid
    simp only [Bool.and_eq_true] at valid
    apply bound_order valid.1.1 (by simp)
    simp only [List.forall_mem_cons]
    exact ⟨shortMember (by decide) (short_token valid.1.2),
      shortMember (by decide) (short_uint valid.2), List.forall_mem_nil _⟩
  cases body with
  | streamStarted eaBuildId executionEnabled =>
    have short := bound_short (short_token valid)
    simp only [Ea.payloadJson, Ea.member, Json.bound, Json.membersBound, PyStr.codes,
      List.length_map, String.reduceToList, List.length_cons, List.length_nil]
    omega
  | submissionReserved order => exact bound_order valid (by simp) (List.forall_mem_nil _)
  | orderRejected order reason brokerRetcode => exact refusal order reason brokerRetcode valid
  | orderUnknown order reason brokerRetcode => exact refusal order reason brokerRetcode valid
  | orderFilled order fill =>
    simp only [EventBody.valid, Fill.valid, Bool.and_eq_true] at valid
    obtain ⟨order', ⟨⟨⟨⟨⟨filled, price⟩, venueOrder⟩, deal⟩, position⟩, commission⟩, code⟩ := valid
    apply bound_order order' (by simp)
    simp only [List.forall_mem_cons]
    exact ⟨shortMember (by decide) (short_decimal filled),
      shortMember (by decide) (short_decimal price),
      shortMember (by decide) (short_uint venueOrder), shortMember (by decide) (short_uint deal),
      shortMember (by decide) (short_uint position),
      shortMember (by decide) (short_signed commission),
      shortMember (by decide) (short_uint code), List.forall_mem_nil _⟩

theorem bound_event {event : JournalEvent} (valid : event.valid = true) :
    (Ea.eventJson event).bound ≤ 15758 := by
  simp only [JournalEvent.valid, Bool.and_eq_true] at valid
  obtain ⟨⟨⟨⟨sequence, time⟩, stream⟩, boot⟩, body⟩ := valid
  have type : event.body.eventType.text.length ≤ 128 := by
    cases event.body.eventType <;> decide
  have inner := bound_payload body
  have sequence' := bound_short (short_uint sequence)
  have time' := bound_short (short_uint time)
  have stream' := bound_short (short_token stream)
  have boot' := bound_short (short_token boot)
  have type' := bound_short type
  simp only [Ea.eventJson, Ea.member, Json.bound, Json.membersBound, PyStr.codes, List.length_map,
    String.reduceToList, List.length_cons, List.length_nil]
  omega

theorem short_validated {value : Text} {label : String} {maximum : ℕ}
    (passes : Passes (validatedText (str value) label maximum)) : value.length ≤ maximum := by
  simp only [validatedText, passes_append, passes_require, Bool.and_eq_true,
    decide_eq_true_eq] at passes
  exact passes.1.2.2

theorem short_identifier {value : Text} {label : String} {maximum : ℕ}
    (passes : Passes (validatedIdentifier (str value) label maximum)) : value.length ≤ maximum :=
  ((visibleIdentifier_iff _ _).1 ((identifier_agrees _ _ _).1 passes)).2.1

/-- An identity that the client takes is short. -/
theorem identity_short {sha256 : List UInt8 → Text} {identity : Identity}
    (accepted : Passes (identityChecks sha256 (Ea.identityJson identity))) :
    identity.terminalBuild ≤ 2 ^ 31 - 1 ∧ (Ea.identityJson identity).bound ≤ 11936 := by
  unfold identityChecks at accepted
  simp only [passes_append, passes_cons, passes_nil, and_true, and_assoc] at accepted
  obtain ⟨-, -, account, server, login, zone, symbol, build, ea, sha, stream, boot, magic, -⟩ :=
    accepted
  have build' : identity.terminalBuild ≤ 2 ^ 31 - 1 := by
    have range := (exactInt_agrees (identity.terminalBuild : ℤ) _ _ _).1 build
    omega
  have digits : (Json.int (identity.terminalBuild : ℤ) : Json ℚ).bound ≤ 770 := by
    rw [Json.bound, intText_natCast]
    exact (short_digits (by omega)).trans (by decide)
  have each : ∀ member ∈ [
      Ea.member "account_id" (str identity.accountId),
      Ea.member "broker_login" (str identity.brokerLogin),
      Ea.member "broker_server" (str identity.brokerServer),
      Ea.member "server_timezone" (str identity.serverTimezone),
      Ea.member "server_timezone_source" (str "configured_input".toList),
      Ea.member "boot_id" (str identity.bootId),
      Ea.member "ea_build_id" (str identity.eaBuildId),
      Ea.member "declared_source_sha256" (str identity.declaredSourceSha256),
      Ea.member "execution_enabled" (.bool identity.executionEnabled),
      Ea.member "magic" (str identity.magic),
      Ea.member "stream_id" (str identity.streamId),
      Ea.member "symbol" (str identity.symbol),
      Ea.member "terminal_build" (.int identity.terminalBuild)], ShortMember member := by
    simp only [List.forall_mem_cons]
    exact ⟨shortMember (by decide) (short_identifier account),
      shortMember (by decide) (short_uint ((uint64_agrees _ _ _).1 login)),
      shortMember (by decide) (short_validated server),
      shortMember (by decide) ((short_validated zone).trans (by decide)),
      shortMember (by decide) (by decide),
      shortMember (by decide) (short_token ((safeToken_agrees _ _).1 boot)),
      shortMember (by decide) (short_token ((safeToken_agrees _ _).1 ea)),
      shortMember (by decide) ((short_identifier sha).trans (by decide)),
      shortValue (by decide) (by decide : 5 ≤ 770),
      shortMember (by decide) (short_uint ((uint64_agrees _ _ _).1 magic)),
      shortMember (by decide) (short_token ((safeToken_agrees _ _).1 stream)),
      shortMember (by decide) (short_identifier symbol),
      shortValue (by decide) digits, List.forall_mem_nil _⟩
  have total := membersBound_le each
  simp only [List.length_cons, List.length_nil] at total
  rw [Ea.identityJson, Json.bound]
  exact ⟨build', by omega⟩

/-- A page with one event is short of the wire's budget. -/
theorem page_fits {sha256 : List UInt8 → Text} {server : Ea.Server}
    (genuine : Genuine sha256 server) {cursor : Text} {page later : List JournalEvent}
    (stands : Stands server cursor (page ++ later)) (one : page.length ≤ 1) {request : Ea.Request}
    (named : visibleIdentifier request.requestId 64 = true)
    (op : request.op = "get_execution_events".toList) :
    utf8Size (Ea.jsonText (Ea.pageResponse server request (pageOf cursor page))) ≤ Ea.maxWire := by
  obtain ⟨build, identity⟩ := identity_short genuine.accepted
  obtain ⟨next, last, -, -⟩ := stands.values
  have readable := (taken_page server request cursor page (by omega)).1
  refine (utf8Size_printValue _ readable).trans ?_
  have name := bound_short (((visibleIdentifier_iff _ _).1 named).2.1.trans (by decide))
  have first' := bound_short (short_uint stands.kept.first)
  have next' := bound_short (short_uint next)
  have last' := bound_short (short_uint last)
  have stream := bound_short (short_token stands.kept.safe)
  have events : Json.itemsBound (page.map Ea.eventJson) ≤ 15760 := by
    cases page with
    | nil => decide
    | cons event rest =>
      have none : rest = [] := List.length_eq_zero_iff.1 (by simpa using one)
      subst none
      have small := bound_event (stands.served event (by simp)).valid
      simp only [List.map_cons, List.map_nil, Json.itemsBound]
      omega
  have protocol : (str "py000.mt5".toList).bound ≤ 770 := bound_short (by decide)
  have method : (str "get_execution_events".toList).bound ≤ 770 := bound_short (by decide)
  have version : (intText 1).length = 1 := rfl
  simp only [String.reduceToList] at protocol method
  simp only [Ea.pageResponse, Ea.responsePrefix, Ea.pageData, pageOf, op, Ea.member, Json.bound,
    Json.membersBound, PyStr.codes, List.length_map, String.reduceToList, List.length_cons,
    List.length_nil, List.cons_append, List.nil_append]
  change _ ≤ 65536
  omega

end Sizes

section Loop

variable {server : Ea.Server} {request : Ea.Request}

theorem pageOf_concat (cursor : Text) (page : List JournalEvent) (event : JournalEvent) :
    (⟨(pageOf cursor page).events ++ [Ea.eventJson event], event.eventSeq⟩ : Ea.Page) =
      pageOf cursor (page ++ [event]) := by
  unfold pageOf
  rw [List.map_append, tailCursor_append]
  rfl

theorem closeTargetValid_of_valid {event : JournalEvent} (valid : event.valid = true) :
    event.body.order.all Submission.closeTargetValid = true := by
  simp only [JournalEvent.valid, Bool.and_eq_true] at valid
  cases body : event.body <;>
    simp_all [EventBody.valid, EventBody.order, Submission.valid]

theorem journalEventJson_valid {event : JournalEvent} (valid : event.valid = true) :
    Ea.journalEventJson event = some (Ea.eventJson event) := by
  rw [Ea.journalEventJson, if_pos (closeTargetValid_of_valid valid)]

/-- What the loop passes on its way to the cursor. -/
theorem pageLoop_skip {done : List JournalEvent}
    (behind : ∀ event ∈ done, compareUint event.eventSeq request.afterCursor ≤ 0)
    (page : Ea.Page) (later : List JournalEvent) :
    Ea.pageLoop server request page (done ++ later) = Ea.pageLoop server request page later := by
  induction done with
  | nil => rfl
  | cons event done ih =>
    rw [List.cons_append, Ea.pageLoop, if_pos (behind event List.mem_cons_self),
      ih fun other member => behind other (List.mem_cons_of_mem event member)]

/-- The page's response is within the wire's budget. -/
def Fits (server : Ea.Server) (request : Ea.Request) (page : List JournalEvent) : Prop :=
  utf8Size (Ea.jsonText (Ea.pageResponse server request (pageOf request.afterCursor page))) ≤
    Ea.maxWire

/-- The loop adds events in order, up to the limit and within the budget. -/
theorem pageLoop_takes {later : List JournalEvent}
    (valid : ∀ event ∈ later, event.valid = true)
    (ahead : ∀ event ∈ later, 0 < compareUint event.eventSeq request.afterCursor)
    {page : List JournalEvent} (small : page.length ≤ request.limit)
    (fits : Fits server request page) :
    ∃ taken rest, later = taken ++ rest ∧
      Ea.pageLoop server request (pageOf request.afterCursor page) later =
        some (pageOf request.afterCursor (page ++ taken)) ∧
      (page ++ taken).length ≤ request.limit ∧ Fits server request (page ++ taken) := by
  induction later generalizing page with
  | nil =>
    refine ⟨[], [], rfl, ?_⟩
    simp only [List.append_nil]
    exact ⟨rfl, small, fits⟩
  | cons event later ih =>
    have stop : ∃ taken rest, event :: later = taken ++ rest ∧
        some (pageOf request.afterCursor page) =
          some (pageOf request.afterCursor (page ++ taken)) ∧
        (page ++ taken).length ≤ request.limit ∧ Fits server request (page ++ taken) := by
      refine ⟨[], event :: later, rfl, ?_⟩
      simp only [List.append_nil]
      exact ⟨trivial, small, fits⟩
    have length : (pageOf request.afterCursor page).events.length = page.length :=
      List.length_map _
    rw [Ea.pageLoop, if_neg (not_le.2 (ahead event List.mem_cons_self)), length,
      journalEventJson_valid (valid event List.mem_cons_self)]
    dsimp only
    rw [pageOf_concat]
    split_ifs with full large
    · exact stop
    · exact stop
    · obtain ⟨taken, rest, split, loop, short, fits⟩ :=
        ih (fun other member => valid other (List.mem_cons_of_mem event member))
          (fun other member => ahead other (List.mem_cons_of_mem event member))
          (show (page ++ [event]).length ≤ request.limit by simp; omega) (not_lt.1 large)
      have regroup : page ++ [event] ++ taken = page ++ event :: taken := by simp
      rw [regroup] at loop short fits
      exact ⟨event :: taken, rest, by rw [split, List.cons_append], loop, short, fits⟩

theorem Stands.behind {cursor : Text} {later : List JournalEvent}
    (stands : Stands server cursor later) :
    ∃ done, server.ea.events = done ++ later ∧
      ∀ event ∈ done, compareUint event.eventSeq cursor ≤ 0 := by
  have cursor' := (canonicalUint64_value.1 stands.range.1).1
  obtain ⟨done, events, rfl⟩ := stands.place
  have chained := stands.kept.chained
  rw [events] at chained
  refine ⟨done, events, fun event member => ?_⟩
  obtain ⟨digits, -, small⟩ := chained.append.1.behind stands.kept.first event member
  exact not_lt.1 fun more => absurd ((compareUint_pos digits cursor').1 more) (not_lt.2 small)

theorem Stands.ahead {cursor : Text} {later : List JournalEvent}
    (stands : Stands server cursor later) :
    ∀ event ∈ later, 0 < compareUint event.eventSeq cursor := by
  intro event member
  obtain ⟨digits, more, -⟩ := stands.chained.behind stands.range.1 event member
  exact (compareUint_pos digits (canonicalUint64_value.1 stands.range.1).1).2 more

/-- A page has an event while there is one. -/
theorem pageLoop_whole {sha256 : List UInt8 → Text} (genuine : Genuine sha256 server)
    {later : List JournalEvent} (stands : Stands server request.afterCursor later)
    (positive : 1 ≤ request.limit) (named : visibleIdentifier request.requestId 64 = true)
    (op : request.op = "get_execution_events".toList) :
    ∃ page rest, later = page ++ rest ∧
      Ea.pageLoop server request ⟨[], request.afterCursor⟩ server.ea.events =
        some (pageOf request.afterCursor page) ∧
      page.length ≤ request.limit ∧ (page = [] → rest = []) ∧ Fits server request page := by
  obtain ⟨done, events, behind⟩ := stands.behind
  have valid : ∀ event ∈ later, event.valid = true :=
    fun event member => (stands.served event member).valid
  rw [events, pageLoop_skip behind]
  cases later with
  | nil =>
    have none : Stands server request.afterCursor ([] ++ []) := stands
    exact ⟨[], [], rfl, rfl, Nat.zero_le _, fun _ => rfl,
      page_fits genuine none (Nat.zero_le 1) named op⟩
  | cons event later =>
    have first : Stands server request.afterCursor ([event] ++ later) := stands
    have single : Fits server request [event] :=
      page_fits genuine first (Nat.le_refl 1) named op
    obtain ⟨taken, rest, split, loop, short, fits⟩ := pageLoop_takes
      (fun other member => valid other (List.mem_cons_of_mem event member))
      (fun other member => stands.ahead other (List.mem_cons_of_mem event member))
      (show [event].length ≤ request.limit from positive) single
    refine ⟨[event] ++ taken, rest, by rw [split]; rfl, ?_, short,
      fun none => absurd none (List.cons_ne_nil event taken), fits⟩
    rw [Ea.pageLoop, if_neg (not_le.2 (stands.ahead event List.mem_cons_self)),
      journalEventJson_valid (valid event List.mem_cons_self),
      if_neg (show ¬request.limit ≤ (Ea.Page.events ⟨[], request.afterCursor⟩).length from
        not_le.2 positive)]
    exact (if_neg (not_lt.2 single)).trans loop

/-- From inside its range a ready journal answers with a page. -/
theorem eventsResponse_page {sha256 : List UInt8 → Text} (genuine : Genuine sha256 server)
    {later : List JournalEvent} (stands : Stands server request.afterCursor later)
    (positive : 1 ≤ request.limit) (named : visibleIdentifier request.requestId 64 = true)
    (op : request.op = "get_execution_events".toList) :
    ∃ page rest, later = page ++ rest ∧
      Ea.eventsResponse server request =
        Ea.pageResponse server request (pageOf request.afterCursor page) ∧
      page.length ≤ request.limit ∧ (page = [] → rest = []) ∧ Fits server request page := by
  obtain ⟨page, rest, rfl, loop, short, goesOn, fits⟩ :=
    pageLoop_whole genuine stands positive named op
  refine ⟨page, rest, rfl, ?_, short, goesOn, fits⟩
  obtain ⟨canonical, low⟩ := stands.range
  obtain ⟨-, last, worth, total⟩ := stands.values
  have digits := (canonicalUint64_value.1 canonical).1
  have noAhead : ¬0 < compareUint request.afterCursor (lastCursor server.ea) := by
    rw [compareUint_pos digits (canonicalUint64_value.1 last).1]
    omega
  have noExpired : ¬compareUint request.afterCursor server.ea.firstCursor < 0 := by
    rw [compareUint_neg digits (canonicalUint64_value.1 stands.kept.first).1]
    omega
  have served : ¬((pageOf request.afterCursor page).events.length = 0 ∧
      compareUint request.afterCursor (lastCursor server.ea) < 0) := by
    rintro ⟨none, less⟩
    have empty : page = [] := by simpa [pageOf] using none
    rw [compareUint_neg digits (canonicalUint64_value.1 last).1, total, goesOn empty, empty] at less
    simp at less
  unfold Ea.eventsResponse
  dsimp only
  rw [if_neg (not_not.2 stands.kept.ready), if_neg noAhead, if_neg noExpired, loop]
  exact if_neg served

end Loop

end ArbNautilus.Mt5.Codec
