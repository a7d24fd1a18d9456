import ArbNautilus.Base.JsonDump
import ArbNautilus.Mt5.RequestParse
import ArbNautilus.Mt5.Scalars

namespace ArbNautilus.Mt5.Codec

open Base Journal

section Encoder

/-- `Binding.to_wire`. -/
def bindingToWire (binding : Binding) : Json ℚ :=
  .obj [(.text "account_id".toList, str binding.accountId),
    (.text "boot_id".toList, str binding.bootId),
    (.text "ea_build_id".toList, str binding.eaBuildId),
    (.text "stream_id".toList, str binding.streamId), (.text "symbol".toList, str binding.symbol)]

def orderMembers (clientRequestId side quantityLots : Text) : List (PyStr × Json ℚ) :=
  [(.text "client_request_id".toList, str clientRequestId),
    (.text "quantity_lots".toList, str quantityLots), (.text "side".toList, str side)]

/-- The members that a request has besides its envelope. -/
def Request.members : Request → List (PyStr × Json ℚ)
  | .hello _ => []
  | .snapshot _ binding => [(.text "binding".toList, bindingToWire binding)]
  | .submitMarketDelta _ binding clientRequestId side quantityLots =>
    (.text "binding".toList, bindingToWire binding) ::
      orderMembers clientRequestId side quantityLots
  | .closePosition _ binding clientRequestId side quantityLots positionTicket positionIdentifier =>
    (.text "binding".toList, bindingToWire binding) ::
      (orderMembers clientRequestId side quantityLots ++
        [(.text "position_identifier".toList, str positionIdentifier),
          (.text "position_ticket".toList, str positionTicket)])
  | .executionEvents _ binding afterCursor limit =>
    [(.text "binding".toList, bindingToWire binding),
      (.text "after_cursor".toList, str afterCursor),
      (.text "limit".toList, .int limit)]

/-- `request_to_wire`. -/
def requestToWire (request : Request) : Except PyError (Json ℚ) := do
  validateRequest request
  pure (.obj
    ([(.text "op".toList, str request.op.toList),
      (.text "protocol".toList, str protocolName.toList),
      (.text "request_id".toList, str request.requestId),
      (.text "version".toList, .int 1)] ++ request.members))

/-- `encode_json`, over the text of a float. -/
def encodeJson (floatRepr : ℚ → Text) (value : Json ℚ) : Except PyError Text := do
  validateTree 0 value
  match dumps floatRepr value with
  | none => .error (malformed "value cannot be encoded as v1 JSON")
  | some text => .ok text

end Encoder

section Validity

def orderValid (clientRequestId side quantityLots : Text) : Prop :=
  safeToken clientRequestId = true ∧ (side = "buy".toList ∨ side = "sell".toList) ∧
    positiveDecimal quantityLots = true

/-- What a request must satisfy besides its name and its binding. -/
def Request.FieldsValid : Request → Prop
  | .hello _ | .snapshot _ _ => True
  | .submitMarketDelta _ _ clientRequestId side quantityLots =>
    orderValid clientRequestId side quantityLots
  | .closePosition _ _ clientRequestId side quantityLots positionTicket positionIdentifier =>
    orderValid clientRequestId side quantityLots ∧ canonicalUint64 positionTicket true = true ∧
      canonicalUint64 positionIdentifier true = true
  | .executionEvents _ _ afterCursor limit =>
    canonicalUint64 afterCursor false = true ∧ 1 ≤ limit ∧ limit ≤ 500

theorem bindingChecks_agree (binding : Binding) :
    Passes (bindingChecks binding) ↔ Ea.bindingValid binding = true := by
  unfold bindingChecks Ea.bindingValid
  simp only [passes_append, identifier_agrees, safeToken_agrees, Bool.and_eq_true]
  rfl

theorem orderChecks_agree (clientRequestId side quantityLots : Text) :
    Passes (orderChecks clientRequestId side quantityLots) ↔
      orderValid clientRequestId side quantityLots := by
  unfold orderChecks orderValid
  simp only [passes_append, passes_require, safeToken_agrees, decimal_agrees, and_assoc,
    Bool.or_eq_true]
  simp [isWord, isText, str]

theorem exactInt_agrees (limit : ℤ) (label : String) (minimum maximum : ℤ) :
    Passes (exactInt (.int limit) label minimum maximum) ↔ minimum ≤ limit ∧ limit ≤ maximum := by
  unfold exactInt
  rw [passes_require, decide_eq_true_iff]

/-- Both ends judge a request's fields alike. -/
theorem validateRequest_iff (request : Request) :
    validateRequest request = .ok () ↔ visibleIdentifier request.requestId 64 = true ∧
      (∀ binding, request.binding? = some binding → Ea.bindingValid binding = true) ∧
      request.FieldsValid := by
  change Passes (requestChecks request) ↔ _
  unfold requestChecks
  rw [passes_append, identifier_agrees]
  apply and_congr_right
  intro _
  cases request with
  | hello requestId => simp [Request.binding?, Request.FieldsValid]
  | snapshot requestId binding =>
    simp [Request.binding?, Request.FieldsValid, bindingChecks_agree]
  | submitMarketDelta requestId binding clientRequestId side quantityLots =>
    simp [Request.binding?, Request.FieldsValid, bindingChecks_agree, orderChecks_agree]
  | closePosition requestId binding clientRequestId side quantityLots positionTicket
      positionIdentifier =>
    simp [Request.binding?, Request.FieldsValid, bindingChecks_agree, orderChecks_agree,
      uint64_agrees]
  | executionEvents requestId binding afterCursor limit =>
    simp [Request.binding?, Request.FieldsValid, bindingChecks_agree, uint64_agrees,
      exactInt_agrees, maxEventsLimit]

end Validity

section Listing

open Ea (Listed objectText)

def bindingListed (binding : Binding) : List (Listed Binding) :=
  [⟨"account_id".toList, quoted binding.accountId, ({ · with accountId := binding.accountId })⟩,
    ⟨"boot_id".toList, quoted binding.bootId, ({ · with bootId := binding.bootId })⟩,
    ⟨"ea_build_id".toList, quoted binding.eaBuildId, ({ · with eaBuildId := binding.eaBuildId })⟩,
    ⟨"stream_id".toList, quoted binding.streamId, ({ · with streamId := binding.streamId })⟩,
    ⟨"symbol".toList, quoted binding.symbol, ({ · with symbol := binding.symbol })⟩]

def listedBinding (binding : Binding) : Listed Ea.Request :=
  ⟨"binding".toList, objectText (bindingListed binding), ({ · with binding })⟩

def listedOp (op : Text) : Listed Ea.Request := ⟨"op".toList, quoted op, ({ · with op })⟩

def listedProtocol : Listed Ea.Request :=
  ⟨"protocol".toList, quoted protocolName.toList, ({ · with protocol := protocolName.toList })⟩

def listedRequestId (requestId : Text) : Listed Ea.Request :=
  ⟨"request_id".toList, quoted requestId, ({ · with requestId })⟩

def listedVersion : Listed Ea.Request :=
  ⟨"version".toList, Nat.toDigits 10 1, ({ · with version := 1 })⟩

def listedClient (clientRequestId : Text) : Listed Ea.Request :=
  ⟨"client_request_id".toList, quoted clientRequestId, ({ · with clientRequestId })⟩

def listedSide (side : Text) : Listed Ea.Request := ⟨"side".toList, quoted side, ({ · with side })⟩

def listedQuantity (quantityLots : Text) : Listed Ea.Request :=
  ⟨"quantity_lots".toList, quoted quantityLots, ({ · with quantityLots })⟩

def listedTicket (positionTicket : Text) : Listed Ea.Request :=
  ⟨"position_ticket".toList, quoted positionTicket, ({ · with positionTicket })⟩

def listedIdentifier (positionIdentifier : Text) : Listed Ea.Request :=
  ⟨"position_identifier".toList, quoted positionIdentifier, ({ · with positionIdentifier })⟩

def listedCursor (afterCursor : Text) : Listed Ea.Request :=
  ⟨"after_cursor".toList, quoted afterCursor, ({ · with afterCursor })⟩

def listedLimit (limit : ℤ) : Listed Ea.Request :=
  ⟨"limit".toList, intText limit, ({ · with limit := limit.toNat })⟩

/-- The members of a request in the order of their keys. -/
def Request.listed (request : Request) : List (Listed Ea.Request) :=
  let op := listedOp request.op.toList
  let requestId := listedRequestId request.requestId
  match request with
  | .hello _ => [op, listedProtocol, requestId, listedVersion]
  | .snapshot _ binding => [listedBinding binding, op, listedProtocol, requestId, listedVersion]
  | .submitMarketDelta _ binding clientRequestId side quantityLots =>
    [listedBinding binding, listedClient clientRequestId, op, listedProtocol,
      listedQuantity quantityLots, requestId, listedSide side, listedVersion]
  | .closePosition _ binding clientRequestId side quantityLots positionTicket positionIdentifier =>
    [listedBinding binding, listedClient clientRequestId, op, listedIdentifier positionIdentifier,
      listedTicket positionTicket, listedProtocol, listedQuantity quantityLots, requestId,
      listedSide side, listedVersion]
  | .executionEvents _ binding afterCursor limit =>
    [listedCursor afterCursor, listedBinding binding, listedLimit limit, op, listedProtocol,
      requestId, listedVersion]

theorem encode_request (floatRepr : ℚ → Text) {request : Request}
    (valid : validateRequest request = .ok ()) :
    ∃ wire, requestToWire request = .ok wire ∧
      encodeJson floatRepr wire = .ok (objectText request.listed) := by
  unfold requestToWire
  rw [valid]
  refine ⟨_, rfl, ?_⟩
  cases request with
  | hello requestId => rfl
  | snapshot requestId binding => rfl
  | submitMarketDelta requestId binding clientRequestId side quantityLots => rfl
  | closePosition requestId binding clientRequestId side quantityLots positionTicket
      positionIdentifier => rfl
  | executionEvents requestId binding afterCursor limit => rfl

end Listing

section Agreement

open Ea (Listed objectText)

/-- A member that the request parser takes as it is meant. -/
structure Ready (turns : ℕ) (member : Listed Ea.Request) : Prop where
  key : Ea.Plain member.key
  steady : Ea.Steady 1 member.piece
  takes : ∀ seen request rest, member.key ∉ seen → Ea.Follows rest →
    Ea.requestMember turns seen member.key request (member.piece ++ rest) =
      pure (member.effect request, rest)

theorem plain_of_identifier {value : Text} {maximum : ℕ} (small : maximum ≤ Ea.maxText)
    (valid : visibleIdentifier value maximum = true) : Ea.Plain value := by
  obtain ⟨-, short, visible⟩ := (visibleIdentifier_iff value maximum).1 valid
  exact ⟨visible, Nat.le_trans short small⟩

theorem plain_of_safeToken {value : Text} (valid : safeToken value = true) : Ea.Plain value := by
  unfold safeToken at valid
  rw [Bool.and_eq_true] at valid
  exact plain_of_identifier (by decide) valid.1

theorem plain_of_uint64 {value : Text} {positive : Bool}
    (valid : canonicalUint64 value positive = true) : Ea.Plain value := by
  obtain ⟨digits, short, -⟩ := (canonicalUint64_iff value positive).1 valid
  refine ⟨fun c member => ?_, Nat.le_trans short (by decide)⟩
  have range := digit_range (((isUint_iff value).1 digits).2.1 c member)
  change 33 ≤ c.toNat ∧ c.toNat ≤ 126
  omega

theorem plain_of_decimal {value : Text} (valid : positiveDecimal value = true) :
    Ea.Plain value := by
  obtain ⟨whole, fraction, written, short, -⟩ := (positiveDecimal_iff value).1 valid
  have inside {text : Text} (digits : ∀ c ∈ text, c.isDigit = true) : Ea.Visible text := by
    intro c member
    have range := digit_range (digits c member)
    change 33 ≤ c.toNat ∧ c.toNat ≤ 126
    omega
  refine ⟨?_, Nat.le_trans short (by decide)⟩
  rw [written.text, joined]
  split
  · exact inside written.wholeDigits
  · intro c member
    rcases List.mem_append.1 member with whole | point
    · exact inside written.wholeDigits c whole
    · rcases List.mem_cons.1 point with rfl | fraction
      · decide
      · exact inside written.fractionDigits c fraction

theorem ready_text (turns : ℕ) {key value : Text} {effect : Ea.Request → Ea.Request}
    (named : Ea.Plain key) (plain : Ea.Plain value)
    (set : ∀ request, Ea.setText request key value = some (effect request)) :
    Ready turns ⟨key, quoted value, effect⟩ where
  key := named
  steady := Ea.steady_quoted plain.1 1
  takes _ request rest fresh _ := Ea.requestMember_quoted turns fresh plain (set request) rest

theorem ready_version (turns : ℕ) : Ready turns listedVersion := by
  have small : 1 ≤ 500 := by decide
  refine ⟨by decide, Ea.steady_digits (Nat.le_refl 1) small 1, ?_⟩
  intro _ request _ fresh follows
  exact Ea.requestMember_number turns request fresh (.inl rfl) (Nat.le_refl 1) small follows

theorem ready_limit (turns : ℕ) {limit : ℤ} (positive : 1 ≤ limit) (small : limit ≤ 500) :
    Ready turns (listedLimit limit) := by
  have text : intText limit = Nat.toDigits 10 limit.toNat := by
    have size : limit.natAbs = limit.toNat := by omega
    unfold intText
    rw [if_neg (by omega), size]
  unfold listedLimit
  rw [text]
  have named : Ea.Plain "limit".toList := by decide
  refine ⟨named, Ea.steady_digits (by omega) (by omega) 1, ?_⟩
  intro _ request _ fresh follows
  exact Ea.requestMember_number turns request fresh (.inr rfl) (by omega) (by omega) follows

theorem binding_reads {binding : Binding} (valid : Ea.bindingValid binding = true) :
    Ea.Reads (fun seen key binding text => Scan.give (Ea.bindingMember seen key binding text))
      (bindingListed binding) ∧
    ∀ member ∈ bindingListed binding, Ea.Visible member.key ∧ Ea.Steady 0 member.piece := by
  unfold Ea.bindingValid at valid
  simp only [Bool.and_eq_true] at valid
  obtain ⟨⟨⟨⟨accountId, symbol⟩, eaBuildId⟩, streamId⟩, bootId⟩ := valid
  have accountId := plain_of_identifier (by decide) accountId
  have symbol := plain_of_identifier (by decide) symbol
  have eaBuildId := plain_of_safeToken eaBuildId
  have streamId := plain_of_safeToken streamId
  have bootId := plain_of_safeToken bootId
  have each (P : Listed Binding → Prop) : (∀ member ∈ bindingListed binding, P member) ↔
      P ⟨"account_id".toList, quoted binding.accountId,
        ({ · with accountId := binding.accountId })⟩ ∧
      P ⟨"boot_id".toList, quoted binding.bootId, ({ · with bootId := binding.bootId })⟩ ∧
      P ⟨"ea_build_id".toList, quoted binding.eaBuildId,
        ({ · with eaBuildId := binding.eaBuildId })⟩ ∧
      P ⟨"stream_id".toList, quoted binding.streamId, ({ · with streamId := binding.streamId })⟩ ∧
      P ⟨"symbol".toList, quoted binding.symbol, ({ · with symbol := binding.symbol })⟩ := by
    simp [bindingListed]
  refine ⟨⟨?_, ?_, ?_⟩, ?_⟩
  · change List.Nodup ["account_id".toList, "boot_id".toList, "ea_build_id".toList,
      "stream_id".toList, "symbol".toList]
    decide
  · rw [each]
    change Ea.Plain "account_id".toList ∧ Ea.Plain "boot_id".toList ∧
      Ea.Plain "ea_build_id".toList ∧
      Ea.Plain "stream_id".toList ∧ Ea.Plain "symbol".toList
    decide
  · rw [each]
    refine ⟨?_, ?_, ?_, ?_, ?_⟩
    · exact fun _ _ rest fresh _ => Ea.bindingMember_quoted fresh accountId rfl rest
    · exact fun _ _ rest fresh _ => Ea.bindingMember_quoted fresh bootId rfl rest
    · exact fun _ _ rest fresh _ => Ea.bindingMember_quoted fresh eaBuildId rfl rest
    · exact fun _ _ rest fresh _ => Ea.bindingMember_quoted fresh streamId rfl rest
    · exact fun _ _ rest fresh _ => Ea.bindingMember_quoted fresh symbol rfl rest
  · rw [each]
    have named : ∀ key ∈ ["account_id", "boot_id", "ea_build_id", "stream_id", "symbol"],
        Ea.Visible key.toList := by decide
    refine ⟨⟨named _ (by simp), ?_⟩, ⟨named _ (by simp), ?_⟩, ⟨named _ (by simp), ?_⟩,
      ⟨named _ (by simp), ?_⟩, ⟨named _ (by simp), ?_⟩⟩
    · exact Ea.steady_quoted accountId.1 0
    · exact Ea.steady_quoted bootId.1 0
    · exact Ea.steady_quoted eaBuildId.1 0
    · exact Ea.steady_quoted streamId.1 0
    · exact Ea.steady_quoted symbol.1 0

theorem ready_binding {turns : ℕ} (enough : 5 < turns) {binding : Binding}
    (valid : Ea.bindingValid binding = true) : Ready turns (listedBinding binding) := by
  obtain ⟨reads, steady⟩ := binding_reads valid
  have key : Ea.Plain "binding".toList := by decide
  refine ⟨key, Ea.steady_object steady, ?_⟩
  intro seen request rest fresh _
  have named : ¬("binding".toList = "version".toList ∨ "binding".toList = "limit".toList) := by
    decide
  have opens : ¬(Ea.skipWhitespace (objectText (bindingListed binding) ++ rest)).head? ≠
      some '\x7b' := fun other => other rfl
  change "binding".toList ∉ seen at fresh
  change Ea.requestMember turns seen "binding".toList request
    (objectText (bindingListed binding) ++ rest) = _
  unfold Ea.requestMember
  rw [if_neg fresh, if_neg named, if_pos rfl, if_neg opens]
  have parsed := Ea.parseBinding_reads reads request.binding rest enough rfl valid
  unfold bindingListed at parsed ⊢
  rw [parsed]
  rfl

theorem Request.op_mem (request : Request) : request.op ∈ capabilities := by
  cases request <;> simp [Request.op, capabilities]

/-- Each member of a valid request is taken as it is meant. -/
theorem listed_ready {request : Request} (valid : validateRequest request = .ok ()) {turns : ℕ}
    (enough : request.listed.length < turns) : ∀ member ∈ request.listed, Ready turns member := by
  obtain ⟨named, bound, fields⟩ := (validateRequest_iff request).1 valid
  have op : Ready turns (listedOp request.op.toList) := by
    have plain : ∀ op ∈ capabilities, Ea.Plain op.toList := by decide
    exact ready_text turns (by decide) (plain _ request.op_mem) fun _ => rfl
  have protocol : Ready turns listedProtocol :=
    ready_text turns (by decide) (by decide) fun _ => rfl
  have requestId : Ready turns (listedRequestId request.requestId) :=
    ready_text turns (by decide) (plain_of_identifier (by decide) named) fun _ => rfl
  have version := ready_version turns
  cases request with
  | hello id => simp [Request.listed, op, protocol, requestId, version]
  | snapshot id binding =>
    have binding := ready_binding enough (bound binding rfl)
    simp [Request.listed, op, protocol, requestId, version, binding]
  | submitMarketDelta id binding clientRequestId side quantityLots =>
    have enough : 5 < turns := Nat.lt_of_le_of_lt (by simp [Request.listed]) enough
    have binding := ready_binding enough (bound binding rfl)
    obtain ⟨client, side', quantity⟩ := fields
    have client : Ready turns (listedClient clientRequestId) :=
      ready_text turns (by decide) (plain_of_safeToken client) fun _ => rfl
    have quantity : Ready turns (listedQuantity quantityLots) :=
      ready_text turns (by decide) (plain_of_decimal quantity) fun _ => rfl
    have side : Ready turns (listedSide side) := by
      apply ready_text turns (by decide) ?_ fun _ => rfl
      rcases side' with rfl | rfl <;> decide
    simp [Request.listed, op, protocol, requestId, version, binding, client, quantity, side]
  | closePosition id binding clientRequestId side quantityLots positionTicket positionIdentifier =>
    have enough : 5 < turns := Nat.lt_of_le_of_lt (by simp [Request.listed]) enough
    have binding := ready_binding enough (bound binding rfl)
    obtain ⟨⟨client, side', quantity⟩, ticket, identifier⟩ := fields
    have client : Ready turns (listedClient clientRequestId) :=
      ready_text turns (by decide) (plain_of_safeToken client) fun _ => rfl
    have quantity : Ready turns (listedQuantity quantityLots) :=
      ready_text turns (by decide) (plain_of_decimal quantity) fun _ => rfl
    have side : Ready turns (listedSide side) := by
      apply ready_text turns (by decide) ?_ fun _ => rfl
      rcases side' with rfl | rfl <;> decide
    have ticket : Ready turns (listedTicket positionTicket) :=
      ready_text turns (by decide) (plain_of_uint64 ticket) fun _ => rfl
    have identifier : Ready turns (listedIdentifier positionIdentifier) :=
      ready_text turns (by decide) (plain_of_uint64 identifier) fun _ => rfl
    simp [Request.listed, op, protocol, requestId, version, binding, client, quantity, side, ticket,
      identifier]
  | executionEvents id binding afterCursor limit =>
    have enough : 5 < turns := Nat.lt_of_le_of_lt (by simp [Request.listed]) enough
    have binding := ready_binding enough (bound binding rfl)
    obtain ⟨cursor, positive, small⟩ := fields
    have cursor : Ready turns (listedCursor afterCursor) :=
      ready_text turns (by decide) (plain_of_uint64 cursor) fun _ => rfl
    have limit := ready_limit turns positive small
    simp [Request.listed, op, protocol, requestId, version, binding, cursor, limit]

/-- The state that a request's members make. -/
def Request.made (request : Request) : Ea.Request :=
  request.listed.foldl (fun s member => member.effect s) {}

theorem checkRequest_eq_ok {parsed : Ea.Request} {seen : List Text} :
    Ea.checkRequest parsed seen = .ok () ↔
      (parsed.protocol = "py000.mt5".toList ∧ parsed.version = 1 ∧
        visibleIdentifier parsed.requestId 64 = true ∧ visibleIdentifier parsed.op 64 = true) ∧
      Ea.expectedMembers parsed.op = some seen.length ∧ Ea.requiredSeen parsed.op seen = true ∧
      (parsed.op = "submit_market_delta".toList → Ea.orderFields parsed = true) ∧
      (parsed.op = "close_position".toList → Ea.orderFields parsed = true ∧
        canonicalUint64 parsed.positionTicket true = true ∧
        canonicalUint64 parsed.positionIdentifier true = true) ∧
      (parsed.op = "get_execution_events".toList → canonicalUint64 parsed.afterCursor false = true ∧
        1 ≤ parsed.limit ∧ parsed.limit ≤ 500) := by
  unfold Ea.checkRequest
  simp only [bind_unit_eq_ok, raiseIf_eq_ok, not_or, not_and, ne_eq, not_not, Bool.not_eq_false,
    Bool.and_eq_true, Nat.not_lt, Nat.succ_le_iff, and_assoc]
  constructor
  · rintro ⟨protocol, version, named, op, -, count, seen, submit, close, events⟩
    exact ⟨protocol, version, named, op, count, seen, submit, close, events⟩
  · rintro ⟨protocol, version, named, op, count, seen, submit, close, events⟩
    exact ⟨protocol, version, named, op, by simp [count], count, seen, submit, close, events⟩

/-- The fields that one end has parsed are those of the other end's request. -/
structure Carries (parsed : Ea.Request) (request : Request) : Prop where
  protocol : parsed.protocol = protocolName.toList
  version : parsed.version = 1
  requestId : parsed.requestId = request.requestId
  op : parsed.op = request.op.toList
  binding : ∀ binding, request.binding? = some binding → parsed.binding = binding
  fields : match request with
    | .hello _ | .snapshot _ _ => True
    | .submitMarketDelta _ _ clientRequestId side quantityLots =>
      parsed.clientRequestId = clientRequestId ∧ parsed.side = side ∧
        parsed.quantityLots = quantityLots
    | .closePosition _ _ clientRequestId side quantityLots positionTicket positionIdentifier =>
      parsed.clientRequestId = clientRequestId ∧ parsed.side = side ∧
        parsed.quantityLots = quantityLots ∧ parsed.positionTicket = positionTicket ∧
        parsed.positionIdentifier = positionIdentifier
    | .executionEvents _ _ afterCursor limit =>
      parsed.afterCursor = afterCursor ∧ (parsed.limit : ℤ) = limit

theorem made_carries {request : Request} (valid : validateRequest request = .ok ()) :
    Carries request.made request := by
  obtain ⟨-, -, fields⟩ := (validateRequest_iff request).1 valid
  cases request with
  | hello id => exact ⟨rfl, rfl, rfl, rfl, nofun, trivial⟩
  | snapshot id binding =>
    refine ⟨rfl, rfl, rfl, rfl, ?_, trivial⟩
    rintro other ⟨⟩
    rfl
  | submitMarketDelta id binding clientRequestId side quantityLots =>
    refine ⟨rfl, rfl, rfl, rfl, ?_, rfl, rfl, rfl⟩
    rintro other ⟨⟩
    rfl
  | closePosition id binding clientRequestId side quantityLots positionTicket positionIdentifier =>
    refine ⟨rfl, rfl, rfl, rfl, ?_, rfl, rfl, rfl, rfl, rfl⟩
    rintro other ⟨⟩
    rfl
  | executionEvents id binding afterCursor limit =>
    refine ⟨rfl, rfl, rfl, rfl, ?_, rfl, ?_⟩
    · rintro other ⟨⟩
      rfl
    · exact Int.toNat_of_nonneg (by have positive := fields.2.1; omega)

theorem orderFields_eq {parsed : Ea.Request} :
    Ea.orderFields parsed = true ↔
      orderValid parsed.clientRequestId parsed.side parsed.quantityLots := by
  unfold Ea.orderFields orderValid
  simp only [Bool.and_eq_true, decide_eq_true_eq, and_assoc]

/-- The keys that each operation lists. -/
def shapes : List (String × List String) :=
  [("hello", ["op", "protocol", "request_id", "version"]),
    ("get_snapshot", ["binding", "op", "protocol", "request_id", "version"]),
    ("submit_market_delta", ["binding", "client_request_id", "op", "protocol", "quantity_lots",
      "request_id", "side", "version"]),
    ("close_position",
      ["binding", "client_request_id", "op", "position_identifier", "position_ticket",
      "protocol", "quantity_lots", "request_id", "side", "version"]),
    ("get_execution_events", ["after_cursor", "binding", "limit", "op", "protocol", "request_id",
      "version"])]

theorem listed_shape (request : Request) : ∃ keys, (request.op, keys) ∈ shapes ∧
    request.listed.map Listed.key = keys.map String.toList := by
  cases request with
  | hello id => exact ⟨_, .head _, rfl⟩
  | snapshot id binding => exact ⟨_, .tail _ (.head _), rfl⟩
  | submitMarketDelta id binding clientRequestId side quantityLots =>
    exact ⟨_, .tail _ (.tail _ (.head _)), rfl⟩
  | closePosition id binding clientRequestId side quantityLots positionTicket positionIdentifier =>
    exact ⟨_, .tail _ (.tail _ (.tail _ (.head _))), rfl⟩
  | executionEvents id binding afterCursor limit =>
    exact ⟨_, .tail _ (.tail _ (.tail _ (.tail _ (.head _)))), rfl⟩

/-- The keys of each operation are apart, as many as it takes, and all that it requires. -/
theorem shapes_closed : ∀ shape ∈ shapes, (shape.2.map String.toList).Nodup ∧
    Ea.expectedMembers shape.1.toList = some (shape.2.map String.toList).length ∧
    Ea.requiredSeen shape.1.toList (shape.2.map String.toList) = true := by
  decide

/-- What a valid request makes passes the last checks. -/
theorem made_checked {request : Request} (valid : validateRequest request = .ok ()) :
    Ea.checkRequest request.made (request.listed.map Listed.key) = .ok () := by
  obtain ⟨named, -, fields⟩ := (validateRequest_iff request).1 valid
  have visible : ∀ op ∈ capabilities, visibleIdentifier op.toList 64 = true := by decide
  have op := visible _ request.op_mem
  obtain ⟨keys, shape, same⟩ := listed_shape request
  obtain ⟨-, count, required⟩ := shapes_closed _ shape
  have carried := (made_carries valid).op
  have apart {P : Prop} {a b : String} (other : a ≠ b) : a.toList = b.toList → P :=
    fun same => absurd (String.toList_inj.1 same) other
  rw [checkRequest_eq_ok, orderFields_eq, same, carried]
  cases request with
  | hello id =>
    refine ⟨⟨rfl, rfl, named, op⟩, count, required, ?_, ?_, ?_⟩ <;> exact apart
      (by simp [Request.op])
  | snapshot id binding =>
    refine ⟨⟨rfl, rfl, named, op⟩, count, required, ?_, ?_, ?_⟩ <;> exact apart
      (by simp [Request.op])
  | submitMarketDelta id binding clientRequestId side quantityLots =>
    refine ⟨⟨rfl, rfl, named, op⟩, count, required, fun _ => fields, ?_, ?_⟩ <;>
      exact apart (by simp [Request.op])
  | closePosition id binding clientRequestId side quantityLots positionTicket positionIdentifier =>
    refine ⟨⟨rfl, rfl, named, op⟩, count, required, ?_, fun _ => fields, ?_⟩ <;>
      exact apart (by simp [Request.op])
  | executionEvents id binding afterCursor limit =>
    obtain ⟨cursor, positive, small⟩ := fields
    refine ⟨⟨rfl, rfl, named, op⟩, count, required, ?_, ?_, fun _ => ⟨cursor, ?_, ?_⟩⟩
    · exact apart (by simp [Request.op])
    · exact apart (by simp [Request.op])
    · change 1 ≤ limit.toNat
      omega
    · change limit.toNat ≤ 500
      omega

/-- The text of a valid request parses into what its members make. -/
theorem listed_parses {request : Request} (valid : validateRequest request = .ok ()) :
    Ea.parseRequest (objectText request.listed) = .ok request.made := by
  have keys : (request.listed.map Listed.key).Nodup := by
    obtain ⟨keys, shape, same⟩ := listed_shape request
    rw [same]
    exact (shapes_closed _ shape).1
  have checked := made_checked valid
  have ready := fun turns (enough : request.listed.length < turns) => listed_ready valid enough
  obtain ⟨member, members, same⟩ : ∃ member members, request.listed = member :: members := by
    cases request <;> exact ⟨_, _, rfl⟩
  unfold Request.made at checked ⊢
  rw [same] at keys checked ready ⊢
  apply Ea.parseRequest_reads ?_ ?_ checked
  · intro turns enough
    have ready := ready turns enough
    exact ⟨keys, fun other inside => (ready other inside).key,
      fun other inside => (ready other inside).takes⟩
  · exact fun other inside => (ready _ (Nat.lt_succ_self _) other inside).steady

/-- What the parser has accepted is a valid request. -/
theorem accepted_valid {source : Text} {parsed : Ea.Request}
    (accepted : Ea.parseRequest source = .ok parsed) :
    ∃ request, validateRequest request = .ok () ∧ Carries parsed request := by
  obtain ⟨seen, bound, checked⟩ := Ea.parseRequest_accepts accepted
  obtain ⟨⟨protocol, version, named, -⟩, count, required, submit, close, events⟩ :=
    checkRequest_eq_ok.1 checked
  rw [orderFields_eq] at submit close
  have binding (other : parsed.op ≠ "hello".toList) : Ea.bindingValid parsed.binding = true := by
    apply bound
    unfold Ea.requiredSeen at required
    simp only [Bool.and_eq_true, decide_eq_false other, Bool.false_bne,
      decide_eq_true_eq] at required
    exact required.1.1.1.2
  have ops : parsed.op = "hello".toList ∨ parsed.op = "get_snapshot".toList ∨
      parsed.op = "submit_market_delta".toList ∨ parsed.op = "close_position".toList ∨
      parsed.op = "get_execution_events".toList := by
    by_contra unknown
    simp only [not_or] at unknown
    obtain ⟨a, b, c, d, e⟩ := unknown
    unfold Ea.expectedMembers at count
    rw [if_neg a, if_neg b, if_neg c, if_neg d, if_neg e] at count
    cases count
  rcases ops with op | op | op | op | op
  · refine ⟨.hello parsed.requestId, (validateRequest_iff _).2 ⟨named, nofun, trivial⟩, ?_⟩
    exact ⟨protocol, version, rfl, op, nofun, trivial⟩
  · have bound := binding (by rw [op]; decide)
    refine ⟨.snapshot parsed.requestId parsed.binding,
      (validateRequest_iff _).2 ⟨named, ?_, trivial⟩, protocol, version, rfl, op, ?_, trivial⟩
    · rintro other ⟨⟩
      exact bound
    · rintro other ⟨⟩
      rfl
  · have bound := binding (by rw [op]; decide)
    refine ⟨.submitMarketDelta parsed.requestId parsed.binding parsed.clientRequestId parsed.side
        parsed.quantityLots, (validateRequest_iff _).2 ⟨named, ?_, submit op⟩, protocol, version,
        rfl,
      op, ?_, rfl, rfl, rfl⟩
    · rintro other ⟨⟩
      exact bound
    · rintro other ⟨⟩
      rfl
  · have bound := binding (by rw [op]; decide)
    refine ⟨.closePosition parsed.requestId parsed.binding parsed.clientRequestId parsed.side
        parsed.quantityLots parsed.positionTicket parsed.positionIdentifier,
      (validateRequest_iff _).2 ⟨named, ?_, close op⟩, protocol, version, rfl, op, ?_, rfl, rfl,
        rfl,
      rfl, rfl⟩
    · rintro other ⟨⟩
      exact bound
    · rintro other ⟨⟩
      rfl
  · have bound := binding (by rw [op]; decide)
    obtain ⟨cursor, positive, small⟩ := events op
    refine ⟨.executionEvents parsed.requestId parsed.binding parsed.afterCursor parsed.limit,
      (validateRequest_iff _).2 ⟨named, ?_, cursor, by omega, by omega⟩, protocol, version, rfl, op,
      ?_, rfl, rfl⟩
    · rintro other ⟨⟩
      exact bound
    · rintro other ⟨⟩
      rfl

/-- The two ends of the wire accept the same requests, and the expert's parser comes to an end
with every text. -/
theorem request_wire_agreement (floatRepr : ℚ → Text) :
    (∀ request, validateRequest request = .ok () →
      ∃ wire text parsed, requestToWire request = .ok wire ∧ encodeJson floatRepr wire = .ok text ∧
        Ea.parseRequest text = .ok parsed ∧ Carries parsed request) ∧
    (∀ source parsed, Ea.parseRequest source = .ok parsed →
      ∃ request, validateRequest request = .ok () ∧ Carries parsed request) ∧
    ∀ source, ∃ parsed, (Ea.parseObject source).run = some parsed := by
  refine ⟨?_, ?_, Ea.parseObject_ends⟩
  · intro request valid
    obtain ⟨wire, encoded, text⟩ := encode_request floatRepr valid
    exact ⟨wire, _, _, encoded, text, listed_parses valid, made_carries valid⟩
  · intro source parsed accepted
    exact accepted_valid accepted

def demoRequest : Request :=
  .submitMarketDelta "r\x22\x5c1".toList
    ⟨"account".toList, "XAU\x22USD".toList, "ea-1".toList, "stream".toList, "boot".toList⟩
    "client-1".toList "buy".toList "0.25".toList

/-- A hello with spaces and an escape in it. -/
def demoSource : Text :=
  ("\x7b \x22op\x22:\x22hello\x22, \x22version\x22:1," ++
    "\x22request_id\x22:\x22r\x5cu0031\x22,\x22protocol\x22:\x22py000.mt5\x22 \x7d").toList

def demoParsed : Ea.Request :=
  { protocol := protocolName.toList, version := 1, requestId := "r1".toList, op := "hello".toList }

theorem demo_request_wire :
    (∃ wire text parsed, requestToWire demoRequest = .ok wire ∧
      encodeJson (fun _ => []) wire = .ok text ∧ Ea.parseRequest text = .ok parsed ∧
      Carries parsed demoRequest) ∧
    ∃ request, validateRequest request = .ok () ∧ Carries demoParsed request := by
  have agreement := request_wire_agreement fun _ => []
  exact ⟨agreement.1 demoRequest (by decide +kernel),
    agreement.2.1 demoSource demoParsed (by decide +kernel)⟩

end Agreement

end ArbNautilus.Mt5.Codec
