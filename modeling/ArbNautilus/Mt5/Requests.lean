import ArbNautilus.Mt5.Decoder

namespace ArbNautilus.Mt5.Ea

open Base Journal JsonHooks Scan

def maxText : ℕ := 256

/-- `StringLen`, in UTF-16 units. -/
def stringLen (text : Text) : ℕ := (text.map fun c => if c.toNat < 0x10000 then 1 else 2).sum

/-- `Py000Request`, cleared but for the names that a refusal answers with. -/
structure Request where
  protocol : Text := []
  version : ℕ := 0
  requestId : Text := "invalid".toList
  op : Text := "unknown".toList
  binding : Binding := ⟨[], [], [], [], []⟩
  clientRequestId : Text := []
  side : Text := []
  quantityLots : Text := []
  positionTicket : Text := []
  positionIdentifier : Text := []
  afterCursor : Text := []
  limit : ℕ := 0
deriving DecidableEq, Repr

section Preflight

structure Preflight where
  inString : Bool
  escaped : Bool
  depth : ℕ
  digitRun : ℕ
deriving DecidableEq

def preflightTurn (s : Preflight) (code : Char) : Except String Preflight :=
  if s.inString then
    if s.escaped then .ok { s with escaped := false }
    else if code = '\x5c' then .ok { s with escaped := true }
    else if code = '\x22' then .ok { s with inString := false }
    else .ok s
  else if code = '\x22' then .ok { s with inString := true, digitRun := 0 }
  else if code = '\x7b' ∨ code = '[' then
    if 32 < s.depth + 1 then .error "JSON nesting exceeds v1 limit"
    else .ok { s with depth := s.depth + 1, digitRun := 0 }
  else if code = '\x7d' ∨ code = ']' then
    if s.depth = 0 then .error "unbalanced JSON container"
    else .ok { s with depth := s.depth - 1, digitRun := 0 }
  else if digitCode code then
    if 20 < s.digitRun + 1 then .error "JSON integer exceeds digit limit"
    else .ok { s with digitRun := s.digitRun + 1 }
  else .ok { s with digitRun := 0 }

/-- `Py000JsonPreflight`. -/
def preflight (source : Text) : Except String Unit := do
  let _ ← source.foldlM preflightTurn ⟨false, false, 0, 0⟩
  pure ()

end Preflight

section Tokens

def isWhitespace (code : Char) : Bool := code = ' ' ∨ code = '\t' ∨ code = '\n' ∨ code = '\r'

def skipWhitespace (text : Text) : Text := text.dropWhile isWhitespace

/-- `Py000JsonConsume`. -/
def consume (expected : Char) (text : Text) : Except String Text :=
  match skipWhitespace text with
  | [] => .error "unexpected JSON token"
  | code :: rest => if code = expected then .ok rest else .error "unexpected JSON token"

/-- The string with one more character, if it does not get too long. -/
def grown (value : Text) (code : Char) : Except String Text :=
  if maxText < stringLen (value ++ [code]) then .error "JSON string too long"
  else .ok (value ++ [code])

/-- The loop of `Py000JsonParseString`. -/
def stringLoop (value : Text) : Text → Except String (Text × Text)
  | [] => .error "unterminated JSON string"
  | code :: rest =>
    if code = '\x22' then .ok (value, rest)
    else if code.toNat < 32 then .error "control character in JSON string"
    else if code ≠ '\x5c' then match grown value code with
      | .error e => .error e
      | .ok value => stringLoop value rest
    else match rest with
      | [] => .error "unterminated JSON escape"
      | escaped :: rest =>
        if escaped = '\x22' ∨ escaped = '\x5c' ∨ escaped = '/' then match grown value escaped with
          | .error e => .error e
          | .ok value => stringLoop value rest
        else if escaped ≠ 'u' then .error "unsupported or control JSON escape"
        else match rest with
          | a :: b :: c :: d :: rest => match hexCode [a, b, c, d] with
            | none => .error "malformed JSON unicode escape"
            | some scalar =>
              if scalar < 0x21 ∨ 0x7e < scalar then .error "request text must be visible ASCII"
              else match grown value (Char.ofNat scalar) with
                | .error e => .error e
                | .ok value => stringLoop value rest
          | _ => .error "unsupported or control JSON escape"

/-- `Py000JsonParseString`. -/
def parseString (text : Text) : Except String (Text × Text) :=
  match skipWhitespace text with
  | [] => .error "JSON string required"
  | code :: rest => if code = '\x22' then stringLoop [] rest else .error "JSON string required"

def int32Turn (parsed : ℕ) (code : Char) : Except String ℕ :=
  let parsed := parsed * 10 + (code.toNat - '0'.toNat)
  if 2147483647 < parsed then .error "JSON integer exceeds int32" else .ok parsed

/-- `Py000JsonParseUnsignedInt`. -/
def parseUnsignedInt (text : Text) : Except String (ℕ × Text) :=
  match skipWhitespace text with
  | [] => .error "JSON integer required"
  | first :: rest =>
    let digits := first :: rest.takeWhile digitCode
    let suffix := rest.dropWhile digitCode
    if digitCode first = false then .error "unsigned JSON integer required"
    else if first = '0' then
      if rest.head?.any digitCode then .error "leading zero in JSON integer" else .ok (0, rest)
    else if 10 < digits.length then .error "JSON integer exceeds int32"
    else match digits.foldlM int32Turn 0 with
      | .error e => .error e
      | .ok parsed =>
        if suffix.head? ∈ [some '.', some 'e', some 'E'] then
          .error "JSON integer cannot be float or exponent"
        else .ok (parsed, suffix)

end Tokens

section Objects

/-- The members of an object, one a turn, after its opening brace. -/
def objectLoop {S : Type} (take : List Text → Text → S → Text → Scan String (S × Text)) :
    ℕ → Bool → List Text → S → Text → Scan String (S × List Text × Text)
  | 0, _, _, _, _ => stuck
  | turns + 1, first, seen, s, text =>
    if (skipWhitespace text).head? = some '\x7d' then
      pure (s, seen, (skipWhitespace text).drop 1)
    else do
      let text ← give (if first then .ok text else consume ',' text)
      let (key, text) ← give (parseString text)
      let text ← give (consume ':' text)
      let (s, text) ← take seen key s text
      objectLoop take turns false (seen ++ [key]) s text

/-- Whether a string starts here. -/
def stringValue (text : Text) : Bool := (skipWhitespace text).head? = some '\x22'

def setBinding (binding : Binding) (key value : Text) : Option Binding :=
  if key = "account_id".toList then some { binding with accountId := value }
  else if key = "symbol".toList then some { binding with symbol := value }
  else if key = "ea_build_id".toList then some { binding with eaBuildId := value }
  else if key = "stream_id".toList then some { binding with streamId := value }
  else if key = "boot_id".toList then some { binding with bootId := value }
  else none

def bindingMember (seen : List Text) (key : Text) (binding : Binding) (text : Text) :
    Except String (Binding × Text) :=
  match parseString text with
  | .error e =>
    .error (if stringValue text then e else "SCHEMA: binding member must be string")
  | .ok (value, rest) =>
    if key ∈ seen then .error "duplicate binding member"
    else match setBinding binding key value with
      | none => .error "SCHEMA: unknown binding member"
      | some binding => .ok (binding, rest)

def bindingValid (binding : Binding) : Bool :=
  visibleIdentifier binding.accountId maxIdentifier && visibleIdentifier binding.symbol
    maxIdentifier &&
    safeToken binding.eaBuildId && safeToken binding.streamId && safeToken binding.bootId

/-- `Py000JsonParseBinding`, over at most this many members. -/
def parseBinding (turns : ℕ) (binding : Binding) (text : Text) : Scan String (Binding × Text) := do
  let text ← give (consume '\x7b' text)
  let (binding, seen, rest) ←
    objectLoop (fun seen key binding text => give (bindingMember seen key binding text)) turns true
      []
      binding text
  give (if seen.length ≠ 5 ∨ bindingValid binding = false then
    .error "SCHEMA: binding is incomplete or invalid" else .ok (binding, rest))

def setText (request : Request) (key value : Text) : Option Request :=
  if key = "protocol".toList then some { request with protocol := value }
  else if key = "request_id".toList then some { request with requestId := value }
  else if key = "op".toList then some { request with op := value }
  else if key = "client_request_id".toList then some { request with clientRequestId := value }
  else if key = "side".toList then some { request with side := value }
  else if key = "quantity_lots".toList then some { request with quantityLots := value }
  else if key = "position_ticket".toList then some { request with positionTicket := value }
  else if key = "position_identifier".toList then some { request with positionIdentifier := value }
  else if key = "after_cursor".toList then some { request with afterCursor := value }
  else none

def textMember (key : Text) (request : Request) (text : Text) : Except String (Request × Text) :=
  match parseString text with
  | .error e => .error (if stringValue text then e else "SCHEMA: request field must be string")
  | .ok (value, rest) => match setText request key value with
    | none => .error "SCHEMA: unknown request member"
    | some request => .ok (request, rest)

def numberMember (key : Text) (request : Request) (text : Text) : Except String (Request × Text) :=
  match parseUnsignedInt text with
  | .error _ => .error ("SCHEMA: exact JSON integer required for " ++ String.ofList key)
  | .ok (number, rest) =>
    .ok (if key = "version".toList then { request with version := number }
      else { request with limit := number }, rest)

def requestMember (turns : ℕ) (seen : List Text) (key : Text) (request : Request) (text : Text) :
    Scan String (Request × Text) :=
  if key ∈ seen then give (.error "duplicate request member")
  else if key = "version".toList ∨ key = "limit".toList then give (numberMember key request text)
  else if key = "binding".toList then
    if (skipWhitespace text).head? ≠ some '\x7b' then
      give (.error "SCHEMA: binding must be an object")
    else do
      let (binding, rest) ← parseBinding turns request.binding text
      pure ({ request with binding }, rest)
  else give (textMember key request text)

end Objects

section Requests

def expectedMembers (op : Text) : Option ℕ :=
  if op = "hello".toList then some 4
  else if op = "get_snapshot".toList then some 5
  else if op = "submit_market_delta".toList then some 8
  else if op = "close_position".toList then some 10
  else if op = "get_execution_events".toList then some 7
  else none

/-- The members that a request of this kind must carry. -/
def requiredSeen (op : Text) (seen : List Text) : Bool :=
  let was (key : String) : Bool := decide (key.toList ∈ seen)
  let order := was "client_request_id" && was "side" && was "quantity_lots"
  was "protocol" && was "version" && was "request_id" && was "op" &&
    (decide (op = "hello".toList) != was "binding") &&
    (op ≠ "submit_market_delta".toList || order) &&
    (op ≠ "close_position".toList ||
      order && was "position_ticket" && was "position_identifier") &&
    (op ≠ "get_execution_events".toList || was "after_cursor" && was "limit")

def orderFields (request : Request) : Bool :=
  safeToken request.clientRequestId &&
    (request.side = "buy".toList ∨ request.side = "sell".toList) && positiveDecimal
      request.quantityLots

/-- The checks after the object. -/
def checkRequest (request : Request) (seen : List Text) : Except String Unit := do
  raiseIf (request.protocol ≠ "py000.mt5".toList ∨ request.version ≠ 1 ∨
    visibleIdentifier request.requestId 64 = false ∨ visibleIdentifier request.op 64 = false)
    "SCHEMA: request envelope mismatch"
  raiseIf (expectedMembers request.op = none) "UNKNOWN_OP"
  raiseIf (expectedMembers request.op ≠ some seen.length)
    "SCHEMA: request fields differ from closed schema"
  raiseIf (requiredSeen request.op seen = false) "SCHEMA: required request member mismatch"
  raiseIf (request.op = "submit_market_delta".toList ∧ orderFields request = false)
    "SCHEMA: submit_market_delta fields invalid"
  raiseIf (request.op = "close_position".toList ∧
    (orderFields request && canonicalUint64 request.positionTicket true &&
      canonicalUint64 request.positionIdentifier true) = false)
    "SCHEMA: close_position fields invalid"
  raiseIf (request.op = "get_execution_events".toList ∧
    (canonicalUint64 request.afterCursor false = false ∨ request.limit < 1 ∨ 500 < request.limit))
    "SCHEMA: get_execution_events fields invalid"

/-- More members than an object of this text can have. -/
def turnsFor (source : Text) : ℕ := source.length + 1

def parseObject (source : Text) : Scan String Request := do
  let text ← give (consume '\x7b' source)
  let (request, seen, rest) ←
    objectLoop (requestMember (turnsFor source)) (turnsFor source) true [] {} text
  give (raiseIf (skipWhitespace rest ≠ []) "trailing JSON content")
  give (checkRequest request seen)
  pure request

/-- `Py000JsonParseRequest`. -/
def parseRequest (source : Text) : Except String Request :=
  match preflight source with
  | .error e => .error e
  | .ok () => match (parseObject source).run with
    | none => .error ""
    | some parsed => parsed

end Requests

section Turns

theorem length_skipWhitespace (text : Text) : (skipWhitespace text).length ≤ text.length :=
  (List.dropWhile_sublist _).length_le

theorem length_consume {expected : Char} {text rest : Text}
    (taken : consume expected text = .ok rest) :
    rest.length < text.length := by
  have shorter := length_skipWhitespace text
  unfold consume at taken
  split at taken
  · cases taken
  · rename_i same
    rw [same, List.length_cons] at shorter
    split at taken
    · cases taken
      omega
    · cases taken

theorem length_stringLoop {value value' text rest : Text}
    (parsed : stringLoop value text = .ok (value', rest)) : rest.length < text.length := by
  fun_induction stringLoop value text with
  | case1 | case3 | case4 | case6 | case7 | case9 | case10 | case11 | case12 | case14 =>
    cases parsed
  | case2 =>
    cases parsed
    simp
  | case5 | case8 | case13 =>
    rename_i ih
    have shorter := ih parsed
    simp only [List.length_cons]
    omega

theorem length_parseString {text value rest : Text}
    (parsed : parseString text = .ok (value, rest)) :
    rest.length < text.length := by
  have shorter := length_skipWhitespace text
  unfold parseString at parsed
  split at parsed
  · cases parsed
  · rename_i same
    rw [same, List.length_cons] at shorter
    split at parsed
    · have inner := length_stringLoop parsed
      omega
    · cases parsed

theorem length_parseUnsignedInt {text rest : Text} {number : ℕ}
    (parsed : parseUnsignedInt text = .ok (number, rest)) : rest.length < text.length := by
  have shorter := length_skipWhitespace text
  unfold parseUnsignedInt at parsed
  split at parsed
  · cases parsed
  · rename_i first more same
    rw [same, List.length_cons] at shorter
    have dropped : (more.dropWhile digitCode).length ≤ more.length :=
      (List.dropWhile_sublist _).length_le
    simp only at parsed
    split at parsed
    · cases parsed
    · split at parsed
      · split at parsed
        · cases parsed
        · cases parsed
          omega
      · split at parsed
        · cases parsed
        · split at parsed
          · cases parsed
          · split at parsed
            · cases parsed
            · cases parsed
              omega

/-- A loop over members that each take some text comes to an end. -/
theorem objectLoop_ends {S : Type} {take : List Text → Text → S → Text → Scan String (S × Text)}
    (limit : ℕ) (takes : ∀ seen key s text, text.length < limit →
      Ends (fun found => found.2.length ≤ text.length) (take seen key s text)) (turns : ℕ)
    (within : turns ≤ limit) (first : Bool) (seen : List Text) (s : S) (text : Text)
    (enough : text.length < turns) :
    Ends (fun found => found.2.2.length ≤ text.length)
      (objectLoop take turns first seen s text) := by
  induction turns generalizing first seen s text with
  | zero => omega
  | succ turns ih =>
    have shorter := length_skipWhitespace text
    rw [objectLoop]
    split
    · apply ends_pure
      simp only [List.length_drop]
      omega
    · apply ends_bind (P := fun rest => rest.length ≤ text.length)
      · apply ends_give
        intro rest comma
        cases first with
        | true =>
          cases comma
          exact Nat.le_refl _
        | false => exact Nat.le_of_lt (length_consume comma)
      intro rest short
      apply ends_bind (P := fun found => found.2.length < rest.length)
      · apply ends_give
        intro found parsed
        exact length_parseString parsed
      intro found shortKey
      apply ends_bind (P := fun more => more.length < found.2.length)
      · apply ends_give
        intro more colon
        exact length_consume colon
      intro more shortValue
      apply ends_bind (takes seen found.1 s more (by omega))
      intro taken shortTaken
      apply Ends.mono (ih (by omega) false _ _ _ (by omega))
      intro last shortLast
      exact Nat.le_trans shortLast (by omega)

theorem length_bindingMember {seen : List Text} {key text rest : Text} {binding binding' : Binding}
    (taken : bindingMember seen key binding text = .ok (binding', rest)) :
    rest.length < text.length := by
  unfold bindingMember at taken
  split at taken
  · cases taken
  · rename_i parsed
    split at taken
    · cases taken
    · split at taken
      · cases taken
      · cases taken
        exact length_parseString parsed

theorem parseBinding_ends (turns : ℕ) (binding : Binding) (text : Text)
    (enough : text.length < turns) :
    Ends (fun found => found.2.length ≤ text.length) (parseBinding turns binding text) := by
  unfold parseBinding
  apply ends_bind (P := fun rest => rest.length < text.length)
  · exact ends_give fun rest taken => length_consume taken
  intro rest short
  apply ends_bind (objectLoop_ends turns ?_ turns (Nat.le_refl _) true [] binding rest (by omega))
  · rintro ⟨found, seen, last⟩ shortFound
    apply ends_give
    intro result valid
    split at valid
    · cases valid
    · cases valid
      simp only at shortFound ⊢
      omega
  · intro seen key s text _
    exact ends_give fun found taken => Nat.le_of_lt (length_bindingMember taken)

theorem requestMember_ends (turns : ℕ) (seen : List Text) (key : Text) (request : Request)
    (text : Text) (enough : text.length < turns) :
    Ends (fun found => found.2.length ≤ text.length)
      (requestMember turns seen key request text) := by
  unfold requestMember
  split
  · exact ends_give nofun
  · split
    · apply ends_give
      intro found taken
      unfold numberMember at taken
      split at taken
      · cases taken
      · rename_i parsed
        cases taken
        exact Nat.le_of_lt (length_parseUnsignedInt parsed)
    · split
      · split
        · exact ends_give nofun
        · apply ends_bind (parseBinding_ends turns request.binding text enough)
          intro found short
          exact ends_pure short
      · apply ends_give
        intro found taken
        unfold textMember at taken
        split at taken
        · cases taken
        · rename_i parsed
          split at taken
          · cases taken
          · cases taken
            exact Nat.le_of_lt (length_parseString parsed)

/-- The turns given are never used up. -/
theorem parseObject_ends (source : Text) : ∃ parsed, (parseObject source).run = some parsed := by
  have ends : Ends (fun _ => True) (parseObject source) := by
    unfold parseObject turnsFor
    apply ends_bind (P := fun rest => rest.length < source.length)
    · exact ends_give fun rest taken => length_consume taken
    intro rest short
    apply ends_bind (objectLoop_ends (source.length + 1)
      (fun seen key s text => requestMember_ends _ seen key s text) _ (Nat.le_refl _) true [] {}
        rest
      (by omega))
    intro found _
    apply ends_bind (P := fun _ => True) (ends_give fun _ _ => trivial)
    intro _ _
    apply ends_bind (P := fun _ => True) (ends_give fun _ _ => trivial)
    intro _ _
    exact ends_pure trivial
  obtain ⟨parsed, run, -⟩ := ends
  exact ⟨parsed, run⟩

end Turns

end ArbNautilus.Mt5.Ea
