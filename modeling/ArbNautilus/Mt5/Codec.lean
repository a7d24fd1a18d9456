import ArbNautilus.Base.Decimal
import ArbNautilus.Base.JsonText
import Mathlib.Data.Rat.Defs

namespace ArbNautilus.Mt5.Codec

open Base

inductive PyError
  | wireError (code message : String)
  | valueError (message : String)
  | typeError (message : String)
deriving DecidableEq, Repr

def PyError.isWire : PyError → Bool
  | .wireError _ _ => true
  | .valueError _ | .typeError _ => false

/-- The call returns or raises `WireError`. -/
def Total {α : Type} (x : Except PyError α) : Prop := ∀ e, x = .error e → e.isWire = true

def malformed (message : String) : PyError := .wireError "MALFORMED" message

def maxWireBytes : ℕ := 64 * 1024

def maxJsonDepth : ℕ := 32

def maxJsonIntDigits : ℕ := 20

def maxTextLength : ℕ := 256

def maxIdentifierLength : ℕ := 128

def maxEventsLimit : ℕ := 500

def uint64Max : ℕ := 2 ^ 64 - 1

section Json

/-- `_bounded_json_int`. -/
def boundedJsonInt (token : Text) : Except PyError ℤ :=
  let negative := token.head? = some '-'
  let digits := if negative then token.drop 1 else token
  if maxJsonIntDigits < digits.length then
    .error (malformed "JSON integer exceeds digit limit")
  else
    let number : ℤ := Nat.ofDigitChars 10 digits 0
    .ok (if negative then -number else number)

/-- `unique_members`. -/
def uniqueMembers {R : Type} (members : List (PyStr × Json R)) :
    Except PyError (List (PyStr × Json R)) :=
  if (members.map Prod.fst).Nodup then .ok members else .error (malformed "duplicate JSON member")

/-- The decimal number a text denotes, zero where it denotes none. -/
def decimalValue (text : Text) : ℚ :=
  match Decimal.parse text with
  | some (.finite number) => number.value
  | _ => 0

def hooks : JsonHooks PyError ℚ where
  malformed := malformed "malformed JSON"
  parseInt := boundedJsonInt
  parseFloat := decimalValue
  parseConstant _ := .error (malformed "non-finite JSON constant")
  pairs := uniqueMembers

/-- Whether a number does not round to an infinite double. -/
def isFiniteFloat (value : ℚ) : Bool := |value| < 2 ^ 1024 - 2 ^ 970

def isBroken : PyStr → Bool
  | .text _ => false
  | .broken _ => true

mutual

/-- `_validate_json_tree`, below this depth. -/
def validateTree (depth : ℕ) (value : Json ℚ) : Except PyError Unit := do
  raiseIf (maxJsonDepth < depth) (malformed "JSON nesting exceeds v1 limit")
  match value with
  | .obj members => do
    raiseIf (members.any fun member => isBroken member.1) (malformed "JSON contains a surrogate")
    validateMembers (depth + 1) members
  | .arr items => validateItems (depth + 1) items
  | .str text => raiseIf (isBroken text) (malformed "JSON contains a surrogate")
  | .real number => raiseIf (isFiniteFloat number = false) (malformed "JSON number is not finite")
  | .null | .bool _ | .int _ => pure ()

/-- The children pushed last are popped first. -/
def validateMembers (depth : ℕ) : List (PyStr × Json ℚ) → Except PyError Unit
  | [] => pure ()
  | member :: members => do
    validateMembers depth members
    validateTree depth member.2

def validateItems (depth : ℕ) : List (Json ℚ) → Except PyError Unit
  | [] => pure ()
  | item :: items => do
    validateItems depth items
    validateTree depth item

end

/-- What the transport hands over. -/
inductive Raw
  | text (value : PyStr)
  | bytes (value : ByteArray)

def utf8Length (text : Text) : ℕ := (text.map Char.utf8Size).sum

def Raw.decode : Raw → Except PyError Text
  | .bytes value =>
    if maxWireBytes < value.size then .error (malformed "wire payload exceeds 64 KiB")
    else match String.fromUTF8? value with
      | none => .error (malformed "wire payload is not UTF-8")
      | some decoded => .ok decoded.toList
  | .text (.broken _) => .error (malformed "wire payload contains a surrogate")
  | .text (.text value) =>
    if maxWireBytes < utf8Length value then .error (malformed "wire payload exceeds 64 KiB")
    else .ok value

/-- `decode_json_object`. -/
def decodeJsonObject (raw : Raw) : Except PyError (Json ℚ) := do
  let text ← raw.decode
  match ← hooks.loads text with
  | .obj members => do
    validateTree 0 (.obj members)
    pure (.obj members)
  | _ => .error (malformed "wire root must be an object")

end Json

section Values

def get (value : Json ℚ) (name : String) : Json ℚ :=
  match value with
  | .obj members => (Json.member? (.text name.toList) members).getD .null
  | _ => .null

def textOf : Json ℚ → Text
  | .str (.text value) => value
  | _ => []

def isStr : Json ℚ → Bool
  | .str _ => true
  | _ => false

def isText (value : Json ℚ) (text : Text) : Bool :=
  match value with
  | .str (.text value) => value = text
  | _ => false

def isWord (value : Json ℚ) (word : String) : Bool := isText value word.toList

def isNull : Json ℚ → Bool
  | .null => true
  | _ => false

def isBool (value : Json ℚ) (expected : Bool) : Bool :=
  match value with
  | .bool value => value = expected
  | _ => false

def itemsOf : Json ℚ → List (Json ℚ)
  | .arr items => items
  | _ => []

def isArray : Json ℚ → Bool
  | .arr _ => true
  | _ => false

/-- An array or an object, which no set can look up. -/
def isContainer : Json ℚ → Bool
  | .arr _ | .obj _ => true
  | _ => false

def hasKeys (value : Json ℚ) (keys : List String) : Bool :=
  match value with
  | .obj members =>
    members.all (fun member => keys.any fun key => member.1 = .text key.toList) &&
      keys.all fun key => members.any fun member => member.1 = .text key.toList
  | _ => false

def isObject : Json ℚ → Bool
  | .obj _ => true
  | _ => false

def hasKey (value : Json ℚ) (key : String) : Bool :=
  match value with
  | .obj members => members.any fun member => member.1 = .text key.toList
  | _ => false

/-- `0|[1-9][0-9]*`. -/
def isUint (text : Text) : Bool :=
  match text with
  | [] => false
  | c :: rest => c.isDigit && rest.all Char.isDigit && (c ≠ '0' || rest.isEmpty)

/-- `-?(?:0|[1-9][0-9]*)(?:\.[0-9]+)?`. -/
def isDecimal (text : Text) : Bool :=
  let body := if text.head? = some '-' then text.drop 1 else text
  let whole := body.takeWhile Char.isDigit
  let rest := body.dropWhile Char.isDigit
  isUint whole && (rest.isEmpty ||
    rest.head? = some '.' && !(rest.drop 1).isEmpty && (rest.drop 1).all Char.isDigit)

/-- `[!-~]+`. -/
def isVisible (text : Text) : Bool := !text.isEmpty && text.all fun c => '!' ≤ c ∧ c ≤ '~'

/-- `[A-Za-z0-9_-]+`. -/
def isSafeToken (text : Text) : Bool :=
  !text.isEmpty && text.all fun c => c.isAlphanum ∨ c = '_' ∨ c = '-'

/-- The Unicode category `Cc`. -/
def isControl (c : Char) : Bool := c.toNat < 32 ∨ 127 ≤ c.toNat ∧ c.toNat < 160

end Values

section Checks

/-- One step of a validator: a condition of its own, the conversion of a decimal
integer, or a look into a set of words. -/
inductive Check
  | require (holds : Bool) (code message : String)
  | uint64 (value : Json ℚ) (label : String) (positive : Bool)
  | oneOf (value : Json ℚ) (words : List String) (message : String)

def mismatch (message : String) : PyError := .wireError "SCHEMA_MISMATCH" message

/-- `int(text)` of decimal digits. -/
def pyInt (digits : Text) : Except PyError ℕ :=
  if 4300 < digits.length then
    .error (.valueError "Exceeds the limit for integer string conversion")
  else .ok (Nat.ofDigitChars 10 digits 0)

/-- `value in {...}` for a set of words. -/
def inSet (value : Json ℚ) (words : List String) : Except PyError Bool :=
  if isContainer value then .error (.typeError "unhashable type")
  else .ok (words.any (isWord value))

/-- `uint64_string`. -/
def uint64String (value : Json ℚ) (label : String) (positive : Bool) : Except PyError Unit :=
  if isUint (textOf value) then do
    let parsed ← pyInt (textOf value)
    raiseIf (uint64Max < parsed ∨ positive ∧ parsed = 0)
      (mismatch (label ++ " is outside uint64 range"))
  else .error (mismatch (label ++ " must be a canonical uint64 string"))

def Check.run : Check → Except PyError Unit
  | .require holds code message => raiseIf (holds = false) (.wireError code message)
  | .uint64 value label positive => uint64String value label positive
  | .oneOf value words message => do
    let found ← inSet value words
    raiseIf (found = false) (mismatch message)

/-- The checks up to the first that raises. -/
def runAll : List Check → Except PyError Unit
  | [] => .ok ()
  | check :: checks => check.run >>= fun _ => runAll checks

def require (holds : Bool) (message : String) : List Check :=
  [.require holds "SCHEMA_MISMATCH" message]

/-- `validated_text`. -/
def validatedText (value : Json ℚ) (label : String) (maxLength : ℕ) : List Check :=
  let text := textOf value
  require (isStr value) (label ++ " must be a string") ++
  require (!text.isEmpty && strip text = text && text.length ≤ maxLength)
    (label ++ " is empty, untrimmed, or too long") ++
  require (text.all fun c => !isControl c) (label ++ " contains forbidden text")

/-- `validated_optional_text`. -/
def validatedOptionalText (value : Json ℚ) (label : String) (maxLength : ℕ) : List Check :=
  if isText value [] then [] else validatedText value label maxLength

/-- `validated_bool`. -/
def validatedBool (value : Json ℚ) (label : String) : List Check :=
  require (isBool value true || isBool value false) (label ++ " must be a JSON bool")

/-- `validated_identifier`. -/
def validatedIdentifier (value : Json ℚ) (label : String) (maxLength : ℕ) : List Check :=
  validatedText value label maxLength ++
  require (isVisible (textOf value)) (label ++ " must be visible ASCII")

/-- `validated_safe_token`. -/
def validatedSafeToken (value : Json ℚ) (label : String) : List Check :=
  validatedIdentifier value label maxIdentifierLength ++
  require (isSafeToken (textOf value)) (label ++ " must use safe token characters")

/-- `decimal_string`. -/
def decimalString (value : Json ℚ) (label : String) (positive : Bool) : List Check :=
  let text := textOf value
  require (isStr value && text.length ≤ 64 && isDecimal text)
    (label ++ " must be a non-exponent decimal string") ++
  require (Decimal.parse text).isSome (label ++ " is not finite decimal") ++
  require (!positive || 0 < decimalValue text) (label ++ " must be positive finite decimal")

/-- `exact_int`. -/
def exactInt (value : Json ℚ) (label : String) (minimum maximum : ℤ) : List Check :=
  require (match value with
    | .int value => minimum ≤ value ∧ value ≤ maximum
    | _ => false) (label ++ " must be an exact bounded JSON int")

/-- `closed_object`. -/
def closedObject (value : Json ℚ) (label : String) (keys : List String) : List Check :=
  require (isObject value) (label ++ " must be an object") ++
  require (hasKeys value keys) (label ++ " keys differ")

end Checks

section Totality

/-- A check that raises something else than `WireError` on its value. -/
def Check.Hazard : Check → Prop
  | .require _ _ _ => False
  | .uint64 value _ _ => isUint (textOf value) = true ∧ 4300 < (textOf value).length
  | .oneOf value _ _ => isContainer value = true

def Check.passes (check : Check) : Prop := check.run = .ok ()

/-- No check that comes after checks that all pass is a hazard. -/
def Clean (checks : List Check) : Prop :=
  ∀ before check after, checks = before ++ check :: after → (∀ c ∈ before, c.passes) → ¬check.Hazard

theorem total_bind {α β : Type} {x : Except PyError α} {f : α → Except PyError β} :
    Total (x >>= f) ↔ Total x ∧ ∀ a, x = .ok a → Total (f a) := by
  cases x with
  | error e => simp [Total, bind, Except.bind]
  | ok a => simp [Total, bind, Except.bind]

theorem total_ok {α : Type} (a : α) : Total (.ok a : Except PyError α) := nofun

theorem total_wire {α : Type} (code message : String) :
    Total (.error (.wireError code message) : Except PyError α) := by
  rintro e ⟨⟩
  rfl

theorem total_raiseIf {p : Prop} [Decidable p] (code message : String) :
    Total (raiseIf p (.wireError code message)) := by
  unfold raiseIf
  split
  · exact total_wire code message
  · exact total_ok ()

theorem run_total (check : Check) : Total check.run ↔ ¬check.Hazard := by
  cases check with
  | require holds code message => simp [Check.run, Check.Hazard, total_raiseIf]
  | uint64 value label positive =>
    simp only [Check.run, uint64String, Check.Hazard, pyInt, not_and, Nat.not_lt]
    split
    · rename_i digits
      rw [total_bind]
      by_cases long : 4300 < (textOf value).length
      · simp [long, digits, Total, PyError.isWire]
      · simp [long, digits, Nat.not_lt.1 long, total_ok, mismatch, total_raiseIf]
    · rename_i other
      simp [other, mismatch, total_wire]
  | oneOf value words message =>
    simp only [Check.run, inSet, Check.Hazard, total_bind]
    by_cases container : isContainer value = true
    · simp [container, Total, PyError.isWire]
    · simp [container, total_ok, mismatch, total_raiseIf]

theorem clean_cons (check : Check) (checks : List Check) :
    Clean (check :: checks) ↔ ¬check.Hazard ∧ (check.passes → Clean checks) := by
  constructor
  · intro clean
    refine ⟨clean [] check checks rfl (by simp), fun passes before c after same all => ?_⟩
    refine clean (check :: before) c after (by rw [same]; rfl) ?_
    rintro d (_ | ⟨_, member⟩)
    · exact passes
    · exact all d member
  · rintro ⟨first, rest⟩ before c after same all
    cases before with
    | nil =>
      cases same
      exact first
    | cons d before =>
      cases same
      exact rest (all check (by simp)) before c after rfl fun e member => all e (by simp [member])

/-- Checks in a row are total exactly where no hazard is reached. -/
theorem runAll_total (checks : List Check) : Total (runAll checks) ↔ Clean checks := by
  induction checks with
  | nil => exact ⟨fun _ before _ _ same => by simp at same, fun _ => total_ok ()⟩
  | cons check checks ih =>
    rw [runAll, total_bind, clean_cons, run_total, ih]
    exact ⟨fun ⟨first, rest⟩ => ⟨first, fun passes => rest () passes⟩,
      fun ⟨first, rest⟩ => ⟨first, fun _ passes => rest passes⟩⟩

end Totality

end ArbNautilus.Mt5.Codec
