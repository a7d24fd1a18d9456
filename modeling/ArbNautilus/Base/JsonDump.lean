import ArbNautilus.Base.JsonText
import Mathlib.Data.List.Lex
import Mathlib.Data.List.Sort

namespace ArbNautilus.Base

section Escapes

/-- A hexadecimal digit. -/
def hexDigit (n : ℕ) : Char := if n < 10 then Char.ofNat (48 + n) else Char.ofNat (87 + n)

def escapeChar (c : Char) : Text :=
  if c = '\x22' ∨ c = '\x5c' then ['\x5c', c]
  else if c = '\n' then ['\x5c', 'n']
  else if c = '\r' then ['\x5c', 'r']
  else if c = '\t' then ['\x5c', 't']
  else if c.toNat = 8 then ['\x5c', 'b']
  else if c.toNat = 12 then ['\x5c', 'f']
  else if c.toNat < 32 then
    ['\x5c', 'u', '0', '0', hexDigit (c.toNat / 16), hexDigit (c.toNat % 16)]
  else [c]

def quoted (text : Text) : Text := '\x22' :: (text.flatMap escapeChar ++ ['\x22'])

end Escapes

section Dumps

variable {R : Type}

def intText (value : ℤ) : Text :=
  if value < 0 then '-' :: Nat.toDigits 10 value.natAbs else Nat.toDigits 10 value.natAbs

/-- The code points two keys are ordered by. -/
def PyStr.codes : PyStr → List ℕ
  | .text value => value.map Char.toNat
  | .broken codes => codes

def sortKeys (members : List (PyStr × Json R)) : List (PyStr × Json R) :=
  members.insertionSort fun a b => a.1.codes ≤ b.1.codes

def quotedStr : PyStr → Option Text
  | .text value => some (quoted value)
  | .broken _ => none

def commaSeparated (pieces : List Text) : Text := [','].intercalate pieces

variable (real : R → Text)

mutual

/-- `json.dumps` without spaces and without escapes for what is not ASCII, for its UTF-8
encoding; a lone surrogate has none. -/
def dumpValue : Json R → Option Text
  | .null => some "null".toList
  | .bool value => some (if value then "true".toList else "false".toList)
  | .int value => some (intText value)
  | .real value => some (real value)
  | .str value => quotedStr value
  | .arr items => (dumpItems items).map fun pieces => '[' :: (commaSeparated pieces ++ [']'])
  | .obj members =>
    (dumpMembers members).map fun pieces => '\x7b' :: (commaSeparated pieces ++ ['\x7d'])

def dumpItems : List (Json R) → Option (List Text)
  | [] => some []
  | item :: items => do
    let piece ← dumpValue item
    let pieces ← dumpItems items
    pure (piece :: pieces)

def dumpMembers : List (PyStr × Json R) → Option (List Text)
  | [] => some []
  | (key, value) :: members => do
    let key ← quotedStr key
    let piece ← dumpValue value
    let pieces ← dumpMembers members
    pure ((key ++ ':' :: piece) :: pieces)

end

mutual

/-- The value with the members of every object in the order of their keys. -/
def sorted : Json R → Json R
  | .arr items => .arr (sortedItems items)
  | .obj members => .obj (sortKeys (sortedMembers members))
  | .null => .null
  | .bool value => .bool value
  | .int value => .int value
  | .real value => .real value
  | .str value => .str value

def sortedItems : List (Json R) → List (Json R)
  | [] => []
  | item :: items => sorted item :: sortedItems items

def sortedMembers : List (PyStr × Json R) → List (PyStr × Json R)
  | [] => []
  | (key, value) :: members => (key, sorted value) :: sortedMembers members

end

/-- `json.dumps` with `sort_keys`. -/
def dumps (value : Json R) : Option Text := dumpValue real (sorted value)

end Dumps

end ArbNautilus.Base
