import ArbNautilus.Base.Lines
import Mathlib.Data.Int.Notation
import Mathlib.Data.Rat.Init

namespace ArbNautilus.Base

/-- A decoded string: a text, or the code points of one with a lone surrogate. -/
inductive PyStr
  | text (value : Text)
  | broken (codes : List ℕ)
deriving DecidableEq, Repr

def PyStr.isEmpty : PyStr → Bool
  | .text value => value.isEmpty
  | .broken codes => codes.isEmpty

/-- A decoded JSON value. `R` stands for the numbers with a fraction or an exponent. -/
inductive Json (R : Type)
  | null
  | bool (value : Bool)
  | int (value : ℤ)
  | real (value : R)
  | str (value : PyStr)
  | arr (items : List (Json R))
  | obj (members : List (PyStr × Json R))

namespace Json

/-- What `==` compares numbers by, `True` and `False` among them. -/
def number : Json ℚ → Option ℚ
  | .bool value => some (if value then 1 else 0)
  | .int value => some value
  | .real value => some value
  | .null | .str _ | .arr _ | .obj _ => none

def member? {R : Type} (key : PyStr) : List (PyStr × Json R) → Option (Json R)
  | [] => none
  | (k, value) :: members => if k = key then some value else member? key members

mutual

/-- `==` of decoded values. -/
def same : Json ℚ → Json ℚ → Bool
  | .null, b => match b with
    | .null => true
    | _ => false
  | .str a, b => match b with
    | .str b => a == b
    | _ => false
  | .arr a, b => match b with
    | .arr b => sameItems a b
    | _ => false
  | .obj a, b => match b with
    | .obj b => a.length == b.length && sameMembers a b
    | _ => false
  | .bool a, b => b.number == some (if a then 1 else 0)
  | .int a, b => b.number == some (a : ℚ)
  | .real a, b => b.number == some a

def sameItems : List (Json ℚ) → List (Json ℚ) → Bool
  | [], bs => bs.isEmpty
  | a :: as, bs => match bs with
    | [] => false
    | b :: bs => same a b && sameItems as bs

def sameMembers : List (PyStr × Json ℚ) → List (PyStr × Json ℚ) → Bool
  | [], _ => true
  | (key, a) :: as, bs => match member? key bs with
    | none => false
    | some b => same a b && sameMembers as bs

end

end Json

end ArbNautilus.Base
