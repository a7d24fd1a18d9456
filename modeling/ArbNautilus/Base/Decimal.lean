import ArbNautilus.Base.Lines
import Mathlib.Algebra.Field.Rat
import Mathlib.Data.Rat.Defs
import Mathlib.Tactic.FieldSimp
import Mathlib.Tactic.Ring

namespace ArbNautilus.Base

section Characters

/-- The zeros of the decimal digits; each is followed by its nine others. -/
def digitZeros : List ℕ :=
  [48, 1632, 1776, 1984, 2406, 2534, 2662, 2790, 2918, 3046, 3174, 3302, 3430, 3558, 3664, 3792,
    3872, 4160, 4240, 6112, 6160, 6470, 6608, 6784, 6800, 6992, 7088, 7232, 7248, 42528, 43216,
    43264, 43472, 43504, 43600, 44016, 65296, 66720, 68912, 69734, 69872, 69942, 70096, 70384,
    70736, 70864, 71248, 71360, 71472, 71904, 72016, 72784, 73040, 73120, 73552, 92768, 92864,
    93008, 120782, 120792, 120802, 120812, 120822, 123200, 123632, 124144, 125264, 130032]

def digitOf (c : Char) : Option ℕ :=
  (digitZeros.find? fun first => first ≤ c.toNat ∧ c.toNat < first + 10).map (c.toNat - ·)

/-- `str.isspace`. -/
def isSpace (c : Char) : Bool :=
  let code := c.toNat
  9 ≤ code ∧ code ≤ 13 ∨ 28 ≤ code ∧ code ≤ 32 ∨ 8192 ≤ code ∧ code ≤ 8202 ∨
    code ∈ [133, 160, 5760, 8232, 8233, 8239, 8287, 12288]

/-- `str.strip`. -/
def strip (text : Text) : Text :=
  ((text.dropWhile isSpace).reverse.dropWhile isSpace).reverse

def lower (c : Char) : Char := if 'A' ≤ c ∧ c ≤ 'Z' then Char.ofNat (c.toNat + 32) else c

end Characters

/-- A finite `Decimal`, as written. -/
structure Decimal where
  negative : Bool
  coefficient : ℕ
  exponent : ℤ
deriving DecidableEq, Repr

/-- What the text of a `Decimal` denotes. -/
inductive Numeral
  | finite (number : Decimal)
  | special
deriving DecidableEq, Repr

namespace Decimal

def magnitude (coefficient : ℕ) : ℤ → ℚ
  | .ofNat places => (coefficient * 10 ^ places : ℕ)
  | .negSucc places => (coefficient : ℚ) / (10 ^ (places + 1) : ℕ)

/-- What `==` and the order compare decimals by. -/
def value (d : Decimal) : ℚ :=
  if d.negative then -magnitude d.coefficient d.exponent else magnitude d.coefficient d.exponent

section Format

/-- Enough zeros in front for one digit before the point. -/
def padded (places : ℕ) (digits : Text) : Text :=
  List.replicate (places + 1 - digits.length) '0' ++ digits

/-- `format(value, "f")`. -/
def format (d : Decimal) : Text :=
  let digits := Nat.toDigits 10 d.coefficient
  let body := match d.exponent with
    | .ofNat places => if d.coefficient = 0 then ['0'] else digits ++ List.replicate places '0'
    | .negSucc places =>
      let digits := padded (places + 1) digits
      let whole := digits.length - (places + 1)
      digits.take whole ++ '.' :: digits.drop whole
  if d.negative then '-' :: body else body

end Format

section Parse

/-- The leading digits and what follows them. -/
def takeDigits : Text → List ℕ × Text
  | [] => ([], [])
  | c :: text => match digitOf c with
    | none => ([], c :: text)
    | some digit => (digit :: (takeDigits text).1, (takeDigits text).2)

def ofDigits (digits : List ℕ) : ℕ := digits.foldl (fun number digit => 10 * number + digit) 0

def takeSign : Text → Bool × Text
  | '-' :: text => (true, text)
  | '+' :: text => (false, text)
  | text => (false, text)

def parseExponent : Text → Option ℤ
  | [] => some 0
  | c :: text =>
    if lower c = 'e' then
      let (negative, text) := takeSign text
      match takeDigits text with
      | ([], _) | (_, _ :: _) => none
      | (digits, []) => some (if negative then -(ofDigits digits : ℤ) else ofDigits digits)
    else none

def takeFraction : Text → List ℕ × Text
  | '.' :: text => takeDigits text
  | text => ([], text)

def parseUnsigned (text : Text) : Option (ℕ × ℤ) :=
  let (whole, text) := takeDigits text
  let (fraction, text) := takeFraction text
  if whole = [] ∧ fraction = [] then none
  else (parseExponent text).map fun exponent =>
    (ofDigits (whole ++ fraction), exponent - fraction.length)

/-- Infinities and NaNs. -/
def isSpecial (text : Text) : Bool :=
  let text := text.map lower
  let payload := if text.head? = some 's' then text.drop 4 else text.drop 3
  text = "inf".toList ∨ text = "infinity".toList ∨
    ("nan".toList.isPrefixOf text ∨ "snan".toList.isPrefixOf text) ∧ (takeDigits payload).2 = []

/-- `Decimal(text)`; nothing where it raises `InvalidOperation`. -/
def parse (text : Text) : Option Numeral :=
  let (negative, body) := takeSign ((strip text).filter (· ≠ '_'))
  if isSpecial body then some .special
  else (parseUnsigned body).map fun (coefficient, exponent) =>
    .finite ⟨negative, coefficient, exponent⟩

end Parse

section RoundTrip

variable {digits text : Text}

/-- Only digits, one of them first. -/
structure Digits (text : Text) : Prop where
  digits : ∀ c ∈ text, c.isDigit = true
  some : text ≠ []

theorem digitOf_isDigit {c : Char} (h : c.isDigit = true) : digitOf c = some (c.toNat - 48) := by
  have range : 48 ≤ c.toNat ∧ c.toNat < 58 := by
    simp only [Char.isDigit, Bool.and_eq_true, decide_eq_true_eq, UInt32.le_iff_toNat_le] at h
    exact ⟨h.1, Nat.lt_succ_of_le h.2⟩
  unfold digitOf
  rw [digitZeros, List.find?_cons_of_pos (by simpa using range)]
  rfl

theorem takeDigits_append (all : ∀ c ∈ digits, c.isDigit = true)
    (stop : ∀ c, text.head? = some c → digitOf c = none) :
    takeDigits (digits ++ text) = (digits.map fun c => c.toNat - 48, text) := by
  induction digits with
  | nil =>
    cases text with
    | nil => rfl
    | cons c text => simp [takeDigits, stop c rfl]
  | cons c digits ih =>
    simp [takeDigits, digitOf_isDigit (all c (by simp)),
      ih fun d member => all d (by simp [member])]

theorem ofDigits_map (digits : Text) :
    ofDigits (digits.map fun c => c.toNat - 48) = Nat.ofDigitChars 10 digits 0 := by
  rw [Nat.ofDigitChars_eq_foldl, ofDigits, List.foldl_map]
  rfl

theorem isDigit_toDigits (number : ℕ) : ∀ c ∈ Nat.toDigits 10 number, c.isDigit = true :=
  fun _ => Nat.isDigit_of_mem_toDigits (by decide) (by decide)

theorem isDigit_replicate (count : ℕ) : ∀ c ∈ List.replicate count '0', c.isDigit = true := by
  intro c member
  rw [List.eq_of_mem_replicate member]
  decide

theorem isDigit_append {a b : Text} (first : ∀ c ∈ a, c.isDigit = true)
    (second : ∀ c ∈ b, c.isDigit = true) : ∀ c ∈ a ++ b, c.isDigit = true := by
  intro c member
  rcases List.mem_append.1 member with inside | inside
  · exact first c inside
  · exact second c inside

theorem isDigit_padded (places number : ℕ) :
    ∀ c ∈ padded places (Nat.toDigits 10 number), c.isDigit = true :=
  isDigit_append (isDigit_replicate _) (isDigit_toDigits number)

theorem length_padded (places : ℕ) (digits : Text) : places < (padded places digits).length := by
  unfold padded
  rw [List.length_append, List.length_replicate]
  omega

theorem ofDigitChars_padded (places number : ℕ) :
    Nat.ofDigitChars 10 (padded places (Nat.toDigits 10 number)) 0 = number := by
  rw [padded, Nat.ofDigitChars_append, Nat.ofDigitChars_replicate_zero, Nat.mul_zero,
    Nat.ofDigitChars_ten_toDigits]

/-- A character that a decimal number is written with. -/
def Plain (c : Char) : Prop := c.isDigit = true ∨ c = '.' ∨ c = '-'

theorem Plain.not_space {c : Char} (h : Plain c) : isSpace c = false ∧ c ≠ '_' := by
  rcases h with digit | rfl | rfl
  · have range : 48 ≤ c.toNat ∧ c.toNat < 58 := by
      simp only [Char.isDigit, Bool.and_eq_true, decide_eq_true_eq, UInt32.le_iff_toNat_le] at digit
      exact ⟨digit.1, Nat.lt_succ_of_le digit.2⟩
    constructor
    · simp only [isSpace, decide_eq_false_iff_not, List.mem_cons, List.not_mem_nil, or_false]
      omega
    · rintro rfl
      exact absurd digit (by decide)
  · decide
  · decide

theorem dropWhile_space (plain : ∀ c ∈ text, Plain c) : text.dropWhile isSpace = text := by
  cases text with
  | nil => rfl
  | cons c text => rw [List.dropWhile_cons_of_neg (by simp [(plain c (by simp)).not_space.1])]

theorem strip_plain (plain : ∀ c ∈ text, Plain c) : (strip text).filter (· ≠ '_') = text := by
  have reversed : ∀ c ∈ text.reverse, Plain c := fun c member => plain c (List.mem_reverse.1 member)
  rw [strip, dropWhile_space plain, dropWhile_space reversed, List.reverse_reverse,
    List.filter_eq_self]
  intro c member
  simpa using (plain c member).not_space.2

/-- The number as its text without an exponent has it. -/
def settled (d : Decimal) : Decimal :=
  match d.exponent with
  | .ofNat places => ⟨d.negative, d.coefficient * 10 ^ places, 0⟩
  | .negSucc _ => d

theorem value_settled (d : Decimal) : d.settled.value = d.value := by
  obtain ⟨negative, coefficient, exponent⟩ := d
  cases exponent with
  | ofNat places => simp [settled, value, magnitude]
  | negSucc places => rfl

theorem parseUnsigned_whole (all : ∀ c ∈ digits, c.isDigit = true) (some : digits ≠ []) :
    parseUnsigned digits = .some (Nat.ofDigitChars 10 digits 0, 0) := by
  have taken : takeDigits (digits ++ []) = _ := takeDigits_append all nofun
  rw [List.append_nil] at taken
  simp [parseUnsigned, taken, takeFraction, some, parseExponent, ofDigits_map]

theorem parseUnsigned_fraction {fraction : Text} (all : ∀ c ∈ digits, c.isDigit = true)
    (some : digits ≠ []) (rest : ∀ c ∈ fraction, c.isDigit = true) :
    parseUnsigned (digits ++ '.' :: fraction) =
      .some (Nat.ofDigitChars 10 (digits ++ fraction) 0, -fraction.length) := by
  have taken : takeDigits (digits ++ '.' :: fraction) = _ :=
    takeDigits_append all (by rintro c ⟨⟩; decide)
  have more : takeDigits (fraction ++ []) = _ := takeDigits_append rest nofun
  rw [List.append_nil] at more
  simp only [parseUnsigned, taken, takeFraction, more, List.map_eq_nil_iff, some, false_and,
    if_false,
    ← List.map_append, ofDigits_map, List.length_map, parseExponent, Option.map_some, zero_sub]

/-- The text of a number starts with a digit, so it is no special one. -/
theorem parse_body (d : Decimal) {body : Text} {number : ℕ × ℤ}
    (starts : ∃ c rest, body = c :: rest ∧ c.isDigit = true) (plain : ∀ c ∈ body, Plain c)
    (read : parseUnsigned body = some number) :
    parse (if d.negative then '-' :: body else body) =
      some (.finite ⟨d.negative, number.1, number.2⟩) := by
  obtain ⟨c, rest, rfl, digit⟩ := starts
  have signed : takeSign (c :: rest) = (false, c :: rest) := by
    unfold takeSign
    split <;> rename_i same <;> first | rfl | (cases same; exact absurd digit (by decide))
  have regular : isSpecial (c :: rest) = false := by
    have apart : ∀ other : Char, other.isDigit = false → lower c ≠ other := by
      intro other letter same
      have kept : lower c = c := by
        unfold lower
        rw [if_neg]
        rintro ⟨low, -⟩
        simp only [Char.isDigit, Bool.and_eq_true, decide_eq_true_eq] at digit
        exact absurd (UInt32.le_trans (Char.le_def.1 low) digit.2) (by decide)
      rw [← same, kept, digit] at letter
      cases letter
    have letters := And.intro (apart 'i' rfl) (And.intro (apart 'n' rfl) (apart 's' rfl))
    simp [isSpecial, letters.1, letters.2.2, Ne.symm letters.2.1, Ne.symm letters.2.2]
  cases sign : d.negative with
  | true =>
    have plain' : ∀ c' ∈ '-' :: c :: rest, Plain c' := by
      rintro c' (_ | ⟨_, member⟩)
      · exact .inr (.inr rfl)
      · exact plain c' member
    rw [if_pos rfl, parse, strip_plain plain']
    simp [takeSign, regular, read]
  | false =>
    rw [if_neg (by decide), parse, strip_plain plain, signed]
    simp [regular, read]

/-- Reading a formatted number gives it back, its exponent settled. -/
theorem parse_format (d : Decimal) : parse d.format = some (.finite d.settled) := by
  have plain {text : Text} (all : ∀ c ∈ text, c.isDigit = true) : ∀ c ∈ text, Plain c :=
    fun c member => .inl (all c member)
  have starts {text : Text} (all : ∀ c ∈ text, c.isDigit = true) (some : text ≠ []) (more : Text) :
      ∃ c rest, text ++ more = c :: rest ∧ c.isDigit = true := by
    cases text with
    | nil => exact absurd rfl some
    | cons c text => exact ⟨c, _, rfl, all c (by simp)⟩
  obtain ⟨negative, coefficient, exponent⟩ := d
  cases exponent with
  | ofNat places =>
    by_cases none : coefficient = 0
    · subst none
      have all : ∀ c ∈ ['0'], c.isDigit = true := isDigit_replicate 1
      have read : parseUnsigned ['0'] = some (0, 0) := by decide
      simpa [format, settled] using parse_body ⟨negative, 0, places⟩ (starts all (by simp) [])
        (plain all) read
    · have all := isDigit_append (isDigit_toDigits coefficient) (isDigit_replicate places)
      have some : Nat.toDigits 10 coefficient ++ List.replicate places '0' ≠ [] := by
        simp [Nat.toDigits_ne_nil]
      have read := parseUnsigned_whole all some
      rw [Nat.ofDigitChars_append, Nat.ofDigitChars_ten_toDigits, Nat.ofDigitChars_replicate_zero,
        Nat.mul_comm] at read
      have first := starts all some []
      rw [List.append_nil] at first
      simpa [format, none, settled] using
        parse_body ⟨negative, coefficient, places⟩ first (plain all) read
  | negSucc places =>
    have all := isDigit_padded (places + 1) coefficient
    have long := length_padded (places + 1) (Nat.toDigits 10 coefficient)
    have value := ofDigitChars_padded (places + 1) coefficient
    generalize within : padded (places + 1) (Nat.toDigits 10 coefficient) = digits at all long value
    have front : ∀ c ∈ digits.take (digits.length - (places + 1)), c.isDigit = true :=
      fun c member => all c (List.mem_of_mem_take member)
    have back : ∀ c ∈ digits.drop (digits.length - (places + 1)), c.isDigit = true :=
      fun c member => all c (List.mem_of_mem_drop member)
    have some : digits.take (digits.length - (places + 1)) ≠ [] := by
      intro none
      have length := congrArg List.length none
      rw [List.length_take, List.length_nil] at length
      omega
    have read := parseUnsigned_fraction front some back
    rw [List.take_append_drop, value, List.length_drop,
      show digits.length - (digits.length - (places + 1)) = places + 1 by omega] at read
    have written : ∀ c ∈ digits.take (digits.length - (places + 1)) ++
        '.' :: digits.drop (digits.length - (places + 1)), Plain c := by
      intro c member
      rcases List.mem_append.1 member with inside | inside
      · exact plain front c inside
      · rcases List.mem_cons.1 inside with rfl | inside
        · exact .inr (.inl rfl)
        · exact plain back c inside
    have parsed := parse_body ⟨negative, coefficient, .negSucc places⟩ (starts front some _) written
      read
    rw [format]
    simp only [within]
    rw [parsed, settled]
    rfl

end RoundTrip

end Decimal

end ArbNautilus.Base
