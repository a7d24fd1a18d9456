import ArbNautilus.Base.Lines
import Mathlib.Data.Option.Basic

namespace ArbNautilus.Journal

open Base

/-- The longest identifier the wire carries. -/
def maxIdentifier : ℕ := 128

def visibleIdentifier (value : Text) (maximum : ℕ) : Bool :=
  1 ≤ value.length && value.length ≤ maximum && value.all fun code => '!' ≤ code && code ≤ '~'

def tokenCode (code : Char) : Bool :=
  ('a' ≤ code && code ≤ 'z') || ('A' ≤ code && code ≤ 'Z') || ('0' ≤ code && code ≤ '9') ||
    code == '-' || code == '_'

def safeToken (value : Text) : Bool :=
  visibleIdentifier value maxIdentifier && value.all tokenCode

def digitCode (code : Char) : Bool := '0' ≤ code && code ≤ '9'

def maxUint64 : Text := "18446744073709551615".toList

def canonicalUint64 (value : Text) (positive : Bool) : Bool :=
  1 ≤ value.length && value.length ≤ 20 && !(1 < value.length && value.head? == some '0') &&
    value.all digitCode && !(positive && value == ['0']) &&
    !(value.length == 20 && decide (maxUint64 < value))

/-- What the decimal loops have seen so far. -/
structure DecimalScan where
  decimalSeen : Bool
  nonzeroSeen : Bool
  decimalDigits : ℕ

/-- One turn of a decimal loop, over the characters from `first` to `last`. -/
def decimalTurn (first last : ℕ) (scan : DecimalScan) (turn : Char × ℕ) : Option DecimalScan :=
  let (code, index) := turn
  if code = '.' then
    if scan.decimalSeen ∨ index = first ∨ index = last then none
    else some { scan with decimalSeen := true }
  else if code < '0' ∨ '9' < code then none
  else some {
    scan with
    nonzeroSeen := scan.nonzeroSeen || code != '0'
    decimalDigits := if scan.decimalSeen then scan.decimalDigits + 1 else scan.decimalDigits }

def scanDecimal (value : Text) (offset : ℕ) : Option DecimalScan :=
  (value.zipIdx.drop offset).foldlM (decimalTurn offset (value.length - 1)) ⟨false, false, 0⟩

/-- A zero that leads another digit. -/
def leadingZero (value : Text) (offset : ℕ) : Bool :=
  1 < value.length - offset && value[offset]? == some '0' && value[offset + 1]? != some '.'

def positiveDecimal (value : Text) : Bool :=
  1 ≤ value.length && value.length ≤ 64 && !leadingZero value 0 &&
    match scanDecimal value 0 with
    | none => false
    | some scan => scan.nonzeroSeen && (!scan.decimalSeen || 0 < scan.decimalDigits)

def signedDecimal (value : Text) : Bool :=
  let offset := if value.head? = some '-' then 1 else 0
  1 ≤ value.length && value.length ≤ 64 && offset != value.length && !leadingZero value offset &&
    match scanDecimal value offset with
    | none => false
    | some scan => !scan.decimalSeen || 0 < scan.decimalDigits

/-- The next cursor's digits and whether they carry. -/
def incrementDigits : Text → Text × Bool
  | [] => ([], true)
  | code :: rest =>
    match incrementDigits rest with
    | (digits, false) => (code :: digits, false)
    | (digits, true) =>
      let digit := code.toNat - '0'.toNat + 1
      (Char.ofNat ('0'.toNat + digit % 10) :: digits, digit / 10 == 1)

def carried (value : Text) : Text :=
  match incrementDigits value with
  | (digits, true) => '1' :: digits
  | (digits, false) => digits

/-- The next cursor, or nothing past the largest one. -/
def increment (value : Text) : Text :=
  if canonicalUint64 (carried value) true then carried value else []

/-- The text has neither a field separator nor a line end in it. -/
def Clean (value : Text) : Prop := '|' ∉ value ∧ OneLine value

instance (value : Text) : Decidable (Clean value) := inferInstanceAs (Decidable (_ ∧ _))

theorem clean_of_all {value : Text} (accepts : Char → Bool) (bar : accepts '|' = false)
    (cr : accepts '\r' = false) (lf : accepts '\n' = false) (all : value.all accepts = true) :
    Clean value := by
  rw [List.all_eq_true] at all
  refine ⟨fun inside => ?_, fun inside => ?_, fun inside => ?_⟩
  · simpa [bar] using all _ inside
  · simpa [cr] using all _ inside
  · simpa [lf] using all _ inside

theorem clean_of_safeToken {value : Text} (safe : safeToken value = true) : Clean value := by
  simp only [safeToken, Bool.and_eq_true] at safe
  exact clean_of_all tokenCode (by decide) (by decide) (by decide) safe.2

theorem clean_of_canonicalUint64 {value : Text} {positive : Bool}
    (canonical : canonicalUint64 value positive = true) : Clean value := by
  simp only [canonicalUint64, Bool.and_eq_true] at canonical
  exact clean_of_all digitCode (by decide) (by decide) (by decide) canonical.1.1.2

theorem ne_nil_of_canonicalUint64 {value : Text} {positive : Bool}
    (canonical : canonicalUint64 value positive = true) : value ≠ [] := by
  rintro rfl
  simp [canonicalUint64] at canonical

/-- The characters of a scanned decimal. -/
def decimalCode (code : Char) : Bool := digitCode code || code == '.'

theorem decimalTurn_code {first last : ℕ} {scan next : DecimalScan} {turn : Char × ℕ}
    (turned : decimalTurn first last scan turn = some next) : decimalCode turn.1 = true := by
  simp only [decimalTurn] at turned
  by_cases dot : turn.1 = '.'
  · simp [decimalCode, dot]
  · rw [if_neg dot] at turned
    by_cases outside : turn.1 < '0' ∨ '9' < turn.1
    · simp [outside] at turned
    · simp only [not_or, Char.not_lt] at outside
      simp [decimalCode, digitCode, outside]

theorem scanned_codes {first last : ℕ} {turns : List (Char × ℕ)} {scan next : DecimalScan}
    (scanned : turns.foldlM (decimalTurn first last) scan = some next) :
    ∀ turn ∈ turns, decimalCode turn.1 = true := by
  induction turns generalizing scan with
  | nil => simp
  | cons turn rest ih =>
    simp only [List.foldlM_cons, Option.bind_eq_bind, Option.bind_eq_some_iff] at scanned
    obtain ⟨middle, turned, scanned⟩ := scanned
    intro other member
    rcases List.mem_cons.1 member with rfl | later
    · exact decimalTurn_code turned
    · exact ih scanned other later

theorem scanDecimal_codes {value : Text} {offset : ℕ} {scan : DecimalScan}
    (scanned : scanDecimal value offset = some scan) :
    (value.drop offset).all decimalCode = true := by
  rw [List.all_eq_true]
  intro code member
  have names : value.drop offset = (value.zipIdx.drop offset).map Prod.fst := by
    rw [List.map_drop, List.zipIdx_map_fst]
  rw [names] at member
  obtain ⟨turn, inside, rfl⟩ := List.mem_map.1 member
  exact scanned_codes scanned turn inside

theorem clean_of_positiveDecimal {value : Text} (positive : positiveDecimal value = true) :
    Clean value := by
  simp only [positiveDecimal, Bool.and_eq_true] at positive
  obtain ⟨-, scanned⟩ := positive
  cases found : scanDecimal value 0 with
  | none => simp [found] at scanned
  | some scan =>
    exact clean_of_all decimalCode (by decide) (by decide) (by decide)
      (by simpa using scanDecimal_codes found)

theorem clean_of_signedDecimal {value : Text} (signed : signedDecimal value = true) :
    Clean value := by
  simp only [signedDecimal, Bool.and_eq_true] at signed
  obtain ⟨-, scanned⟩ := signed
  cases found : scanDecimal value (if value.head? = some '-' then 1 else 0) with
  | none => simp [found] at scanned
  | some scan =>
    have codes := scanDecimal_codes found
    refine clean_of_all (fun code => decimalCode code || code == '-') (by decide)
      (by decide) (by decide) ?_
    rw [List.all_eq_true] at codes ⊢
    intro code member
    cases value with
    | nil => cases member
    | cons sign rest =>
      by_cases minus : sign = '-'
      · rcases List.mem_cons.1 member with rfl | later
        · simp [minus]
        · simp [codes code (by simpa [minus] using later)]
      · simp [codes code (by simpa [minus] using member)]

theorem canonical_increment {value : Text} (next : increment value ≠ []) :
    canonicalUint64 (increment value) true = true := by
  unfold increment at next ⊢
  split at next
  · rename_i canonical
    rwa [if_pos canonical]
  · exact absurd rfl next

example : increment "1999".toList = "2000".toList := by decide +kernel

example : increment maxUint64 = [] := by decide +kernel

end ArbNautilus.Journal
