import ArbNautilus.Mt5.Decoder
import Mathlib.Algebra.Order.Field.Basic
import Mathlib.Algebra.Order.Field.Rat
import Mathlib.Data.List.TakeWhile

/-! A field that one end of the wire checks, the other end checks too. -/

namespace ArbNautilus.Mt5.Codec

open Base Journal

section Runs

/-- The checks all pass. -/
def Passes (checks : List Check) : Prop := runAll checks = .ok ()

@[simp] theorem passes_nil : Passes [] := rfl

@[simp] theorem passes_cons (check : Check) (checks : List Check) :
    Passes (check :: checks) ↔ check.passes ∧ Passes checks := by
  unfold Passes Check.passes
  rw [runAll, bind_unit_eq_ok]

@[simp] theorem passes_append (first second : List Check) :
    Passes (first ++ second) ↔ Passes first ∧ Passes second := by
  induction first with
  | nil => simp
  | cons check first ih => simp [ih, and_assoc]

@[simp] theorem passes_require (holds : Bool) (message : String) :
    Passes (require holds message) ↔ holds = true := by
  unfold Codec.require
  rw [passes_cons]
  simp [Check.passes, Check.run]

end Runs

section Texts

@[simp] theorem textOf_str (value : Text) : textOf (str value) = value := rfl

@[simp] theorem isStr_str (value : Text) : isStr (str value) = true := rfl

theorem between_iff (low high c : Char) :
    low ≤ c ∧ c ≤ high ↔ low.toNat ≤ c.toNat ∧ c.toNat ≤ high.toNat :=
  Iff.rfl

theorem strip_visible {text : Text} (visible : ∀ c ∈ text, '!' ≤ c ∧ c ≤ '~') :
    strip text = text := by
  have solid : ∀ c, '!' ≤ c ∧ c ≤ '~' → isSpace c = false := by
    intro c range
    rw [between_iff] at range
    change 33 ≤ c.toNat ∧ c.toNat ≤ 126 at range
    simp only [isSpace, decide_eq_false_iff_not, List.mem_cons, List.not_mem_nil, or_false]
    omega
  have kept : ∀ text : Text, (∀ c ∈ text, '!' ≤ c ∧ c ≤ '~') → text.dropWhile isSpace = text := by
    intro text visible
    cases text with
    | nil => rfl
    | cons c text => rw [List.dropWhile_cons_of_neg (by simp [solid c (visible c (by simp))])]
  rw [strip, kept text visible, kept text.reverse (by simpa using visible), List.reverse_reverse]

theorem visibleIdentifier_iff (value : Text) (maximum : ℕ) :
    visibleIdentifier value maximum = true ↔
      value ≠ [] ∧ value.length ≤ maximum ∧ ∀ c ∈ value, '!' ≤ c ∧ c ≤ '~' := by
  unfold visibleIdentifier
  simp only [Bool.and_eq_true, decide_eq_true_eq, List.all_eq_true, Nat.succ_le_iff,
    List.length_pos_iff, and_assoc]

theorem identifier_agrees (value : Text) (label : String) (maximum : ℕ) :
    Passes (validatedIdentifier (str value) label maximum) ↔
      visibleIdentifier value maximum = true := by
  rw [visibleIdentifier_iff]
  unfold validatedIdentifier validatedText
  rw [textOf_str]
  simp only [passes_append, passes_require, isStr_str, isVisible, Bool.and_eq_true,
    List.all_eq_true, Bool.not_eq_true', List.isEmpty_eq_false_iff, decide_eq_true_iff, true_and]
  constructor
  · rintro ⟨⟨⟨⟨some, -⟩, short⟩, -⟩, -, visible⟩
    exact ⟨some, short, visible⟩
  · rintro ⟨some, short, visible⟩
    refine ⟨⟨⟨⟨some, strip_visible visible⟩, short⟩, fun c member => ?_⟩, some, visible⟩
    have range := (between_iff _ _ _).1 (visible c member)
    change 33 ≤ c.toNat ∧ c.toNat ≤ 126 at range
    simp only [isControl, decide_eq_false_iff_not]
    omega

theorem safeToken_agrees (value : Text) (label : String) :
    Passes (validatedSafeToken (str value) label) ↔ safeToken value = true := by
  have codes : (∀ c ∈ value, c.isAlphanum = true ∨ c = '_' ∨ c = '-') ↔
      ∀ c ∈ value, tokenCode c = true := by
    refine forall₂_congr fun c _ => ?_
    have letters : c.isAlphanum = (decide (c.val ≥ 'A'.val ∧ c.val ≤ 'Z'.val) ||
        (c.val ≥ 'a'.val && c.val ≤ 'z'.val) || (c.val ≥ '0'.val && c.val ≤ '9'.val)) := rfl
    simp only [tokenCode, letters, Bool.or_eq_true, Bool.and_eq_true, decide_eq_true_eq, beq_iff_eq,
      Char.le_def]
    tauto
  unfold validatedSafeToken safeToken
  rw [passes_append, identifier_agrees, passes_require, Bool.and_eq_true]
  apply and_congr_right
  intro visible
  have some := ((visibleIdentifier_iff _ _).1 visible).1
  simp only [textOf_str, isSafeToken, Bool.and_eq_true, List.all_eq_true, decide_eq_true_eq, codes,
    Bool.not_eq_true', List.isEmpty_eq_false_iff, ne_eq, some, not_false_eq_true, true_and]

end Texts

section Integers

theorem digitCode_eq : digitCode = Char.isDigit := by
  funext c
  simp [digitCode, Char.isDigit, Char.le_def]

theorem digit_range {c : Char} (digit : c.isDigit = true) : 48 ≤ c.toNat ∧ c.toNat ≤ 57 := by
  simp only [Char.isDigit, Bool.and_eq_true, decide_eq_true_eq, UInt32.le_iff_toNat_le] at digit
  exact digit

theorem ofDigitChars_cons_zero (c : Char) (text : Text) :
    Nat.ofDigitChars 10 (c :: text) 0 =
      10 ^ text.length * (c.toNat - 48) + Nat.ofDigitChars 10 text 0 := by
  rw [Nat.ofDigitChars_cons, Nat.ofDigitChars_eq_ofDigitChars_zero]
  simp

theorem ofDigitChars_lt {text : Text} (digits : ∀ c ∈ text, c.isDigit = true) :
    Nat.ofDigitChars 10 text 0 < 10 ^ text.length := by
  induction text with
  | nil => simp
  | cons c text ih =>
    have range := digit_range (digits c (by simp))
    have rest := ih fun d member => digits d (by simp [member])
    have first : 10 ^ text.length * (c.toNat - 48) ≤ 10 ^ text.length * 9 :=
      Nat.mul_le_mul_left _ (by omega)
    rw [ofDigitChars_cons_zero, List.length_cons, Nat.pow_succ]
    omega

/-- Digits of one length are in the order of their numbers. -/
theorem lt_iff_ofDigitChars {a b : Text} (same : a.length = b.length)
    (left : ∀ c ∈ a, c.isDigit = true) (right : ∀ c ∈ b, c.isDigit = true) :
    a < b ↔ Nat.ofDigitChars 10 a 0 < Nat.ofDigitChars 10 b 0 := by
  induction a generalizing b with
  | nil =>
    cases b with
    | nil => simp
    | cons y b => cases same
  | cons x a ih =>
    cases b with
    | nil => cases same
    | cons y b =>
      have same : a.length = b.length := Nat.succ.inj same
      have rest := ih same (fun c member => left c (by simp [member])) fun c member =>
        right c (by simp [member])
      have rangeX := digit_range (left x (by simp))
      have rangeY := digit_range (right y (by simp))
      have boundA := ofDigitChars_lt fun c member => left c (List.mem_cons_of_mem x member)
      have boundB := ofDigitChars_lt fun c member => right c (List.mem_cons_of_mem y member)
      rw [List.cons_lt_cons_iff, rest, ofDigitChars_cons_zero, ofDigitChars_cons_zero, same]
      rw [same] at boundA
      generalize Nat.ofDigitChars 10 a 0 = low at *
      generalize Nat.ofDigitChars 10 b 0 = high at *
      generalize 10 ^ b.length = scale at *
      by_cases equal : x = y
      · subst equal
        simp
      · have apart : x.toNat ≠ y.toNat := fun h => equal (Char.toNat_inj.1 h)
        have order : x < y ↔ x.toNat < y.toNat := Iff.rfl
        simp only [equal, false_and, or_false, order]
        constructor
        · intro less
          have step : scale * (x.toNat - 48 + 1) ≤ scale * (y.toNat - 48) :=
            Nat.mul_le_mul_left _ (by omega)
          rw [Nat.mul_add] at step
          omega
        · intro less
          by_contra more
          have step : scale * (y.toNat - 48 + 1) ≤ scale * (x.toNat - 48) :=
            Nat.mul_le_mul_left _ (by omega)
          rw [Nat.mul_add] at step
          omega

theorem isUint_iff (value : Text) :
    isUint value = true ↔ value ≠ [] ∧ (∀ c ∈ value, c.isDigit = true) ∧
      ¬(1 < value.length ∧ value.head? = some '0') := by
  cases value with
  | nil => simp [isUint]
  | cons c rest =>
    simp only [isUint, Bool.and_eq_true, List.all_eq_true, Bool.or_eq_true, decide_eq_true_eq,
      List.isEmpty_iff, List.mem_cons, forall_eq_or_imp, List.length_cons, List.head?_cons,
      Option.some.injEq, ne_eq, reduceCtorEq, not_false_eq_true, true_and, not_and, and_assoc,
      Nat.lt_add_left_iff_pos, List.length_pos_iff]
    tauto

theorem canonicalUint64_iff (value : Text) (positive : Bool) :
    canonicalUint64 value positive = true ↔ isUint value = true ∧ value.length ≤ 20 ∧
      ¬(positive = true ∧ value = ['0']) ∧ ¬(value.length = 20 ∧ maxUint64 < value) := by
  rw [isUint_iff]
  simp only [canonicalUint64, digitCode_eq, Bool.and_eq_true, Bool.not_eq_true', decide_eq_true_eq,
    List.all_eq_true, beq_iff_eq, Nat.succ_le_iff, List.length_pos_iff, Bool.eq_false_iff, ne_eq]
  tauto

/-- What a canonical text of digits is worth, bounded by how long it is. -/
theorem isUint_bound {value : Text} (digits : isUint value = true) (long : 1 < value.length) :
    10 ^ (value.length - 1) ≤ Nat.ofDigitChars 10 value 0 := by
  obtain ⟨more, all, lead⟩ := (isUint_iff value).1 digits
  cases value with
  | nil => exact absurd rfl more
  | cons c rest =>
    have range := digit_range (all c (by simp))
    have nonzero : c.toNat ≠ 48 := by
      intro zero
      have same : c = '0' := Char.toNat_inj.1 zero
      exact lead ⟨long, congrArg some same⟩
    rw [ofDigitChars_cons_zero, List.length_cons, Nat.add_sub_cancel]
    have step : 10 ^ rest.length * 1 ≤ 10 ^ rest.length * (c.toNat - 48) :=
      Nat.mul_le_mul_left _ (by omega)
    omega

theorem isUint_zero {value : Text} (digits : isUint value = true) :
    value = ['0'] ↔ Nat.ofDigitChars 10 value 0 = 0 := by
  constructor
  · rintro rfl
    rfl
  · intro zero
    by_cases long : 1 < value.length
    · have bound := isUint_bound digits long
      have scale : 0 < 10 ^ (value.length - 1) := Nat.pow_pos (by decide)
      omega
    · obtain ⟨more, all, -⟩ := (isUint_iff value).1 digits
      match value, more, all, zero, long with
      | [c], _, all, zero, _ =>
        have range := digit_range (all c (by simp))
        simp only [Nat.ofDigitChars_cons, Nat.ofDigitChars_nil] at zero
        change 10 * 0 + (c.toNat - 48) = 0 at zero
        have same : c = '0' := Char.toNat_inj.1 (by change c.toNat = 48; omega)
        rw [same]
      | _ :: _ :: _, _, _, _, long => exact absurd (by simp) long

/-- The largest number of twenty digits that the wire takes is the largest of 64 bits. -/
theorem isUint_range {value : Text} (digits : isUint value = true) :
    Nat.ofDigitChars 10 value 0 ≤ uint64Max ↔
      value.length ≤ 20 ∧ ¬(value.length = 20 ∧ maxUint64 < value) := by
  have all := ((isUint_iff value).1 digits).2.1
  have less := ofDigitChars_lt all
  have limit : uint64Max = 18446744073709551615 := rfl
  rw [limit]
  rcases Nat.lt_trichotomy value.length 20 with short | twenty | long
  · have scale : 10 ^ value.length ≤ 10 ^ 19 := Nat.pow_le_pow_right (by decide) (by omega)
    omega
  · have order : maxUint64 < value ↔ 18446744073709551615 < Nat.ofDigitChars 10 value 0 :=
      lt_iff_ofDigitChars (a := maxUint64) twenty.symm (List.all_eq_true.1 (by decide)) all
    rw [order]
    omega
  · have bound := isUint_bound digits (by omega)
    have scale : 10 ^ 20 ≤ 10 ^ (value.length - 1) := Nat.pow_le_pow_right (by decide) (by omega)
    omega

theorem uint64_agrees (value : Text) (label : String) (positive : Bool) :
    (Check.uint64 (str value) label positive).passes ↔ canonicalUint64 value positive = true := by
  rw [canonicalUint64_iff]
  change uint64String (str value) label positive = .ok () ↔ _
  unfold uint64String pyInt
  rw [textOf_str]
  by_cases digits : isUint value = true
  · have range := isUint_range digits
    have zero := isUint_zero digits
    rw [if_pos digits, zero]
    simp only [digits, true_and]
    by_cases long : 4300 < value.length
    · simp only [long, if_true]
      constructor
      · rintro ⟨⟩
      · rintro ⟨short, -⟩
        omega
    · simp only [long, if_false]
      change raiseIf _ _ = _ ↔ _
      rw [raiseIf_eq_ok, not_or, Nat.not_lt, range]
      tauto
  · rw [if_neg digits]
    simp [digits]

end Integers

section Decimals

theorem decimalTurn_digit {first last index : ℕ} {scan : DecimalScan} {c : Char}
    (digit : c.isDigit = true) :
    decimalTurn first last scan (c, index) = some {
      scan with
      nonzeroSeen := scan.nonzeroSeen || c != '0'
      decimalDigits := if scan.decimalSeen then scan.decimalDigits + 1
        else scan.decimalDigits } := by
  have range := digit_range digit
  have dot : c ≠ '.' := by
    rintro rfl
    exact absurd digit (by decide)
  have inside : ¬(c < '0' ∨ '9' < c) := by
    rw [not_or, Char.not_lt, Char.not_lt]
    exact range
  simp [decimalTurn, dot, inside]

theorem decimalTurn_other {first last index : ℕ} {scan : DecimalScan} {c : Char}
    (other : c.isDigit = false) :
    decimalTurn first last scan (c, index) =
      if c = '.' ∧ scan.decimalSeen = false ∧ index ≠ first ∧ index ≠ last then
        some { scan with decimalSeen := true }
      else none := by
  have outside : c ≠ '.' → c < '0' ∨ '9' < c := by
    intro _
    by_contra inside
    rw [not_or, Char.not_lt, Char.not_lt] at inside
    have digit : c.isDigit = true := by
      rw [← digitCode_eq]
      simpa [digitCode] using inside
    rw [digit] at other
    cases other
  by_cases dot : c = '.'
  · cases seen : scan.decimalSeen <;> by_cases first : index = first <;>
      by_cases last : index = last <;> simp [decimalTurn, dot, seen, first, last]
  · simp [decimalTurn, dot, outside dot]

/-- A loop over digits only counts them. -/
theorem scan_digits {first last index : ℕ} {scan : DecimalScan} {digits : Text}
    (all : ∀ c ∈ digits, c.isDigit = true) :
    (digits.zipIdx index).foldlM (decimalTurn first last) scan = some {
      scan with
      nonzeroSeen := scan.nonzeroSeen || digits.any (· != '0')
      decimalDigits :=
        if scan.decimalSeen then scan.decimalDigits + digits.length else scan.decimalDigits } := by
  induction digits generalizing index scan with
  | nil => simp
  | cons c digits ih =>
    rw [List.zipIdx_cons, List.foldlM_cons, decimalTurn_digit (all c (by simp)),
      Option.bind_eq_bind,
      Option.bind_some, ih fun d member => all d (by simp [member])]
    cases seen : scan.decimalSeen <;> simp [Bool.or_assoc, Nat.add_assoc, Nat.add_comm 1]

/-- Past the point a loop goes on over digits only. -/
theorem scan_fraction {first last index : ℕ} {scan next : DecimalScan} {text : Text}
    (seen : scan.decimalSeen = true)
    (scanned : (text.zipIdx index).foldlM (decimalTurn first last) scan = some next) :
    ∀ c ∈ text, c.isDigit = true := by
  induction text generalizing index scan with
  | nil => simp
  | cons c text ih =>
    rw [List.zipIdx_cons, List.foldlM_cons, Option.bind_eq_bind, Option.bind_eq_some_iff] at scanned
    obtain ⟨middle, turned, scanned⟩ := scanned
    by_cases digit : c.isDigit = true
    · rw [decimalTurn_digit digit] at turned
      cases turned
      rw [seen] at scanned
      have rest := ih rfl scanned
      simpa [digit] using rest
    · rw [decimalTurn_other (Bool.eq_false_iff.2 digit), seen] at turned
      simp at turned

/-- Digits, and after a point more of them where there are any. -/
def joined (whole fraction : Text) : Text :=
  if fraction = [] then whole else whole ++ '.' :: fraction

/-- The text is an unsigned decimal number with these digits. -/
structure Written (value whole fraction : Text) : Prop where
  text : value = joined whole fraction
  wholeDigits : ∀ c ∈ whole, c.isDigit = true
  fractionDigits : ∀ c ∈ fraction, c.isDigit = true
  wholeSome : whole ≠ []

theorem joined_nil (whole : Text) : joined whole [] = whole := rfl

theorem joined_cons (whole fraction : Text) (c : Char) :
    joined whole (c :: fraction) = whole ++ '.' :: c :: fraction := rfl

theorem scan_written {value whole fraction : Text} (written : Written value whole fraction) :
    scanDecimal value 0 =
      some ⟨!fraction.isEmpty, (whole ++ fraction).any (· != '0'), fraction.length⟩ := by
  obtain ⟨text, digits, rest, more⟩ := written
  cases fraction with
  | nil =>
    rw [text, joined_nil, scanDecimal, List.drop_zero, scan_digits digits]
    simp
  | cons c fraction =>
    have long : whole.length ≠ 0 := fun empty => more (List.length_eq_zero_iff.1 empty)
    have split : scanDecimal value 0 = (do
        let scan ← (whole.zipIdx).foldlM (decimalTurn 0 (value.length - 1)) ⟨false, false, 0⟩
        let scan ← decimalTurn 0 (value.length - 1) scan ('.', whole.length)
        ((c :: fraction).zipIdx (whole.length + 1)).foldlM (decimalTurn 0 (value.length - 1))
          scan) := by
      rw [scanDecimal, List.drop_zero, text, joined_cons, List.zipIdx_append, List.foldlM_append,
        List.zipIdx_cons, Nat.zero_add]
      simp only [List.foldlM_cons]
    have inner : whole.length ≠ value.length - 1 := by
      rw [text, joined_cons]
      simp only [List.length_append, List.length_cons]
      omega
    rw [split, scan_digits digits, Option.bind_eq_bind, Option.bind_some,
      decimalTurn_other (by decide), if_pos ⟨rfl, rfl, long, inner⟩, Option.bind_some,
      scan_digits rest]
    simp

theorem written_of_scan {value : Text} {scan : DecimalScan} (more : value ≠ [])
    (scanned : scanDecimal value 0 = some scan) :
    ∃ whole fraction, Written value whole fraction := by
  have text := List.takeWhile_append_dropWhile (p := Char.isDigit) (l := value)
  have digits : ∀ c ∈ value.takeWhile Char.isDigit, c.isDigit = true := fun c member =>
    List.mem_takeWhile_imp member
  have stops := List.head?_dropWhile_not Char.isDigit value
  generalize value.takeWhile Char.isDigit = whole at *
  generalize value.dropWhile Char.isDigit = rest at *
  rw [scanDecimal, List.drop_zero, ← text, List.zipIdx_append, List.foldlM_append,
    scan_digits digits,
    Option.bind_eq_bind, Option.bind_some, Nat.zero_add] at scanned
  cases rest with
  | nil =>
    rw [List.append_nil] at text
    exact ⟨whole, [], ⟨text.symm, digits, nofun, fun empty => more (text.symm.trans empty)⟩⟩
  | cons c rest =>
    have other : c.isDigit = false := by simpa using stops
    rw [List.zipIdx_cons, List.foldlM_cons, decimalTurn_other other, Option.bind_eq_bind,
      Option.bind_eq_some_iff] at scanned
    obtain ⟨middle, turned, scanned⟩ := scanned
    obtain ⟨⟨rfl, -, first, last⟩, same⟩ := Option.ite_none_right_eq_some.1 turned
    cases same
    have fraction := scan_fraction rfl scanned
    have more : rest ≠ [] := by
      rintro rfl
      exact last (by simp)
    refine ⟨whole, rest, ⟨?_, digits, fraction, ?_⟩⟩
    · rw [joined, if_neg more, text]
    · rintro rfl
      exact first rfl

theorem leadingZero_written {value whole fraction : Text} (written : Written value whole fraction) :
    leadingZero value 0 = true ↔ 1 < whole.length ∧ whole.head? = some '0' := by
  obtain ⟨rfl, digits, -, more⟩ := written
  have dot {c : Char} (digit : c.isDigit = true) : c ≠ '.' := by
    rintro rfl
    exact absurd digit (by decide)
  match whole, digits, more with
  | [], _, more => exact absurd rfl more
  | [c], _, _ => cases fraction <;> simp [joined, leadingZero]
  | c :: d :: whole, digits, _ =>
    have plain := dot (digits d (by simp))
    cases fraction <;> simp [joined, leadingZero, plain]

theorem positiveDecimal_iff (value : Text) :
    positiveDecimal value = true ↔ ∃ whole fraction, Written value whole fraction ∧
      value.length ≤ 64 ∧ isUint whole = true ∧ ∃ c ∈ whole ++ fraction, c ≠ '0' := by
  unfold positiveDecimal
  simp only [Bool.and_eq_true, decide_eq_true_eq, Bool.not_eq_true', Bool.eq_false_iff, ne_eq,
    and_assoc]
  constructor
  · rintro ⟨long, short, lead, scanned⟩
    cases found : scanDecimal value 0 with
    | none =>
      rw [found] at scanned
      cases scanned
    | some scan =>
      have more : value ≠ [] := by
        rintro rfl
        cases long
      obtain ⟨whole, fraction, written⟩ := written_of_scan more found
      rw [scan_written written] at scanned
      simp only [Bool.and_eq_true, List.any_eq_true, bne_iff_ne] at scanned
      refine ⟨whole, fraction, written, short, ?_, scanned.1⟩
      rw [isUint_iff, ← leadingZero_written written]
      exact ⟨written.wholeSome, written.wholeDigits, lead⟩
  · rintro ⟨whole, fraction, written, short, digits, nonzero⟩
    have more : 1 ≤ value.length := by
      have some := List.length_pos_iff.2 written.wholeSome
      rw [written.text, joined]
      split
      · exact some
      · rw [List.length_append]
        omega
    refine ⟨more, short, ?_, ?_⟩
    · rw [leadingZero_written written]
      exact ((isUint_iff whole).1 digits).2.2
    · rw [scan_written written]
      simp only [Bool.and_eq_true, List.any_eq_true, bne_iff_ne]
      refine ⟨nonzero, ?_⟩
      cases fraction <;> simp

theorem unsigned_iff (body : Text) :
    (isUint (body.takeWhile Char.isDigit) &&
      ((body.dropWhile Char.isDigit).isEmpty ||
        decide ((body.dropWhile Char.isDigit).head? = some '.') &&
          !((body.dropWhile Char.isDigit).drop 1).isEmpty &&
          ((body.dropWhile Char.isDigit).drop 1).all Char.isDigit)) = true ↔
    ∃ whole fraction, body = joined whole fraction ∧ isUint whole = true ∧
      ∀ c ∈ fraction, c.isDigit = true := by
  constructor
  · intro matched
    simp only [Bool.and_eq_true, Bool.or_eq_true, decide_eq_true_eq, List.isEmpty_iff,
      Bool.not_eq_true', List.isEmpty_eq_false_iff, List.all_eq_true] at matched
    have text := List.takeWhile_append_dropWhile (p := Char.isDigit) (l := body)
    generalize body.takeWhile Char.isDigit = whole at *
    generalize body.dropWhile Char.isDigit = rest at *
    obtain ⟨digits, rfl | ⟨⟨point, more⟩, fraction⟩⟩ := matched
    · exact ⟨whole, [], by rw [← text, joined_nil, List.append_nil], digits, nofun⟩
    · cases rest with
      | nil => cases point
      | cons c rest =>
        cases point
        change rest ≠ [] at more
        refine ⟨whole, rest, ?_, digits, fraction⟩
        rw [joined, if_neg more, text]
  · rintro ⟨whole, fraction, rfl, digits, rest⟩
    have all := ((isUint_iff whole).1 digits).2.1
    have taken : (joined whole fraction).takeWhile Char.isDigit = whole ∧
        (joined whole fraction).dropWhile Char.isDigit =
          if fraction = [] then [] else '.' :: fraction := by
      unfold joined
      split
      · exact ⟨List.takeWhile_eq_self_iff.2 all, List.dropWhile_eq_nil_iff.2 all⟩
      · rw [List.takeWhile_append_of_pos all, List.dropWhile_append_of_pos all]
        simp
    rw [taken.1, taken.2]
    by_cases empty : fraction = []
    · simp [empty, digits]
    · simpa [empty, digits] using rest

/-- An optional minus and a canonical decimal number. -/
theorem isDecimal_iff (value : Text) :
    isDecimal value = true ↔ ∃ (negative : Bool) (whole fraction : Text),
      value = (if negative then '-' :: joined whole fraction else joined whole fraction) ∧
      isUint whole = true ∧ ∀ c ∈ fraction, c.isDigit = true := by
  unfold isDecimal
  by_cases minus : value.head? = some '-'
  · obtain ⟨rest, rfl⟩ : ∃ rest, value = '-' :: rest := by
      cases value with
      | nil => cases minus
      | cons c rest =>
        cases minus
        exact ⟨rest, rfl⟩
    rw [if_pos minus]
    refine (unsigned_iff _).trans ⟨?_, ?_⟩
    · rintro ⟨whole, fraction, text, matched⟩
      exact ⟨true, whole, fraction, by rw [if_pos rfl, ← text]; rfl, matched⟩
    · rintro ⟨negative, whole, fraction, text, matched⟩
      cases negative with
      | true =>
        cases text
        exact ⟨whole, fraction, rfl, matched⟩
      | false =>
        have digits := ((isUint_iff whole).1 matched.1)
        cases whole with
        | nil => exact absurd rfl digits.1
        | cons c whole =>
          have first : '-' = c := by
            cases fraction <;> simpa [joined] using congrArg List.head? text
          have digit := digits.2.1 c (by simp)
          rw [← first] at digit
          exact absurd digit (by decide)
  · rw [if_neg minus]
    refine (unsigned_iff _).trans ⟨?_, ?_⟩
    · rintro ⟨whole, fraction, text, matched⟩
      exact ⟨false, whole, fraction, text, matched⟩
    · rintro ⟨negative, whole, fraction, text, matched⟩
      cases negative with
      | true => exact absurd (by rw [text]; rfl) minus
      | false => exact ⟨whole, fraction, text, matched⟩

theorem ofDigitChars_pos {text : Text} (digits : ∀ c ∈ text, c.isDigit = true) :
    0 < Nat.ofDigitChars 10 text 0 ↔ ∃ c ∈ text, c ≠ '0' := by
  induction text with
  | nil => simp
  | cons c text ih =>
    have range := digit_range (digits c (by simp))
    have rest := ih fun d member => digits d (by simp [member])
    have scale : 0 < 10 ^ text.length := Nat.pow_pos (by decide)
    rw [ofDigitChars_cons_zero]
    by_cases zero : c = '0'
    · subst zero
      simpa using rest
    · have nonzero : c.toNat ≠ 48 := fun same => zero (Char.toNat_inj.1 same)
      have large : 0 < 10 ^ text.length * (c.toNat - 48) := Nat.mul_pos scale (by omega)
      simp only [List.mem_cons, exists_eq_or_imp, ne_eq, zero, not_false_eq_true, true_or, iff_true]
      omega

theorem magnitude_pos (coefficient : ℕ) (exponent : ℤ) :
    0 < Decimal.magnitude coefficient exponent ↔ 0 < coefficient := by
  cases exponent with
  | ofNat places =>
    unfold Decimal.magnitude
    rw [Nat.cast_pos, Nat.mul_pos_iff_of_pos_right (Nat.pow_pos (by decide))]
  | negSucc places =>
    have scale : (0 : ℚ) < (10 ^ (places + 1) : ℕ) := Nat.cast_pos.2 (Nat.pow_pos (by decide))
    unfold Decimal.magnitude
    rw [div_pos_iff_of_pos_right scale, Nat.cast_pos]

/-- The number a written text denotes. -/
theorem parse_written {whole fraction : Text} (negative : Bool) (digits : isUint whole = true)
    (rest : ∀ c ∈ fraction, c.isDigit = true) :
    ∃ exponent,
      Decimal.parse (if negative then '-' :: joined whole fraction else joined whole fraction) =
      some (.finite ⟨negative, Nat.ofDigitChars 10 (whole ++ fraction) 0, exponent⟩) := by
  obtain ⟨more, all, -⟩ := (isUint_iff whole).1 digits
  have starts : ∃ c text, joined whole fraction = c :: text ∧ c.isDigit = true := by
    cases whole with
    | nil => exact absurd rfl more
    | cons c whole => cases fraction <;> exact ⟨c, _, rfl, all c (by simp)⟩
  have plain : ∀ c ∈ joined whole fraction, Decimal.Plain c := by
    intro c member
    cases fraction with
    | nil => exact .inl (all c member)
    | cons d fraction =>
      rw [joined_cons, List.mem_append, List.mem_cons] at member
      rcases member with inside | rfl | inside
      · exact .inl (all c inside)
      · exact .inr (.inl rfl)
      · exact .inl (rest c inside)
  cases fraction with
  | nil =>
    have read := Decimal.parseUnsigned_whole all more
    rw [List.append_nil]
    exact ⟨0, Decimal.parse_body ⟨negative, 0, 0⟩ starts plain read⟩
  | cons d fraction =>
    have read := Decimal.parseUnsigned_fraction all more rest
    exact ⟨_, Decimal.parse_body ⟨negative, 0, 0⟩ starts plain read⟩

theorem value_pos (negative : Bool) (coefficient : ℕ) (exponent : ℤ) :
    0 < Decimal.value ⟨negative, coefficient, exponent⟩ ↔ negative = false ∧ 0 < coefficient := by
  have pos := magnitude_pos coefficient exponent
  cases negative with
  | false => simpa [Decimal.value] using pos
  | true =>
    have nonneg : 0 ≤ Decimal.magnitude coefficient exponent := by
      cases exponent with
      | ofNat places => exact Nat.cast_nonneg _
      | negSucc places => exact div_nonneg (Nat.cast_nonneg _) (Nat.cast_nonneg _)
    simp only [Decimal.value, if_true, reduceCtorEq, false_and, iff_false, not_lt,
      Left.neg_nonpos_iff]
    exact nonneg

theorem decimal_agrees (value : Text) (label : String) :
    Passes (decimalString (str value) label true) ↔ positiveDecimal value = true := by
  unfold decimalString
  rw [positiveDecimal_iff, textOf_str]
  simp only [passes_append, passes_require, isStr_str, Bool.true_and, Bool.and_eq_true,
    decide_eq_true_eq, Bool.not_true, Bool.false_or, isDecimal_iff]
  constructor
  · rintro ⟨⟨⟨short, negative, whole, fraction, text, digits, rest⟩, -⟩, positive⟩
    obtain ⟨exponent, parsed⟩ := parse_written negative digits rest
    rw [decimalValue, text, parsed, value_pos] at positive
    obtain ⟨rfl, nonzero⟩ := positive
    obtain ⟨more, all, -⟩ := (isUint_iff whole).1 digits
    refine ⟨whole, fraction, ⟨text, all, rest, more⟩, short, digits, ?_⟩
    apply (ofDigitChars_pos _).1 nonzero
    intro c member
    rcases List.mem_append.1 member with inside | inside
    · exact all c inside
    · exact rest c inside
  · rintro ⟨whole, fraction, written, short, digits, nonzero⟩
    obtain ⟨exponent, parsed⟩ := parse_written false digits written.fractionDigits
    rw [if_neg (by decide), ← written.text] at parsed
    refine ⟨⟨⟨short, false, whole, fraction, written.text, digits, written.fractionDigits⟩, ?_⟩, ?_⟩
    · rw [parsed]
      rfl
    · rw [decimalValue, parsed, value_pos]
      refine ⟨rfl, (ofDigitChars_pos ?_).2 nonzero⟩
      intro c member
      rcases List.mem_append.1 member with inside | inside
      · exact written.wholeDigits c inside
      · exact written.fractionDigits c inside

section Signed

/-- A loop that starts behind a sign runs as one that starts at the first digit. -/
theorem scan_shift (text : Text) (index first last : ℕ) (scan : DecimalScan) :
    (text.zipIdx (index + 1)).foldlM (decimalTurn (first + 1) (last + 1)) scan =
      (text.zipIdx index).foldlM (decimalTurn first last) scan := by
  induction text generalizing index scan with
  | nil => rfl
  | cons c text ih =>
    have turn : decimalTurn (first + 1) (last + 1) scan (c, index + 1) =
        decimalTurn first last scan (c, index) := by
      simp [decimalTurn]
    rw [List.zipIdx_cons, List.zipIdx_cons, List.foldlM_cons, List.foldlM_cons, turn]
    exact bind_congr fun next => ih (index + 1) next

theorem scanDecimal_minus {body : Text} (more : body ≠ []) :
    scanDecimal ('-' :: body) 1 = scanDecimal body 0 := by
  have long := List.length_pos_iff.2 more
  have last : ('-' :: body).length - 1 = body.length - 1 + 1 := by
    rw [List.length_cons]
    omega
  unfold scanDecimal
  rw [last]
  exact scan_shift body 0 0 (body.length - 1) ⟨false, false, 0⟩

theorem leadingZero_minus (body : Text) : leadingZero ('-' :: body) 1 = leadingZero body 0 := by
  simp [leadingZero]

/-- What the loop makes of an unsigned number. -/
def scanned (body : Text) : Bool :=
  !leadingZero body 0 && match scanDecimal body 0 with
    | none => false
    | some scan => !scan.decimalSeen || 0 < scan.decimalDigits

theorem scanned_iff {body : Text} (more : body ≠ []) :
    scanned body = true ↔ ∃ whole fraction, body = joined whole fraction ∧ isUint whole = true ∧
      ∀ c ∈ fraction, c.isDigit = true := by
  unfold scanned
  rw [Bool.and_eq_true, Bool.not_eq_true', Bool.eq_false_iff, ne_eq]
  constructor
  · rintro ⟨lead, loop⟩
    cases found : scanDecimal body 0 with
    | none =>
      rw [found] at loop
      cases loop
    | some scan =>
      obtain ⟨whole, fraction, written⟩ := written_of_scan more found
      refine ⟨whole, fraction, written.text, ?_, written.fractionDigits⟩
      rw [isUint_iff, ← leadingZero_written written]
      exact ⟨written.wholeSome, written.wholeDigits, lead⟩
  · rintro ⟨whole, fraction, text, digits, rest⟩
    obtain ⟨some, all, lead⟩ := (isUint_iff whole).1 digits
    have written : Written body whole fraction := ⟨text, all, rest, some⟩
    rw [leadingZero_written written, scan_written written]
    refine ⟨lead, ?_⟩
    cases fraction <;> simp

theorem scanned_joined (body : Text) :
    (!body.isEmpty && scanned body) = true ↔ ∃ whole fraction, body = joined whole fraction ∧
      isUint whole = true ∧ ∀ c ∈ fraction, c.isDigit = true := by
  rw [Bool.and_eq_true, Bool.not_eq_true', List.isEmpty_eq_false_iff]
  constructor
  · rintro ⟨more, loop⟩
    exact (scanned_iff more).1 loop
  · rintro ⟨whole, fraction, text, digits, rest⟩
    have more : body ≠ [] := by
      have some := ((isUint_iff whole).1 digits).1
      rw [text, joined]
      split
      · exact some
      · simp
    exact ⟨more, (scanned_iff more).2 ⟨whole, fraction, text, digits, rest⟩⟩

/-- The loop behind the sign and the pattern take the same texts. -/
theorem isDecimal_eq (value : Text) :
    isDecimal value =
      if value.head? = some '-' then !(value.drop 1).isEmpty && scanned (value.drop 1)
      else !value.isEmpty && scanned value := by
  unfold isDecimal
  split <;> exact Bool.eq_iff_iff.2 ((unsigned_iff _).trans (scanned_joined _).symm)

theorem signedDecimal_eq (value : Text) :
    signedDecimal value = (decide (value.length ≤ 64) && isDecimal value) := by
  rw [isDecimal_eq]
  cases value with
  | nil => rfl
  | cons c body =>
    by_cases minus : c = '-'
    · subst minus
      cases body with
      | nil => rfl
      | cons d body =>
        cases found : scanDecimal (d :: body) 0
        all_goals simp [signedDecimal, scanned, scanDecimal_minus, leadingZero_minus, found,
          Bool.and_assoc]
    · cases found : scanDecimal (c :: body) 0
      all_goals simp [signedDecimal, scanned, minus, found, Bool.and_assoc]

theorem signed_agrees (value : Text) (label : String) :
    Passes (decimalString (str value) label false) ↔ signedDecimal value = true := by
  unfold decimalString
  rw [signedDecimal_eq, textOf_str]
  simp only [passes_append, passes_require, isStr_str, Bool.true_and, Bool.and_eq_true,
    decide_eq_true_eq, Bool.not_false, Bool.true_or, and_true, and_iff_left_iff_imp, and_imp]
  intro _ matched
  obtain ⟨negative, whole, fraction, text, digits, rest⟩ := (isDecimal_iff value).1 matched
  obtain ⟨exponent, parsed⟩ := parse_written negative digits rest
  rw [text, parsed]
  rfl

end Signed

end Decimals

end ArbNautilus.Mt5.Codec
