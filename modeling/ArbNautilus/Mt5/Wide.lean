import ArbNautilus.Mt5.Scalars

/-! One string at both ends of the wire: UTF-16 units there, code points here. -/

namespace ArbNautilus.Mt5

open Base Journal

/-- A string of the terminal. -/
abbrev Wide := List UInt16

namespace Wide

/-- A unit as the loops compare it. Half of a character is none, and equals none they name. -/
def unitChar (unit : UInt16) : Char :=
  if isHigh unit.toNat ∨ isLow unit.toNat then '\uFFFD' else Char.ofNat unit.toNat

/-- What the loops over a string see. -/
def chars (s : Wide) : Text := s.map unitChar

/-- What the client has of the string. -/
def pyStr (s : Wide) : PyStr := PyStr.ofCodes (joinSurrogates (s.map UInt16.toNat))

section Compared

theorem toNat_ofNat {code : ℕ} (bound : code < 0x110000) (single : ¬(isHigh code ∨ isLow code)) :
    (Char.ofNat code).toNat = code := by
  have valid : code.isValidChar := by
    simp only [isHigh, isLow, decide_eq_true_eq] at single
    unfold Nat.isValidChar
    omega
  rw [Char.ofNat, dif_pos valid]
  rfl

theorem unit_lt (unit : UInt16) : unit.toNat < 65536 := unit.toNat_lt

/-- A unit that is no half is the code of its character. -/
theorem unitChar_toNat {unit : UInt16} (whole : ¬(isHigh unit.toNat ∨ isLow unit.toNat)) :
    (unitChar unit).toNat = unit.toNat := by
  have bound := unit_lt unit
  rw [unitChar, if_neg whole, toNat_ofNat (by omega) whole]

theorem unitChar_half {unit : UInt16} (half : isHigh unit.toNat ∨ isLow unit.toNat) :
    (unitChar unit).toNat = 65533 ∧ 55296 ≤ unit.toNat := by
  rw [unitChar, if_pos half]
  simp only [isHigh, isLow, decide_eq_true_eq] at half
  exact ⟨rfl, by omega⟩

theorem unitChar_ascii (unit : UInt16) : (unitChar unit).toNat < 128 ↔ unit.toNat < 128 := by
  by_cases half : isHigh unit.toNat ∨ isLow unit.toNat
  · have ends := unitChar_half half
    omega
  · rw [unitChar_toNat half]

/-- A unit stands to an ASCII character as the character it is compared by. -/
theorem unitChar_compares (unit : UInt16) {c : Char} (ascii : c.toNat < 128) :
    (unitChar unit ≤ c ↔ unit.toNat ≤ c.toNat) ∧ (c ≤ unitChar unit ↔ c.toNat ≤ unit.toNat) ∧
      (unitChar unit = c ↔ unit.toNat = c.toNat) := by
  have order : ∀ a b : Char, a ≤ b ↔ a.toNat ≤ b.toNat := fun a b => Iff.rfl
  rw [order, order, ← Char.toNat_inj]
  by_cases half : isHigh unit.toNat ∨ isLow unit.toNat
  · have ends := unitChar_half half
    omega
  · simp [unitChar_toNat half]

end Compared

section Joined

theorem joinSurrogates_single {codes : List ℕ}
    (single : ∀ code ∈ codes, ¬(isHigh code ∨ isLow code)) :
    joinSurrogates codes = codes := by
  fun_induction joinSurrogates codes with
  | case1 => rfl
  | case2 code => rfl
  | case3 a b rest halves _ => exact absurd (.inl halves.1) (single a (by simp))
  | case4 a b rest _ ih => rw [ih fun code member => single code (List.mem_cons_of_mem a member)]

theorem joinSurrogates_large {codes : List ℕ} (large : ∃ code ∈ codes, 128 ≤ code) :
    ∃ code ∈ joinSurrogates codes, 128 ≤ code := by
  fun_induction joinSurrogates codes with
  | case1 => exact large
  | case2 code => exact large
  | case3 a b rest _ _ => exact ⟨_, List.mem_cons_self, by omega⟩
  | case4 a b rest _ ih =>
    obtain ⟨code, member, size⟩ := large
    rcases List.mem_cons.1 member with rfl | member
    · exact ⟨code, List.mem_cons_self, size⟩
    · obtain ⟨code, member, size⟩ := ih ⟨code, member, size⟩
      exact ⟨code, List.mem_cons_of_mem a member, size⟩

theorem joinSurrogates_bound {codes : List ℕ} (bound : ∀ code ∈ codes, code < 65536) :
    ∀ code ∈ joinSurrogates codes, code < 0x110000 := by
  fun_induction joinSurrogates codes with
  | case1 => simp
  | case2 code =>
    have small := bound code (by simp)
    rw [List.forall_mem_singleton]
    omega
  | case3 a b rest halves ih =>
    intro code member
    rcases List.mem_cons.1 member with joined | member
    · simp only [isHigh, isLow, decide_eq_true_eq] at halves
      omega
    · exact ih (fun code member => bound code (by simp [member])) code member
  | case4 a b rest _ ih =>
    intro code member
    rcases List.mem_cons.1 member with rfl | member
    · have small := bound code (by simp)
      omega
    · exact ih (fun code member => bound code (List.mem_cons_of_mem a member)) code member

/-- The units of a code point. -/
def unitsOf (code : ℕ) : List ℕ :=
  if 0x10000 ≤ code then [0xD800 + (code - 0x10000) / 0x400, 0xDC00 + (code - 0x10000) % 0x400]
    else [code]

theorem unitsOf_joinSurrogates {codes : List ℕ} (bound : ∀ code ∈ codes, code < 65536) :
    (joinSurrogates codes).flatMap unitsOf = codes := by
  have single {code : ℕ} (small : code < 65536) : unitsOf code = [code] := if_neg (by omega)
  fun_induction joinSurrogates codes with
  | case1 => rfl
  | case2 code => rw [List.flatMap_singleton, single (bound code (by simp))]
  | case3 a b rest halves ih =>
    have tail := ih fun code member => bound code (by simp [member])
    simp only [isHigh, isLow, decide_eq_true_eq] at halves
    have pair : unitsOf (0x10000 + (a - 0xD800) * 0x400 + (b - 0xDC00)) = [a, b] := by
      have high : 0xD800 + (0x10000 + (a - 0xD800) * 0x400 + (b - 0xDC00) - 0x10000) / 0x400 =
          a := by omega
      have low : 0xDC00 + (0x10000 + (a - 0xD800) * 0x400 + (b - 0xDC00) - 0x10000) % 0x400 =
          b := by omega
      rw [unitsOf, if_pos (by omega), high, low]
    rw [List.flatMap_cons, tail, pair]
    rfl
  | case4 a b rest _ ih =>
    have tail := ih fun code member => bound code (List.mem_cons_of_mem a member)
    rw [List.flatMap_cons, tail, single (bound a (by simp))]
    rfl

end Joined

section Seen

theorem codes_bound (s : Wide) : ∀ code ∈ s.map UInt16.toNat, code < 65536 := by
  intro code member
  obtain ⟨unit, -, rfl⟩ := List.mem_map.1 member
  exact unit_lt unit

/-- A string without halves is one text at both ends. -/
theorem pyStr_single {s : Wide} (single : ∀ unit ∈ s, ¬(isHigh unit.toNat ∨ isLow unit.toNat)) :
    s.pyStr = .text s.chars := by
  have codes : ∀ code ∈ s.map UInt16.toNat, ¬(isHigh code ∨ isLow code) := by simpa using single
  rw [pyStr, joinSurrogates_single codes, PyStr.ofCodes, if_neg]
  · rw [chars, List.map_map]
    refine congrArg PyStr.text (List.map_congr_left fun unit member => ?_)
    rw [unitChar, if_neg (single unit member)]
    rfl
  · simpa using single

theorem pyStr_ascii {s : Wide} (ascii : ∀ unit ∈ s, unit.toNat < 128) :
    s.pyStr = .text s.chars := by
  apply pyStr_single
  intro unit member
  have small := ascii unit member
  simp only [isHigh, isLow, decide_eq_true_eq]
  omega

/-- A string of more than ASCII is so at both ends. -/
theorem pyStr_large {s : Wide} (large : ∃ unit ∈ s, 128 ≤ unit.toNat) :
    (∃ c ∈ s.chars, 128 ≤ c.toNat) ∧
      ((∃ codes, s.pyStr = .broken codes) ∨ ∃ text, s.pyStr = .text text ∧
        ∃ c ∈ text, 128 ≤ c.toNat) := by
  constructor
  · obtain ⟨unit, member, size⟩ := large
    refine ⟨unitChar unit, List.mem_map.2 ⟨unit, member, rfl⟩, ?_⟩
    rw [← Nat.not_lt, unitChar_ascii]
    omega
  · have known := joinSurrogates_bound (codes_bound s)
    have some : ∃ code ∈ joinSurrogates (s.map UInt16.toNat), 128 ≤ code :=
      joinSurrogates_large (by simpa using large)
    unfold pyStr PyStr.ofCodes
    generalize joinSurrogates (s.map UInt16.toNat) = codes at *
    split
    · exact .inl ⟨_, rfl⟩
    · rename_i whole
      obtain ⟨code, member, size⟩ := some
      refine .inr ⟨_, rfl, Char.ofNat code, List.mem_map.2 ⟨code, member, rfl⟩, ?_⟩
      have single : ¬(isHigh code ∨ isLow code) := by
        simp only [List.any_eq_true, decide_eq_true_eq, not_exists, not_and] at whole
        exact whole code member
      rw [toNat_ofNat (known code member) single]
      exact size

/-- The client tells strings of the terminal apart. -/
theorem pyStr_injective {a b : Wide} (same : a.pyStr = b.pyStr) : a = b := by
  have codes : joinSurrogates (a.map UInt16.toNat) = joinSurrogates (b.map UInt16.toNat) := by
    have boundA := joinSurrogates_bound (codes_bound a)
    have boundB := joinSurrogates_bound (codes_bound b)
    unfold pyStr PyStr.ofCodes at same
    generalize joinSurrogates (a.map UInt16.toNat) = x at *
    generalize joinSurrogates (b.map UInt16.toNat) = y at *
    split at same <;> split at same
    · exact PyStr.broken.inj same
    · cases same
    · cases same
    · rename_i wholeX wholeY
      have back {codes : List ℕ} (bound : ∀ code ∈ codes, code < 0x110000)
          (whole : ¬codes.any (fun code => isHigh code ∨ isLow code) = true) :
          (codes.map Char.ofNat).map Char.toNat = codes := by
        simp only [List.any_eq_true, decide_eq_true_eq, not_exists, not_and] at whole
        rw [List.map_map]
        refine (List.map_congr_left fun code member => ?_).trans (List.map_id codes)
        exact toNat_ofNat (bound code member) (whole code member)
      rw [← back boundA wholeX, ← back boundB wholeY, PyStr.text.inj same]
  have units : a.map UInt16.toNat = b.map UInt16.toNat := by
    rw [← unitsOf_joinSurrogates (codes_bound a), codes, unitsOf_joinSurrogates (codes_bound b)]
  exact List.map_injective_iff.2 (fun _ _ => UInt16.toNat_inj.1) units

/-- Two checks that agree on texts and take ASCII only agree on every string. -/
theorem agree_of_ascii (there : Text → Bool) (here : Json ℚ → Prop)
    (same : ∀ text, here (Codec.str text) ↔ there text = true)
    (ascii : ∀ text, there text = true → ∀ c ∈ text, c.toNat < 128)
    (whole : ∀ codes, ¬here (.str (.broken codes))) (s : Wide) :
    there s.chars = true ↔ here (.str s.pyStr) := by
  by_cases plain : ∀ unit ∈ s, unit.toNat < 128
  · rw [pyStr_ascii plain]
    exact (same s.chars).symm
  · simp only [not_forall, Nat.not_lt, exists_prop] at plain
    obtain ⟨⟨c, member, size⟩, seen⟩ := pyStr_large plain
    apply iff_of_false
    · intro taken
      have small := ascii s.chars taken c member
      omega
    · rcases seen with ⟨codes, broken⟩ | ⟨text, found, d, member, size⟩
      · rw [broken]
        exact whole codes
      · rw [found]
        intro taken
        have small := ascii text ((same text).1 taken) d member
        omega

end Seen

end Wide

namespace Codec

/-- A canonical text of a scalar is one of ASCII. -/
theorem ascii_of_uint64 {value : Text} {positive : Bool}
    (valid : canonicalUint64 value positive = true) :
    ∀ c ∈ value, c.toNat < 128 := by
  intro c member
  have digits := ((canonicalUint64_iff value positive).1 valid).1
  have range := digit_range (((isUint_iff value).1 digits).2.1 c member)
  omega

theorem ascii_of_decimal {value : Text} (matched : isDecimal value = true) :
    ∀ c ∈ value, c.toNat < 128 := by
  obtain ⟨negative, whole, fraction, text, digits, rest⟩ := (isDecimal_iff value).1 matched
  have all := ((isUint_iff whole).1 digits).2.1
  have body : ∀ c ∈ joined whole fraction, c.toNat < 128 := by
    intro c member
    have cases : c ∈ whole ∨ c = '.' ∨ c ∈ fraction := by
      unfold joined at member
      split at member
      · exact .inl member
      · simpa using member
    rcases cases with inside | rfl | inside
    · have range := digit_range (all c inside)
      omega
    · decide
    · have range := digit_range (rest c inside)
      omega
  intro c member
  rw [text] at member
  split at member
  · rcases List.mem_cons.1 member with rfl | inside
    · decide
    · exact body c inside
  · exact body c member

theorem ascii_of_visible {value : Text} {maximum : ℕ}
    (valid : visibleIdentifier value maximum = true) :
    ∀ c ∈ value, c.toNat < 128 := by
  intro c member
  have range := (between_iff _ _ _).1 (((visibleIdentifier_iff value maximum).1 valid).2.2 c member)
  change 33 ≤ c.toNat ∧ c.toNat ≤ 126 at range
  omega

theorem isDecimal_of_positive {value : Text} (valid : positiveDecimal value = true) :
    isDecimal value = true := by
  obtain ⟨whole, fraction, written, -, digits, -⟩ := (positiveDecimal_iff value).1 valid
  exact (isDecimal_iff value).2
    ⟨false, whole, fraction, written.text, digits, written.fractionDigits⟩

/-- The scalars of the wire are the same strings at both ends. -/
theorem scalar_grammars_agree (s : Wide) (label : String) :
    (∀ positive, canonicalUint64 s.chars positive = true ↔
      (Check.uint64 (.str s.pyStr) label positive).passes) ∧
    (positiveDecimal s.chars = true ↔ Passes (decimalString (.str s.pyStr) label true)) ∧
    (signedDecimal s.chars = true ↔ Passes (decimalString (.str s.pyStr) label false)) ∧
    (safeToken s.chars = true ↔ Passes (validatedSafeToken (.str s.pyStr) label)) := by
  refine ⟨fun positive => ?_, ?_, ?_, ?_⟩
  · refine Wide.agree_of_ascii (canonicalUint64 · positive)
      (fun value => (Check.uint64 value label positive).passes) (uint64_agrees · label positive) ?_
        ?_ s
    · exact fun text valid => ascii_of_uint64 valid
    · rintro codes ⟨⟩
  · refine Wide.agree_of_ascii positiveDecimal
      (fun value => Passes (decimalString value label true))
      (decimal_agrees · label) ?_ ?_ s
    · exact fun text valid => ascii_of_decimal (isDecimal_of_positive valid)
    · rintro codes ⟨⟩
  · refine Wide.agree_of_ascii signedDecimal (fun value => Passes (decimalString value label false))
      (signed_agrees · label) ?_ ?_ s
    · intro text valid
      rw [signedDecimal_eq, Bool.and_eq_true] at valid
      exact ascii_of_decimal valid.2
    · rintro codes ⟨⟩
  · refine Wide.agree_of_ascii safeToken (fun value => Passes (validatedSafeToken value label))
      (safeToken_agrees · label) ?_ ?_ s
    · intro text valid
      rw [safeToken, Bool.and_eq_true] at valid
      exact ascii_of_visible valid.1
    · rintro codes ⟨⟩

end Codec

end ArbNautilus.Mt5
