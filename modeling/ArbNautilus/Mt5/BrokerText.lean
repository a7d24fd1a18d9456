import ArbNautilus.Base.JsonDump
import ArbNautilus.Mt5.Wide

/-! What a broker calls a server, a time zone or a position, on its way to the client. -/

namespace ArbNautilus.Mt5

open Base Journal

namespace Ea

def ascii (text : String) : Wide := text.toList.map fun c => c.toNat.toUInt16

/-- `%04x`. -/
def hexFour (code : ℕ) : Wide :=
  [code / 4096, code / 256 % 16, code / 16 % 16, code % 16].map fun digit =>
    (hexDigit digit).toNat.toUInt16

/-- One turn of `Py000JsonEscape`. -/
def escapeUnit (code : UInt16) : Wide :=
  if code = 0x22 then ascii "\\\""
  else if code = 0x5c then ascii "\\\\"
  else if code = 0x08 then ascii "\\b"
  else if code = 0x0c then ascii "\\f"
  else if code = 0x0a then ascii "\\n"
  else if code = 0x0d then ascii "\\r"
  else if code = 0x09 then ascii "\\t"
  else if code < 0x20 then ascii "\\u" ++ hexFour code.toNat
  else [code]

def jsonEscape (value : Wide) : Wide := value.flatMap escapeUnit

def quoted (value : Wide) : Wide := ascii "\"" ++ jsonEscape value ++ ascii "\""

/-- `Py000JsonIsWhitespace`. -/
def isWhite (code : UInt16) : Bool := code = 0x20 ∨ code = 0x09 ∨ code = 0x0a ∨ code = 0x0d

def forbidden (code : UInt16) : Bool :=
  code = 0 ∨ code < 0x20 ∨ 0x7f ≤ code ∧ code ≤ 0x9f ∨ 0xd800 ≤ code ∧ code ≤ 0xdfff

/-- `Py000OptionalBrokerText`. -/
def optionalBrokerText (value : Wide) (maximum : ℕ) : Bool :=
  if value = [] then true
  else if maximum < value.length then false
  else if value.head?.any isWhite ∨ value.getLast?.any isWhite then false
  else value.all fun code => !forbidden code

end Ea

section Escapes

/-- What one escape stands for. -/
def unescaped : Text → Option ℕ
  | ['\x5c', e] => if e = 'u' then none else simpleEscape e
  | ['\x5c', 'u', a, b, c, d] => hexCode [a, b, c, d]
  | _ => none

theorem scanString_unescaped {piece : Text} {code : ℕ} (read : unescaped piece = some code)
    (tail : Text) :
    scanString (piece ++ tail) =
      (scanString tail).map fun (codes, rest) => (code :: codes, rest) := by
  unfold unescaped at read
  split at read
  · rename_i e
    by_cases unicode : e = 'u'
    · rw [if_pos unicode] at read
      cases read
    · rw [if_neg unicode] at read
      rw [List.cons_append, List.cons_append, List.nil_append, scanString.eq_def]
      simp [unicode, read]
  · simp [scanString, read]
  · cases read

def allAscii (s : Wide) : Bool := s.all fun unit => unit.toNat < 128

theorem small_of_allAscii {s : Wide} (all : allAscii s = true) : ∀ u ∈ s, u.toNat < 128 :=
  fun u member => of_decide_eq_true (List.all_eq_true.1 all u member)

theorem unescaped_control : ∀ n : Fin 32,
    unescaped (Ea.escapeUnit (UInt16.ofNat n)).chars = some n.val ∧
      allAscii (Ea.escapeUnit (UInt16.ofNat n)) = true := by decide

@[simp] theorem chars_append (a b : Wide) : Wide.chars (a ++ b) = Wide.chars a ++ Wide.chars b :=
  List.map_append

/-- A unit is escaped, or goes as it is. -/
theorem escapeUnit_cases (unit : UInt16) :
    (∃ code, unescaped (Ea.escapeUnit unit).chars = some code ∧ code = unit.toNat) ∧
        (∀ u ∈ Ea.escapeUnit unit, u.toNat < 128) ∨
      32 ≤ unit.toNat ∧ unit ≠ 0x22 ∧ unit ≠ 0x5c ∧ Ea.escapeUnit unit = [unit] := by
  by_cases control : unit.toNat < 32
  · have read := unescaped_control ⟨unit.toNat, control⟩
    rw [UInt16.ofNat_toNat] at read
    exact .inl ⟨⟨_, read.1, rfl⟩, small_of_allAscii read.2⟩
  by_cases quote : unit = 0x22
  · subst quote
    exact .inl ⟨⟨_, rfl, rfl⟩, small_of_allAscii rfl⟩
  by_cases slash : unit = 0x5c
  · subst slash
    exact .inl ⟨⟨_, rfl, rfl⟩, small_of_allAscii rfl⟩
  have above {code : UInt16} (small : code.toNat < 32) : unit ≠ code := by
    rintro rfl
    exact control small
  have order : ¬unit < 0x20 := by
    rw [UInt16.lt_iff_toNat_lt]
    exact control
  refine .inr ⟨Nat.not_lt.1 control, quote, slash, ?_⟩
  simp only [Ea.escapeUnit, quote, slash, order, if_false]
  rw [if_neg (above (by decide)), if_neg (above (by decide)), if_neg (above (by decide)),
    if_neg (above (by decide)), if_neg (above (by decide))]

/-- A reader takes one turn of the escape for the unit it is about. -/
theorem scanString_escapeUnit {unit : UInt16} (single : ¬(isHigh unit.toNat ∨ isLow unit.toNat))
    (tail : Text) :
    scanString ((Ea.escapeUnit unit).chars ++ tail) =
      (scanString tail).map fun (codes, rest) => (unit.toNat :: codes, rest) := by
  rcases escapeUnit_cases unit with ⟨⟨code, read, rfl⟩, -⟩ | ⟨visible, quote, slash, itself⟩
  · exact scanString_unescaped read tail
  · have code := Wide.unitChar_toNat single
    have plain {c : Char} (ascii : c.toNat < 128) (other : unit.toNat ≠ c.toNat) :
        Wide.unitChar unit ≠ c := by
      rwa [ne_eq, (Wide.unitChar_compares unit ascii).2.2]
    have notQuote := plain (c := '\x22') (by decide) fun same => quote (UInt16.toNat_inj.1 same)
    have notSlash := plain (c := '\x5c') (by decide) fun same => slash (UInt16.toNat_inj.1 same)
    rw [itself, Wide.chars, List.map_singleton, List.singleton_append, scanString.eq_def]
    simp only [notQuote, notSlash, code, Nat.not_lt.2 visible, if_false]

variable {s : Wide}

theorem scanString_escaped (single : ∀ unit ∈ s, ¬(isHigh unit.toNat ∨ isLow unit.toNat))
    (rest : Text) :
    scanString ((Ea.jsonEscape s).chars ++ '\x22' :: rest) = some (s.map UInt16.toNat, rest) := by
  induction s with
  | nil =>
    change scanString ('\x22' :: rest) = _
    rw [scanString.eq_def]
    simp
  | cons unit s ih =>
    have tail := ih fun unit member => single unit (List.mem_cons_of_mem _ member)
    rw [Ea.jsonEscape, List.flatMap_cons, chars_append, List.append_assoc,
      scanString_escapeUnit (single unit (by simp)), ← Ea.jsonEscape, tail]
    rfl

theorem quoted_single (single : ∀ unit ∈ s, ¬(isHigh unit.toNat ∨ isLow unit.toNat)) :
    ∀ unit ∈ Ea.quoted s, ¬(isHigh unit.toNat ∨ isLow unit.toNat) := by
  have plain {unit : UInt16} (small : unit.toNat < 128) :
      ¬(isHigh unit.toNat ∨ isLow unit.toNat) := by
    simp only [isHigh, isLow, decide_eq_true_eq]
    omega
  intro unit member
  simp only [Ea.quoted, Ea.jsonEscape, List.mem_append, List.mem_flatMap] at member
  rcases member with (edge | ⟨inner, listed, member⟩) | edge
  · exact plain (small_of_allAscii rfl unit edge)
  · rcases escapeUnit_cases inner with ⟨-, small⟩ | ⟨-, -, -, itself⟩
    · exact plain (small unit member)
    · rw [itself, List.mem_singleton] at member
      exact member ▸ single inner listed
  · exact plain (small_of_allAscii rfl unit edge)

/-- What the terminal quotes, the client reads back. -/
theorem loads_quoted (single : ∀ unit ∈ s, ¬(isHigh unit.toNat ∨ isLow unit.toNat)) :
    ∃ text, (Ea.quoted s).pyStr = .text text ∧ Codec.hooks.loads text = .ok (.str s.pyStr) := by
  refine ⟨_, Wide.pyStr_single (quoted_single single), ?_⟩
  have text : (Ea.quoted s).chars = '\x22' :: ((Ea.jsonEscape s).chars ++ ['\x22']) := by
    rw [Ea.quoted, chars_append, chars_append]
    rfl
  have read : Codec.hooks.scanText ((Ea.jsonEscape s).chars ++ ['\x22']) = .ok (s.pyStr, []) := by
    rw [JsonHooks.scanText, scanString_escaped single]
    rfl
  rw [text, JsonHooks.loads, if_neg (by simp)]
  have space : JsonHooks.skipSpace ('\x22' :: ((Ea.jsonEscape s).chars ++ ['\x22'])) =
      '\x22' :: ((Ea.jsonEscape s).chars ++ ['\x22']) := rfl
  rw [space, JsonHooks.turnsFor, JsonHooks.parseValue]
  simp only [if_true, read]
  rfl

end Escapes

section Trimmed

/-- `strip` takes away exactly the white ends. -/
theorem strip_eq_self (text : Text) :
    strip text = text ↔ ∀ c, text.head? = some c ∨ text.getLast? = some c → isSpace c = false := by
  have front (text : Text) :
      text.dropWhile isSpace = text ↔ ∀ c, text.head? = some c → isSpace c = false := by
    cases text with
    | nil => simp
    | cons c rest =>
      simp only [List.dropWhile_eq_self_iff, List.head?_cons, Option.some.injEq, forall_eq']
      simp
  constructor
  · intro same
    have first := (List.dropWhile_sublist isSpace (l := text)).length_le
    have second :=
      (List.dropWhile_sublist isSpace (l := (text.dropWhile isSpace).reverse)).length_le
    have size := congrArg List.length same
    rw [strip, List.length_reverse] at size
    rw [List.length_reverse] at second
    have kept : text.dropWhile isSpace = text :=
      (List.dropWhile_sublist isSpace).eq_of_length (by omega)
    rw [strip, kept, List.reverse_eq_iff] at same
    rintro c (head | last)
    · exact (front text).1 kept c head
    · exact (front text.reverse).1 same c (by rwa [List.head?_reverse])
  · intro solid
    have kept := (front text).2 fun c head => solid c (.inl head)
    have back :=
      (front text.reverse).2 fun c last => solid c (.inr (by rwa [List.head?_reverse] at last))
    rw [strip, kept, back, List.reverse_reverse]

end Trimmed

section Taken

variable {s : Wide} {maximum : ℕ}

/-- The client reads a quoted text as it is and accepts it. -/
structure Taken (s : Wide) (label : String) (maximum : ℕ) : Prop where
  read : ∃ text, (Ea.quoted s).pyStr = .text text ∧ Codec.hooks.loads text = .ok (.str s.pyStr)
  plain : Codec.validateTree 1 (.str s.pyStr) = .ok ()
  accepted : Codec.Passes (Codec.validatedOptionalText (.str s.pyStr) label maximum)

theorem optionalBrokerText_cases (valid : Ea.optionalBrokerText s maximum = true) :
    s = [] ∨ s ≠ [] ∧ s.length ≤ maximum ∧ ∀ unit ∈ s, Ea.forbidden unit = false := by
  unfold Ea.optionalBrokerText at valid
  split at valid
  · exact .inl ‹_›
  split at valid
  · cases valid
  split at valid
  · cases valid
  · refine .inr ⟨‹_›, Nat.not_lt.1 ‹_›, ?_⟩
    simpa [List.all_eq_true] using valid

theorem single_of_allowed {unit : UInt16} (allowed : Ea.forbidden unit = false) :
    ¬(isHigh unit.toNat ∨ isLow unit.toNat) := by
  simp only [Ea.forbidden, decide_eq_false_iff_not, UInt16.le_iff_toNat_le,
    UInt16.lt_iff_toNat_lt] at allowed
  change ¬(_ ∨ unit.toNat < 32 ∨ 127 ≤ unit.toNat ∧ unit.toNat ≤ 159 ∨
    55296 ≤ unit.toNat ∧ unit.toNat ≤ 57343) at allowed
  simp only [isHigh, isLow, decide_eq_true_eq]
  omega

theorem control_of_allowed {unit : UInt16} (allowed : Ea.forbidden unit = false) :
    Codec.isControl (Wide.unitChar unit) = false := by
  have code := Wide.unitChar_toNat (single_of_allowed allowed)
  simp only [Ea.forbidden, decide_eq_false_iff_not, UInt16.le_iff_toNat_le,
    UInt16.lt_iff_toNat_lt] at allowed
  change ¬(_ ∨ unit.toNat < 32 ∨ 127 ≤ unit.toNat ∧ unit.toNat ≤ 159 ∨
    55296 ≤ unit.toNat ∧ unit.toNat ≤ 57343) at allowed
  rw [Codec.isControl, code, decide_eq_false_iff_not]
  omega

/-- A text that passed at the terminal is accepted by the client exactly when no end of it is
white to `str.strip`, which knows more spaces than JSON does. -/
theorem broker_text_taken (s : Wide) (maximum : ℕ) (label : String)
    (valid : Ea.optionalBrokerText s maximum = true) :
    Taken s label maximum ↔
      ∀ unit, s.head? = some unit ∨ s.getLast? = some unit →
      isSpace (Wide.unitChar unit) = false := by
  rcases optionalBrokerText_cases valid with rfl | ⟨more, short, allowed⟩
  · refine iff_of_true ⟨loads_quoted (by simp), rfl, rfl⟩ (by simp)
  · have single : ∀ unit ∈ s, ¬(isHigh unit.toNat ∨ isLow unit.toNat) := fun unit member =>
      single_of_allowed (allowed unit member)
    have seen := Wide.pyStr_single single
    have read := loads_quoted single
    have some : s.chars ≠ [] := by simpa [Wide.chars] using more
    have size : s.chars.length ≤ maximum := by simpa [Wide.chars] using short
    have controls : s.chars.all (fun c => !Codec.isControl c) = true := by
      simp only [Wide.chars, List.all_map, List.all_eq_true, Function.comp_apply, Bool.not_eq_true']
      exact fun unit member => control_of_allowed (allowed unit member)
    have checks : Codec.Passes (Codec.validatedOptionalText (.str s.pyStr) label maximum) ↔
        strip s.chars = s.chars := by
      rw [seen, Codec.validatedOptionalText, if_neg (by simpa [Codec.isText] using some),
        Codec.validatedText]
      change Codec.Passes
        (Codec.require true _ ++ Codec.require
        (!s.chars.isEmpty && decide (strip s.chars = s.chars) &&
        decide (s.chars.length ≤ maximum)) _ ++ Codec.require
          (s.chars.all fun c => !Codec.isControl c) _) ↔ _
      simp only [Codec.passes_append, Codec.passes_require, controls, size, some, Bool.and_eq_true,
        Bool.not_eq_true', List.isEmpty_eq_false_iff, decide_eq_true_eq, ne_eq, not_false_eq_true,
        true_and, and_true]
    have ends : strip s.chars = s.chars ↔ ∀ unit, s.head? = Option.some unit ∨
      s.getLast? = Option.some unit →
        isSpace (Wide.unitChar unit) = false := by
      rw [strip_eq_self, Wide.chars, List.head?_map, List.getLast?_map]
      simp only [Option.map_eq_some_iff]
      constructor
      · rintro solid unit (first | last)
        · exact solid _ (.inl ⟨unit, first, rfl⟩)
        · exact solid _ (.inr ⟨unit, last, rfl⟩)
      · rintro solid c (⟨unit, first, rfl⟩ | ⟨unit, last, rfl⟩)
        · exact solid unit (.inl first)
        · exact solid unit (.inr last)
    rw [← ends, ← checks]
    refine ⟨fun taken => taken.accepted, fun accepted => ⟨read, ?_, accepted⟩⟩
    rw [seen]
    rfl

theorem broker_text_taken_quote : Ea.optionalBrokerText (Ea.ascii "carry \"A\"") 128 = true ∧
    Taken (Ea.ascii "carry \"A\"") "comment" 128 := by
  refine ⟨by decide +kernel, (broker_text_taken _ 128 "comment" (by decide +kernel)).2 ?_⟩
  rintro unit (⟨⟨⟩⟩ | ⟨⟨⟩⟩) <;> decide

/-- A comment that starts with a space which does not break. -/
theorem broker_text_refused : ¬∀ (s : Wide) (maximum : ℕ) (label : String),
    Ea.optionalBrokerText s maximum = true → Taken s label maximum := by
  intro claim
  have taken := claim [0x00A0, 0x0078] 128 "comment" (by decide +kernel)
  cases taken.accepted

end Taken

end ArbNautilus.Mt5
