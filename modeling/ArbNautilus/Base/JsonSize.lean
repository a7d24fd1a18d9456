import ArbNautilus.Base.JsonPrint

/-! How many bytes a value's text has at most. -/

namespace ArbNautilus.Base

/-- The length of a text's UTF-8 encoding. -/
def utf8Size (text : Text) : ℕ := (text.map Char.utf8Size).sum

@[simp] theorem utf8Size_nil : utf8Size [] = 0 := rfl

@[simp] theorem utf8Size_cons (c : Char) (text : Text) :
    utf8Size (c :: text) = c.utf8Size + utf8Size text := rfl

@[simp] theorem utf8Size_append (a b : Text) : utf8Size (a ++ b) = utf8Size a + utf8Size b := by
  simp [utf8Size]

theorem utf8Size_char {c : Char} (ascii : c.toNat < 128) : c.utf8Size = 1 := by
  rw [Char.utf8Size_eq_one_iff, UInt32.le_iff_toNat_le]
  exact Nat.le_of_lt_succ ascii

theorem utf8Size_ascii {text : Text} (ascii : ∀ c ∈ text, c.toNat < 128) :
    utf8Size text = text.length := by
  induction text with
  | nil => rfl
  | cons c text ih =>
    rw [utf8Size_cons, ih fun d member => ascii d (List.mem_cons_of_mem c member),
      utf8Size_char (ascii c List.mem_cons_self), List.length_cons, Nat.add_comm]

theorem utf8Size_escapeChar (c : Char) : utf8Size (escapeChar c) ≤ 6 := by
  have own := Char.utf8Size_le_four c
  have slash : Char.utf8Size '\x5c' = 1 := by decide
  have small : ∀ n < 16, (hexDigit n).toNat < 128 := by decide
  have letter : ∀ d ∈ ['n', 'r', 't', 'b', 'f', 'u', '0'], Char.utf8Size d = 1 := by
    simp only [List.forall_mem_cons]
    exact ⟨rfl, rfl, rfl, rfl, rfl, rfl, rfl, List.forall_mem_nil _⟩
  have digit : ∀ n < 16, Char.utf8Size (hexDigit n) = 1 := fun n below =>
    utf8Size_char (small n below)
  unfold escapeChar
  split_ifs with mark newline carriage tab back feed control
  · simp only [utf8Size_cons, utf8Size_nil, slash]
    omega
  · simp [slash, letter]
  · simp [slash, letter]
  · simp [slash, letter]
  · simp [slash, letter]
  · simp [slash, letter]
  · simp [slash, letter, digit _ (show c.toNat / 16 < 16 by omega),
      digit _ (show c.toNat % 16 < 16 by omega)]
  · simp only [utf8Size_cons, utf8Size_nil]
    omega

theorem utf8Size_quoted (text : Text) : utf8Size (quoted text) ≤ 6 * text.length + 2 := by
  have mark : Char.utf8Size '\x22' = 1 := by decide
  have body : utf8Size (text.flatMap escapeChar) ≤ 6 * text.length := by
    induction text with
    | nil => rfl
    | cons c text ih =>
      have first := utf8Size_escapeChar c
      rw [List.flatMap_cons, utf8Size_append, List.length_cons]
      omega
  rw [quoted, utf8Size_cons, utf8Size_append, utf8Size_cons, utf8Size_nil, mark]
  omega

section Bound

variable {R : Type}

mutual

/-- No text of the value has more bytes; a number with a fraction is not counted. -/
def Json.bound : Json R → ℕ
  | .null => 4
  | .bool _ => 5
  | .int value => (intText value).length
  | .real _ => 0
  | .str text => 6 * text.codes.length + 2
  | .arr items => 1 + Json.itemsBound items
  | .obj members => 1 + Json.membersBound members

def Json.itemsBound : List (Json R) → ℕ
  | [] => 1
  | item :: items => item.bound + 1 + Json.itemsBound items

def Json.membersBound : List (PyStr × Json R) → ℕ
  | [] => 1
  | (key, value) :: members =>
    6 * key.codes.length + 3 + value.bound + 1 + Json.membersBound members

end

@[simp] theorem bound_str (text : Text) :
    (Json.str (.text text) : Json R).bound = 6 * text.length + 2 := by
  simp [Json.bound, PyStr.codes]

/-- An object's bound, from one on its names and one on its values. -/
theorem membersBound_le {name value : ℕ} {members : List (PyStr × Json R)}
    (each : ∀ member ∈ members, member.1.codes.length ≤ name ∧ member.2.bound ≤ value) :
    Json.membersBound members ≤ members.length * (6 * name + 4 + value) + 1 := by
  induction members with
  | nil => simp [Json.membersBound]
  | cons member members ih =>
    obtain ⟨key, shown⟩ := member
    obtain ⟨⟨named, small⟩, rest⟩ := List.forall_mem_cons.1 each
    have others := ih rest
    simp only [Json.membersBound, List.length_cons, Nat.add_mul, Nat.one_mul]
    dsimp only at named small
    omega

theorem ascii_intText (value : ℤ) : ∀ c ∈ intText value, c.toNat < 128 := by
  have digits : ∀ c ∈ Nat.toDigits 10 value.natAbs, c.toNat < 128 := by
    intro c member
    have digit := Decimal.isDigit_toDigits _ c member
    simp only [Char.isDigit, ge_iff_le, Bool.and_eq_true, decide_eq_true_eq,
      UInt32.le_iff_toNat_le] at digit
    exact Nat.lt_of_le_of_lt digit.2 (by decide)
  unfold intText
  split_ifs
  · exact List.forall_mem_cons.2 ⟨by decide, digits⟩
  · exact digits

mutual

/-- A printed value has no more bytes than its bound. -/
theorem utf8Size_printValue {ε : Type} {h : JsonHooks ε R} (real : R → Text) {value : Json R}
    (readable : value.Readable h) : utf8Size (printValue quotedText real value) ≤ value.bound := by
  cases value with
  | null => exact (by decide : utf8Size "null".toList ≤ 4)
  | bool value =>
    cases value with
    | false => exact (by decide : utf8Size "false".toList ≤ 5)
    | true => exact (by decide : utf8Size "true".toList ≤ 5)
  | int value => exact (utf8Size_ascii (ascii_intText value)).le
  | real value => exact readable.elim
  | str text =>
    obtain ⟨value, rfl⟩ := readable
    rw [bound_str]
    exact utf8Size_quoted value
  | arr items =>
    have inner := utf8Size_printItems real readable
    have mark : Char.utf8Size '[' = 1 := by decide
    rw [printValue, Json.bound, utf8Size_cons, mark]
    omega
  | obj members =>
    have inner := utf8Size_printMembers real readable.2
    have mark : Char.utf8Size '\x7b' = 1 := by decide
    rw [printValue, Json.bound, utf8Size_cons, mark]
    omega

theorem utf8Size_printItems {ε : Type} {h : JsonHooks ε R} (real : R → Text)
    {items : List (Json R)} (readable : Json.ReadableItems h items) :
    utf8Size (printItems quotedText real items) ≤ Json.itemsBound items := by
  have marks : Char.utf8Size ']' = 1 ∧ Char.utf8Size ',' = 1 := by decide
  cases items with
  | nil => exact (by decide : utf8Size [']'] ≤ 1)
  | cons item items =>
    have first := utf8Size_printValue real readable.1
    have rest := utf8Size_printItems real readable.2
    rw [printItems, Json.itemsBound, utf8Size_append]
    split_ifs with last
    · rw [utf8Size_cons, utf8Size_nil, marks.1]
      subst last
      omega
    · rw [utf8Size_cons, marks.2]
      omega

theorem utf8Size_printMembers {ε : Type} {h : JsonHooks ε R} (real : R → Text)
    {members : List (PyStr × Json R)} (readable : Json.ReadableMembers h members) :
    utf8Size (printMembers quotedText real members) ≤ Json.membersBound members := by
  have marks : Char.utf8Size '\x7d' = 1 ∧ Char.utf8Size ',' = 1 ∧ Char.utf8Size ':' = 1 := by
    decide
  cases members with
  | nil => exact (by decide : utf8Size ['\x7d'] ≤ 1)
  | cons member members =>
    obtain ⟨key, value⟩ := member
    obtain ⟨⟨text, rfl⟩, first, rest⟩ := readable
    have named := utf8Size_quoted text
    have shown := utf8Size_printValue real first
    have others := utf8Size_printMembers real rest
    have codes : (PyStr.text text).codes.length = text.length := by simp [PyStr.codes]
    rw [printMembers, Json.membersBound, utf8Size_append, utf8Size_append, utf8Size_cons,
      marks.2.2, codes]
    change utf8Size (quoted text) + _ + _ ≤ _
    split_ifs with last
    · rw [utf8Size_cons, utf8Size_nil, marks.1]
      subst last
      omega
    · rw [utf8Size_cons, marks.2.1]
      omega

end

end Bound

end ArbNautilus.Base
