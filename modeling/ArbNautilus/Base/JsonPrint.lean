import ArbNautilus.Base.JsonDump
import ArbNautilus.Base.Trimmed

/-! A value's JSON text, however its strings are quoted, and that a reader takes it back. -/

namespace ArbNautilus.Base

section Write

variable {R : Type} (quote : PyStr → Text) (real : R → Text)

mutual

/-- The text of a value, without spaces. -/
def printValue : Json R → Text
  | .null => "null".toList
  | .bool value => if value then "true".toList else "false".toList
  | .int value => intText value
  | .real value => real value
  | .str value => quote value
  | .arr items => '[' :: printItems items
  | .obj members => '\x7b' :: printMembers members

/-- The items of an array and its end. -/
def printItems : List (Json R) → Text
  | [] => [']']
  | item :: items =>
    printValue item ++ (if items = [] then [']'] else ',' :: printItems items)

def printMembers : List (PyStr × Json R) → Text
  | [] => ['\x7d']
  | (key, value) :: members =>
    quote key ++ ':' :: printValue value ++
      (if members = [] then ['\x7d'] else ',' :: printMembers members)

end

end Write

section Strings

theorem hexValue_hexDigit {digit : ℕ} (small : digit < 16) :
    hexValue (hexDigit digit) = some digit := by
  have all : ∀ digit < 16, hexValue (hexDigit digit) = some digit := by decide
  exact all digit small

theorem scanString_quote (rest : Text) : scanString ('\x22' :: rest) = some ([], rest) := by
  rw [scanString.eq_def]
  simp

theorem scanString_simple {e : Char} {code : ℕ} (short : simpleEscape e = some code) (rest : Text) :
    scanString ('\x5c' :: e :: rest) =
      (scanString rest).map fun found => (code :: found.1, found.2) := by
  have other : e ≠ 'u' := by
    rintro rfl
    cases short
  rw [scanString.eq_def]
  simp [other, short]

/-- A code point that is no half of one. -/
def IsWholeCode (code : ℕ) : Prop := code < 0xD800 ∨ 0xE000 ≤ code ∧ code < 0x110000

theorem joinSurrogates_low {code : ℕ} (whole : ¬isHigh code) (rest : List ℕ) :
    joinSurrogates (code :: rest) = code :: joinSurrogates rest := by
  cases rest with
  | nil => rfl
  | cons next rest => rw [joinSurrogates, if_neg (fun both => whole both.1)]

theorem isWholeCode_toNat (c : Char) : IsWholeCode c.toNat := by
  have valid : c.toNat.isValidChar := c.valid
  unfold Nat.isValidChar at valid
  unfold IsWholeCode
  omega

theorem ofCodes_text (value : Text) : PyStr.ofCodes (value.map Char.toNat) = .text value := by
  have none : ((value.map Char.toNat).any fun code => isHigh code ∨ isLow code) = false := by
    apply List.any_eq_false.2
    intro code member
    obtain ⟨c, -, rfl⟩ := List.mem_map.1 member
    have whole := isWholeCode_toNat c
    unfold IsWholeCode at whole
    simp only [isHigh, isLow, decide_eq_true_eq]
    omega
  rw [PyStr.ofCodes, if_neg (by rw [none]; decide), List.map_map]
  congr 1
  rw [show Char.ofNat ∘ Char.toNat = id by funext c; exact Char.ofNat_toNat c, List.map_id]

/-- What a string is without escapes for what is not ASCII. -/
theorem scanString_escapeChar (c : Char) (rest : Text) :
    scanString (escapeChar c ++ rest) =
      (scanString rest).map fun found => (c.toNat :: found.1, found.2) := by
  unfold escapeChar
  split_ifs with mark newline carriage tab back feed control
  · exact scanString_simple (by simp [simpleEscape, or_assoc.symm, mark]) rest
  · subst newline
    exact scanString_simple (by decide) rest
  · subst carriage
    exact scanString_simple (by decide) rest
  · subst tab
    exact scanString_simple (by decide) rest
  · rw [back]
    exact scanString_simple (by decide) rest
  · rw [feed]
    exact scanString_simple (by decide) rest
  · have code : hexCode ['0', '0', hexDigit (c.toNat / 16), hexDigit (c.toNat % 16)] =
        some c.toNat := by
      have zero : hexValue '0' = some 0 := by decide
      simp only [hexCode, List.mapM_cons, List.mapM_nil, zero,
        hexValue_hexDigit (show c.toNat / 16 < 16 by omega),
        hexValue_hexDigit (show c.toNat % 16 < 16 by omega), Option.pure_def,
        Option.bind_eq_bind, Option.bind_some, Option.map_some, List.foldl_cons,
        List.foldl_nil, Option.some.injEq]
      omega
    simp [scanString, code]
  · rw [not_or] at mark
    rw [List.singleton_append, scanString.eq_def]
    simp [mark.1, mark.2, control]

theorem joinSurrogates_wholes {codes : List ℕ} (whole : ∀ code ∈ codes, IsWholeCode code) :
    joinSurrogates codes = codes := by
  induction codes with
  | nil => rfl
  | cons code codes ih =>
    have low : ¬isHigh code := by
      have bounds := whole code List.mem_cons_self
      unfold IsWholeCode at bounds
      simp only [isHigh, decide_eq_true_eq]
      omega
    rw [joinSurrogates_low low, ih fun other member => whole other (List.mem_cons_of_mem _ member)]

theorem scanString_quoted (value rest : Text) :
    scanString (value.flatMap escapeChar ++ '\x22' :: rest) =
      some (value.map Char.toNat, rest) := by
  induction value with
  | nil => exact scanString_quote rest
  | cons c value ih =>
    rw [List.flatMap_cons, List.append_assoc, scanString_escapeChar, ih]
    rfl

/-- A text is read back from its quotes. -/
theorem scanText_quoted {ε R : Type} (h : JsonHooks ε R) (value rest : Text) :
    h.scanText (value.flatMap escapeChar ++ '\x22' :: rest) = .ok (.text value, rest) := by
  have whole : ∀ code ∈ value.map Char.toNat, IsWholeCode code := by
    intro code member
    obtain ⟨c, -, rfl⟩ := List.mem_map.1 member
    exact isWholeCode_toNat c
  rw [JsonHooks.scanText, scanString_quoted]
  dsimp only
  rw [joinSurrogates_wholes whole, ofCodes_text]

end Strings

section Numbers

/-- What may follow a value inside a text. -/
def Closes (rest : Text) : Prop := ∀ c ∈ rest.head?, c = ',' ∨ c = ']' ∨ c = '\x7d'

variable {rest : Text}

theorem Closes.takeWhile (closes : Closes rest) : rest.takeWhile Char.isDigit = [] := by
  cases rest with
  | nil => rfl
  | cons c rest =>
    rcases closes c rfl with rfl | rfl | rfl
    all_goals rfl

theorem Closes.dropWhile (closes : Closes rest) : rest.dropWhile Char.isDigit = rest := by
  have whole := List.takeWhile_append_dropWhile (p := Char.isDigit) (l := rest)
  rwa [closes.takeWhile, List.nil_append] at whole

theorem Closes.scanFraction (closes : Closes rest) : scanFraction rest = ([], rest) := by
  cases rest with
  | nil => rfl
  | cons c rest =>
    have noPoint : c ≠ '.' := by
      rcases closes c rfl with rfl | rfl | rfl
      all_goals decide
    rw [Base.scanFraction, if_neg fun both => noPoint both.1]

theorem Closes.scanExponent (closes : Closes rest) : scanExponent rest = ([], rest) := by
  cases rest with
  | nil => rfl
  | cons c rest =>
    have noExponent : ¬(c = 'e' ∨ c = 'E') := by
      rcases closes c rfl with rfl | rfl | rfl
      all_goals decide
    rw [Base.scanExponent]
    exact if_neg fun both => noExponent both.1

theorem scanInteger_toDigits (closes : Closes rest) (n : ℕ) :
    scanInteger (Nat.toDigits 10 n ++ rest) = some (Nat.toDigits 10 n, rest) := by
  by_cases zero : n = 0
  · subst zero
    rfl
  · obtain ⟨c, more, digits, first⟩ := Decimal.toDigits_first zero
    have all := Decimal.isDigit_toDigits n
    rw [digits] at all ⊢
    have inner : ∀ d ∈ more, Char.isDigit d = true :=
      fun d member => all d (List.mem_cons_of_mem _ member)
    rw [List.cons_append, scanInteger, if_neg first, if_pos (all c List.mem_cons_self),
      List.takeWhile_append_of_pos inner, List.dropWhile_append_of_pos inner, closes.takeWhile,
      closes.dropWhile, List.append_nil]

theorem toDigits_front (n : ℕ) : ∃ c more, Nat.toDigits 10 n = c :: more ∧ c.isDigit = true := by
  have all := Decimal.isDigit_toDigits n
  cases digits : Nat.toDigits 10 n with
  | nil => exact absurd digits Nat.toDigits_ne_nil
  | cons c more => exact ⟨c, more, rfl, all c (by simp [digits])⟩

theorem ne_of_isDigit {c d : Char} (digit : c.isDigit = true) (other : d.isDigit = false) :
    c ≠ d := by
  rintro rfl
  rw [digit] at other
  cases other

theorem scanNumber_intText (closes : Closes rest) (value : ℤ) :
    scanNumber (intText value ++ rest) = some (intText value, false, rest) := by
  have digits := scanInteger_toDigits closes value.natAbs
  unfold intText
  split_ifs with negative
  · simp [scanNumber, scanMinus, digits, closes.scanFraction, closes.scanExponent]
  · obtain ⟨c, more, written, digit⟩ := toDigits_front value.natAbs
    have noSign : c ≠ '-' := ne_of_isDigit digit (by decide)
    have unsigned : scanMinus (Nat.toDigits 10 value.natAbs ++ rest) =
        ([], Nat.toDigits 10 value.natAbs ++ rest) := by
      rw [written, List.cons_append, scanMinus, if_neg noSign]
    simp [scanNumber, unsigned, digits, closes.scanFraction, closes.scanExponent]

/-- An integer starts with a digit, or with a minus and a digit behind it. -/
theorem intText_front (value : ℤ) : ∃ c more, intText value = c :: more ∧
    (c.isDigit = true ∨ c = '-' ∧ ∃ d after, more = d :: after ∧ d.isDigit = true) := by
  obtain ⟨c, more, written, digit⟩ := toDigits_front value.natAbs
  unfold intText
  split_ifs with negative
  · exact ⟨'-', _, rfl, Or.inr ⟨rfl, c, more, written, digit⟩⟩
  · exact ⟨c, more, written, Or.inl digit⟩

end Numbers

section Values

variable {ε R : Type}

mutual

/-- A reader takes each integer, text and object of the value as it is. -/
def Json.Readable (h : JsonHooks ε R) : Json R → Prop
  | .null | .bool _ => True
  | .int value => h.parseInt (intText value) = .ok value
  | .real _ => False
  | .str text => ∃ value, text = .text value
  | .arr items => ReadableItems h items
  | .obj members => h.pairs members = .ok members ∧ ReadableMembers h members

def Json.ReadableItems (h : JsonHooks ε R) : List (Json R) → Prop
  | [] => True
  | item :: items => item.Readable h ∧ ReadableItems h items

def Json.ReadableMembers (h : JsonHooks ε R) : List (PyStr × Json R) → Prop
  | [] => True
  | (key, value) :: members =>
    (∃ text, key = .text text) ∧ value.Readable h ∧ ReadableMembers h members

end

theorem readableItems_iff (h : JsonHooks ε R) (items : List (Json R)) :
    Json.ReadableItems h items ↔ ∀ item ∈ items, item.Readable h := by
  induction items with
  | nil => simp [Json.ReadableItems]
  | cons item items ih => rw [Json.ReadableItems, ih, List.forall_mem_cons]

theorem readableMembers_iff (h : JsonHooks ε R) (members : List (PyStr × Json R)) :
    Json.ReadableMembers h members ↔
      ∀ member ∈ members, (∃ text, member.1 = .text text) ∧ member.2.Readable h := by
  induction members with
  | nil => simp [Json.ReadableMembers]
  | cons member members ih =>
    obtain ⟨key, value⟩ := member
    rw [Json.ReadableMembers, ih, List.forall_mem_cons, and_assoc]

/-- A reader takes a quoted text back. -/
def JsonHooks.Quotes (h : JsonHooks ε R) (quote : PyStr → Text) : Prop :=
  ∀ value, ∃ inner, quote (.text value) = '\x22' :: inner ∧
    ∀ rest, h.scanText (inner ++ rest) = .ok (.text value, rest)

/-- No space, no closing bracket and no mark of an encoding. -/
def Fronts (c : Char) : Prop := c ∉ [' ', '\t', '\n', '\r', ']', '\uFEFF']

variable {quote : PyStr → Text} {real : R → Text} {h : JsonHooks ε R}

theorem fronts_quote : Fronts '\x22' := by
  unfold Fronts
  decide

theorem fronts_of_isDigit {c : Char} (digit : c.isDigit = true) : Fronts c := by
  have each : ∀ d, d.isDigit = false → c ≠ d := fun d other => ne_of_isDigit digit other
  simp only [Fronts, List.mem_cons, List.not_mem_nil, or_false, not_or]
  exact ⟨each _ (by decide), each _ (by decide), each _ (by decide), each _ (by decide),
    each _ (by decide), each _ (by decide)⟩

theorem printValue_front (real : R → Text) (quotes : h.Quotes quote) {value : Json R}
    (readable : value.Readable h) :
    ∃ c more, printValue quote real value = c :: more ∧ Fronts c := by
  cases value with
  | null => exact ⟨_, _, rfl, by unfold Fronts; decide⟩
  | bool value =>
    cases value
    all_goals exact ⟨_, _, rfl, by unfold Fronts; decide⟩
  | int value =>
    obtain ⟨c, more, written, front⟩ := intText_front value
    refine ⟨c, more, written, ?_⟩
    obtain digit | ⟨rfl, -⟩ := front
    · exact fronts_of_isDigit digit
    · unfold Fronts
      decide
  | real value => exact readable.elim
  | str text =>
    obtain ⟨value, rfl⟩ := readable
    obtain ⟨inner, opened, -⟩ := quotes value
    exact ⟨_, inner, opened, fronts_quote⟩
  | arr items => exact ⟨_, _, rfl, by unfold Fronts; decide⟩
  | obj members => exact ⟨_, _, rfl, by unfold Fronts; decide⟩

theorem skipSpace_front {c : Char} (front : Fronts c) (rest : Text) :
    JsonHooks.skipSpace (c :: rest) = c :: rest := by
  simp only [Fronts, List.mem_cons, List.not_mem_nil, or_false, not_or] at front
  obtain ⟨space, tab, newline, carriage, -, -⟩ := front
  rw [JsonHooks.skipSpace, List.dropWhile_cons, if_neg]
  simp [space, tab, newline, carriage]

theorem scalar_word {rest : Text} (word : Text) (value : Json R)
    (listed : h.words.find? (fun other => other.1.isPrefixOf (word ++ rest)) =
      some (word, .ok value)) :
    h.scalar (word ++ rest) = .ok (value, rest) := by
  rw [JsonHooks.scalar, listed]
  simp [Except.map]

theorem words_intText (value : ℤ) (rest : Text) :
    h.words.find? (fun word => word.1.isPrefixOf (intText value ++ rest)) = none := by
  obtain ⟨c, more, written, front⟩ := intText_front value
  apply List.find?_eq_none.2
  intro word listed
  rw [written]
  simp only [JsonHooks.words, List.mem_cons, List.not_mem_nil, or_false] at listed
  obtain digit | ⟨rfl, d, after, rfl, digit⟩ := front
  · have each : ∀ d, d.isDigit = false → d ≠ c := fun d other => (ne_of_isDigit digit other).symm
    rcases listed with rfl | rfl | rfl | rfl | rfl | rfl
    all_goals simp [List.isPrefixOf, each]
  · have each : ∀ e, e.isDigit = false → e ≠ d := fun e other => (ne_of_isDigit digit other).symm
    rcases listed with rfl | rfl | rfl | rfl | rfl | rfl
    all_goals simp [List.isPrefixOf, each]

theorem scalar_intText {value : ℤ} (reads : h.parseInt (intText value) = .ok value) {rest : Text}
    (closes : Closes rest) : h.scalar (intText value ++ rest) = .ok (.int value, rest) := by
  rw [JsonHooks.scalar, words_intText, scanNumber_intText closes]
  simp [reads, Except.map]

theorem parseValue_scalar {turns : ℕ} {text rest : Text} {c : Char} (written : text = c :: rest)
    (quote : c ≠ '\x22') (brace : c ≠ '\x7b') (bracket : c ≠ '[') :
    h.parseValue (turns + 1) text = Scan.give (h.scalar text) := by
  rw [written, JsonHooks.parseValue, if_neg quote, if_neg brace, if_neg bracket]

theorem parseValue_word {turns : ℕ} {word rest : Text} {value : Json R} {c : Char} (listed :
      h.words.find? (fun other => other.1.isPrefixOf (word ++ rest)) = some (word, .ok value))
    (front : (word ++ rest).head? = some c) (quote : c ≠ '\x22') (brace : c ≠ '\x7b')
    (bracket : c ≠ '[') :
    h.parseValue (turns + 1) (word ++ rest) = Scan.give (.ok (value, rest)) := by
  obtain ⟨more, written⟩ := List.head?_eq_some_iff.1 front
  rw [parseValue_scalar written quote brace bracket, scalar_word word value listed]

theorem parseValue_intText {turns : ℕ} {value : ℤ} (reads : h.parseInt (intText value) = .ok value)
    {rest : Text} (closes : Closes rest) :
    h.parseValue (turns + 1) (intText value ++ rest) = Scan.give (.ok (.int value, rest)) := by
  obtain ⟨c, more, written, front⟩ := intText_front value
  have other : c.isDigit = true ∨ c = '-' := front.imp_right And.left
  have each : ∀ d, d.isDigit = false → d ≠ '-' → c ≠ d := by
    intro d noDigit noMinus
    obtain digit | rfl := other
    · exact ne_of_isDigit digit noDigit
    · exact noMinus.symm
  have front' : intText value ++ rest = c :: (more ++ rest) := by rw [written, List.cons_append]
  rw [parseValue_scalar front' (each _ (by decide) (by decide)) (each _ (by decide) (by decide))
    (each _ (by decide) (by decide)), scalar_intText reads closes]

theorem printItems_length (item : Json R) (items : List (Json R)) :
    (printItems quote real (item :: items)).length =
      (printValue quote real item).length + 1 + (if items = [] then 0
        else (printItems quote real items).length) := by
  rw [printItems, List.length_append]
  split_ifs
  · rfl
  · rw [List.length_cons]
    omega

theorem printMembers_length (key : PyStr) (value : Json R) (members : List (PyStr × Json R)) :
    (printMembers quote real ((key, value) :: members)).length =
      (quote key).length + (printValue quote real value).length + 2 +
        (if members = [] then 0 else (printMembers quote real members).length) := by
  rw [printMembers, List.length_append, List.length_append, List.length_cons]
  split_ifs
  · rw [List.length_singleton]
    omega
  · rw [List.length_cons]
    omega

theorem closes_bracket (rest : Text) : Closes (']' :: rest) := by
  rintro c ⟨⟩
  exact Or.inr (Or.inl rfl)

theorem closes_brace (rest : Text) : Closes ('\x7d' :: rest) := by
  rintro c ⟨⟩
  exact Or.inr (Or.inr rfl)

theorem closes_comma (rest : Text) : Closes (',' :: rest) := by
  rintro c ⟨⟩
  exact Or.inl rfl

theorem printItems_front (real : R → Text) (quotes : h.Quotes quote) {item : Json R}
    (readable : item.Readable h) (items : List (Json R)) :
    ∃ c more, printItems quote real (item :: items) = c :: more ∧ Fronts c := by
  obtain ⟨c, more, written, front⟩ := printValue_front real quotes readable
  exact ⟨c, _, by rw [printItems, written, List.cons_append], front⟩

theorem printMembers_front (real : R → Text) (quotes : h.Quotes quote) {member : PyStr × Json R}
    {members : List (PyStr × Json R)} (readable : Json.ReadableMembers h (member :: members)) :
    ∃ more, printMembers quote real (member :: members) = '\x22' :: more := by
  obtain ⟨key, value⟩ := member
  obtain ⟨⟨text, rfl⟩, -⟩ := readable
  obtain ⟨inner, opened, -⟩ := quotes text
  exact ⟨_, by rw [printMembers, opened]; rfl⟩

/-- Each value whose text is no longer than this is read from it. -/
def ValuesRead (quote : PyStr → Text) (real : R → Text) (h : JsonHooks ε R) (turns : ℕ) : Prop :=
  ∀ value, value.Readable h → ∀ rest, Closes rest →
    (printValue quote real value).length ≤ turns →
    h.parseValue turns (printValue quote real value ++ rest) = Scan.give (.ok (value, rest))

def ItemsRead (quote : PyStr → Text) (real : R → Text) (h : JsonHooks ε R) (turns : ℕ) : Prop :=
  ∀ items, items ≠ [] → Json.ReadableItems h items → ∀ rest,
    (printItems quote real items).length ≤ turns →
    h.parseItems turns (printItems quote real items ++ rest) = Scan.give (.ok (items, rest))

def MembersRead (quote : PyStr → Text) (real : R → Text) (h : JsonHooks ε R) (turns : ℕ) : Prop :=
  ∀ members, members ≠ [] → Json.ReadableMembers h members → ∀ rest,
    (printMembers quote real members).length ≤ turns →
    h.parseMembers turns (printMembers quote real members ++ rest) = Scan.give (.ok (members, rest))

theorem parseValue_arr (quotes : h.Quotes quote) {turns : ℕ} (items : ItemsRead quote real h turns)
    {list : List (Json R)} (readable : Json.ReadableItems h list) {rest : Text}
    (enough : (printItems quote real list).length ≤ turns) :
    h.parseValue (turns + 1) ('[' :: (printItems quote real list ++ rest)) =
      Scan.give (.ok (.arr list, rest)) := by
  rw [JsonHooks.parseValue, if_neg (by decide), if_neg (by decide), if_pos rfl]
  cases list with
  | nil => rfl
  | cons item more =>
    obtain ⟨c, text, written, front⟩ := printItems_front real quotes readable.1 more
    have read := items (item :: more) (List.cons_ne_nil _ _) readable rest enough
    have noEnd : c ≠ ']' := by
      rintro rfl
      exact front (by decide)
    rw [written, List.cons_append] at read ⊢
    rw [skipSpace_front front]
    dsimp only
    rw [if_neg noEnd, read, Scan.give_bind]
    rfl

theorem parseValue_obj (quotes : h.Quotes quote) {turns : ℕ}
    (members : MembersRead quote real h turns) {list : List (PyStr × Json R)}
    (kept : h.pairs list = .ok list) (readable : Json.ReadableMembers h list)
    {rest : Text} (enough : (printMembers quote real list).length ≤ turns) :
    h.parseValue (turns + 1) ('\x7b' :: (printMembers quote real list ++ rest)) =
      Scan.give (.ok (.obj list, rest)) := by
  rw [JsonHooks.parseValue, if_neg (by decide), if_pos rfl]
  cases list with
  | nil =>
    change (Scan.give (h.pairs []) >>= fun members => pure (Json.obj members, rest)) = _
    rw [kept, Scan.give_bind]
    rfl
  | cons member more =>
    obtain ⟨text, written⟩ := printMembers_front real quotes readable
    have read := members (member :: more) (List.cons_ne_nil _ _) readable rest enough
    rw [written, List.cons_append] at read ⊢
    rw [skipSpace_front fronts_quote]
    dsimp only
    rw [if_neg (by decide), read, Scan.give_bind, kept, Scan.give_bind]
    rfl

theorem valuesRead_succ (quotes : h.Quotes quote) {turns : ℕ}
    (items : ItemsRead quote real h turns) (members : MembersRead quote real h turns) :
    ValuesRead quote real h (turns + 1) := by
  intro value readable rest closes enough
  cases value with
  | null => exact parseValue_word rfl rfl (by decide) (by decide) (by decide)
  | bool value =>
    cases value with
    | false => exact parseValue_word rfl rfl (by decide) (by decide) (by decide)
    | true => exact parseValue_word rfl rfl (by decide) (by decide) (by decide)
  | int value => exact parseValue_intText readable closes
  | real value => exact readable.elim
  | str text =>
    obtain ⟨value, rfl⟩ := readable
    obtain ⟨inner, opened, scans⟩ := quotes value
    rw [printValue, opened, List.cons_append, JsonHooks.parseValue, if_pos rfl, scans,
      Scan.give_bind]
    rfl
  | arr list =>
    apply parseValue_arr quotes items readable
    simp only [printValue, List.length_cons] at enough
    omega
  | obj list =>
    apply parseValue_obj quotes members readable.1 readable.2
    simp only [printValue, List.length_cons] at enough
    omega

theorem itemsRead_succ (quotes : h.Quotes quote) {turns : ℕ}
    (values : ValuesRead quote real h turns) (items : ItemsRead quote real h turns) :
    ItemsRead quote real h (turns + 1) := by
  intro list some readable rest enough
  cases list with
  | nil => exact absurd rfl some
  | cons item more =>
    rw [printItems_length] at enough
    rw [JsonHooks.parseItems, printItems, List.append_assoc]
    by_cases last : more = []
    · subst last
      have first := values item readable.1 _ (closes_bracket rest) (by omega)
      rw [if_pos rfl, List.singleton_append, first, Scan.give_bind]
      rfl
    · rw [if_neg last] at enough ⊢
      have first := values item readable.1 _ (closes_comma (printItems quote real more ++ rest))
        (by omega)
      have read := items more last readable.2 rest (by omega)
      have front : JsonHooks.skipSpace (printItems quote real more ++ rest) =
          printItems quote real more ++ rest := by
        cases more with
        | nil => exact absurd rfl last
        | cons next later =>
          obtain ⟨c, text, written, front⟩ :=
            printItems_front real quotes readable.2.1 later
          rw [written, List.cons_append, skipSpace_front front]
      rw [List.cons_append, first, Scan.give_bind]
      change (h.parseItems turns (JsonHooks.skipSpace (printItems quote real more ++ rest)) >>=
        fun found => pure (item :: found.1, found.2)) = _
      rw [front, read, Scan.give_bind]
      rfl

/-- The key of a member and the colon behind it. -/
theorem parseMembers_key (quotes : h.Quotes quote) {turns : ℕ} (text : Text) {value : Json R}
    (readable : value.Readable h) (rest : Text) :
    h.parseMembers (turns + 1)
      (quote (.text text) ++ ':' :: (printValue quote real value ++ rest)) =
      (h.parseValue turns (printValue quote real value ++ rest) >>= fun found =>
        match JsonHooks.skipSpace found.2 with
        | [] => Scan.give (.error h.malformed)
        | d :: rest =>
          if d = '\x7d' then pure ([(.text text, found.1)], rest)
          else if d = ',' then
            h.parseMembers turns (JsonHooks.skipSpace rest) >>= fun more =>
              pure ((.text text, found.1) :: more.1, more.2)
          else Scan.give (.error h.malformed)) := by
  obtain ⟨c, more, written, front⟩ := printValue_front real quotes readable
  obtain ⟨inner, opened, scans⟩ := quotes text
  have skip := skipSpace_front front (more ++ rest)
  rw [opened, List.cons_append, JsonHooks.parseMembers, if_pos rfl, scans, Scan.give_bind, written,
    List.cons_append]
  exact congrArg (fun text => h.parseValue turns text >>= _) skip

theorem membersRead_succ (quotes : h.Quotes quote) {turns : ℕ}
    (values : ValuesRead quote real h turns) (members : MembersRead quote real h turns) :
    MembersRead quote real h (turns + 1) := by
  intro list some readable rest enough
  cases list with
  | nil => exact absurd rfl some
  | cons member more =>
    obtain ⟨key, value⟩ := member
    obtain ⟨⟨text, rfl⟩, first, later⟩ := readable
    rw [printMembers_length] at enough
    rw [printMembers, List.append_assoc, List.append_assoc, List.cons_append]
    by_cases last : more = []
    · subst last
      have read := values value first _ (closes_brace rest) (by omega)
      rw [if_pos rfl, List.singleton_append, parseMembers_key quotes text first, read,
        Scan.give_bind]
      rfl
    · rw [if_neg last] at enough ⊢
      have read := values value first _ (closes_comma (printMembers quote real more ++ rest))
        (by omega)
      have others := members more last later rest (by omega)
      have front : JsonHooks.skipSpace (printMembers quote real more ++ rest) =
          printMembers quote real more ++ rest := by
        cases more with
        | nil => exact absurd rfl last
        | cons next rest' =>
          obtain ⟨inner, written⟩ := printMembers_front real quotes later
          rw [written, List.cons_append, skipSpace_front fronts_quote]
      rw [List.cons_append, parseMembers_key quotes text first, read, Scan.give_bind]
      change (h.parseMembers turns
        (JsonHooks.skipSpace (printMembers quote real more ++ rest)) >>=
          fun found => pure ((.text text, value) :: found.1, found.2)) = _
      rw [front, others, Scan.give_bind]
      rfl

/-- Every value is read from its own text, whatever follows it. -/
theorem parse_print (quotes : h.Quotes quote) (turns : ℕ) :
    ValuesRead quote real h turns ∧ ItemsRead quote real h turns ∧
      MembersRead quote real h turns := by
  induction turns with
  | zero =>
    refine ⟨fun value readable rest _ enough => ?_, fun items some readable rest enough => ?_,
      fun members some readable rest enough => ?_⟩
    · obtain ⟨c, more, written, -⟩ := printValue_front real quotes readable
      simp [written] at enough
    · cases items with
      | nil => exact absurd rfl some
      | cons item items =>
        rw [printItems_length] at enough
        omega
    · cases members with
      | nil => exact absurd rfl some
      | cons member members =>
        rw [printMembers_length] at enough
        omega
  | succ turns ih =>
    obtain ⟨values, items, members⟩ := ih
    exact ⟨valuesRead_succ quotes items members, itemsRead_succ quotes values items,
      membersRead_succ quotes values members⟩

/-- A text is read back as the value that was written. -/
theorem loads_printValue (quotes : h.Quotes quote) {value : Json R} (readable : value.Readable h) :
    h.loads (printValue quote real value) = .ok value := by
  obtain ⟨c, more, written, front⟩ := printValue_front real quotes readable
  have noMark : c ≠ '\uFEFF' := by
    rintro rfl
    exact front (by decide)
  have closes : Closes [] := by
    rintro c ⟨⟩
  have enough : (printValue quote real value).length ≤
      JsonHooks.turnsFor (printValue quote real value) := by
    unfold JsonHooks.turnsFor
    omega
  have read := (parse_print quotes (JsonHooks.turnsFor (printValue quote real value))).1 value
    readable [] closes enough
  rw [List.append_nil] at read
  have skip : JsonHooks.skipSpace (printValue quote real value) = printValue quote real value := by
    rw [written, skipSpace_front front]
  have head : (printValue quote real value).head? ≠ some '\uFEFF' := by
    rw [written]
    simpa using noMark
  rw [JsonHooks.loads, if_neg head, skip, read]
  rfl

end Values

section Quoted

/-- A string's text without escapes for what is not ASCII; a lone surrogate has none. -/
def quotedText (value : PyStr) : Text := (quotedStr value).getD []

theorem quotes_quotedText {ε R : Type} (h : JsonHooks ε R) : h.Quotes quotedText := by
  intro value
  refine ⟨_, rfl, fun rest => ?_⟩
  rw [List.append_assoc, List.singleton_append]
  exact scanText_quoted h value rest

end Quoted

end ArbNautilus.Base
