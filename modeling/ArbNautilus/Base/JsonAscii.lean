import ArbNautilus.Base.Dict
import ArbNautilus.Base.JsonPrint

/-! What `json.dump` writes by default, and that `json.loads` reads it back. -/

namespace ArbNautilus.Base

section Write

/-- `\uXXXX`. -/
def unitEscape (code : ℕ) : Text :=
  ['\x5c', 'u', hexDigit (code / 4096 % 16), hexDigit (code / 256 % 16), hexDigit (code / 16 % 16),
    hexDigit (code % 16)]

/-- The two halves of a code point past the first 65536. -/
def halves (code : ℕ) :
    List ℕ := [0xD800 + (code - 0x10000) / 0x400, 0xDC00 + (code - 0x10000) % 0x400]

/-- One code point of a string, with `ensure_ascii`. -/
def escapeCode (code : ℕ) : Text :=
  if code = 0x22 then ['\x5c', '\x22']
  else if code = 0x5C then ['\x5c', '\x5c']
  else if code = 10 then ['\x5c', 'n']
  else if code = 13 then ['\x5c', 'r']
  else if code = 9 then ['\x5c', 't']
  else if code = 12 then ['\x5c', 'f']
  else if code = 8 then ['\x5c', 'b']
  else if 32 ≤ code ∧ code < 127 then [Char.ofNat code]
  else if code < 0x10000 then unitEscape code
  else (halves code).flatMap unitEscape

def quotedAscii (text : PyStr) : Text :=
  '\x22' :: (text.codes.flatMap escapeCode ++ ['\x22'])

/-- `json.dump` with `separators=(",", ":")` and `sort_keys`. -/
def dumpAscii {R : Type} (real : R → Text) (value : Json R) : Text :=
  printValue quotedAscii real (sorted value)

end Write

section Strings

theorem hexCode_unit {code : ℕ} (small : code < 0x10000) :
    hexCode [hexDigit (code / 4096 % 16), hexDigit (code / 256 % 16), hexDigit (code / 16 % 16),
      hexDigit (code % 16)] = some code := by
  simp only [hexCode, List.mapM_cons, List.mapM_nil, hexValue_hexDigit (Nat.mod_lt _ (by norm_num)),
    Option.pure_def, Option.bind_eq_bind, Option.bind_some, Option.map_some, List.foldl_cons,
    List.foldl_nil, Option.some.injEq]
  omega

theorem scanString_unit {code : ℕ} (small : code < 0x10000) (rest : Text) :
    scanString (unitEscape code ++ rest) =
      (scanString rest).map fun found => (code :: found.1, found.2) := by
  simp [unitEscape, scanString, hexCode_unit small]

/-- The code units of an escaped code point. -/
def unitsOfCode (code : ℕ) : List ℕ := if code < 0x10000 then [code] else halves code

theorem toNat_ascii {code : ℕ} (small : code < 127) : (Char.ofNat code).toNat = code := by
  have all : ∀ code < 127, (Char.ofNat code).toNat = code := by decide
  exact all code small

/-- What no escape is needed for is read as it is. -/
theorem scanString_plain {code : ℕ} (first : 32 ≤ code) (last : code < 127) (quote : code ≠ 0x22)
    (slash : code ≠ 0x5C) (rest : Text) :
    scanString (Char.ofNat code :: rest) =
      (scanString rest).map fun found => (code :: found.1, found.2) := by
  have same := toNat_ascii last
  have noQuote : Char.ofNat code ≠ '\x22' := by
    intro eq
    exact quote (by rw [← same, eq]; rfl)
  have noSlash : Char.ofNat code ≠ '\x5c' := by
    intro eq
    exact slash (by rw [← same, eq]; rfl)
  rw [scanString.eq_def]
  simp [noQuote, noSlash, same, first]

theorem halves_small {code : ℕ} (small : code < 0x110000) (large : ¬code < 0x10000) :
    0xD800 + (code - 0x10000) / 0x400 < 0x10000 ∧ 0xDC00 + (code - 0x10000) % 0x400 < 0x10000 := by
  omega

theorem scanString_escape {code : ℕ} (small : code < 0x110000) (rest : Text) :
    scanString (escapeCode code ++ rest) =
      (scanString rest).map fun found => (unitsOfCode code ++ found.1, found.2) := by
  by_cases unit : code < 0x10000
  · have one : unitsOfCode code = [code] := if_pos unit
    rw [one]
    unfold escapeCode
    split_ifs with quote slash newline carriage tab feed back plain
    · subst quote
      exact scanString_simple (by decide) rest
    · subst slash
      exact scanString_simple (by decide) rest
    · subst newline
      exact scanString_simple (by decide) rest
    · subst carriage
      exact scanString_simple (by decide) rest
    · subst tab
      exact scanString_simple (by decide) rest
    · subst feed
      exact scanString_simple (by decide) rest
    · subst back
      exact scanString_simple (by decide) rest
    · exact scanString_plain plain.1 plain.2 quote slash rest
    · exact scanString_unit unit rest
  · have two : unitsOfCode code = halves code := if_neg unit
    have escaped : escapeCode code = (halves code).flatMap unitEscape := by
      unfold escapeCode
      repeat rw [if_neg (by omega)]
    obtain ⟨high, low⟩ := halves_small small unit
    rw [two, escaped]
    simp only [halves, List.flatMap_cons, List.flatMap_nil, List.append_nil, List.append_assoc]
    rw [scanString_unit high, scanString_unit low, Option.map_map]
    rfl

/-- A string up to its closing quote. -/
theorem scanString_escapes {codes : List ℕ} (small : ∀ code ∈ codes, code < 0x110000)
    (rest : Text) :
    scanString (codes.flatMap escapeCode ++ '\x22' :: rest) =
      some (codes.flatMap unitsOfCode, rest) := by
  induction codes with
  | nil => exact scanString_quote rest
  | cons code codes ih =>
    have later := ih fun code member => small code (List.mem_cons_of_mem _ member)
    rw [List.flatMap_cons, List.append_assoc, scanString_escape (small code List.mem_cons_self),
      later]
    rfl

theorem joinSurrogates_units {code : ℕ} (whole : IsWholeCode code) (rest : List ℕ) :
    joinSurrogates (unitsOfCode code ++ rest) = code :: joinSurrogates rest := by
  unfold unitsOfCode
  unfold IsWholeCode at whole
  split_ifs with unit
  · apply joinSurrogates_low
    simp only [isHigh, decide_eq_true_eq]
    omega
  · have high : isHigh (0xD800 + (code - 0x10000) / 0x400) := by
      simp only [isHigh, decide_eq_true_eq]
      omega
    have low : isLow (0xDC00 + (code - 0x10000) % 0x400) := by
      simp only [isLow, decide_eq_true_eq]
      omega
    have whole' : 0x10000 + (0xD800 + (code - 0x10000) / 0x400 - 0xD800) * 0x400 +
        (0xDC00 + (code - 0x10000) % 0x400 - 0xDC00) = code := by omega
    rw [halves, List.cons_append, List.cons_append, List.nil_append, joinSurrogates,
      if_pos ⟨high, low⟩,
      whole']

theorem joinSurrogates_whole {codes : List ℕ} (whole : ∀ code ∈ codes, IsWholeCode code) :
    joinSurrogates (codes.flatMap unitsOfCode) = codes := by
  induction codes with
  | nil => rfl
  | cons code codes ih =>
    have later := ih fun code member => whole code (List.mem_cons_of_mem _ member)
    rw [List.flatMap_cons, joinSurrogates_units (whole code List.mem_cons_self), later]

/-- A text is read back from its quotes. -/
theorem scanText_quotedAscii {ε R : Type} (h : JsonHooks ε R) (value rest : Text) :
    h.scanText ((PyStr.text value).codes.flatMap escapeCode ++ '\x22' :: rest) =
      .ok (.text value, rest) := by
  have whole : ∀ code ∈ value.map Char.toNat, IsWholeCode code := by
    intro code member
    obtain ⟨c, -, rfl⟩ := List.mem_map.1 member
    exact isWholeCode_toNat c
  have small : ∀ code ∈ value.map Char.toNat, code < 0x110000 := by
    intro code member
    have bounded := whole code member
    unfold IsWholeCode at bounded
    omega
  rw [JsonHooks.scanText, PyStr.codes, scanString_escapes small]
  dsimp only
  rw [joinSurrogates_whole whole, ofCodes_text]

theorem quotes_quotedAscii {ε R : Type} (h : JsonHooks ε R) : h.Quotes quotedAscii := by
  intro value
  refine ⟨_, rfl, fun rest => ?_⟩
  rw [List.append_assoc, List.singleton_append]
  exact scanText_quotedAscii h value rest

end Strings

section Values

variable {ε R : Type}

mutual

/-- A value of texts and integers, no object with a key twice. -/
def Json.Plain : Json R → Prop
  | .null | .bool _ | .int _ => True
  | .real _ => False
  | .str text => ∃ value, text = .text value
  | .arr items => PlainItems items
  | .obj members => (members.map Prod.fst).Nodup ∧ PlainMembers members

def Json.PlainItems : List (Json R) → Prop
  | [] => True
  | item :: items => item.Plain ∧ PlainItems items

def Json.PlainMembers : List (PyStr × Json R) → Prop
  | [] => True
  | (key, value) :: members => (∃ text, key = .text text) ∧ value.Plain ∧ PlainMembers members

end

/-- What a reader makes of an integer and of an object without a repeated key. -/
structure JsonHooks.Reads (h : JsonHooks ε R) : Prop where
  parseInt : ∀ value, h.parseInt (intText value) = .ok value
  pairs : ∀ members, (members.map Prod.fst).Nodup → h.pairs members = .ok members

/-- `int` of a number's text. -/
def readInt (token : Text) : ℤ :=
  if token.head? = some '-' then -(Nat.ofDigitChars 10 (token.drop 1) 0 : ℤ)
  else Nat.ofDigitChars 10 token 0

theorem readInt_intText (value : ℤ) : readInt (intText value) = value := by
  have digits : Nat.ofDigitChars 10 (Nat.toDigits 10 value.natAbs) 0 = value.natAbs :=
    Nat.ofDigitChars_ten_toDigits
  unfold readInt intText
  by_cases negative : value < 0
  · rw [if_pos negative, List.head?_cons, if_pos rfl, List.drop_one, List.tail_cons, digits]
    omega
  · obtain ⟨c, more, written, digit⟩ := toDigits_front value.natAbs
    have noSign : c ≠ '-' := ne_of_isDigit digit (by decide)
    have unsigned : (Nat.toDigits 10 value.natAbs).head? ≠ some '-' := by
      rw [written]
      simpa using noSign
    rw [if_neg negative, if_neg unsigned, digits]
    omega

/-- What a reader is without hooks: a later member takes the place of an earlier one. An integer
here is short of the digits `int` refuses. -/
def JsonHooks.plain (malformed : ε) (parseFloat : Text → R) (parseConstant : Text → Json R) :
    JsonHooks ε R where
  malformed := malformed
  parseInt token := .ok (readInt token)
  parseFloat := parseFloat
  parseConstant token := .ok (parseConstant token)
  pairs members := .ok (Dict.ofList members).entries

theorem JsonHooks.plain_reads (malformed : ε) (parseFloat : Text → R)
    (parseConstant : Text → Json R) :
    (JsonHooks.plain malformed parseFloat parseConstant).Reads where
  parseInt value := congrArg Except.ok (readInt_intText value)
  pairs _ nodup := congrArg Except.ok (Dict.entries_ofList_of_nodup nodup)

end Values

section Sorted

variable {ε R : Type}

/-- What holds of a value that holds of what is in it, holds of every value. -/
@[elab_as_elim]
theorem Json.within {P : Json R → Prop} (null : P .null) (bool : ∀ value, P (.bool value))
    (int : ∀ value, P (.int value)) (real : ∀ value, P (.real value)) (str : ∀ text, P (.str text))
    (arr : ∀ items, (∀ item ∈ items, P item) → P (.arr items))
    (obj : ∀ members, (∀ member ∈ members, P member.2) → P (.obj members)) (value : Json R) :
    P value := by
  apply @Json.rec R P (fun items => ∀ item ∈ items, P item)
    (fun members => ∀ member ∈ members, P member.2)
    (fun member => P member.2) null bool int real str arr obj
  · simp
  · intro item items first later
    exact List.forall_mem_cons.2 ⟨first, later⟩
  · simp
  · intro member members first later
    exact List.forall_mem_cons.2 ⟨first, later⟩
  · intro _ value holds
    exact holds

theorem plainItems_iff (items : List (Json R)) :
    Json.PlainItems items ↔ ∀ item ∈ items, item.Plain := by
  induction items with
  | nil => simp [Json.PlainItems]
  | cons item items ih => rw [Json.PlainItems, ih, List.forall_mem_cons]

theorem plainMembers_iff (members : List (PyStr × Json R)) : Json.PlainMembers members ↔
    ∀ member ∈ members, (∃ text, member.1 = .text text) ∧ member.2.Plain := by
  induction members with
  | nil => simp [Json.PlainMembers]
  | cons member members ih =>
    obtain ⟨key, value⟩ := member
    rw [Json.PlainMembers, ih, List.forall_mem_cons, and_assoc]

theorem sortedItems_eq (items : List (Json R)) : sortedItems items = items.map sorted := by
  induction items with
  | nil => rfl
  | cons item items ih => rw [sortedItems, ih, List.map_cons]

theorem sortedMembers_eq (members : List (PyStr × Json R)) :
    sortedMembers members = members.map fun member => (member.1, sorted member.2) := by
  induction members with
  | nil => rfl
  | cons member members ih => rw [sortedMembers, ih, List.map_cons]

theorem sortKeys_perm (members : List (PyStr × Json R)) : (sortKeys members).Perm members :=
  List.perm_insertionSort _ _

theorem keys_sortedMembers (members : List (PyStr × Json R)) :
    (sortedMembers members).map Prod.fst = members.map Prod.fst := by
  rw [sortedMembers_eq, List.map_map]
  rfl

theorem plain_sorted {value : Json R} : value.Plain → (sorted value).Plain := by
  induction value using Json.within with
  | null => exact id
  | bool value => exact id
  | int value => exact id
  | real value => exact id
  | str text => exact id
  | arr items ih =>
    intro plain
    rw [Json.Plain, plainItems_iff] at plain
    rw [sorted, Json.Plain, plainItems_iff, sortedItems_eq]
    intro item listed
    obtain ⟨original, inside, rfl⟩ := List.mem_map.1 listed
    exact ih original inside (plain original inside)
  | obj members ih =>
    intro plain
    rw [Json.Plain, plainMembers_iff] at plain
    rw [sorted, Json.Plain, plainMembers_iff]
    have perm := sortKeys_perm (sortedMembers members)
    constructor
    · rw [(perm.map Prod.fst).nodup_iff, keys_sortedMembers]
      exact plain.1
    · intro member listed
      rw [perm.mem_iff, sortedMembers_eq] at listed
      obtain ⟨original, inside, rfl⟩ := List.mem_map.1 listed
      obtain ⟨text, inner⟩ := plain.2 original inside
      exact ⟨text, ih original inside inner⟩

/-- What a reader of integers and of objects without a repeated key takes. -/
theorem readable_of_plain {h : JsonHooks ε R} (reads : h.Reads) {value : Json R} :
    value.Plain → value.Readable h := by
  induction value using Json.within with
  | null => exact id
  | bool value => exact id
  | int value => exact fun _ => reads.parseInt value
  | real value => exact id
  | str text => exact id
  | arr items ih =>
    intro plain
    rw [Json.Plain, plainItems_iff] at plain
    rw [Json.Readable, readableItems_iff]
    exact fun item listed => ih item listed (plain item listed)
  | obj members ih =>
    intro plain
    rw [Json.Plain, plainMembers_iff] at plain
    rw [Json.Readable, readableMembers_iff]
    refine ⟨reads.pairs members plain.1, fun member listed => ?_⟩
    exact ⟨(plain.2 member listed).1, ih member listed (plain.2 member listed).2⟩

/-- A file read back is what was written, the members of its objects in the order of their keys. -/
theorem loads_dumpAscii {h : JsonHooks ε R} {real : R → Text} (reads : h.Reads) {value : Json R}
    (plain : value.Plain) : h.loads (dumpAscii real value) = .ok (sorted value) :=
  loads_printValue (quotes_quotedAscii h) (readable_of_plain reads (plain_sorted plain))

theorem member?_perm {name : PyStr} {members others : List (PyStr × Json R)}
    (perm : members.Perm others)
    (nodup : (members.map Prod.fst).Nodup) :
    Json.member? name members = Json.member? name others := by
  induction perm with
  | nil => rfl
  | cons member _ ih =>
    obtain ⟨key, value⟩ := member
    rw [List.map_cons, List.nodup_cons] at nodup
    rw [Json.member?, Json.member?, ih nodup.2]
  | swap first second rest =>
    obtain ⟨key, value⟩ := first
    obtain ⟨key', value'⟩ := second
    simp only [List.map_cons, List.nodup_cons, List.mem_cons, not_or] at nodup
    have other : key' ≠ key := nodup.1.1
    simp only [Json.member?]
    by_cases same : key = name
    · rw [if_pos same, if_neg (same ▸ other), if_pos same]
    · rw [if_neg same, if_neg same]
  | trans first second ih ih' =>
    have nodup' := (first.map Prod.fst).nodup_iff.1 nodup
    exact (ih nodup).trans (ih' nodup')

theorem member?_sortedMembers (name : PyStr) (members : List (PyStr × Json R)) :
    Json.member? name (sortedMembers members) = (Json.member? name members).map sorted := by
  induction members with
  | nil => rfl
  | cons member members ih =>
    obtain ⟨key, value⟩ := member
    rw [sortedMembers, Json.member?, Json.member?, ih]
    split_ifs <;> rfl

/-- An object's member is the sorted one. -/
theorem member?_sorted (name : PyStr) {members : List (PyStr × Json R)}
    (nodup : (members.map Prod.fst).Nodup) :
    Json.member? name (sortKeys (sortedMembers members)) =
      (Json.member? name members).map sorted := by
  have nodup' : ((sortKeys (sortedMembers members)).map Prod.fst).Nodup := by
    rw [((sortKeys_perm _).map Prod.fst).nodup_iff, keys_sortedMembers]
    exact nodup
  rw [member?_perm (sortKeys_perm _) nodup', member?_sortedMembers]

end Sorted

section Printable

variable {R : Type} {real : R → Text}

/-- A character that stands in a text for itself. -/
def IsPrintable (c : Char) : Prop := 32 ≤ c.toNat ∧ c.toNat < 127

instance : DecidablePred IsPrintable := fun _ => instDecidableAnd

theorem printable_hexDigit {digit : ℕ} (small : digit < 16) : IsPrintable (hexDigit digit) := by
  have all : ∀ digit < 16, IsPrintable (hexDigit digit) := by decide
  exact all digit small

theorem printable_unit (code : ℕ) : ∀ c ∈ unitEscape code, IsPrintable c := by
  have digit : ∀ n, IsPrintable (hexDigit (n % 16)) :=
    fun n => printable_hexDigit (Nat.mod_lt _ (by norm_num))
  simp only [unitEscape, List.forall_mem_cons]
  exact ⟨by decide, by decide, digit _, digit _, digit _, digit _, by simp⟩

/-- What a string is escaped to. -/
theorem printable_escape (code : ℕ) : ∀ c ∈ escapeCode code, IsPrintable c := by
  unfold escapeCode
  split_ifs with quote slash newline carriage tab feed back plain unit
  · simp [IsPrintable]
  · simp [IsPrintable]
  · simp [IsPrintable]
  · simp [IsPrintable]
  · simp [IsPrintable]
  · simp [IsPrintable]
  · simp [IsPrintable]
  · intro c same
    rw [List.mem_singleton.1 same, IsPrintable, toNat_ascii plain.2]
    exact plain
  · exact printable_unit code
  · intro c member
    obtain ⟨half, -, member⟩ := List.mem_flatMap.1 member
    exact printable_unit half c member

theorem printable_quoted (text : PyStr) : ∀ c ∈ quotedAscii text, IsPrintable c := by
  intro c member
  rw [quotedAscii, List.mem_cons, List.mem_append, List.mem_singleton] at member
  obtain rfl | inside | rfl := member
  · decide
  · obtain ⟨code, -, inside⟩ := List.mem_flatMap.1 inside
    exact printable_escape code c inside
  · decide

theorem printable_intText (value : ℤ) : ∀ c ∈ intText value, IsPrintable c := by
  have digits : ∀ c ∈ Nat.toDigits 10 value.natAbs, IsPrintable c := by
    intro c member
    have digit := Decimal.isDigit_toDigits value.natAbs c member
    simp only [Char.isDigit, Bool.and_eq_true, decide_eq_true_eq] at digit
    obtain ⟨first, last⟩ := digit
    have first : 48 ≤ c.toNat := first
    have last : c.toNat ≤ 57 := last
    exact ⟨by omega, by omega⟩
  unfold intText
  split_ifs
  · exact List.forall_mem_cons.2 ⟨by decide, digits⟩
  · exact digits

theorem printable_items {items : List (Json R)}
    (each : ∀ item ∈ items, ∀ c ∈ printValue quotedAscii real item, IsPrintable c) :
    ∀ c ∈ printItems quotedAscii real items, IsPrintable c := by
  induction items with
  | nil => simp [printItems, IsPrintable]
  | cons item items ih =>
    obtain ⟨first, later⟩ := List.forall_mem_cons.1 each
    rw [printItems, List.forall_mem_append]
    constructor
    · exact first
    · split_ifs
      · simp [IsPrintable]
      · exact List.forall_mem_cons.2 ⟨by decide, ih later⟩

theorem printable_members {members : List (PyStr × Json R)}
    (each : ∀ member ∈ members, ∀ c ∈ printValue quotedAscii real member.2, IsPrintable c) :
    ∀ c ∈ printMembers quotedAscii real members, IsPrintable c := by
  induction members with
  | nil => simp [printMembers, IsPrintable]
  | cons member members ih =>
    obtain ⟨key, value⟩ := member
    obtain ⟨first, later⟩ := List.forall_mem_cons.1 each
    rw [printMembers, List.append_assoc, List.cons_append, List.forall_mem_append,
      List.forall_mem_cons, List.forall_mem_append]
    refine ⟨printable_quoted key, by decide, first, ?_⟩
    split_ifs
    · simp [IsPrintable]
    · exact List.forall_mem_cons.2 ⟨by decide, ih later⟩

theorem printable_printValue {value : Json R} :
    value.Plain → ∀ c ∈ printValue quotedAscii real value, IsPrintable c := by
  induction value using Json.within with
  | null => exact fun _ => by simp [printValue, IsPrintable]
  | bool value => cases value <;> exact fun _ => by simp [printValue, IsPrintable]
  | int value => exact fun _ => printable_intText value
  | real value => exact False.elim
  | str text => exact fun _ => printable_quoted text
  | arr items ih =>
    intro plain
    rw [Json.Plain, plainItems_iff] at plain
    have inner := printable_items fun item listed => ih item listed (plain item listed)
    exact List.forall_mem_cons.2 ⟨by decide, inner⟩
  | obj members ih =>
    intro plain
    rw [Json.Plain, plainMembers_iff] at plain
    have inner := printable_members fun member listed => ih member listed (plain.2 member listed).2
    exact List.forall_mem_cons.2 ⟨by decide, inner⟩

/-- A file is one line of printable characters, whatever its texts hold. -/
theorem printable_dumpAscii {value : Json R} (plain : value.Plain) :
    ∀ c ∈ dumpAscii real value, IsPrintable c :=
  printable_printValue (plain_sorted plain)

end Printable

end ArbNautilus.Base
