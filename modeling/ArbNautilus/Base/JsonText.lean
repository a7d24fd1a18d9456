import ArbNautilus.Base.Json
import ArbNautilus.Base.Lines
import ArbNautilus.Base.Raise
import Mathlib.Data.List.Basic

namespace ArbNautilus.Base

section Strings

/-- The value of four hexadecimal digits. -/
def hexValue (c : Char) : Option ℕ :=
  if '0' ≤ c ∧ c ≤ '9' then some (c.toNat - 48)
  else if 'a' ≤ c ∧ c ≤ 'f' then some (c.toNat - 87)
  else if 'A' ≤ c ∧ c ≤ 'F' then some (c.toNat - 55)
  else none

def hexCode (digits : Text) : Option ℕ :=
  (digits.mapM hexValue).map fun values => values.foldl (fun code value => 16 * code + value) 0

def simpleEscape (c : Char) : Option ℕ :=
  if c = '\x22' ∨ c = '\x5c' ∨ c = '/' then some c.toNat
  else if c = 'b' then some 8
  else if c = 'f' then some 12
  else if c = 'n' then some 10
  else if c = 'r' then some 13
  else if c = 't' then some 9
  else none

/-- The code points of a string up to its closing quote, and what follows. -/
def scanString : Text → Option (List ℕ × Text)
  | [] => none
  | c :: rest =>
    if c = '\x22' then some ([], rest)
    else if c = '\x5c' then match rest with
      | [] => none
      | e :: rest =>
        if e = 'u' then match rest with
          | a :: b :: c :: d :: rest => match hexCode [a, b, c, d] with
            | none => none
            | some code => (scanString rest).map fun (codes, rest) => (code :: codes, rest)
          | _ => none
        else match simpleEscape e with
          | none => none
          | some code => (scanString rest).map fun (codes, rest) => (code :: codes, rest)
    else if c.toNat < 32 then none
    else (scanString rest).map fun (codes, rest) => (c.toNat :: codes, rest)

def isHigh (code : ℕ) : Bool := 0xD800 ≤ code ∧ code < 0xDC00

def isLow (code : ℕ) : Bool := 0xDC00 ≤ code ∧ code < 0xE000

/-- Two escapes that are halves of one character become it. -/
def joinSurrogates : List ℕ → List ℕ
  | [] => []
  | [code] => [code]
  | a :: b :: rest =>
    if isHigh a ∧ isLow b then
      (0x10000 + (a - 0xD800) * 0x400 + (b - 0xDC00)) :: joinSurrogates rest
    else a :: joinSurrogates (b :: rest)

def PyStr.ofCodes (codes : List ℕ) : PyStr :=
  if codes.any (fun code => isHigh code ∨ isLow code) then .broken codes
  else .text (codes.map Char.ofNat)

end Strings

section Numbers

/-- The digits of an integer, without a superfluous zero in front. -/
def scanInteger : Text → Option (Text × Text)
  | [] => none
  | c :: rest =>
    if c = '0' then some (['0'], rest)
    else if c.isDigit then some (c :: rest.takeWhile Char.isDigit, rest.dropWhile Char.isDigit)
    else none

def scanFraction (text : Text) : Text × Text :=
  match text with
  | [] => ([], [])
  | c :: rest =>
    if c = '.' ∧ rest.takeWhile Char.isDigit ≠ [] then
      (c :: rest.takeWhile Char.isDigit, rest.dropWhile Char.isDigit)
    else ([], text)

def scanSign : Text → Text × Text
  | [] => ([], [])
  | c :: rest => if c = '-' ∨ c = '+' then ([c], rest) else ([], c :: rest)

def scanExponent (text : Text) : Text × Text :=
  match text with
  | [] => ([], [])
  | c :: rest =>
    let (sign, rest) := scanSign rest
    if (c = 'e' ∨ c = 'E') ∧ rest.takeWhile Char.isDigit ≠ [] then
      (c :: (sign ++ rest.takeWhile Char.isDigit), rest.dropWhile Char.isDigit)
    else ([], text)

def scanMinus : Text → Text × Text
  | [] => ([], [])
  | c :: rest => if c = '-' then ([c], rest) else ([], c :: rest)

/-- The text of a number, whether it is one with a fraction or an exponent, and what follows. -/
def scanNumber (text : Text) : Option (Text × Bool × Text) :=
  let (sign, body) := scanMinus text
  match scanInteger body with
  | none => none
  | some (digits, rest) =>
    let (fraction, rest) := scanFraction rest
    let (exponent, rest) := scanExponent rest
    some (sign ++ digits ++ fraction ++ exponent, fraction ≠ [] ∨ exponent ≠ [], rest)

end Numbers

/-- What the caller of `json.loads` supplies. -/
structure JsonHooks (ε R : Type) where
  malformed : ε
  parseInt : Text → Except ε ℤ
  parseFloat : Text → R
  parseConstant : Text → Except ε (Json R)
  pairs : List (PyStr × Json R) → Except ε (List (PyStr × Json R))

/-- A scan that may run out of the turns it was given. -/
abbrev Scan (ε : Type) := ExceptT ε Option

namespace Scan

variable {ε α β : Type}

def stuck : Scan ε α := ExceptT.mk none

def give (x : Except ε α) : Scan ε α := ExceptT.mk (some x)

/-- The scan comes to an end, and what it finds satisfies `P`. -/
def Ends (P : α → Prop) (m : Scan ε α) : Prop := ∃ x, m.run = some x ∧ ∀ a, x = .ok a → P a

theorem ends_pure {P : α → Prop} {a : α} (h : P a) : Ends P (pure a : Scan ε α) := by
  refine ⟨.ok a, rfl, ?_⟩
  rintro b ⟨⟩
  exact h

theorem ends_give {P : α → Prop} {x : Except ε α} (h : ∀ a, x = .ok a → P a) : Ends P (give x) :=
  ⟨x, rfl, h⟩

theorem ends_bind {P : α → Prop} {Q : β → Prop} {m : Scan ε α} {f : α → Scan ε β} (first : Ends P m)
    (rest : ∀ a, P a → Ends Q (f a)) : Ends Q (m >>= f) := by
  obtain ⟨x, run, found⟩ := first
  cases x with
  | error e =>
    refine ⟨.error e, ?_, nofun⟩
    change (ExceptT.bind m f).run = _
    simp only [ExceptT.bind, ExceptT.run, ExceptT.mk] at run ⊢
    rw [run]
    rfl
  | ok a =>
    obtain ⟨y, run', found'⟩ := rest a (found a rfl)
    refine ⟨y, ?_, found'⟩
    change (ExceptT.bind m f).run = _
    simp only [ExceptT.bind, ExceptT.run, ExceptT.mk] at run run' ⊢
    rw [run]
    exact run'

/-- Every error the scan ends in is among these. -/
def Raises (E : ε → Prop) (m : Scan ε α) : Prop := ∀ e, m.run = some (.error e) → E e

variable {E : ε → Prop}

theorem raises_stuck : Raises E (stuck : Scan ε α) := nofun

theorem raises_pure {a : α} : Raises E (pure a : Scan ε α) := nofun

theorem raises_give {x : Except ε α} (h : ∀ e, x = .error e → E e) : Raises E (give x) := by
  intro e run
  cases run
  exact h e rfl

theorem raises_bind {m : Scan ε α} {f : α → Scan ε β} (first : Raises E m)
    (rest : ∀ a, Raises E (f a)) : Raises E (m >>= f) := by
  intro e run
  change (ExceptT.bind m f).run = _ at run
  simp only [ExceptT.bind, ExceptT.run, ExceptT.mk] at run
  obtain ⟨x, run', after⟩ := Option.bind_eq_some_iff.1 run
  cases x with
  | error e' =>
    cases after
    exact first e run'
  | ok a => exact rest a e after

/-- What the scan finds, if it finds something, satisfies `P`. -/
def Yields (P : α → Prop) (m : Scan ε α) : Prop := ∀ a, m.run = some (.ok a) → P a

theorem yields_stuck {P : α → Prop} : Yields P (stuck : Scan ε α) := nofun

theorem yields_pure {P : α → Prop} {a : α} (h : P a) : Yields P (pure a : Scan ε α) := by
  intro b run
  cases run
  exact h

theorem yields_give {P : α → Prop} {x : Except ε α} (h : ∀ a, x = .ok a → P a) :
    Yields P (give x) := by
  intro a run
  cases run
  exact h a rfl

theorem yields_bind {P : α → Prop} {Q : β → Prop} {m : Scan ε α} {f : α → Scan ε β}
    (first : Yields P m) (rest : ∀ a, P a → Yields Q (f a)) : Yields Q (m >>= f) := by
  intro b run
  change (ExceptT.bind m f).run = _ at run
  simp only [ExceptT.bind, ExceptT.run, ExceptT.mk] at run
  obtain ⟨x, run', after⟩ := Option.bind_eq_some_iff.1 run
  cases x with
  | error e => cases after
  | ok a => exact rest a (first a run') b after

theorem yields_give_bind {Q : β → Prop} {x : Except ε α} {f : α → Scan ε β}
    (rest : ∀ a, x = .ok a → Yields Q (f a)) : Yields Q (give x >>= f) :=
  yields_bind (yields_give fun _ same => same) rest

/-- What is at hand is bound without a turn. -/
theorem give_bind {f : α → Scan ε β} (a : α) : (give (.ok a) >>= f) = f a := rfl

theorem Ends.mono {P Q : α → Prop} {m : Scan ε α} (h : Ends P m) (weaker : ∀ a, P a → Q a) :
    Ends Q m := by
  obtain ⟨x, run, found⟩ := h
  exact ⟨x, run, fun a same => weaker a (found a same)⟩

end Scan

namespace JsonHooks

open Scan

variable {ε R : Type}

def skipSpace (text : Text) : Text :=
  text.dropWhile fun c => c = ' ' ∨ c = '\t' ∨ c = '\n' ∨ c = '\r'

def scanText (h : JsonHooks ε R) (text : Text) : Except ε (PyStr × Text) :=
  match scanString text with
  | none => .error h.malformed
  | some (codes, rest) => .ok (PyStr.ofCodes (joinSurrogates codes), rest)

/-- The words a value may be. -/
def words (h : JsonHooks ε R) : List (Text × Except ε (Json R)) :=
  [("null".toList, .ok .null), ("true".toList, .ok (.bool true)),
    ("false".toList, .ok (.bool false)), ("NaN".toList, h.parseConstant "NaN".toList),
    ("Infinity".toList, h.parseConstant "Infinity".toList),
    ("-Infinity".toList, h.parseConstant "-Infinity".toList)]

/-- A word or a number. -/
def scalar (h : JsonHooks ε R) (text : Text) : Except ε (Json R × Text) :=
  match h.words.find? fun word => word.1.isPrefixOf text with
  | some (word, value) => value.map fun value => (value, text.drop word.length)
  | none => match scanNumber text with
    | none => .error h.malformed
    | some (token, real, rest) =>
      if real then .ok (.real (h.parseFloat token), rest)
      else (h.parseInt token).map fun value => (.int value, rest)

mutual

/-- A value at the start of a text, over at most this many turns. -/
def parseValue (h : JsonHooks ε R) : ℕ → Text → Scan ε (Json R × Text)
  | 0, _ => stuck
  | turns + 1, text => match text with
    | [] => give (.error h.malformed)
    | c :: rest =>
      if c = '\x22' then do
        let (value, rest) ← give (h.scanText rest)
        pure (.str value, rest)
      else if c = '\x7b' then match skipSpace rest with
        | [] => give (.error h.malformed)
        | d :: rest =>
          if d = '\x7d' then do
            let members ← give (h.pairs [])
            pure (.obj members, rest)
          else do
            let (members, rest) ← parseMembers h turns (d :: rest)
            let members ← give (h.pairs members)
            pure (.obj members, rest)
      else if c = '[' then match skipSpace rest with
        | [] => give (.error h.malformed)
        | d :: rest =>
          if d = ']' then pure (.arr [], rest)
          else do
            let (items, rest) ← parseItems h turns (d :: rest)
            pure (.arr items, rest)
      else give (h.scalar (c :: rest))

def parseItems (h : JsonHooks ε R) : ℕ → Text → Scan ε (List (Json R) × Text)
  | 0, _ => stuck
  | turns + 1, text => do
    let (item, rest) ← parseValue h turns text
    match skipSpace rest with
    | [] => give (.error h.malformed)
    | c :: rest =>
      if c = ']' then pure ([item], rest)
      else if c = ',' then do
        let (items, rest) ← parseItems h turns (skipSpace rest)
        pure (item :: items, rest)
      else give (.error h.malformed)

def parseMembers (h : JsonHooks ε R) : ℕ → Text → Scan ε (List (PyStr × Json R) × Text)
  | 0, _ => stuck
  | turns + 1, text => match text with
    | [] => give (.error h.malformed)
    | q :: text =>
      if q = '\x22' then do
        let (key, rest) ← give (h.scanText text)
        match skipSpace rest with
        | [] => give (.error h.malformed)
        | c :: rest =>
          if c = ':' then do
            let (value, rest) ← parseValue h turns (skipSpace rest)
            match skipSpace rest with
            | [] => give (.error h.malformed)
            | d :: rest =>
              if d = '\x7d' then pure ([(key, value)], rest)
              else if d = ',' then do
                let (members, rest) ← parseMembers h turns (skipSpace rest)
                pure ((key, value) :: members, rest)
              else give (.error h.malformed)
          else give (.error h.malformed)
      else give (.error h.malformed)

end

/-- More turns than the scan of a text can take. -/
def turnsFor (text : Text) : ℕ := 2 * text.length + 2

/-- `json.loads`. -/
def loads (h : JsonHooks ε R) (text : Text) : Except ε (Json R) :=
  if text.head? = some '\uFEFF' then .error h.malformed
  else match (parseValue h (turnsFor text) (skipSpace text)).run with
    | none => .error h.malformed
    | some (.error e) => .error e
    | some (.ok (value, rest)) => if skipSpace rest = [] then .ok value else .error h.malformed

section Turns

theorem except_map_eq_ok {α β : Type} {x : Except ε α} {f : α → β} {b : β} :
    x.map f = .ok b ↔ ∃ a, x = .ok a ∧ f a = b := map_eq_ok

theorem length_skipSpace (text : Text) : (skipSpace text).length ≤ text.length :=
  (List.dropWhile_sublist _).length_le

/-- A character in front keeps the rest of a scan shorter than its text. -/
theorem length_of_map {scanned : Option (List ℕ × Text)} {code : ℕ} {codes : List ℕ}
    {rest text : Text} (inner : ∀ codes rest, scanned = some (codes, rest) →
      rest.length < text.length)
    (h : (scanned.map fun (codes, rest) => (code :: codes, rest)) = some (codes, rest)) :
    rest.length < text.length := by
  cases scanned with
  | none => cases h
  | some found =>
    cases h
    exact inner _ _ rfl

theorem length_scanString {text : Text} {codes : List ℕ} {rest : Text}
    (scanned : scanString text = some (codes, rest)) : rest.length < text.length := by
  fun_induction scanString text generalizing codes rest with
  | case1 | case3 | case4 | case6 | case7 | case9 => cases scanned
  | case2 =>
    cases scanned
    simp
  | case5 | case8 | case10 =>
    rename_i ih
    have shorter := length_of_map (fun _ _ => ih) scanned
    simp only [List.length_cons]
    omega

theorem length_scanText {h : JsonHooks ε R} {text rest : Text} {value : PyStr}
    (scanned : h.scanText text = .ok (value, rest)) : rest.length < text.length := by
  unfold scanText at scanned
  split at scanned
  · cases scanned
  · rename_i inner
    cases scanned
    exact length_scanString inner

theorem length_scanInteger {text digits rest : Text}
    (scanned : scanInteger text = some (digits, rest)) : rest.length < text.length := by
  unfold scanInteger at scanned
  split at scanned
  · cases scanned
  · split at scanned
    · cases scanned
      simp
    · split at scanned
      · cases scanned
        exact Nat.lt_succ_of_le (List.dropWhile_sublist _).length_le
      · cases scanned

theorem length_scanFraction (text : Text) : (scanFraction text).2.length ≤ text.length := by
  unfold scanFraction
  split
  · exact Nat.le_refl _
  · split
    · exact Nat.le_succ_of_le (List.dropWhile_sublist _).length_le
    · exact Nat.le_refl _

theorem length_scanSign (text : Text) : (scanSign text).2.length ≤ text.length := by
  unfold scanSign
  split
  · exact Nat.le_refl _
  · split
    · exact Nat.le_succ _
    · exact Nat.le_refl _

theorem length_scanExponent (text : Text) : (scanExponent text).2.length ≤ text.length := by
  unfold scanExponent
  split
  · exact Nat.le_refl _
  · rename_i c rest
    have signed := length_scanSign rest
    simp only
    split
    · have shorter := (List.dropWhile_sublist (Char.isDigit) (l := (scanSign rest).2)).length_le
      simp only [List.length_cons]
      omega
    · exact Nat.le_refl _

theorem length_scanMinus (text : Text) : (scanMinus text).2.length ≤ text.length := by
  unfold scanMinus
  split
  · exact Nat.le_refl _
  · split
    · exact Nat.le_succ _
    · exact Nat.le_refl _

theorem length_scanNumber {text token rest : Text} {real : Bool}
    (scanned : scanNumber text = some (token, real, rest)) : rest.length < text.length := by
  have signed := length_scanMinus text
  unfold scanNumber at scanned
  simp only at scanned
  split at scanned
  · cases scanned
  · rename_i digits more whole
    cases scanned
    have integer := length_scanInteger whole
    have fraction := length_scanFraction more
    have exponent := length_scanExponent (scanFraction more).2
    omega

theorem length_scalar {h : JsonHooks ε R} {text rest : Text} {value : Json R}
    (scanned : h.scalar text = .ok (value, rest)) : rest.length < text.length := by
  unfold scalar at scanned
  split at scanned
  · rename_i word read found
    obtain ⟨value', -, same⟩ := except_map_eq_ok.1 scanned
    cases same
    have listed := List.mem_of_find?_eq_some found
    have starts := List.find?_some found
    have long : 0 < word.length := by
      simp only [words, List.mem_cons, Prod.mk.injEq, List.not_mem_nil, or_false] at listed
      rcases listed with ⟨rfl, -⟩ | ⟨rfl, -⟩ | ⟨rfl, -⟩ | ⟨rfl, -⟩ | ⟨rfl, -⟩ | ⟨rfl, -⟩ <;> decide
    have bound : word.length ≤ text.length := (List.isPrefixOf_iff_prefix.1 starts).length_le
    rw [List.length_drop]
    omega
  · split at scanned
    · cases scanned
    · rename_i number
      have shorter := length_scanNumber number
      split at scanned
      · cases scanned
        exact shorter
      · obtain ⟨value', -, same⟩ := except_map_eq_ok.1 scanned
        cases same
        exact shorter

/-- Each turn shortens the text, or leads to one that does. -/
theorem turns_suffice (h : JsonHooks ε R) (turns : ℕ) :
    (∀ text : Text, 2 * text.length + 1 ≤ turns →
      Ends (fun found => found.2.length < text.length) (h.parseValue turns text)) ∧
    (∀ text : Text, 2 * text.length + 2 ≤ turns →
      Ends (fun found => found.2.length < text.length) (h.parseItems turns text)) ∧
    (∀ text : Text, 2 * text.length + 2 ≤ turns →
      Ends (fun found => found.2.length < text.length) (h.parseMembers turns text)) := by
  induction turns with
  | zero => exact ⟨fun _ few => by omega, fun _ few => by omega, fun _ few => by omega⟩
  | succ turns ih =>
    obtain ⟨values, items, members⟩ := ih
    refine ⟨fun text enough => ?_, fun text enough => ?_, fun text enough => ?_⟩
    · cases text with
      | nil => exact ends_give nofun
      | cons c rest =>
        have spaces := length_skipSpace rest
        rw [parseValue]
        simp only [List.length_cons] at enough ⊢
        split
        · refine ends_bind (ends_give fun _ scanned => length_scanText scanned) ?_
          exact fun found shorter => ends_pure (Nat.lt_succ_of_lt shorter)
        · split
          · split
            · exact ends_give nofun
            · rename_i d more same
              rw [same, List.length_cons] at spaces
              split
              · refine ends_bind (P := fun _ => True) (ends_give fun _ _ => trivial) fun _ _ => ?_
                exact ends_pure (by simp only; omega)
              · refine ends_bind (members _ (by simp only [List.length_cons]; omega)) ?_
                rintro ⟨found, rest⟩ shorter
                refine ends_bind (P := fun _ => True) (ends_give fun _ _ => trivial) fun _ _ => ?_
                simp only [List.length_cons] at shorter
                exact ends_pure (by simp only; omega)
          · split
            · split
              · exact ends_give nofun
              · rename_i d more same
                rw [same, List.length_cons] at spaces
                split
                · exact ends_pure (by simp only; omega)
                · refine ends_bind (items _ (by simp only [List.length_cons]; omega)) ?_
                  rintro ⟨found, rest⟩ shorter
                  simp only [List.length_cons] at shorter
                  exact ends_pure (by simp only; omega)
            · exact ends_give fun _ scanned => length_scalar scanned
    · rw [parseItems]
      refine ends_bind (values text (by omega)) ?_
      rintro ⟨item, rest⟩ shorter
      have spaces := length_skipSpace rest
      simp only at shorter ⊢
      split
      · exact ends_give nofun
      · rename_i c more same
        rw [same, List.length_cons] at spaces
        have later := length_skipSpace more
        split
        · exact ends_pure (by simp only; omega)
        · split
          · refine ends_bind (items _ (by omega)) fun found shorter => ends_pure ?_
            simp only
            omega
          · exact ends_give nofun
    · cases text with
      | nil => exact ends_give nofun
      | cons q text =>
        rw [parseMembers]
        simp only [List.length_cons] at enough ⊢
        split
        · refine ends_bind (ends_give fun _ scanned => length_scanText scanned) ?_
          rintro ⟨key, rest⟩ shorter
          have spaces := length_skipSpace rest
          simp only at shorter ⊢
          split
          · exact ends_give nofun
          · rename_i c more same
            rw [same, List.length_cons] at spaces
            have later := length_skipSpace more
            split
            · refine ends_bind (values _ (by omega)) ?_
              rintro ⟨value, rest⟩ shorter
              have spaces' := length_skipSpace rest
              simp only at shorter ⊢
              split
              · exact ends_give nofun
              · rename_i d rest same'
                rw [same', List.length_cons] at spaces'
                have later' := length_skipSpace rest
                split
                · exact ends_pure (by simp only; omega)
                · split
                  · refine ends_bind (members _ (by omega)) fun found shorter => ends_pure ?_
                    simp only
                    omega
                  · exact ends_give nofun
            · exact ends_give nofun
        · exact ends_give nofun

/-- The turns given are never used up. -/
theorem loads_ends (h : JsonHooks ε R) (text : Text) :
    ∃ found, (h.parseValue (turnsFor text) (skipSpace text)).run = some found := by
  have spaces := length_skipSpace text
  obtain ⟨found, run, -⟩ := (turns_suffice h (turnsFor text)).1 (skipSpace text) (by
    unfold turnsFor
    omega)
  exact ⟨found, run⟩

end Turns

section Failures

/-- Whatever the hooks raise is among these errors. -/
structure Raising (h : JsonHooks ε R) (E : ε → Prop) : Prop where
  malformed : E h.malformed
  parseInt : ∀ text e, h.parseInt text = .error e → E e
  parseConstant : ∀ text e, h.parseConstant text = .error e → E e
  pairs : ∀ members e, h.pairs members = .error e → E e

variable {h : JsonHooks ε R} {E : ε → Prop}

theorem except_map_eq_error {α β : Type} {x : Except ε α} {f : α → β} {e : ε} :
    x.map f = .error e ↔ x = .error e := by
  cases x <;> simp [Except.map]

theorem scanText_raises (raising : h.Raising E) {text : Text} {e : ε}
    (failed : h.scanText text = .error e) : E e := by
  unfold scanText at failed
  split at failed
  · cases failed
    exact raising.malformed
  · cases failed

theorem words_raise (raising : h.Raising E) {word : Text × Except ε (Json R)}
    (listed : word ∈ h.words)
    {e : ε} (failed : word.2 = .error e) : E e := by
  simp only [words, List.mem_cons, List.not_mem_nil, or_false] at listed
  rcases listed with rfl | rfl | rfl | rfl | rfl | rfl
  · cases failed
  · cases failed
  · cases failed
  · exact raising.parseConstant _ _ failed
  · exact raising.parseConstant _ _ failed
  · exact raising.parseConstant _ _ failed

theorem scalar_raises (raising : h.Raising E) {text : Text} {e : ε}
    (failed : h.scalar text = .error e) : E e := by
  unfold scalar at failed
  split at failed
  · rename_i word value found
    have listed := List.mem_of_find?_eq_some found
    exact words_raise raising listed (except_map_eq_error.1 failed)
  · split at failed
    · cases failed
      exact raising.malformed
    · split at failed
      · cases failed
      · exact raising.parseInt _ _ (except_map_eq_error.1 failed)

theorem malformed_raises {α : Type} (raising : h.Raising E) :
    Raises E (give (.error h.malformed) : Scan ε α) :=
  raises_give (by
    rintro e ⟨⟩
    exact raising.malformed)

theorem pairs_raise {α : Type} (raising : h.Raising E) (members : List (PyStr × Json R))
    {f : List (PyStr × Json R) → Scan ε α} (rest : ∀ found, Raises E (f found)) :
    Raises E (give (h.pairs members) >>= f) :=
  raises_bind (raises_give (raising.pairs members)) rest

/-- A scan raises only what its hooks raise. -/
theorem parse_raises (raising : h.Raising E) (turns : ℕ) :
    (∀ text, Raises E (h.parseValue turns text)) ∧ (∀ text, Raises E (h.parseItems turns text)) ∧
      ∀ text, Raises E (h.parseMembers turns text) := by
  induction turns with
  | zero => exact ⟨fun _ => raises_stuck, fun _ => raises_stuck, fun _ => raises_stuck⟩
  | succ turns ih =>
    obtain ⟨values, items, members⟩ := ih
    have bad {α : Type} : Raises E (give (.error h.malformed) : Scan ε α) :=
      malformed_raises raising
    refine ⟨fun text => ?_, fun text => ?_, fun text => ?_⟩
    · cases text with
      | nil => exact bad
      | cons c rest =>
        rw [parseValue]
        split
        · exact raises_bind (raises_give fun e failed => scanText_raises raising failed) fun _ =>
            raises_pure
        · split
          · split
            · exact bad
            · split
              · exact pairs_raise raising _ fun _ => raises_pure
              · refine raises_bind (members _) fun found => ?_
                exact pairs_raise raising _ fun _ => raises_pure
          · split
            · split
              · exact bad
              · split
                · exact raises_pure
                · exact raises_bind (items _) fun _ => raises_pure
            · exact raises_give fun e failed => scalar_raises raising failed
    · rw [parseItems]
      refine raises_bind (values text) ?_
      rintro ⟨item, rest⟩
      simp only
      split
      · exact bad
      · split
        · exact raises_pure
        · split
          · exact raises_bind (items _) fun _ => raises_pure
          · exact bad
    · cases text with
      | nil => exact bad
      | cons q rest =>
        rw [parseMembers]
        split
        · refine raises_bind (raises_give fun e failed => scanText_raises raising failed) ?_
          rintro ⟨key, rest⟩
          simp only
          split
          · exact bad
          · split
            · refine raises_bind (values _) ?_
              rintro ⟨value, rest⟩
              simp only
              split
              · exact bad
              · split
                · exact raises_pure
                · split
                  · exact raises_bind (members _) fun _ => raises_pure
                  · exact bad
            · exact bad
        · exact bad

theorem loads_raises (raising : h.Raising E) {text : Text} {e : ε}
    (failed : h.loads text = .error e) :
    E e := by
  unfold loads at failed
  split at failed
  · cases failed
    exact raising.malformed
  · split at failed
    · cases failed
      exact raising.malformed
    · rename_i run
      cases failed
      exact (parse_raises raising _).1 _ _ run
    · split at failed
      · cases failed
      · cases failed
        exact raising.malformed

end Failures

end JsonHooks

end ArbNautilus.Base
