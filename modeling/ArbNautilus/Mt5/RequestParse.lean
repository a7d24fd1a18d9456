import ArbNautilus.Base.JsonDump
import ArbNautilus.Mt5.Requests

/-! What the request parser has checked when it accepts, and what it makes of a text that lists
members. -/

namespace ArbNautilus.Mt5.Ea

open Base Journal JsonHooks Scan

section Accepts

/-- A fact that every member keeps holds when the object ends. -/
theorem objectLoop_yields {S : Type} {take : List Text → Text → S → Text → Scan String (S × Text)}
    (I : List Text → S → Prop)
    (keeps : ∀ seen key s text, I seen s →
      Yields (fun found => I (seen ++ [key]) found.1) (take seen key s text)) (turns : ℕ)
    (first : Bool) (seen : List Text) (s : S) (text : Text) (start : I seen s) :
    Yields (fun found => I found.2.1 found.1) (objectLoop take turns first seen s text) := by
  induction turns generalizing first seen s text with
  | zero => exact yields_stuck
  | succ turns ih =>
    rw [objectLoop]
    split
    · exact yields_pure start
    · refine yields_give_bind ?_
      intro text _
      refine yields_give_bind ?_
      intro parsed _
      refine yields_give_bind ?_
      intro text _
      refine yields_bind (keeps seen parsed.1 s text start) ?_
      intro taken kept
      exact ih false _ _ _ kept

theorem parseBinding_yields (turns : ℕ) (binding : Binding) (text : Text) :
    Yields (fun found => bindingValid found.1 = true) (parseBinding turns binding text) := by
  unfold parseBinding
  refine yields_give_bind ?_
  intro text _
  refine yields_bind (P := fun _ => True) ?_ ?_
  · exact fun _ _ => trivial
  rintro ⟨binding, seen, rest⟩ _
  apply yields_give
  intro found valid
  split at valid
  · cases valid
  · rename_i refused
    cases valid
    rw [not_or] at refused
    simpa using refused.2

/-- A binding that was seen is a valid one. -/
def Bound (seen : List Text) (request : Request) : Prop :=
  "binding".toList ∈ seen → bindingValid request.binding = true

theorem Bound.other {seen : List Text} {key : Text} {request request' : Request}
    (bound : Bound seen request) (other : key ≠ "binding".toList)
    (same : request'.binding = request.binding) : Bound (seen ++ [key]) request' := by
  intro member
  rw [same]
  rcases List.mem_append.1 member with inside | last
  · exact bound inside
  · exact absurd (List.mem_singleton.1 last).symm other

theorem setText_binding {request request' : Request} {key value : Text}
    (set : setText request key value = some request') :
    request'.binding = request.binding ∧ key ≠ "binding".toList := by
  unfold setText at set
  repeat'
    split at set
    · rename_i named
      cases set
      subst named
      exact ⟨rfl, by decide⟩
  cases set

theorem requestMember_yields (turns : ℕ) (seen : List Text) (key : Text) (request : Request)
    (text : Text) (bound : Bound seen request) :
    Yields (fun found => Bound (seen ++ [key]) found.1)
      (requestMember turns seen key request text) := by
  unfold requestMember
  split
  · exact yields_give nofun
  · split
    · rename_i named
      have other : key ≠ "binding".toList := by
        rintro rfl
        exact absurd named (by decide)
      apply yields_give
      intro found taken
      unfold numberMember at taken
      split at taken
      · cases taken
      · cases taken
        apply bound.other other
        split <;> rfl
    · split
      · rename_i named
        split
        · exact yields_give nofun
        · refine yields_bind (parseBinding_yields turns request.binding text) ?_
          rintro ⟨binding, rest⟩ valid
          exact yields_pure fun _ => valid
      · apply yields_give
        intro found taken
        unfold textMember at taken
        split at taken
        · cases taken
        · split at taken
          · cases taken
          · rename_i set
            cases taken
            have kept := setText_binding set
            exact bound.other kept.2 kept.1

/-- What the parser accepts has passed its last checks, and a valid binding. -/
theorem parseRequest_accepts {source : Text} {parsed : Request}
    (accepted : parseRequest source = .ok parsed) :
    ∃ seen, Bound seen parsed ∧ checkRequest parsed seen = .ok () := by
  have yields : Yields (fun parsed => ∃ seen, Bound seen parsed ∧ checkRequest parsed seen = .ok ())
      (parseObject source) := by
    unfold parseObject
    refine yields_give_bind ?_
    intro text _
    refine yields_bind (objectLoop_yields Bound (requestMember_yields _) _ true [] {} text nofun) ?_
    rintro ⟨request, seen, rest⟩ bound
    refine yields_give_bind ?_
    intro _ _
    refine yields_give_bind ?_
    intro _ checked
    exact yields_pure ⟨seen, bound, checked⟩
  unfold parseRequest at accepted
  split at accepted
  · cases accepted
  · split at accepted
    · cases accepted
    · rename_i run
      rw [accepted] at run
      exact yields parsed run

end Accepts

section Strings

/-- Characters that a string carries as they are, or behind a backslash. -/
def Visible (value : Text) : Prop := ∀ c ∈ value, '!' ≤ c ∧ c ≤ '~'

theorem visible_range {value : Text} (visible : Visible value) :
    ∀ c ∈ value, 33 ≤ c.toNat ∧ c.toNat ≤ 126 := visible

theorem escape_visible {c : Char} (range : 33 ≤ c.toNat ∧ c.toNat ≤ 126) :
    escapeChar c = if c = '\x22' ∨ c = '\x5c' then ['\x5c', c] else [c] := by
  have apart {d : Char} (low : d.toNat < 33) : c ≠ d := by
    rintro rfl
    omega
  have plain : ¬c.toNat < 32 ∧ c.toNat ≠ 8 ∧ c.toNat ≠ 12 := by omega
  unfold escapeChar
  rw [if_neg (apart (d := '\n') (by decide)), if_neg (apart (d := '\r') (by decide)),
    if_neg (apart (d := '\t') (by decide)), if_neg plain.2.1, if_neg plain.2.2, if_neg plain.1]

theorem stringLen_visible {value : Text} (visible : Visible value) :
    stringLen value = value.length := by
  unfold stringLen
  induction value with
  | nil => rfl
  | cons c value ih =>
    have range := visible_range visible c (by simp)
    have rest := ih fun d member => visible d (by simp [member])
    rw [List.map_cons, List.sum_cons, rest, if_pos (by omega), List.length_cons, Nat.add_comm]

theorem stringLoop_quoted {value : Text} (acc rest : Text) (visible : Visible (acc ++ value))
    (short : (acc ++ value).length ≤ maxText) :
    stringLoop acc (value.flatMap escapeChar ++ '\x22' :: rest) = .ok (acc ++ value, rest) := by
  induction value generalizing acc with
  | nil =>
    rw [List.flatMap_nil, List.nil_append, List.append_nil, stringLoop.eq_def]
    rfl
  | cons c value ih =>
    have range := visible_range visible c (by simp)
    have regroup : acc ++ c :: value = (acc ++ [c]) ++ value := by simp
    rw [regroup] at visible short ⊢
    have start : Visible (acc ++ [c]) := fun d member => visible d (List.mem_append_left _ member)
    have fits : ¬maxText < stringLen (acc ++ [c]) := by
      rw [stringLen_visible start]
      rw [List.length_append] at short
      omega
    have grows : grown acc c = .ok (acc ++ [c]) := if_neg fits
    rw [List.flatMap_cons, escape_visible range, ← ih (acc ++ [c]) visible short]
    by_cases special : c = '\x22' ∨ c = '\x5c'
    · rw [if_pos special, List.append_assoc, List.cons_append, List.cons_append, List.nil_append,
        stringLoop.eq_def]
      have escaped : c = '\x22' ∨ c = '\x5c' ∨ c = '/' := by tauto
      simp only [Char.reduceEq, if_false, ne_eq, not_true_eq_false, escaped, if_true,
        grows]
      rfl
    · rw [not_or] at special
      have control : ¬c.toNat < 32 := by omega
      rw [if_neg (by tauto), List.append_assoc, List.cons_append, List.nil_append,
        stringLoop.eq_def]
      simp only [special.1, special.2, control, if_false, ne_eq, not_false_eq_true, if_true, grows]

theorem parseString_quoted {value : Text} (rest : Text) (visible : Visible value)
    (short : value.length ≤ maxText) : parseString (quoted value ++ rest) = .ok (value, rest) := by
  have loop := stringLoop_quoted [] rest visible short
  have regroup : quoted value ++ rest = '\x22' :: (value.flatMap escapeChar ++ '\x22' :: rest) := by
    simp [quoted]
  rw [regroup]
  exact loop

end Strings

section Numbers

/-- What stands after a value inside an object. -/
def Follows (rest : Text) : Prop := ∃ c more, rest = c :: more ∧ (c = ',' ∨ c = '\x7d')

theorem Follows.not_digit {rest : Text} (follows : Follows rest) :
    rest.head?.any digitCode = false := by
  obtain ⟨c, more, rfl, rfl | rfl⟩ := follows <;> rfl

theorem takeWhile_digits {digits rest : Text} (all : ∀ c ∈ digits, digitCode c = true)
    (stop : rest.head?.any digitCode = false) :
    (digits ++ rest).takeWhile digitCode = digits ∧
    (digits ++ rest).dropWhile digitCode = rest := by
  rw [List.takeWhile_append_of_pos all, List.dropWhile_append_of_pos all]
  cases rest with
  | nil => simp
  | cons c rest =>
    have other : digitCode c = false := stop
    simp [other]

theorem le_ofDigitChars (digits : Text) (parsed : ℕ) :
    parsed ≤ Nat.ofDigitChars 10 digits parsed := by
  induction digits generalizing parsed with
  | nil => exact Nat.le_refl _
  | cons c digits ih =>
    rw [Nat.ofDigitChars_cons]
    have rest := ih (10 * parsed + (c.toNat - '0'.toNat))
    omega

theorem int32_digits {digits : Text} {parsed : ℕ}
    (small : Nat.ofDigitChars 10 digits parsed ≤ 2147483647) :
    digits.foldlM int32Turn parsed = .ok (Nat.ofDigitChars 10 digits parsed) := by
  induction digits generalizing parsed with
  | nil => rfl
  | cons c digits ih =>
    rw [Nat.ofDigitChars_cons, Nat.mul_comm] at small ⊢
    have bound := le_ofDigitChars digits (parsed * 10 + (c.toNat - '0'.toNat))
    have turn : int32Turn parsed c = .ok (parsed * 10 + (c.toNat - '0'.toNat)) := by
      unfold int32Turn
      exact if_neg (by omega)
    rw [List.foldlM_cons, turn]
    exact ih small

/-- The decimal digits of the numbers that a request holds. -/
theorem digits_small {number : ℕ} (positive : 1 ≤ number) (small : number ≤ 500) :
    (Nat.toDigits 10 number).head? ≠ some '0' ∧ (Nat.toDigits 10 number).length ≤ 10 ∧
      (Nat.toDigits 10 number).all digitCode = true := by
  have table : ∀ n ∈ List.range' 1 500, (Nat.toDigits 10 n).head? ≠ some '0' ∧
      (Nat.toDigits 10 n).length ≤ 10 ∧ (Nat.toDigits 10 n).all digitCode = true := by
    decide +kernel
  exact table number (List.mem_range'_1.2 ⟨positive, by omega⟩)

theorem parseUnsignedInt_digits {number : ℕ} {rest : Text} (positive : 1 ≤ number)
    (small : number ≤ 500) (follows : Follows rest) :
    parseUnsignedInt (Nat.toDigits 10 number ++ rest) = .ok (number, rest) := by
  obtain ⟨lead, short, all⟩ := digits_small positive small
  have value : Nat.ofDigitChars 10 (Nat.toDigits 10 number) 0 = number :=
    Nat.ofDigitChars_ten_toDigits
  have parsed : (Nat.toDigits 10 number).foldlM int32Turn 0 = .ok number := by
    have bounded : Nat.ofDigitChars 10 (Nat.toDigits 10 number) 0 ≤ 2147483647 := by omega
    rw [int32_digits bounded, value]
  have some : Nat.toDigits 10 number ≠ [] := Nat.toDigits_ne_nil
  rw [List.all_eq_true] at all
  generalize Nat.toDigits 10 number = digits at *
  cases digits with
  | nil => exact absurd rfl some
  | cons c digits =>
    have digit := all c (by simp)
    have solid : isWhitespace c = false := by
      unfold isWhitespace
      rw [decide_eq_false_iff_not]
      rintro (rfl | rfl | rfl | rfl) <;> exact absurd digit (by decide)
    have nonzero : c ≠ '0' := fun same => lead (congrArg Option.some same)
    have spans := takeWhile_digits (fun d member => all d (List.mem_cons_of_mem c member))
      follows.not_digit
    have suffix : rest.head? ∉ [Option.some '.', Option.some 'e', Option.some 'E'] := by
      obtain ⟨d, more, rfl, rfl | rfl⟩ := follows <;> simp
    have skipped : skipWhitespace (c :: digits ++ rest) = c :: (digits ++ rest) := by
      unfold skipWhitespace
      rw [List.cons_append, List.dropWhile_cons_of_neg (by rw [solid]; decide)]
    unfold parseUnsignedInt
    rw [skipped]
    simp only [digit, Bool.true_eq_false, if_false, nonzero, spans.1, spans.2, parsed, suffix,
      if_neg (Nat.not_lt.2 short)]

end Numbers

section Listings

/-- A member as it stands in a text, and what it does to the state. -/
structure Listed (S : Type) where
  key : Text
  piece : Text
  effect : S → S

def Listed.text {S : Type} (member : Listed S) : Text := quoted member.key ++ ':' :: member.piece

/-- The members after the first, up to the closing brace. -/
def tailText {S : Type} (members : List (Listed S)) (rest : Text) : Text :=
  members.foldr (fun member text => ',' :: (member.text ++ text)) ('\x7d' :: rest)

variable {S : Type}

theorem tailText_follows (members : List (Listed S)) (rest : Text) :
    Follows (tailText members rest) := by
  cases members with
  | nil => exact ⟨_, _, rfl, .inr rfl⟩
  | cons member members => exact ⟨_, _, rfl, .inl rfl⟩

theorem tail_longer (members : List (Listed S)) :
    members.length < (tailText members []).length := by
  unfold tailText
  induction members with
  | nil => exact Nat.one_pos
  | cons member members ih =>
    simp only [List.foldr_cons, List.length_cons, List.length_append]
    omega

theorem commaSeparated_tail (member : Listed S) (members : List (Listed S)) (rest : Text) :
    commaSeparated ((member :: members).map Listed.text) ++ '\x7d' :: rest =
      member.text ++ tailText members rest := by
  unfold commaSeparated tailText
  induction members generalizing member with
  | nil => simp
  | cons next members ih =>
    have rest := ih next
    rw [List.foldr_cons, ← rest]
    simp [List.intercalate_cons_cons]

/-- The members and the function that takes them agree. -/
structure Reads (take : List Text → Text → S → Text → Scan String (S × Text))
    (members : List (Listed S)) : Prop where
  keys : (members.map Listed.key).Nodup
  visible : ∀ member ∈ members, Visible member.key ∧ member.key.length ≤ maxText
  takes : ∀ member ∈ members, ∀ seen s rest, member.key ∉ seen → Follows rest →
    take seen member.key s (member.piece ++ rest) = pure (member.effect s, rest)

theorem Reads.tail {take : List Text → Text → S → Text → Scan String (S × Text)}
    {member : Listed S} {members : List (Listed S)} (reads : Reads take (member :: members)) :
    Reads take members where
  keys := (List.nodup_cons.1 reads.keys).2
  visible other inside := reads.visible other (List.mem_cons_of_mem _ inside)
  takes other inside := reads.takes other (List.mem_cons_of_mem _ inside)

theorem starts_other {found : Option Char} {c : Char} (starts : found = some c)
    (other : c ≠ '\x7d') :
    found ≠ some '\x7d' := by
  rw [starts]
  exact fun same => other (Option.some.inj same)

/-- One turn takes the member that stands first. -/
theorem turn_reads {take : List Text → Text → S → Text → Scan String (S × Text)}
    {member : Listed S} {members : List (Listed S)} (reads : Reads take (member :: members))
    {turns : ℕ} {first : Bool} {seen : List Text} {s : S} {text rest : Text}
    (fresh : member.key ∉ seen) (follows : Follows rest)
    (starts : (skipWhitespace text).head? ≠ some '\x7d')
    (separated : (if first then .ok text else consume ',' text) = .ok (member.text ++ rest)) :
    objectLoop take (turns + 1) first seen s text =
      objectLoop take turns false (seen ++ [member.key]) (member.effect s) rest := by
  have listed : member ∈ member :: members := List.mem_cons_self
  obtain ⟨visible, short⟩ := reads.visible member listed
  have parsed : parseString (member.text ++ rest) =
      .ok (member.key, ':' :: (member.piece ++ rest)) := by
    unfold Listed.text
    rw [List.append_assoc]
    exact parseString_quoted _ visible short
  have colon : consume ':' (':' :: (member.piece ++ rest)) = .ok (member.piece ++ rest) := rfl
  rw [objectLoop, if_neg starts, separated, give_bind, parsed, give_bind]
  simp only
  rw [colon, give_bind, reads.takes member listed seen s rest fresh follows]
  rfl

theorem tail_reads {take : List Text → Text → S → Text → Scan String (S × Text)}
    {members : List (Listed S)} (reads : Reads take members) {turns : ℕ} (seen : List Text) (s : S)
    (rest : Text) (enough : members.length < turns)
    (fresh : ∀ member ∈ members, member.key ∉ seen) :
    objectLoop take turns false seen s (tailText members rest) =
      pure (members.foldl (fun s member => member.effect s) s, seen ++ members.map Listed.key,
        rest) := by
  induction members generalizing turns seen s with
  | nil =>
    cases turns with
    | zero => exact absurd enough (Nat.not_lt_zero _)
    | succ turns =>
      have ends : (skipWhitespace (tailText ([] : List (Listed S)) rest)).head? = some '\x7d' := rfl
      rw [objectLoop, if_pos ends, List.map_nil, List.append_nil]
      rfl
  | cons member members ih =>
    cases turns with
    | zero => exact absurd enough (Nat.not_lt_zero _)
    | succ turns =>
      have apart := List.nodup_cons.1 reads.keys
      have later : ∀ other ∈ members, other.key ∉ seen ++ [member.key] := by
        intro other inside known
        rcases List.mem_append.1 known with old | new
        · exact fresh other (List.mem_cons_of_mem _ inside) old
        · exact apart.1 (List.mem_map.2 ⟨other, inside, List.mem_singleton.1 new⟩)
      have enough : members.length < turns := Nat.lt_of_succ_lt_succ enough
      have loop := ih reads.tail (seen ++ [member.key]) (member.effect s) enough later
      have starts : (skipWhitespace (tailText (member :: members) rest)).head? ≠ some '\x7d' :=
        starts_other (c := ',') rfl (by decide)
      rw [turn_reads reads (fresh member List.mem_cons_self) (tailText_follows members rest) starts
        rfl,
        loop]
      simp

/-- An object that lists members is taken apart into them. -/
theorem object_reads {take : List Text → Text → S → Text → Scan String (S × Text)}
    {member : Listed S} {members : List (Listed S)} (reads : Reads take (member :: members))
    {turns : ℕ} (s : S) (rest : Text) (enough : members.length + 1 < turns) :
    objectLoop take turns true [] s
        (commaSeparated ((member :: members).map Listed.text) ++ '\x7d' :: rest) =
      pure ((member :: members).foldl (fun s member => member.effect s) s,
        (member :: members).map Listed.key, rest) := by
  cases turns with
  | zero => exact absurd enough (Nat.not_lt_zero _)
  | succ turns =>
    have apart := List.nodup_cons.1 reads.keys
    have later : ∀ other ∈ members, other.key ∉ [] ++ [member.key] := by
      intro other inside known
      exact apart.1 (List.mem_map.2 ⟨other, inside, List.mem_singleton.1 known⟩)
    have loop := tail_reads reads.tail ([] ++ [member.key]) (member.effect s) rest
      (Nat.lt_of_succ_lt_succ enough) later
    have starts : (skipWhitespace (member.text ++ tailText members rest)).head? ≠ some '\x7d' :=
      starts_other (c := '\x22') rfl (by decide)
    rw [commaSeparated_tail, turn_reads reads List.not_mem_nil (tailText_follows members rest)
      starts
      rfl, loop]
    rfl

/-- An object as its text lists it. -/
def objectText (members : List (Listed S)) : Text :=
  '\x7b' :: (commaSeparated (members.map Listed.text) ++ ['\x7d'])

end Listings

section Preflights

/-- The preflight gets past a piece at any depth that leaves room for so many levels more. -/
def Steady (levels : ℕ) (piece : Text) : Prop :=
  ∀ depth, depth + levels ≤ 32 → ∃ run,
    piece.foldlM preflightTurn ⟨false, false, depth, 0⟩ = .ok ⟨false, false, depth, run⟩

theorem preflight_string {value : Text} (visible : Visible value) (depth : ℕ) :
    (value.flatMap escapeChar).foldlM preflightTurn ⟨true, false, depth, 0⟩ =
      .ok ⟨true, false, depth, 0⟩ := by
  induction value with
  | nil => rfl
  | cons c value ih =>
    have range := visible_range visible c (by simp)
    have rest := ih fun d member => visible d (by simp [member])
    rw [List.flatMap_cons, List.foldlM_append, escape_visible range]
    by_cases special : c = '\x22' ∨ c = '\x5c'
    · rw [if_pos special]
      exact rest
    · rw [if_neg special]
      rw [not_or] at special
      have turn : preflightTurn ⟨true, false, depth, 0⟩ c = .ok ⟨true, false, depth, 0⟩ := by
        simp [preflightTurn, special.1, special.2]
      rw [List.foldlM_cons, turn]
      exact rest

theorem preflight_quoted {value : Text} (visible : Visible value) (depth run : ℕ) :
    (quoted value).foldlM preflightTurn ⟨false, false, depth, run⟩ =
      .ok ⟨false, false, depth, 0⟩ := by
  have inner := preflight_string visible depth
  unfold quoted
  rw [List.foldlM_cons]
  change ((value.flatMap escapeChar ++ ['\x22']).foldlM preflightTurn ⟨true, false, depth, 0⟩) = _
  rw [List.foldlM_append, inner]
  rfl

theorem steady_quoted {value : Text} (visible : Visible value) (levels : ℕ) :
    Steady levels (quoted value) :=
  fun depth _ => ⟨0, preflight_quoted visible depth 0⟩

theorem preflight_digits {digits : Text} (all : ∀ c ∈ digits, digitCode c = true) (depth run : ℕ)
    (short : run + digits.length ≤ 20) :
    digits.foldlM preflightTurn ⟨false, false, depth, run⟩ =
      .ok ⟨false, false, depth, run + digits.length⟩ := by
  induction digits generalizing run with
  | nil => rfl
  | cons c digits ih =>
    have digit := all c (by simp)
    have apart {d : Char} (other : digitCode d = false) : c ≠ d := by
      rintro rfl
      rw [digit] at other
      cases other
    rw [List.length_cons] at short
    have turn : preflightTurn ⟨false, false, depth, run⟩ c =
        .ok ⟨false, false, depth, run + 1⟩ := by
      have room : ¬20 < run + 1 := by omega
      simp [preflightTurn, apart (d := '\x22') (by decide), apart (d := '\x7b') (by decide),
        apart (d := '[') (by decide), apart (d := '\x7d') (by decide), apart (d := ']') (by decide),
        digit, room]
    have rest := ih (fun d member => all d (by simp [member])) (run + 1) (by omega)
    rw [List.foldlM_cons, turn, List.length_cons]
    change digits.foldlM preflightTurn _ = _
    rw [rest, Nat.add_assoc, Nat.add_comm 1]

theorem steady_digits {number : ℕ} (positive : 1 ≤ number) (small : number ≤ 500) (levels : ℕ) :
    Steady levels (Nat.toDigits 10 number) := by
  obtain ⟨-, short, all⟩ := digits_small positive small
  rw [List.all_eq_true] at all
  intro depth _
  exact ⟨_, preflight_digits all depth 0 (by omega)⟩

variable {S : Type}

theorem preflight_member {levels : ℕ} {member : Listed S} (visible : Visible member.key)
    (steady : Steady levels member.piece) (depth run : ℕ) (room : depth + levels ≤ 32) :
    ∃ run', member.text.foldlM preflightTurn ⟨false, false, depth, run⟩ =
      .ok ⟨false, false, depth, run'⟩ := by
  obtain ⟨run', piece⟩ := steady depth room
  refine ⟨run', ?_⟩
  unfold Listed.text
  rw [List.foldlM_append, preflight_quoted visible]
  exact piece

theorem preflight_tail {levels : ℕ} {members : List (Listed S)}
    (steady : ∀ member ∈ members, Visible member.key ∧ Steady levels member.piece) (depth run : ℕ)
    (room : depth + 1 + levels ≤ 32) :
    (tailText members []).foldlM preflightTurn ⟨false, false, depth + 1, run⟩ =
      .ok ⟨false, false, depth, 0⟩ := by
  induction members generalizing run with
  | nil => rfl
  | cons member members ih =>
    obtain ⟨visible, piece⟩ := steady member List.mem_cons_self
    obtain ⟨run', passed⟩ := preflight_member visible piece (depth + 1) 0 room
    have rest := ih (fun other inside => steady other (List.mem_cons_of_mem _ inside)) run'
    change (member.text ++ tailText members []).foldlM preflightTurn ⟨false, false, depth + 1, 0⟩ =
      _
    rw [List.foldlM_append, passed]
    exact rest

theorem steady_object {levels : ℕ} {member : Listed S} {members : List (Listed S)}
    (steady : ∀ other ∈ member :: members, Visible other.key ∧ Steady levels other.piece) :
    Steady (levels + 1) (objectText (member :: members)) := by
  intro depth room
  obtain ⟨visible, piece⟩ := steady member List.mem_cons_self
  obtain ⟨run, passed⟩ := preflight_member visible piece (depth + 1) 0 (by omega)
  have rest :=
    preflight_tail (fun other inside => steady other (List.mem_cons_of_mem _ inside)) depth
    run (by omega)
  have opened : preflightTurn ⟨false, false, depth, 0⟩ '\x7b' =
      .ok ⟨false, false, depth + 1, 0⟩ := by
    have fits : ¬32 < depth + 1 := by omega
    simp [preflightTurn, fits]
  refine ⟨0, ?_⟩
  unfold objectText
  rw [List.foldlM_cons, opened, commaSeparated_tail]
  change (member.text ++ tailText members []).foldlM preflightTurn ⟨false, false, depth + 1, 0⟩ = _
  rw [List.foldlM_append, passed]
  exact rest

end Preflights

section Members

instance (value : Text) : Decidable (Visible value) := List.decidableBAll _ value

/-- A value that both ends carry in a string. -/
def Plain (value : Text) : Prop := Visible value ∧ value.length ≤ maxText

instance (value : Text) : Decidable (Plain value) := inferInstanceAs (Decidable (_ ∧ _))

theorem bindingMember_quoted {seen : List Text} {key value : Text} {binding binding' : Binding}
    (fresh : key ∉ seen) (plain : Plain value) (set : setBinding binding key value = some binding')
    (rest : Text) :
    give (bindingMember seen key binding (quoted value ++ rest)) =
      (pure (binding', rest) : Scan String (Binding × Text)) := by
  unfold bindingMember
  rw [parseString_quoted rest plain.1 plain.2]
  simp only [fresh, if_false, set]
  rfl

theorem requestMember_quoted (turns : ℕ) {seen : List Text} {key value : Text}
    {request request' : Request} (fresh : key ∉ seen) (plain : Plain value)
    (set : setText request key value = some request') (rest : Text) :
    requestMember turns seen key request (quoted value ++ rest) = pure (request', rest) := by
  have binding := (setText_binding set).2
  have number : ¬(key = "version".toList ∨ key = "limit".toList) := by
    rintro (rfl | rfl) <;> cases set
  unfold requestMember textMember
  rw [if_neg fresh, if_neg number, if_neg binding, parseString_quoted rest plain.1 plain.2]
  simp only [set]
  rfl

theorem requestMember_number (turns : ℕ) {seen : List Text} {key : Text} (request : Request)
    (fresh : key ∉ seen) (named : key = "version".toList ∨ key = "limit".toList) {number : ℕ}
    {rest : Text} (positive : 1 ≤ number) (small : number ≤ 500) (follows : Follows rest) :
    requestMember turns seen key request (Nat.toDigits 10 number ++ rest) =
      pure (if key = "version".toList then { request with version := number }
        else { request with limit := number }, rest) := by
  unfold requestMember numberMember
  rw [if_neg fresh, if_pos named, parseUnsignedInt_digits positive small follows]
  rfl

/-- The object of a binding is taken apart into it. -/
theorem parseBinding_reads {members : List (Listed Binding)} {member : Listed Binding}
    (reads : Reads (fun seen key binding text => give (bindingMember seen key binding text))
      (member :: members)) {turns : ℕ} (binding : Binding) (rest : Text)
    (enough : members.length + 1 < turns) (five : (member :: members).length = 5)
    (valid : bindingValid ((member :: members).foldl (fun s member => member.effect s) binding) =
      true) :
    parseBinding turns binding (objectText (member :: members) ++ rest) =
      pure ((member :: members).foldl (fun s member => member.effect s) binding, rest) := by
  have regroup : objectText (member :: members) ++ rest =
      '\x7b' :: (commaSeparated ((member :: members).map Listed.text) ++ '\x7d' :: rest) := by
    simp [objectText]
  have opened (text : Text) : consume '\x7b' ('\x7b' :: text) = .ok text := rfl
  have count : ¬(((member :: members).map Listed.key).length ≠ 5 ∨
      bindingValid ((member :: members).foldl (fun s member => member.effect s) binding) =
      false) := by
    rw [List.length_map, valid]
    simpa using five
  unfold parseBinding
  rw [regroup, opened, give_bind, object_reads reads binding rest enough, pure_bind]
  simp only
  rw [if_neg count]
  rfl

/-- A text that lists the members of an object, and nothing else, parses into what they make. -/
theorem parseRequest_reads {member : Listed Request} {members : List (Listed Request)}
    (reads : ∀ turns, members.length + 1 < turns → Reads (requestMember turns) (member :: members))
    (steady : ∀ other ∈ member :: members, Steady 1 other.piece)
    (checked : checkRequest ((member :: members).foldl (fun s member => member.effect s) {})
      ((member :: members).map Listed.key) = .ok ()) :
    parseRequest (objectText (member :: members)) =
      .ok ((member :: members).foldl (fun s member => member.effect s) {}) := by
  have enough : members.length + 1 < turnsFor (objectText (member :: members)) := by
    have long := tail_longer members
    unfold turnsFor objectText
    rw [commaSeparated_tail, List.length_cons, List.length_append]
    omega
  have reads := reads _ enough
  have passed : preflight (objectText (member :: members)) = .ok () := by
    obtain ⟨run, passed⟩ := steady_object (fun other inside =>
      ⟨(reads.visible other inside).1, steady other inside⟩) 0 (by decide)
    unfold preflight
    rw [passed]
    rfl
  have opened (text : Text) : consume '\x7b' ('\x7b' :: text) = .ok text := rfl
  have run : (parseObject (objectText (member :: members))).run =
      some (.ok ((member :: members).foldl (fun s member => member.effect s) {})) := by
    unfold parseObject
    rw [show objectText (member :: members) = '\x7b' :: (commaSeparated
      ((member :: members).map Listed.text) ++ ['\x7d']) from rfl] at *
    rw [opened, give_bind, object_reads reads {} [] enough, pure_bind]
    simp only
    rw [checked]
    rfl
  unfold parseRequest
  rw [passed, run]

end Members

end ArbNautilus.Mt5.Ea
