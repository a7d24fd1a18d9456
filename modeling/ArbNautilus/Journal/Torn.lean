import ArbNautilus.Journal.AtMostOnce
import ArbNautilus.Journal.Stretch
import Mathlib.Data.List.GetD

/-! What the loader takes of an events file whose last line was cut off or was joined by another. -/

namespace ArbNautilus.Journal

open Base

section Events

/-- The boot that the last start named. -/
def currentBoot (events : List JournalEvent) : Option Text := (startedBoots events).getLast?

/-- An event about an order belongs to the boot that runs; so does a terminal event's
reservation. -/
def Joins (events : List JournalEvent) (event : JournalEvent) : Prop :=
  ∀ order, event.body.order = some order → currentBoot events = some event.bootId ∧
    (event.body.eventType.isTerminal = true → ∀ other ∈ events,
      other.reserves order.clientRequestId = true → other.bootId = event.bootId)

/-- Every event stands in its own boot. -/
inductive InBoots : List JournalEvent → Prop
  | nil : InBoots []
  | concat {events : List JournalEvent} {event : JournalEvent} (before : InBoots events)
      (joins : Joins events event) : InBoots (events ++ [event])

theorem InBoots.of_concat {events : List JournalEvent} {event : JournalEvent}
    (boots : InBoots (events ++ [event])) : InBoots events ∧ Joins events event := by
  generalize whole : events ++ [event] = all at boots
  cases boots with
  | nil => exact absurd whole (by simp)
  | concat before joins =>
    obtain ⟨rfl, last⟩ := List.append_inj' whole rfl
    cases last
    exact ⟨before, joins⟩

/-- What two readings of one line share when the line was cut off or joined between them. -/
structure Alike (a b : JournalEvent) : Prop where
  bootId : a.bootId = b.bootId
  eventType : a.body.eventType = b.body.eventType
  about : a.body.order.map (·.clientRequestId) = b.body.order.map (·.clientRequestId)

theorem Joins.alike {events : List JournalEvent} {a b : JournalEvent} (joins : Joins events a)
    (alike : Alike a b) : Joins events b := by
  intro order body
  have about := alike.about
  rw [body, Option.map_some, Option.map_eq_some_iff] at about
  obtain ⟨own, own_body, same⟩ := about
  obtain ⟨current, reserved⟩ := joins own own_body
  rw [← alike.bootId, ← alike.eventType, ← same]
  exact ⟨current, reserved⟩

end Events

section Lines

theorem EventBody.order_eq_none {body : EventBody} :
    body.order = none ↔ body.eventType = .streamStarted := by
  cases body <;> simp [EventBody.order, EventBody.eventType]

/-- The fields of the shortest line of an event of this type, the checksum included. -/
def EventType.fewest : EventType → ℕ
  | .streamStarted => 9
  | .submissionReserved => 10
  | .orderRejected | .orderUnknown => 12
  | .orderFilled => 17

theorem parseOrder_id {parts : List Text} {closeEvent : Bool} {order : Submission}
    (parsed : parseOrder parts closeEvent = some order) :
    order.clientRequestId = parts.getD 6 [] := by
  unfold parseOrder at parsed
  dsimp only at parsed
  split at parsed
  · cases parsed
  · split at parsed
    · cases parsed
      rfl
    · cases parsed

theorem parseRejectedOrUnknown_parts {parts : List Text} {order : Submission}
    {reason retcode : Text}
    (parsed : parseRejectedOrUnknown parts = some (order, reason, retcode)) :
    order.clientRequestId = parts.getD 6 [] ∧ 12 ≤ parts.length ∧ parts.length ≤ 14 := by
  simp only [parseRejectedOrUnknown, Option.ite_none_left_eq_some, Option.map_eq_some_iff] at parsed
  obtain ⟨count, -, order', parsed, same⟩ := parsed
  cases same
  rw [beq_iff_eq] at count
  exact ⟨parseOrder_id parsed, by omega, by omega⟩

/-- What the parser looked at: the type, the id and the number of fields. -/
theorem parseBody_parts {parts : List Text} {body : EventBody}
    (parsed : parseBody parts = some body) :
    EventType.ofText (parts.getD 5 []) = some body.eventType ∧
      (∀ order, body.order = some order → order.clientRequestId = parts.getD 6 []) ∧
      body.eventType.fewest ≤ parts.length ∧ parts.length ≤ body.eventType.fewest + 2 := by
  unfold parseBody at parsed
  split at parsed
  · cases parsed
  · rename_i type
    simp only [parseStreamStarted, Option.ite_none_left_eq_some, Option.some.injEq] at parsed
    obtain ⟨checks, rfl⟩ := parsed
    simp only [not_or, not_not] at checks
    refine ⟨type, fun _ about => absurd about.symm (Option.some_ne_none _), ?_⟩
    simp only [EventBody.eventType, EventType.fewest]
    omega
  · rename_i type
    simp only [parseReserved, Option.ite_none_left_eq_some, Option.map_eq_some_iff,
      beq_iff_eq] at parsed
    obtain ⟨count, order, parsed, rfl⟩ := parsed
    refine ⟨type, fun _ about => Option.some.inj about ▸ parseOrder_id parsed, ?_⟩
    simp only [EventBody.eventType, EventType.fewest]
    omega
  · rename_i type
    simp only [Option.map_eq_some_iff] at parsed
    obtain ⟨⟨order, reason, retcode⟩, parsed, rfl⟩ := parsed
    obtain ⟨id, count⟩ := parseRejectedOrUnknown_parts parsed
    exact ⟨type, fun _ about => Option.some.inj about ▸ id, count⟩
  · rename_i type
    simp only [Option.map_eq_some_iff] at parsed
    obtain ⟨⟨order, reason, retcode⟩, parsed, rfl⟩ := parsed
    obtain ⟨id, count⟩ := parseRejectedOrUnknown_parts parsed
    exact ⟨type, fun _ about => Option.some.inj about ▸ id, count⟩
  · rename_i type
    simp only [parseFilled, Option.ite_none_left_eq_some, Option.map_eq_some_iff,
      beq_iff_eq] at parsed
    obtain ⟨count, -, order, parsed, rfl⟩ := parsed
    refine ⟨type, fun _ about => Option.some.inj about ▸ parseOrder_id parsed, ?_⟩
    simp only [EventBody.eventType, EventType.fewest]
    omega

theorem verifiedParts_splitOn {line : Text} {count : ℕ} {parts : List Text}
    (verified : verifiedParts line count = some parts) :
    parts = line.splitOn '|' ∧ parts.length = count := by
  unfold verifiedParts at verified
  dsimp only at verified
  split at verified
  · cases verified
  · rename_i counted
    obtain ⟨-, same⟩ := Option.ite_none_right_eq_some.1 verified
    cases same
    exact ⟨rfl, not_not.1 counted⟩

theorem parseEvent_parts {streamId line expected : Text} {event : JournalEvent}
    (parsed : parseEvent streamId line expected = some event) :
    event.bootId = (line.splitOn '|').getD 4 [] ∧
      parseBody (line.splitOn '|') = some event.body := by
  unfold parseEvent at parsed
  dsimp only at parsed
  split at parsed
  · cases parsed
  · split at parsed
    · cases parsed
    · rename_i verified
      obtain ⟨rfl, -⟩ := verifiedParts_splitOn verified
      simp only [Option.ite_none_left_eq_some, Option.map_eq_some_iff] at parsed
      obtain ⟨-, body, parsed, rfl⟩ := parsed
      exact ⟨rfl, parsed⟩

theorem parseEvent_own {event : JournalEvent} (valid : event.valid = true) :
    parseEvent event.streamId event.line event.eventSeq = some event := by
  rw [parseEvent_line valid, if_pos ⟨rfl, rfl⟩]

theorem EventType.nine_le_fewest (type : EventType) : 9 ≤ type.fewest := by
  cases type <;> decide

/-- A line and what it was joined to are read, if both are, as events of one boot, type and id. -/
theorem parse_alike {a b : JournalEvent} {streamId streamId' text more expected expected' : Text}
    (parsed : parseEvent streamId text expected = some a)
    (parsed' : parseEvent streamId' (text ++ more) expected' = some b) : Alike a b := by
  obtain ⟨boot, body⟩ := parseEvent_parts parsed
  obtain ⟨boot', body'⟩ := parseEvent_parts parsed'
  obtain ⟨type, id, few, -⟩ := parseBody_parts body
  obtain ⟨type', id', -⟩ := parseBody_parts body'
  obtain ⟨front, last, next, rest, before, -, whole⟩ := splitOn_append '|' text more
  rw [before] at boot type id few
  rw [whole] at boot' type' id'
  have long : 8 ≤ front.length := by
    have least := a.body.eventType.nine_le_fewest
    rw [List.length_append, List.length_singleton] at few
    omega
  have field : ∀ i < 8, (front ++ [last]).getD i [] =
      (front ++ (last ++ next) :: rest).getD i [] := by
    intro i below
    rw [List.getD_append _ _ _ _ (by omega), List.getD_append _ _ _ _ (by omega)]
  rw [field 4 (by omega), ← boot'] at boot
  rw [field 5 (by omega), type'] at type
  have kind := (Option.some.inj type).symm
  refine ⟨boot, kind, ?_⟩
  rw [field 6 (by omega)] at id
  cases own : a.body.order with
  | none =>
    rw [EventBody.order_eq_none] at own
    rw [EventBody.order_eq_none.2 (kind.symm.trans own)]
  | some order =>
    cases other : b.body.order with
    | none =>
      rw [EventBody.order_eq_none] at other
      rw [EventBody.order_eq_none.2 (kind.trans other)] at own
      cases own
    | some order' =>
      rw [Option.map_some, Option.map_some, id order own, id' order' other]

/-- The joined line is not read when a whole line follows. -/
theorem parse_joined {a next : JournalEvent} (valid : next.valid = true)
    {streamId streamId' text expected expected' : Text}
    (parsed : parseEvent streamId text expected = some a) :
    parseEvent streamId' (text ++ next.line) expected' = none := by
  cases parsed' : parseEvent streamId' (text ++ next.line) expected' with
  | none => rfl
  | some b =>
    have kind := (parse_alike parsed parsed').eventType
    obtain ⟨-, -, few, -⟩ := parseBody_parts (parseEvent_parts parsed).2
    obtain ⟨-, -, -, most⟩ := parseBody_parts (parseEvent_parts parsed').2
    obtain ⟨front, last, field, rest, before, after, whole⟩ := splitOn_append '|' text next.line
    obtain ⟨-, -, long, -⟩ := parseBody_parts (parseEvent_parts (parseEvent_own valid)).2
    have least := next.body.eventType.nine_le_fewest
    rw [before, List.length_append, List.length_singleton] at few
    rw [after, List.length_cons] at long
    rw [whole, ← kind, List.length_append, List.length_cons] at most
    omega

/-- The line has a header's fields, for this stream and this first cursor. -/
structure Heads (streamId first header : Text) : Prop where
  count : (header.splitOn '|').length = 6
  stream : (header.splitOn '|').getD 3 [] = streamId
  first : (header.splitOn '|').getD 4 [] = first

/-- A header that is joined by more still names its stream and its first cursor, if it is one. -/
theorem heads_alike {streamId streamId' first first' header more : Text}
    (heads : Heads streamId first header) (heads' : Heads streamId' first' (header ++ more)) :
    streamId = streamId' ∧ first = first' := by
  obtain ⟨count, rfl, rfl⟩ := heads
  obtain ⟨-, rfl, rfl⟩ := heads'
  obtain ⟨front, last, next, rest, before, -, whole⟩ := splitOn_append '|' header more
  rw [before, List.length_append, List.length_singleton] at count
  rw [before, whole]
  constructor
  · rw [List.getD_append _ _ _ _ (by omega), List.getD_append _ _ _ _ (by omega)]
  · rw [List.getD_append _ _ _ _ (by omega), List.getD_append _ _ _ _ (by omega)]

theorem Heads.unique {streamId streamId' first first' header : Text}
    (heads : Heads streamId first header) (heads' : Heads streamId' first' header) :
    streamId = streamId' ∧ first = first' := by
  rw [← List.append_nil header] at heads'
  exact heads_alike heads heads'

/-- A header that a whole line was joined to is none. -/
theorem not_heads_joined {next : JournalEvent} (valid : next.valid = true)
    {streamId streamId' first first' header : Text} (heads : Heads streamId first header) :
    ¬Heads streamId' first' (header ++ next.line) := by
  intro heads'
  obtain ⟨front, last, field, rest, before, after, whole⟩ := splitOn_append '|' header next.line
  obtain ⟨-, -, long, -⟩ := parseBody_parts (parseEvent_parts (parseEvent_own valid)).2
  have least := next.body.eventType.nine_le_fewest
  have count := heads.count
  have count' := heads'.count
  rw [after, List.length_cons] at long
  rw [before, List.length_append, List.length_singleton] at count
  rw [whole, List.length_append, List.length_cons] at count'
  omega

end Lines

section Loaded

/-- What a file that loads is made of. -/
theorem loadEvents_parts {journalNamespace streamId content first : Text}
    {events : List JournalEvent} {recovery : Bool}
    (loaded : loadEvents journalNamespace streamId content = some (first, events, recovery)) :
    ∃ header rest, fileLines content = header :: rest ∧ Heads streamId first header ∧
      readEvents streamId (increment first) rest = some events := by
  unfold loadEvents at loaded
  split at loaded
  · cases loaded
  · rename_i header rest lines
    split at loaded
    · cases loaded
    · rename_i parts verified
      simp only [Option.ite_none_left_eq_some] at loaded
      obtain ⟨checks, loaded⟩ := loaded
      split at loaded
      · cases loaded
      · rename_i read
        simp only [Option.ite_none_right_eq_some, Option.some.injEq, Prod.mk.injEq] at loaded
        obtain ⟨-, rfl, rfl, -⟩ := loaded
        refine ⟨header, rest, lines, ?_, read⟩
        simp only [not_or, not_not] at checks
        obtain ⟨rfl, count⟩ := verifiedParts_splitOn verified
        exact ⟨count, checks.2.2.2.1, rfl⟩

theorem readEvents_last {streamId : Text} {lines : List Text} {line expected : Text}
    {events : List JournalEvent}
    (read : readEvents streamId expected (lines ++ [line]) = some events) :
    ∃ before event sequence, events = before ++ [event] ∧
      readEvents streamId expected lines = some before ∧
      parseEvent streamId line sequence = some event := by
  induction lines generalizing expected events with
  | nil =>
    rw [List.nil_append, readEvents] at read
    split at read
    · cases read
    · split at read
      · cases read
      · rename_i event parsed
        simp only [Option.ite_none_left_eq_some, Option.map_eq_some_iff] at read
        obtain ⟨-, later, read, rfl⟩ := read
        cases read
        exact ⟨[], event, expected, rfl, rfl, parsed⟩
  | cons first rest ih =>
    rw [List.cons_append, readEvents] at read
    split at read
    · cases read
    · rename_i some
      split at read
      · cases read
      · rename_i event parsed
        simp only [Option.ite_none_left_eq_some, Option.map_eq_some_iff] at read
        obtain ⟨goesOn, later, read, rfl⟩ := read
        obtain ⟨before, last, sequence, rfl, shorter, final⟩ := ih read
        have more : ¬increment expected = [] := fun ends => goesOn ⟨ends, by simp⟩
        refine ⟨event :: before, last, sequence, rfl, ?_, final⟩
        simp [readEvents, some, parsed, more, shorter]

/-- What is kept of a line that was written to the end of a file is read as a text that starts the
line, or that the line starts. -/
theorem fileLines_part {last line : Text} (one : '\n' ∉ last) (clean : OneLine line)
    (some : line ≠ []) (kept : ℕ) : ∃ piece, (piece <+: line ∨ line <+: piece) ∧ '\n' ∉ piece ∧
      fileLines (last ++ (wireText line).take kept) = fileLines (last ++ piece) := by
  rw [wireText_oneLine clean]
  rcases Nat.lt_trichotomy kept (line.length + 1) with short | rfl | long
  · have part : (line ++ ['\r', '\n']).take kept = line.take kept :=
      List.take_append_of_le_length (Nat.le_of_lt_succ short)
    rw [part]
    exact ⟨line.take kept, .inl (List.take_prefix kept line),
      fun inside => clean.2 (List.mem_of_mem_take inside), rfl⟩
  · refine ⟨line ++ ['\r'], .inr (List.prefix_append line ['\r']), ?_, ?_⟩
    · simpa using clean.2
    · rw [List.take_append, List.take_of_length_le (Nat.le_succ _), Nat.add_sub_cancel_left]
      rfl
  · refine ⟨line, .inl (List.prefix_refl line), clean.2, ?_⟩
    rw [List.take_of_length_le (by simp only [List.length_append, List.length_cons]; exact long)]
    have whole : '\n' ∉ last ++ line := by simp [one, clean.2]
    rw [← List.append_assoc, fileLines_line whole, fileLines_open whole (by simp [some])]
    rfl

theorem heads_comparable {streamId streamId' first first' header piece : Text}
    (heads : Heads streamId first header) (heads' : Heads streamId' first' piece)
    (comparable : piece <+: header ∨ header <+: piece) :
    streamId = streamId' ∧ first = first' := by
  rcases comparable with ⟨more, rfl⟩ | ⟨more, rfl⟩
  · obtain ⟨stream, same⟩ := heads_alike heads' heads
    exact ⟨stream.symm, same.symm⟩
  · exact heads_alike heads heads'

theorem parse_comparable {event other : JournalEvent} (valid : event.valid = true)
    {streamId piece expected : Text} (parsed : parseEvent streamId piece expected = some other)
    (comparable : piece <+: event.line ∨ event.line <+: piece) : Alike event other := by
  have own := parseEvent_own valid
  rcases comparable with ⟨more, same⟩ | ⟨more, rfl⟩
  · rw [← same] at own
    obtain ⟨boot, type, about⟩ := parse_alike parsed own
    exact ⟨boot.symm, type.symm, about.symm⟩
  · exact parse_alike own parsed

end Loaded

section Content

variable {journalNamespace : Text}

/-- Whatever a start makes of the file, it starts at zero and has every event in its boot. -/
def Orderly (journalNamespace content : Text) : Prop :=
  ∀ streamId first events recovery,
    loadEvents journalNamespace streamId content = some (first, events, recovery) →
      first = ['0'] ∧ InBoots events

/-- No start makes anything of the file, whatever is added to it. -/
def Lost (journalNamespace content : Text) : Prop :=
  ∀ streamId more, loadEvents journalNamespace streamId (content ++ more) = none

theorem Lost.append {content : Text} (lost : Lost journalNamespace content) (more : Text) :
    Lost journalNamespace (content ++ more) := by
  intro streamId rest
  rw [List.append_assoc]
  exact lost streamId (more ++ rest)

theorem Lost.orderly {content : Text} (lost : Lost journalNamespace content) :
    Orderly journalNamespace content := by
  intro streamId first events recovery loaded
  have none := lost streamId []
  rw [List.append_nil, loaded] at none
  cases none

theorem headerFields_ne_nil (streamId : Text) :
    headerFields journalNamespace streamId ['0'] ≠ [] := List.cons_ne_nil _ _

theorem clean_headerFields {streamId : Text} (named : safeToken journalNamespace = true)
    (safe : safeToken streamId = true) :
    ∀ field ∈ headerFields journalNamespace streamId ['0'], Clean field := by
  simp only [headerFields, List.forall_mem_cons]
  exact ⟨by decide, by decide, clean_of_safeToken named, clean_of_safeToken safe, by decide,
    List.forall_mem_nil _⟩

theorem heads_header {streamId : Text} (named : safeToken journalNamespace = true)
    (safe : safeToken streamId = true) :
    Heads streamId ['0'] (sealLine (headerFields journalNamespace streamId ['0'])) := by
  have fields := splitOn_sealLine (headerFields_ne_nil streamId) (clean_headerFields named safe)
  exact ⟨by rw [fields]; rfl, by rw [fields]; rfl, by rw [fields]; rfl⟩

/-- Part of a header, in a new file. -/
theorem orderly_header {streamId : Text} (named : safeToken journalNamespace = true)
    (safe : safeToken streamId = true) (kept : ℕ) : Orderly journalNamespace
      ((wireText (sealLine (headerFields journalNamespace streamId ['0']))).take kept) := by
  intro streamId' first' events' recovery' loaded'
  obtain ⟨header, rest, lines, heads, read⟩ := loadEvents_parts loaded'
  have heads' := heads_header named safe
  have clean := oneLine_sealLine (headerFields_ne_nil streamId) (clean_headerFields named safe)
  have some : sealLine (headerFields journalNamespace streamId ['0']) ≠ [] := by
    rw [sealLine]
    exact List.append_ne_nil_of_right_ne_nil _ (List.cons_ne_nil _ _)
  generalize sealLine (headerFields journalNamespace streamId ['0']) = line at *
  obtain ⟨piece, comparable, one, same⟩ :=
    fileLines_part List.not_mem_nil clean some kept
  rw [List.nil_append, List.nil_append] at same
  rw [same] at lines
  by_cases empty : piece = []
  · rw [empty] at lines
    cases lines
  · rw [fileLines_open one empty] at lines
    cases lines
    cases read
    exact ⟨(heads_comparable heads' heads comparable).2.symm, .nil⟩

/-- A new file with its whole header is read as a journal without events. -/
theorem loadEvents_header {streamId : Text} (named : safeToken journalNamespace = true)
    (safe : safeToken streamId = true) : loadEvents journalNamespace streamId
      (wireText (sealLine (headerFields journalNamespace streamId ['0']))) =
        some (['0'], [], true) := by
  have clean := clean_headerFields named safe
  have one := oneLine_sealLine (headerFields_ne_nil streamId) clean
  have zero : canonicalUint64 ['0'] false = true := by decide
  have parts : verifiedParts _ 6 = some _ :=
    verifiedParts_sealLine (headerFields_ne_nil streamId) clean
  rw [loadEvents, wireText_oneLine one, fileLines_line one.2]
  simp only [fileLines_nil, parts]
  simp [headerFields, zero, readEvents, validateExecutionHistory, validHistory, recovered]

/-- Part of a line, at the end of a file that loads. -/
theorem orderly_part {streamId content : Text} {events : List JournalEvent} {recovery : Bool}
    (loaded : loadEvents journalNamespace streamId content = some (['0'], events, recovery))
    (boots : InBoots events) {event : JournalEvent} (valid : event.valid = true)
    (joins : Joins events event) (kept : ℕ) :
    Orderly journalNamespace (content ++ (wireText event.line).take kept) := by
  intro streamId' first' events' recovery' loaded'
  obtain ⟨header, rest, lines, heads, read⟩ := loadEvents_parts loaded
  obtain ⟨header', rest', lines', heads', read'⟩ := loadEvents_parts loaded'
  obtain ⟨whole, last, rfl, ends, one⟩ := exists_lastLine content
  have some : event.line ≠ [] := by
    obtain ⟨tail, starts⟩ := event.line_starts
    simp [starts]
  obtain ⟨piece, comparable, clean, same⟩ :=
    fileLines_part one (event.oneLine valid) some kept
  rw [List.append_assoc, fileLines_append ends, same] at lines'
  rw [fileLines_append ends] at lines
  by_cases empty : last ++ piece = []
  · rw [empty] at lines'
    obtain ⟨rfl, -⟩ := List.append_eq_nil_iff.1 empty
    rw [lines] at lines'
    cases lines'
    obtain ⟨rfl, rfl⟩ := heads.unique heads'
    rw [read] at read'
    cases read'
    exact ⟨rfl, boots⟩
  rw [fileLines_open (by simp [one, clean]) empty] at lines'
  cases front : fileLines whole with
  | nil =>
    rw [front, List.nil_append] at lines lines'
    cases lines'
    cases read'
    by_cases bare : last = []
    · rw [bare] at lines
      cases lines
    · rw [fileLines_open one bare] at lines
      cases lines
      exact ⟨(heads_alike heads heads').2.symm, .nil⟩
  | cons line front =>
    rw [front, List.cons_append] at lines lines'
    cases lines
    cases lines'
    obtain ⟨rfl, rfl⟩ := heads.unique heads'
    refine ⟨rfl, ?_⟩
    obtain ⟨before, other, sequence, rfl, shorter, parsed'⟩ := readEvents_last read'
    by_cases bare : last = []
    · subst bare
      rw [fileLines_nil, List.append_nil, shorter] at read
      cases read
      exact .concat boots (joins.alike (parse_comparable valid parsed' comparable))
    · rw [fileLines_open one bare] at read
      obtain ⟨before', final, sequence', rfl, shorter', parsed⟩ := readEvents_last read
      rw [shorter] at shorter'
      cases shorter'
      obtain ⟨earlier, place⟩ := boots.of_concat
      exact .concat earlier (place.alike (parse_alike parsed parsed'))

/-- A whole line that is joined to a line without its end. -/
theorem lost_joined {streamId first content : Text} {events : List JournalEvent} {recovery : Bool}
    (loaded : loadEvents journalNamespace streamId content = some (first, events, recovery))
    (cutOff : ¬Terminated content) {event : JournalEvent} (valid : event.valid = true) :
    Lost journalNamespace (content ++ wireText event.line) := by
  intro streamId' more
  cases loaded' :
    loadEvents journalNamespace streamId' (content ++ wireText event.line ++ more) with
  | none => rfl
  | some found =>
    obtain ⟨first', events', recovery'⟩ := found
    obtain ⟨header, rest, lines, heads, read⟩ := loadEvents_parts loaded
    obtain ⟨header', rest', lines', heads', read'⟩ := loadEvents_parts loaded'
    obtain ⟨whole, last, rfl, ends, one⟩ := exists_lastLine content
    have bare : last ≠ [] := by
      rintro rfl
      exact cutOff (by rwa [List.append_nil])
    have clean := event.oneLine valid
    have joined : '\n' ∉ last ++ event.line := by simp [one, clean.2]
    have split : whole ++ last ++ wireText event.line ++ more =
        whole ++ (last ++ event.line ++ '\r' :: '\n' :: more) := by
      simp [wireText_oneLine clean]
    rw [split, fileLines_append ends, fileLines_line joined] at lines'
    rw [fileLines_append ends, fileLines_open one bare] at lines
    cases front : fileLines whole with
    | nil =>
      rw [front, List.nil_append] at lines lines'
      cases lines
      cases lines'
      exact absurd heads' (not_heads_joined valid heads)
    | cons line front =>
      rw [front, List.cons_append] at lines lines'
      cases lines
      cases lines'
      obtain ⟨before, final, sequence, rfl, -, parsed⟩ := readEvents_last read
      obtain ⟨other, -, sequence', parsed'⟩ :=
        readEvents_mem read' (show last ++ event.line ∈ _ by simp)
      rw [parse_joined valid parsed] at parsed'
      cases parsed'

/-- The file holds these events, or can no longer be loaded. -/
def Written (journalNamespace streamId : Text) (events : List JournalEvent) (content : Text) :
    Prop :=
  Lost journalNamespace content ∨
    loadEvents journalNamespace streamId content = some (['0'], events, recovered events)

theorem Written.part {streamId content : Text} {events : List JournalEvent}
    (written : Written journalNamespace streamId events content) (boots : InBoots events)
    {event : JournalEvent} (valid : event.valid = true) (joins : Joins events event) (kept : ℕ) :
    Orderly journalNamespace (content ++ (wireText event.line).take kept) := by
  rcases written with lost | loaded
  · exact (lost.append _).orderly
  · exact orderly_part loaded boots valid joins kept

theorem Written.orderly {streamId content : Text} {events : List JournalEvent}
    (written : Written journalNamespace streamId events content) (boots : InBoots events) :
    Orderly journalNamespace content := by
  rcases written with lost | loaded
  · exact lost.orderly
  · intro streamId' first events' recovery loaded'
    obtain ⟨header, rest, lines, heads, read⟩ := loadEvents_parts loaded
    obtain ⟨header', rest', lines', heads', read'⟩ := loadEvents_parts loaded'
    rw [lines] at lines'
    cases lines'
    obtain ⟨rfl, rfl⟩ := heads.unique heads'
    rw [read] at read'
    cases read'
    exact ⟨rfl, boots⟩

theorem Written.append {streamId content : Text} {events : List JournalEvent}
    (written : Written journalNamespace streamId events content)
    (safe : safeToken streamId = true) {event : JournalEvent} (valid : event.valid = true)
    (stream : event.streamId = streamId)
    (next : event.eventSeq = nextCursor (increment ['0']) events)
    (history : validHistory [] (events ++ [event]) = true) :
    Written journalNamespace streamId (events ++ [event]) (content ++ wireText event.line) := by
  rcases written with lost | loaded
  · exact .inl (lost.append _)
  · by_cases ends : Terminated content
    · exact .inr (loadEvents_append safe loaded ends valid stream next history)
    · exact .inl (lost_joined loaded ends valid)

end Content

end ArbNautilus.Journal
