import ArbNautilus.Journal.WrittenLine

/-! A stretch of a journal: the cursors around it and what its events keep. -/

namespace ArbNautilus.Journal

open Base Mt5.Codec

/-- The cursor behind some events that follow this one. -/
def tailCursor (cursor : Text) (events : List JournalEvent) : Text :=
  (events.getLast?.map (·.eventSeq)).getD cursor

theorem lastCursor_eq (ea : Ea) : lastCursor ea = tailCursor ea.firstCursor ea.events := by
  unfold lastCursor tailCursor
  cases ea.events.getLast? <;> rfl

@[simp] theorem tailCursor_nil (cursor : Text) : tailCursor cursor [] = cursor := rfl

@[simp] theorem tailCursor_cons (cursor : Text) (event : JournalEvent)
    (events : List JournalEvent) :
    tailCursor cursor (event :: events) = tailCursor event.eventSeq events := by
  rw [tailCursor, List.getLast?_cons, tailCursor]
  cases events.getLast? <;> rfl

theorem tailCursor_append (cursor : Text) (a b : List JournalEvent) :
    tailCursor cursor (a ++ b) = tailCursor (tailCursor cursor a) b := by
  induction a generalizing cursor with
  | nil => rfl
  | cons event a ih => rw [List.cons_append, tailCursor_cons, tailCursor_cons, ih]

section Compare

variable {a b : Text}

theorem compareUint_neg (left : isUint a = true) (right : isUint b = true) :
    compareUint a b < 0 ↔ cursorValue a < cursorValue b := by
  rw [← Int.sign_eq_neg_one_iff_neg, compareUint_sign left right, Int.sign_eq_neg_one_iff_neg]
  omega

theorem compareUint_pos (left : isUint a = true) (right : isUint b = true) :
    0 < compareUint a b ↔ cursorValue b < cursorValue a := by
  rw [← Int.sign_eq_one_iff_pos, compareUint_sign left right, Int.sign_eq_one_iff_pos]
  omega

end Compare

section Chain

variable {cursor : Text} {events : List JournalEvent}

/-- The next cursor of one that has a next one. -/
theorem increment_next (canonical : canonicalUint64 cursor false = true)
    (more : increment cursor ≠ []) : canonicalUint64 (increment cursor) false = true ∧
      cursorValue (increment cursor) = cursorValue cursor + 1 := by
  have next := increment_value canonical
  have range := (canonicalUint64_value.1 canonical).2
  have limit : uint64Max = 2 ^ 64 - 1 := rfl
  by_cases last : cursorValue cursor = 2 ^ 64 - 1
  · rw [if_pos last] at next
    exact absurd next more
  · rw [if_neg last] at next
    have worth : cursorValue (increment cursor) = cursorValue cursor + 1 := by
      rw [next]
      exact Nat.ofDigitChars_ten_toDigits
    refine ⟨canonicalUint64_value.2 ⟨?_, by omega⟩, worth⟩
    rw [next]
    exact isUint_toDigits _

theorem Chained.append {a b : List JournalEvent} (chained : Chained cursor (a ++ b)) :
    Chained cursor a ∧ Chained (tailCursor cursor a) b := by
  induction a generalizing cursor with
  | nil => exact ⟨trivial, chained⟩
  | cons event a ih =>
    obtain ⟨more, sequence, rest⟩ := chained
    rw [tailCursor_cons]
    exact ⟨⟨more, sequence, (ih rest).1⟩, (ih rest).2⟩

theorem Chained.tail (canonical : canonicalUint64 cursor false = true)
    (chained : Chained cursor events) : canonicalUint64 (tailCursor cursor events) false = true ∧
      cursorValue (tailCursor cursor events) = cursorValue cursor + events.length := by
  induction events generalizing cursor with
  | nil => exact ⟨canonical, rfl⟩
  | cons event events ih =>
    obtain ⟨more, sequence, rest⟩ := chained
    obtain ⟨next, worth⟩ := increment_next canonical more
    rw [← sequence] at next worth
    obtain ⟨last, total⟩ := ih next rest
    rw [tailCursor_cons, total, worth, List.length_cons]
    exact ⟨last, by omega⟩

/-- A cursor in a journal's range stands between two of its events. -/
theorem Chained.stands (canonical : canonicalUint64 cursor false = true)
    (chained : Chained cursor events) {after : Text} (other : canonicalUint64 after false = true)
    (low : cursorValue cursor ≤ cursorValue after)
    (high : cursorValue after ≤ cursorValue (tailCursor cursor events)) :
    ∃ done later, events = done ++ later ∧ after = tailCursor cursor done := by
  have size := (chained.tail canonical).2
  have whole : events = events.take (cursorValue after - cursorValue cursor) ++
      events.drop (cursorValue after - cursorValue cursor) := (List.take_append_drop _ _).symm
  refine ⟨_, _, whole, ?_⟩
  rw [whole] at chained
  obtain ⟨canonical', worth⟩ := chained.append.1.tail canonical
  have same : cursorValue after = cursorValue (tailCursor cursor
      (events.take (cursorValue after - cursorValue cursor))) := by
    rw [worth, List.length_take]
    omega
  calc after = Nat.toDigits 10 (cursorValue after) := eq_toDigits (canonicalUint64_value.1 other).1
    _ = _ := congrArg (Nat.toDigits 10) same
    _ = _ := (eq_toDigits (canonicalUint64_value.1 canonical').1).symm

/-- Each event of a chain comes behind the cursor. -/
theorem Chained.behind (canonical : canonicalUint64 cursor false = true)
    (chained : Chained cursor events) : ∀ event ∈ events,
      isUint event.eventSeq = true ∧ cursorValue cursor < cursorValue event.eventSeq ∧
        cursorValue event.eventSeq ≤ cursorValue (tailCursor cursor events) := by
  intro event member
  obtain ⟨before, after, rfl⟩ := List.append_of_mem member
  have split : before ++ event :: after = (before ++ [event]) ++ after := by simp
  have size := (chained.tail canonical).2
  rw [split] at chained size
  obtain ⟨canonical', worth⟩ := chained.append.1.tail canonical
  have tail : tailCursor cursor (before ++ [event]) = event.eventSeq := by
    rw [tailCursor_append]
    rfl
  rw [tail] at canonical' worth
  rw [split, size, worth]
  simp only [List.length_append, List.length_singleton]
  exact ⟨(canonicalUint64_value.1 canonical').1, by omega, by omega⟩

theorem Chained.contiguous (canonical : canonicalUint64 cursor false = true)
    (chained : Chained cursor events) :
    contiguous (events.map fun event => cursorValue event.eventSeq) = true := by
  induction events generalizing cursor with
  | nil => rfl
  | cons event events ih =>
    obtain ⟨more, sequence, rest⟩ := chained
    obtain ⟨next, -⟩ := increment_next canonical more
    rw [← sequence] at next
    cases events with
    | nil => rfl
    | cons second events =>
      have later := ih next rest
      obtain ⟨more', sequence', -⟩ := rest
      have worth := (increment_next next more').2
      rw [← sequence'] at worth
      simp only [List.map_cons, Mt5.Codec.contiguous, Bool.and_eq_true,
        decide_eq_true_eq] at later ⊢
      exact ⟨worth, later⟩

end Chain

section Kept

/-- The boots whose start is in the journal. -/
def startedBoots (events : List JournalEvent) : List Text :=
  (events.filter fun event => event.body.eventType == .streamStarted).map (·.bootId)

theorem startedBoots_nodup {prior events : List JournalEvent}
    (history : validHistory prior events = true) :
    (startedBoots events).Nodup ∧ ∀ boot ∈ startedBoots events, boot ∉ startedBoots prior := by
  induction events generalizing prior with
  | nil => exact ⟨List.nodup_nil, fun _ member => absurd member List.not_mem_nil⟩
  | cons event events ih =>
    simp only [validHistory, Bool.and_eq_true] at history
    obtain ⟨single, fresh⟩ := ih history.2
    have earlier : ∀ boot ∈ startedBoots events, boot ∉ startedBoots prior := by
      intro boot member old
      apply fresh boot member
      simp only [startedBoots, List.filter_append, List.map_append, List.mem_append]
      exact .inl old
    by_cases start : event.body.eventType = .streamStarted
    · have first : startedBoots (event :: events) = event.bootId :: startedBoots events := by
        simp [startedBoots, start]
      have new : event.bootId ∉ startedBoots prior := by
        intro old
        obtain ⟨other, kept, same⟩ := List.mem_map.1 old
        obtain ⟨member, started⟩ := List.mem_filter.1 kept
        have valid := history.1
        unfold validEvent at valid
        split at valid
        · have apart := List.all_eq_true.1 valid other member
          simp [same, beq_iff_eq.1 started] at apart
        all_goals
          rename_i body
          rw [body] at start
          cases start
      have absent : event.bootId ∉ startedBoots events := by
        intro later
        apply fresh _ later
        simp [startedBoots, start]
      rw [first, List.nodup_cons, List.forall_mem_cons]
      exact ⟨⟨absent, single⟩, new, earlier⟩
    · have same : startedBoots (event :: events) = startedBoots events := by
        simp [startedBoots, start]
      rw [same]
      exact ⟨single, earlier⟩

/-- A fill that closes a position is of that position. -/
def FillsTarget (body : EventBody) : Prop :=
  match body with
  | .orderFilled order fill =>
    order.hasCloseTarget = true → fill.venuePositionId = order.positionIdentifier
  | _ => True

theorem fillsTarget_of_history {prior events : List JournalEvent}
    (history : validHistory prior events = true) : ∀ event ∈ events, FillsTarget event.body := by
  induction events generalizing prior with
  | nil => exact fun _ member => absurd member List.not_mem_nil
  | cons event events ih =>
    simp only [validHistory, Bool.and_eq_true] at history
    refine List.forall_mem_cons.2 ⟨?_, ih history.2⟩
    have valid := history.1
    unfold validEvent at valid
    unfold FillsTarget
    split
    · rename_i order fill body
      simp only [body, Bool.and_eq_true, Bool.or_eq_true, Bool.not_eq_true', beq_iff_eq] at valid
      intro target
      rcases valid.2 with none | same
      · rw [target] at none
        cases none
      · exact same
    · trivial

/-- Every event of a ready journal is of its stream. -/
def OneStream (ea : Ea) : Prop :=
  ea.journalReady = true → ∀ event ∈ ea.events, event.streamId = ea.streamId

theorem init_oneStream (journalNamespace : Text) (enabled : Bool) (disk : Disk) (newStreamId : Text)
    (identityWrite headerWrite : WriteAnswer) :
    OneStream (init journalNamespace enabled disk newStreamId identityWrite headerWrite).ea := by
  have none {ea : Ea} (empty : ea.events = []) : OneStream ea := by
    intro _ event member
    rw [empty] at member
    exact absurd member List.not_mem_nil
  unfold init
  dsimp only
  split
  · exact none rfl
  · split
    · unfold createNew
      dsimp only
      split
      · exact none rfl
      split
      · exact none rfl
      split <;> exact none rfl
    · exact none rfl
    · split
      · exact none rfl
      · rename_i known
        split
        · exact none rfl
        · rename_i read
          obtain ⟨content, -, read⟩ := Option.bind_eq_some_iff.1 read
          obtain ⟨valid, -⟩ := loadEvents_spec (loadIdentity_safe known) read
          exact fun _ event member => (valid event member).2

theorem Driven.oneStream {ea : Ea} (driven : Driven ea) : OneStream ea := by
  induction driven with
  | init journalNamespace enabled disk newStreamId identityWrite headerWrite =>
    exact init_oneStream journalNamespace enabled disk newStreamId identityWrite headerWrite
  | @call ea before call write stored ih =>
    intro ready
    cases outcome : (call.run ea write stored).value with
    | true =>
      have was := call.ready_of_done outcome
      obtain ⟨event, _, _, _, more, _⟩ := call.run_extends (before.readySound was) outcome
      rw [more.events, more.stream]
      exact List.forall_mem_append.2 ⟨ih was, List.forall_mem_singleton.2 more.streamId⟩
    | false =>
      rcases call.run_spares ea outcome with off | ⟨same, stream, events⟩
      · rw [off] at ready
        cases ready
      · rw [events, stream]
        exact ih (same ▸ ready)

end Kept

end ArbNautilus.Journal
