import ArbNautilus.Journal.Cursor

namespace ArbNautilus.Journal

open Base

section Sound

/-- A journal that is ready was loaded or made in order. -/
def ReadySound (ea : Ea) : Prop := ea.journalReady = true → ea.Sound

theorem init_readySound (journalNamespace : Text) (enabled : Bool) (disk : Disk)
    (newStreamId : Text)
    (identityWrite headerWrite : WriteAnswer) :
    ReadySound (init journalNamespace enabled disk newStreamId identityWrite headerWrite).ea := by
  have unready {ea : Ea} (off : ea.journalReady = false) : ReadySound ea := by
    intro on
    rw [off] at on
    cases on
  unfold init
  dsimp only
  split
  · exact unready rfl
  · split
    · unfold createNew
      dsimp only
      split
      · exact unready rfl
      rename_i safe
      split
      · exact unready rfl
      split
      · exact unready rfl
      · exact fun _ => ⟨not_not.1 safe, fun _ member => absurd member List.not_mem_nil, rfl⟩
    · exact unready rfl
    · split
      · exact unready rfl
      · rename_i known
        split
        · exact unready rfl
        · rename_i read
          obtain ⟨content, -, read⟩ := Option.bind_eq_some_iff.1 read
          have safe := loadIdentity_safe known
          obtain ⟨valid, history, -⟩ := loadEvents_spec safe read
          exact fun _ => ⟨safe, fun event member => (valid event member).1, history⟩

/-- A failed append changes no event of a journal that stays ready. -/
def Spares (ea ea' : Ea) : Prop :=
  ea'.journalReady = false ∨
    ea'.journalReady = ea.journalReady ∧ ea'.streamId = ea.streamId ∧ ea'.events = ea.events

theorem Spares.refl (ea : Ea) : Spares ea ea := .inr ⟨rfl, rfl, rfl⟩

theorem appendTerminal_spares {ea : Ea} {event : JournalEvent} {write : WriteAnswer} {stored : Bool}
    (failed : (appendTerminal ea event write stored).value.isSome = false) :
    Spares ea (appendTerminal ea event write stored).ea := by
  unfold appendTerminal at failed ⊢
  dsimp only at failed ⊢
  split
  · exact .inr ⟨rfl, rfl, rfl⟩
  · rename_i confirmed
    rw [if_neg confirmed] at failed
    split
    · exact .inl rfl
    · rename_i stays
      rw [if_neg stays] at failed
      cases failed

theorem AppendCall.run_spares (ea : Ea) {write : WriteAnswer} {stored : Bool} (call : AppendCall)
    (failed : (call.run ea write stored).value = false) :
    Spares ea (call.run ea write stored).ea := by
  cases call with
  | streamStarted bootId eventTimeMs eaBuildId enabled =>
    simp only [AppendCall.run, appendStreamStarted] at failed ⊢
    split at failed
    · rename_i refused
      rw [if_pos refused]
      exact .refl ea
    rename_i checks
    rw [if_neg checks]
    split at failed
    · rename_i known
      rw [if_pos known]
      exact .refl ea
    rename_i fresh
    rw [if_neg fresh]
    split at failed
    · rename_i last
      rw [if_pos last]
      exact .refl ea
    rename_i more
    rw [if_neg more]
    split at failed
    · rename_i lost
      rw [if_pos lost]
      exact .refl ea
    · cases failed
  | reserved bootId eventTimeMs order =>
    simp only [AppendCall.run, appendReserved] at failed ⊢
    split at failed
    · rename_i refused
      rw [if_pos refused]
      exact .refl ea
    rename_i checks
    rw [if_neg checks]
    split at failed
    · rename_i last
      rw [if_pos last]
      exact .refl ea
    rename_i more
    rw [if_neg more]
    split at failed
    · rename_i lost
      rw [if_pos lost]
      exact .refl ea
    · rename_i confirmed
      rw [if_neg confirmed]
      cases stored with
      | true => cases failed
      | false => exact .inl rfl
  | rejectedOrUnknown bootId eventTimeMs outcome clientRequestId reason brokerRetcode =>
    simp only [AppendCall.run, appendRejectedOrUnknown] at failed ⊢
    split at failed
    · rename_i refused
      rw [if_pos refused]
      exact .refl ea
    rename_i checks
    rw [if_neg checks]
    split at failed
    · exact .refl ea
    · exact appendTerminal_spares failed
  | filled bootId eventTimeMs clientRequestId fill =>
    simp only [AppendCall.run, appendFilled] at failed ⊢
    split at failed
    · rename_i refused
      rw [if_pos refused]
      exact .refl ea
    rename_i checks
    rw [if_neg checks]
    split at failed
    · exact .refl ea
    · exact appendTerminal_spares failed

theorem AppendCall.ready_of_done {ea : Ea} {write : WriteAnswer} {stored : Bool} (call : AppendCall)
    (done : (call.run ea write stored).value = true) : ea.journalReady = true := by
  by_contra off
  have refused (bootId eventTimeMs clientRequestId : Text) :
      prepareTerminal ea bootId eventTimeMs clientRequestId = none := by
    simp [prepareTerminal, off]
  cases call <;> simp_all [AppendCall.run, appendStreamStarted, appendReserved,
    appendRejectedOrUnknown, appendFilled]

theorem Driven.readySound {ea : Ea} (driven : Driven ea) : ReadySound ea := by
  induction driven with
  | init journalNamespace enabled disk newStreamId identityWrite headerWrite =>
    exact init_readySound journalNamespace enabled disk newStreamId identityWrite headerWrite
  | @call ea _ call write stored ih =>
    intro ready
    cases outcome : (call.run ea write stored).value with
    | true =>
      have sound := ih (call.ready_of_done outcome)
      obtain ⟨event, _, _, _, more, _⟩ := call.run_extends sound outcome
      exact more.sound sound
    | false =>
      rcases call.run_spares ea outcome with off | ⟨same, stream, events⟩
      · rw [off] at ready
        cases ready
      · obtain ⟨safe, valid, history⟩ := ih (same ▸ ready)
        exact ⟨stream ▸ safe, events ▸ valid, events ▸ history⟩

end Sound

/-- An accepted append writes one line; it reads back as the event kept in memory under that
event's sequence alone, and under no stream or sequence as another. -/
theorem written_line_round_trip {ea : Ea} (driven : Driven ea) (call : AppendCall)
    {write : WriteAnswer}
    {stored : Bool} (done : (call.run ea write stored).value = true) :
    ∃ event, (∃ bytes, (call.run ea write stored).effects = [.append event bytes true]) ∧
      call.Records event ∧ (call.run ea write stored).ea.events = ea.events ++ [event] ∧
      fileLines (wireText event.line) = [event.line] ∧
      (∀ expected, parseEvent ea.streamId event.line expected =
        if expected = event.eventSeq then some event else none) ∧
      ∀ streamId expected other, parseEvent streamId event.line expected = some other →
        other = event := by
  have sound := driven.readySound (call.ready_of_done done)
  obtain ⟨event, bytes, effects, -, more, records⟩ := call.run_extends sound done
  have one := event.oneLine more.valid
  refine ⟨event, ⟨bytes, effects⟩, records, more.events, ?_, ?_, ?_⟩
  · rw [wireText_oneLine one, fileLines_line one.2]
    rfl
  · intro expected
    simp [parseEvent_line more.valid, more.streamId]
  · intro streamId expected other parsed
    rw [parseEvent_line more.valid] at parsed
    split at parsed
    · exact (Option.some.inj parsed).symm
    · cases parsed

/-- A close reserved on a fresh journal. -/
def closeReservation : AppendCall :=
  .reserved "boot-1".toList "1000".toList
    ⟨"request-1".toList, .sell, "0.01".toList, "42".toList, "43".toList⟩

theorem written_line_round_trip_close :
    let ea := (init bootNamespace true ⟨none, none⟩ "stream-1".toList (.wrote 500 true)
      (.wrote 500 true)).ea
    ∃ event, (∃ bytes, (closeReservation.run ea (.wrote 500 true) true).effects =
        [.append event bytes true]) ∧ closeReservation.Records event ∧
      (closeReservation.run ea (.wrote 500 true) true).ea.events = ea.events ++ [event] ∧
      fileLines (wireText event.line) = [event.line] ∧
      (∀ expected, parseEvent ea.streamId event.line expected =
        if expected = event.eventSeq then some event else none) ∧
      ∀ streamId expected other, parseEvent streamId event.line expected = some other →
        other = event :=
  written_line_round_trip (.init ..) closeReservation (by decide +kernel)

end ArbNautilus.Journal
