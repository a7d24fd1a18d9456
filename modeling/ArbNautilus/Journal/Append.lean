import ArbNautilus.Journal.File
import Mathlib.Data.List.Forall2

namespace ArbNautilus.Journal

open Base

theorem crlfToLf_oneLine {contents : Text} (one : OneLine contents) :
    crlfToLf (contents ++ ['\n']) = contents ++ ['\n'] := by
  induction contents with
  | nil => rfl
  | cons c rest ih =>
    have clean : OneLine rest :=
      ⟨fun inside => one.1 (List.mem_cons_of_mem c inside),
        fun inside => one.2 (List.mem_cons_of_mem c inside)⟩
    have noCr : ∀ rest', c = '\r' → rest ++ ['\n'] = '\n' :: rest' → False :=
      fun _ cr _ => one.1 (by simp [cr])
    rw [List.cons_append, crlfToLf.eq_3 c _ noCr, ih clean]

theorem lfToCrlf_oneLine {contents : Text} (one : OneLine contents) :
    lfToCrlf (contents ++ ['\n']) = contents ++ ['\r', '\n'] := by
  induction contents with
  | nil => rfl
  | cons c rest ih =>
    have clean : OneLine rest :=
      ⟨fun inside => one.1 (List.mem_cons_of_mem c inside),
        fun inside => one.2 (List.mem_cons_of_mem c inside)⟩
    have noLf : c = '\n' → False := fun lf => one.2 (by simp [lf])
    rw [List.cons_append, lfToCrlf.eq_3 c _ noLf, ih clean, List.cons_append]

theorem wireText_oneLine {contents : Text} (one : OneLine contents) :
    wireText contents = contents ++ ['\r', '\n'] := by
  rw [wireText, crlfToLf_oneLine one, lfToCrlf_oneLine one]

/-- A confirmed append wrote the whole line. -/
theorem appendLine_confirmed {event : JournalEvent} {write : WriteAnswer}
    (confirmed : (appendLine event write).any Effect.confirmed = true) :
    ∃ kept, appendLine event write = some (.append event kept true) ∧
      (wireText event.line).take kept = wireText event.line := by
  cases write with
  | refused => simp [appendLine, writeLine] at confirmed
  | wrote kept flushed =>
    simp only [appendLine, writeLine, Option.map_some, Option.any_some, Effect.confirmed,
      Bool.and_eq_true, decide_eq_true_eq] at confirmed
    obtain ⟨whole, flush⟩ := confirmed
    exact ⟨kept, by simp [appendLine, writeLine, whole, flush], List.take_of_length_le whole⟩

theorem validHistory_append (prior events more : List JournalEvent) :
    validHistory prior (events ++ more) =
      (validHistory prior events && validHistory (prior ++ events) more) := by
  induction events generalizing prior with
  | nil => simp [validHistory]
  | cons event rest ih => simp [validHistory, ih, Bool.and_assoc]

/-- The cursor expected after some events. -/
def nextCursor (expected : Text) (events : List JournalEvent) : Text :=
  match events.getLast? with
  | none => expected
  | some event => increment event.eventSeq

theorem increment_lastCursor (ea : Ea) :
    increment (lastCursor ea) = nextCursor (increment ea.firstCursor) ea.events := by
  unfold lastCursor nextCursor
  cases ea.events.getLast? <;> rfl

theorem nextCursor_cons (expected : Text) (event : JournalEvent) (rest : List JournalEvent) :
    nextCursor expected (event :: rest) = nextCursor (increment event.eventSeq) rest := by
  unfold nextCursor
  cases rest with
  | nil => rfl
  | cons next rest => rw [List.getLast?_cons_cons]; simp [List.getLast?_cons]

theorem readEvents_length {streamId : Text} {lines : List Text} {expected : Text}
    {events : List JournalEvent} (read : readEvents streamId expected lines = some events) :
    events.length = lines.length := by
  induction lines generalizing expected events with
  | nil =>
    cases read
    rfl
  | cons line rest ih =>
    unfold readEvents at read
    split at read
    · cases read
    · split at read
      · cases read
      · simp only [Option.ite_none_left_eq_some, Option.map_eq_some_iff] at read
        obtain ⟨-, later, read, rfl⟩ := read
        simp [ih read]

theorem readEvents_valid {streamId : Text} (safe : safeToken streamId = true) {lines : List Text}
    {expected : Text} {events : List JournalEvent}
    (read : readEvents streamId expected lines = some events) :
    ∀ event ∈ events, event.valid = true ∧ event.streamId = streamId := by
  induction lines generalizing expected events with
  | nil =>
    cases read
    intro event member
    cases member
  | cons line rest ih =>
    unfold readEvents at read
    split at read
    · cases read
    · split at read
      · cases read
      · rename_i first parsed
        simp only [Option.ite_none_left_eq_some, Option.map_eq_some_iff] at read
        obtain ⟨-, later, read, rfl⟩ := read
        have fact := parseEvent_spec safe parsed
        intro event member
        rcases List.mem_cons.1 member with rfl | member
        · exact ⟨fact.1, fact.2.2⟩
        · exact ih read event member

/-- One more line, of the next event, is read after the lines before it. -/
theorem readEvents_concat {streamId : Text} (safe : safeToken streamId = true) {lines : List Text}
    {expected : Text} {events : List JournalEvent}
    (read : readEvents streamId expected lines = some events) {event : JournalEvent}
    (valid : event.valid = true) (stream : event.streamId = streamId)
    (next : event.eventSeq = nextCursor expected events) :
    readEvents streamId expected (lines ++ [event.line]) = some (events ++ [event]) := by
  induction lines generalizing expected events with
  | nil =>
    cases read
    have some : event.line ≠ [] := by
      obtain ⟨tail, starts⟩ := event.line_starts
      simp [starts]
    have parsed := parseEvent_line valid streamId expected
    rw [if_pos ⟨next.symm, stream.symm⟩] at parsed
    rw [List.nil_append, readEvents, if_neg some, parsed]
    simp [readEvents]
  | cons line rest ih =>
    unfold readEvents at read
    split at read
    · cases read
    · rename_i some
      split at read
      · cases read
      · rename_i first parsed
        simp only [Option.ite_none_left_eq_some, Option.map_eq_some_iff] at read
        obtain ⟨goesOn, later, read, rfl⟩ := read
        obtain ⟨-, sequence, -⟩ := parseEvent_spec safe parsed
        rw [nextCursor_cons, sequence] at next
        have more : increment expected ≠ [] := by
          intro last
          by_cases empty : rest = []
          · subst empty
            cases read
            have canonical : canonicalUint64 event.eventSeq true = true := by
              simp only [JournalEvent.valid, Bool.and_eq_true] at valid
              exact valid.1.1.1.1
            exact ne_nil_of_canonicalUint64 canonical (next.trans last)
          · exact goesOn ⟨last, empty⟩
        rw [List.cons_append, readEvents, if_neg some, parsed]
        simp [more, ih read next]

/-- A file that loads is a header and one line for each event. -/
theorem loadEvents_length {journalNamespace streamId content : Text} {first : Text}
    {events : List JournalEvent} {recovery : Bool}
    (loaded : loadEvents journalNamespace streamId content = some (first, events, recovery)) :
    (fileLines content).length = events.length + 1 := by
  unfold loadEvents at loaded
  split at loaded
  · cases loaded
  · rename_i header rest lines
    split at loaded
    · cases loaded
    · simp only [Option.ite_none_left_eq_some] at loaded
      obtain ⟨-, loaded⟩ := loaded
      split at loaded
      · cases loaded
      · rename_i read
        simp only [Option.ite_none_right_eq_some, Option.some.injEq, Prod.mk.injEq] at loaded
        obtain ⟨-, -, rfl, -⟩ := loaded
        simp [readEvents_length read, lines]

theorem loadEvents_spec {journalNamespace streamId content : Text}
    (safe : safeToken streamId = true)
    {first : Text} {events : List JournalEvent} {recovery : Bool}
    (loaded : loadEvents journalNamespace streamId content = some (first, events, recovery)) :
    (∀ event ∈ events, event.valid = true ∧ event.streamId = streamId) ∧
      validHistory [] events = true ∧ recovery = recovered events := by
  unfold loadEvents at loaded
  split at loaded
  · cases loaded
  · split at loaded
    · cases loaded
    · simp only [Option.ite_none_left_eq_some] at loaded
      obtain ⟨-, loaded⟩ := loaded
      split at loaded
      · cases loaded
      · rename_i read
        simp only [Option.ite_none_right_eq_some, Option.some.injEq, Prod.mk.injEq] at loaded
        obtain ⟨valid, -, rfl, rfl⟩ := loaded
        unfold validateExecutionHistory at valid ⊢
        split at valid
        · rename_i history
          exact ⟨readEvents_valid safe read, history, by rw [if_pos history]⟩
        · cases valid

theorem loadEvents_append {journalNamespace streamId content : Text}
    (safe : safeToken streamId = true) {first : Text} {events : List JournalEvent} {recovery : Bool}
    (loaded : loadEvents journalNamespace streamId content = some (first, events, recovery))
    (ends : Terminated content) {event : JournalEvent} (valid : event.valid = true)
    (stream : event.streamId = streamId)
    (next : event.eventSeq = nextCursor (increment first) events)
    (history : validHistory [] (events ++ [event]) = true) :
    loadEvents journalNamespace streamId (content ++ wireText event.line) =
      some (first, events ++ [event], recovered (events ++ [event])) := by
  have one : fileLines (wireText event.line) = [event.line] := by
    rw [wireText_oneLine (event.oneLine valid), fileLines_line (event.oneLine valid).2]
    rfl
  unfold loadEvents at loaded ⊢
  rw [fileLines_append ends, one]
  split at loaded
  · cases loaded
  · rename_i header rest lines
    rw [lines]
    dsimp only [List.cons_append]
    split at loaded
    · cases loaded
    · rename_i parts verified
      simp only [Option.ite_none_left_eq_some] at loaded
      obtain ⟨checks, loaded⟩ := loaded
      rw [if_neg checks]
      split at loaded
      · cases loaded
      · rename_i read
        simp only [Option.ite_none_right_eq_some, Option.some.injEq, Prod.mk.injEq] at loaded
        obtain ⟨-, rfl, rfl, -⟩ := loaded
        rw [readEvents_concat safe read valid stream next]
        simp [validateExecutionHistory, history]

/-- What the journal functions keep of the globals of an expert with a ready journal. -/
structure Ea.Sound (ea : Ea) : Prop where
  safe : safeToken ea.streamId = true
  valid : ∀ event ∈ ea.events, event.valid = true
  history : validHistory [] ea.events = true

/-- The globals after one more event, and that event. -/
structure Extends (ea : Ea) (event : JournalEvent) (ea' : Ea) : Prop where
  events : ea'.events = ea.events ++ [event]
  stream : ea'.streamId = ea.streamId
  firstCursor : ea'.firstCursor = ea.firstCursor
  sequence : event.eventSeq = increment (lastCursor ea)
  streamId : event.streamId = ea.streamId
  valid : event.valid = true
  history : validHistory [] ea'.events = true

theorem Extends.sound {ea ea' : Ea} {event : JournalEvent} (extends' : Extends ea event ea')
    (sound : ea.Sound) : ea'.Sound where
  safe := by rw [extends'.stream]; exact sound.safe
  valid := by
    rw [extends'.events]
    intro other member
    rcases List.mem_append.1 member with old | new
    · exact sound.valid other old
    · rw [List.mem_singleton.1 new]
      exact extends'.valid
  history := extends'.history

/-- One append call of a running expert. -/
inductive AppendCall
  | streamStarted (bootId eventTimeMs eaBuildId : Text) (enabled : Bool)
  | reserved (bootId eventTimeMs : Text) (order : Submission)
  | rejectedOrUnknown (bootId eventTimeMs : Text) (outcome : SimpleOutcome)
      (clientRequestId reason brokerRetcode : Text)
  | filled (bootId eventTimeMs clientRequestId : Text) (fill : Fill)

def AppendCall.run (ea : Ea) (write : WriteAnswer) (stored : Bool) : AppendCall → Ran Bool
  | .streamStarted bootId eventTimeMs eaBuildId enabled =>
    appendStreamStarted ea bootId eventTimeMs eaBuildId enabled write
  | .reserved bootId eventTimeMs order => appendReserved ea bootId eventTimeMs order write stored
  | .rejectedOrUnknown bootId eventTimeMs outcome clientRequestId reason brokerRetcode =>
    let ran := appendRejectedOrUnknown ea bootId eventTimeMs outcome clientRequestId reason
      brokerRetcode write stored
    ⟨ran.value.isSome, ran.ea, ran.effects⟩
  | .filled bootId eventTimeMs clientRequestId fill =>
    let ran := appendFilled ea bootId eventTimeMs clientRequestId fill write stored
    ⟨ran.value.isSome, ran.ea, ran.effects⟩

/-- The event records what the call was given. -/
def AppendCall.Records : AppendCall → JournalEvent → Prop
  | .streamStarted bootId eventTimeMs eaBuildId enabled, event =>
    event.bootId = bootId ∧ event.eventTimeMs = eventTimeMs ∧
      event.body = .streamStarted eaBuildId enabled
  | .reserved bootId eventTimeMs order, event =>
    event.bootId = bootId ∧ event.eventTimeMs = eventTimeMs ∧ event.body = .submissionReserved order
  | .rejectedOrUnknown bootId eventTimeMs outcome clientRequestId reason brokerRetcode, event =>
    event.bootId = bootId ∧ event.eventTimeMs = eventTimeMs ∧
      ∃ order, order.clientRequestId = clientRequestId ∧
        event.body = outcome.body order reason brokerRetcode
  | .filled bootId eventTimeMs clientRequestId fill, event =>
    event.bootId = bootId ∧ event.eventTimeMs = eventTimeMs ∧
      ∃ order, order.clientRequestId = clientRequestId ∧ event.body = .orderFilled order fill

theorem appendStreamStarted_extends {ea : Ea} (sound : ea.Sound)
    {bootId eventTimeMs eaBuildId : Text} {enabled : Bool} {write : WriteAnswer}
    (done : (appendStreamStarted ea bootId eventTimeMs eaBuildId enabled write).value = true) :
    ∃ event kept, (appendStreamStarted ea bootId eventTimeMs eaBuildId enabled write).effects =
        [.append event kept true] ∧ (wireText event.line).take kept = wireText event.line ∧
      Extends ea event (appendStreamStarted ea bootId eventTimeMs eaBuildId enabled write).ea ∧
      (AppendCall.streamStarted bootId eventTimeMs eaBuildId enabled).Records event := by
  unfold appendStreamStarted at done ⊢
  split at done
  · cases done
  · rename_i checks
    rw [if_neg checks]
    simp only [not_or, not_not] at checks
    obtain ⟨-, boot, time, build⟩ := checks
    split at done
    · cases done
    · rename_i fresh
      rw [if_neg fresh]
      dsimp only at done ⊢
      split at done
      · cases done
      · rename_i next
        rw [if_neg next]
        split at done
        · cases done
        · rename_i confirmed
          rw [if_neg confirmed]
          rw [not_not] at confirmed
          obtain ⟨kept, written, whole⟩ := appendLine_confirmed confirmed
          have canonical := canonical_increment next
          refine ⟨_, kept, by rw [written]; rfl, whole, ?_, rfl, rfl, rfl⟩
          exact {
            events := rfl
            stream := rfl
            firstCursor := rfl
            sequence := rfl
            streamId := rfl
            valid := by
              simp [JournalEvent.valid, canonical, time, sound.safe, boot, EventBody.valid, build]
            history := by
              rw [validHistory_append, sound.history]
              simpa [validHistory, validEvent, imp_iff_not_or] using fresh }

theorem not_order_event {events : List JournalEvent} {clientRequestId : Text}
    (unreserved : ¬(reservedEvent events clientRequestId).isSome = true)
    (unsettled : ¬(outcomeEvent events clientRequestId).isSome = true) :
    (events.all fun event =>
      !(event.body.eventType.isOrderEvent && event.isFor clientRequestId)) = true := by
  simp only [reservedEvent, outcomeEvent, List.find?_isSome, not_exists, not_and,
    Bool.not_eq_true] at unreserved unsettled
  rw [List.all_eq_true]
  intro event member
  rw [EventType.isOrderEvent, Bool.and_or_distrib_right]
  change (!(event.reserves clientRequestId || event.settles clientRequestId)) = true
  rw [unreserved event member, unsettled event member]
  rfl

theorem appendReserved_extends {ea : Ea} (sound : ea.Sound) {bootId eventTimeMs : Text}
    {order : Submission} {write : WriteAnswer} {stored : Bool}
    (done : (appendReserved ea bootId eventTimeMs order write stored).value = true) :
    ∃ event kept, (appendReserved ea bootId eventTimeMs order write stored).effects =
        [.append event kept true] ∧ (wireText event.line).take kept = wireText event.line ∧
      Extends ea event (appendReserved ea bootId eventTimeMs order write stored).ea ∧
      (AppendCall.reserved bootId eventTimeMs order).Records event := by
  unfold appendReserved at done ⊢
  split at done
  · cases done
  · rename_i checks
    rw [if_neg checks]
    simp only [not_or, not_not] at checks
    obtain ⟨-, -, boot, time, id, lots, target, unreserved, unsettled⟩ := checks
    dsimp only at done ⊢
    split at done
    · cases done
    · rename_i next
      rw [if_neg next]
      split at done
      · cases done
      · rename_i confirmed
        rw [if_neg confirmed]
        rw [not_not] at confirmed
        obtain ⟨kept, written, whole⟩ := appendLine_confirmed confirmed
        cases stored with
        | false => cases done
        | true =>
          have canonical := canonical_increment next
          have fresh := not_order_event unreserved unsettled
          refine ⟨_, kept, by rw [written]; rfl, whole, ?_, rfl, rfl, rfl⟩
          exact {
            events := rfl
            stream := rfl
            firstCursor := rfl
            sequence := rfl
            streamId := rfl
            valid := by
              simp [JournalEvent.valid, canonical, time, sound.safe, boot, EventBody.valid,
                Submission.valid, id, lots, target]
            history := by
              simp only [storeEvent, if_true]
              rw [validHistory_append, sound.history]
              simp only [List.nil_append, validHistory, validEvent, target, fresh, Bool.and_self] }

/-- The terminal's order is the reserved one. -/
theorem prepareTerminal_spec {ea : Ea} {bootId eventTimeMs clientRequestId sequence : Text}
    {order : Submission}
    (prepared : prepareTerminal ea bootId eventTimeMs clientRequestId = some (sequence, order)) :
    safeToken bootId = true ∧ canonicalUint64 eventTimeMs true = true ∧
      sequence = increment (lastCursor ea) ∧ sequence ≠ [] ∧
      order.clientRequestId = clientRequestId ∧
      ∃ event ∈ ea.events, event.body.order = some order := by
  unfold prepareTerminal at prepared
  split at prepared
  · cases prepared
  · rename_i checks
    simp only [not_or, not_not] at checks
    obtain ⟨-, boot, time, -, -⟩ := checks
    split at prepared
    · cases prepared
    · rename_i found
      simp only [Option.ite_none_left_eq_some, Option.some.injEq, Prod.mk.injEq] at prepared
      obtain ⟨next, rfl, rfl⟩ := prepared
      obtain ⟨reservation, reserved, order⟩ := Option.bind_eq_some_iff.1 found
      have holds := List.find?_some reserved
      simp only [JournalEvent.reserves, JournalEvent.isFor, order, Option.any_some,
        Bool.and_eq_true, beq_iff_eq] at holds
      exact ⟨boot, time, rfl, next, holds.2, reservation, List.mem_of_find?_eq_some reserved, order⟩

theorem order_valid {body : EventBody} (valid : body.valid = true) {order : Submission}
    (about : body.order = some order) : order.valid = true := by
  cases body <;> simp_all [EventBody.valid, EventBody.order]

theorem prepared_valid {ea : Ea} (sound : ea.Sound)
    {bootId eventTimeMs clientRequestId sequence : Text} {order : Submission}
    (prepared : prepareTerminal ea bootId eventTimeMs clientRequestId = some (sequence, order))
    {body : EventBody} (valid : order.valid = true → body.valid = true) :
    (⟨sequence, eventTimeMs, ea.streamId, bootId, body⟩ : JournalEvent).valid = true := by
  obtain ⟨boot, time, rfl, next, -, reservation, member, about⟩ := prepareTerminal_spec prepared
  have canonical := canonical_increment next
  have reserved := sound.valid reservation member
  simp only [JournalEvent.valid, Bool.and_eq_true] at reserved
  simp [JournalEvent.valid, canonical, time, sound.safe, boot, valid (order_valid reserved.2 about)]

theorem appendTerminal_extends {ea : Ea} {event : JournalEvent} (valid : event.valid = true)
    (sequence : event.eventSeq = increment (lastCursor ea)) (stream : event.streamId = ea.streamId)
    {write : WriteAnswer} {stored : Bool}
    (done : (appendTerminal ea event write stored).value.isSome = true) :
    ∃ kept, (appendTerminal ea event write stored).effects = [.append event kept true] ∧
      (wireText event.line).take kept = wireText event.line ∧
      Extends ea event (appendTerminal ea event write stored).ea := by
  unfold appendTerminal at done ⊢
  dsimp only at done ⊢
  split at done
  · cases done
  · rename_i confirmed
    rw [if_neg confirmed]
    rw [not_not] at confirmed
    obtain ⟨kept, written, whole⟩ := appendLine_confirmed confirmed
    split at done
    · cases done
    · rename_i checks
      rw [if_neg checks]
      simp only [not_or, not_not] at checks
      obtain ⟨kept', history⟩ := checks
      cases stored with
      | false => cases kept'
      | true =>
        refine ⟨kept, by rw [written]; rfl, whole, ?_⟩
        exact {
          events := rfl
          stream := rfl
          firstCursor := rfl
          sequence := sequence
          streamId := stream
          valid := valid
          history := by
            unfold validateExecutionHistory at history
            split at history
            · assumption
            · cases history }

theorem SimpleOutcome.valid_body (outcome : SimpleOutcome) (order : Submission)
    (reason retcode : Text) : (outcome.body order reason retcode).valid =
      (order.valid && safeToken reason && canonicalUint64 retcode false) := by
  cases outcome <;> rfl

/-- A successful append is one whole line of a valid next event. -/
theorem AppendCall.run_extends {ea : Ea} (sound : ea.Sound) (call : AppendCall)
    {write : WriteAnswer} {stored : Bool} (done : (call.run ea write stored).value = true) :
    ∃ event kept, (call.run ea write stored).effects = [.append event kept true] ∧
      (wireText event.line).take kept = wireText event.line ∧
      Extends ea event (call.run ea write stored).ea ∧ call.Records event := by
  cases call with
  | streamStarted bootId eventTimeMs eaBuildId enabled =>
    exact appendStreamStarted_extends sound done
  | reserved bootId eventTimeMs order => exact appendReserved_extends sound done
  | rejectedOrUnknown bootId eventTimeMs outcome clientRequestId reason retcode =>
    simp only [AppendCall.run, appendRejectedOrUnknown] at done ⊢
    split at done
    · cases done
    · rename_i checks
      rw [if_neg checks]
      simp only [not_or, not_not] at checks
      split at done
      · cases done
      · rename_i sequence order prepared
        obtain ⟨-, -, seq, -, id, -⟩ := prepareTerminal_spec prepared
        have valid := prepared_valid sound prepared fun valid =>
          (outcome.valid_body order reason retcode).trans (by simp [valid, checks])
        obtain ⟨kept, effects, whole, extends'⟩ := appendTerminal_extends valid seq rfl done
        exact ⟨_, kept, effects, whole, extends', rfl, rfl, order, id, rfl⟩
  | filled bootId eventTimeMs clientRequestId fill =>
    simp only [AppendCall.run, appendFilled] at done ⊢
    split at done
    · cases done
    · rename_i checks
      rw [if_neg checks]
      rw [not_not] at checks
      split at done
      · cases done
      · rename_i sequence order prepared
        obtain ⟨-, -, seq, -, id, -⟩ := prepareTerminal_spec prepared
        have valid := prepared_valid sound prepared fun valid =>
          (by simp [EventBody.valid, valid, checks] : (EventBody.orderFilled order fill).valid =
            true)
        obtain ⟨kept, effects, whole, extends'⟩ := appendTerminal_extends valid seq rfl done
        exact ⟨_, kept, effects, whole, extends', rfl, rfl, order, id, rfl⟩

theorem loadIdentity_safe {journalNamespace content streamId : Text}
    (loaded : loadIdentity journalNamespace content = some streamId) :
    safeToken streamId = true := by
  unfold loadIdentity at loaded
  split at loaded
  · split at loaded
    · cases loaded
    · simp only [Option.ite_none_left_eq_some, Option.some.injEq] at loaded
      obtain ⟨checks, rfl⟩ := loaded
      simp only [not_or, not_not] at checks
      exact checks.2.2.2
  · cases loaded

/-- The start loads a ready journal from these files, with these globals. -/
structure Loads (journalNamespace : Text) (enabled : Bool) (disk : Disk) (ea : Ea) : Prop where
  starts : ∀ newStreamId identityWrite headerWrite,
    init journalNamespace enabled disk newStreamId identityWrite headerWrite = ⟨true, ea, []⟩
  ready : ea.journalReady = true
  stored : disk.identity.isSome = true

theorem Loads.spec {journalNamespace : Text} {enabled : Bool} {disk : Disk} {ea : Ea}
    (loads : Loads journalNamespace enabled disk ea) :
    ∃ identity content recovery, disk = ⟨some identity, some content⟩ ∧
      (journalPrefix.isPrefixOf journalNamespace = true ∧ safeToken journalNamespace = true) ∧
      loadIdentity journalNamespace identity = some ea.streamId ∧
      loadEvents journalNamespace ea.streamId content =
        some (ea.firstCursor, ea.events, recovery) := by
  obtain ⟨starts, ready, stored⟩ := loads
  have started := starts [] .refused .refused
  obtain ⟨identity, events⟩ := disk
  obtain ⟨identity, rfl⟩ := Option.isSome_iff_exists.1 stored
  unfold init at started
  dsimp only at started
  split at started
  · cases started
  · rename_i named
    rw [not_not] at named
    split at started
    · cases started
    · rename_i streamId known
      split at started
      · cases started
        cases ready
      · rename_i read
        obtain ⟨content, rfl, read⟩ := Option.bind_eq_some_iff.1 read
        cases started
        exact ⟨identity, content, _, rfl, named, known, read⟩

theorem Loads.reads {journalNamespace : Text} {enabled : Bool} {disk : Disk} {ea : Ea}
    (loads : Loads journalNamespace enabled disk ea) :
    ((disk.identity.bind (loadIdentity journalNamespace)).any fun streamId =>
      (disk.events.bind (loadEvents journalNamespace streamId)).isSome) = true := by
  obtain ⟨identity, content, recovery, rfl, -, known, read⟩ := loads.spec
  simp [known, read]

theorem Loads.of_loadEvents {journalNamespace : Text} {enabled : Bool}
    {identity content streamId : Text}
    {first : Text} {events : List JournalEvent} {recovery : Bool}
    (named : journalPrefix.isPrefixOf journalNamespace = true ∧ safeToken journalNamespace = true)
    (known : loadIdentity journalNamespace identity = some streamId)
    (read : loadEvents journalNamespace streamId content = some (first, events, recovery)) :
    Loads journalNamespace enabled ⟨some identity, some content⟩
      ⟨journalNamespace, streamId, first, events, true, recovery, enabled, []⟩ where
  starts newStreamId identityWrite headerWrite := by
    simp [init, named, known, read]
  ready := rfl
  stored := rfl

theorem Loads.sound {journalNamespace : Text} {enabled : Bool} {disk : Disk} {ea : Ea}
    (loads : Loads journalNamespace enabled disk ea) : ea.Sound := by
  obtain ⟨identity, content, recovery, rfl, -, known, read⟩ := loads.spec
  have safe := loadIdentity_safe known
  obtain ⟨valid, history, -⟩ := loadEvents_spec safe read
  exact ⟨safe, fun event member => (valid event member).1, history⟩

/-- Successful append calls, one after another. -/
inductive AppendRun : Ea → Disk → List AppendCall → Ea → Disk → Prop
  | start (ea : Ea) (disk : Disk) : AppendRun ea disk [] ea disk
  | call {ea ea' : Ea} {disk disk' : Disk} {calls : List AppendCall}
      (before : AppendRun ea disk calls ea' disk') (call : AppendCall) (write : WriteAnswer)
      (stored : Bool) (done : (call.run ea' write stored).value = true) :
      AppendRun ea disk (calls ++ [call]) (call.run ea' write stored).ea
        ((call.run ea' write stored).effects.foldl Disk.after disk')

/-- What a run of appends makes of the events file. -/
structure Grown (journalNamespace : Text) (ea : Ea) (identity content : Text)
    (calls : List AppendCall) (ea' : Ea) (content' : Text) : Prop where
  sound : ea'.Sound
  stream : ea'.streamId = ea.streamId
  firstCursor : ea'.firstCursor = ea.firstCursor
  recorded : ∃ events, List.Forall₂ AppendCall.Records calls events ∧
    ea'.events = ea.events ++ events
  whole : Terminated content → Terminated content' ∧ ∃ recovery,
    loadEvents journalNamespace ea.streamId content' = some (ea.firstCursor, ea'.events, recovery)
  joined : ¬Terminated content → (calls = [] ∧ content' = content) ∨ (Terminated content' ∧
    (fileLines content').length + 1 = (fileLines content).length + calls.length)

theorem wireText_starts {event : JournalEvent} (valid : event.valid = true) :
    ∃ rest, wireText event.line = 'E' :: rest := by
  obtain ⟨rest, starts⟩ := event.line_starts
  rw [wireText_oneLine (event.oneLine valid), starts]
  exact ⟨_, rfl⟩

theorem AppendRun.grown {journalNamespace : Text} {enabled : Bool} {identity content : Text}
    {ea ea' : Ea} {calls : List AppendCall} {disk' : Disk}
    (loads : Loads journalNamespace enabled ⟨some identity, some content⟩ ea)
    (run : AppendRun ea ⟨some identity, some content⟩ calls ea' disk') :
    ∃ content', disk' = ⟨some identity, some content'⟩ ∧
      Grown journalNamespace ea identity content calls ea' content' := by
  generalize start : (⟨some identity, some content⟩ : Disk) = disk at run
  induction run with
  | start disk =>
    subst start
    obtain ⟨identity', content', recovery, same, -, -, read⟩ := loads.spec
    cases same
    exact ⟨content, rfl, {
      sound := loads.sound
      stream := rfl
      firstCursor := rfl
      recorded := ⟨[], .nil, (List.append_nil _).symm⟩
      whole := fun ends => ⟨ends, recovery, read⟩
      joined := fun _ => .inl ⟨rfl, rfl⟩ }⟩
  | call before call write stored done ih =>
    rename_i now files files' earlier
    obtain ⟨content', rfl, grown⟩ := ih start
    obtain ⟨event, kept, effects, taken, more, records⟩ := call.run_extends grown.sound done
    refine ⟨content' ++ wireText event.line, by simp [effects, Disk.after, taken], ?_⟩
    have valid := more.valid
    have one := event.oneLine valid
    have wire := wireText_oneLine one
    obtain ⟨rest, starts⟩ := wireText_starts valid
    exact {
      sound := more.sound grown.sound
      stream := more.stream.trans grown.stream
      firstCursor := more.firstCursor.trans grown.firstCursor
      recorded := by
        obtain ⟨events, recorded, same⟩ := grown.recorded
        refine ⟨events ++ [event], List.rel_append recorded (.cons records .nil), ?_⟩
        rw [more.events, same, List.append_assoc]
      whole := by
        intro ends
        obtain ⟨ends', recovery, read⟩ := grown.whole ends
        have safe := loads.sound.safe
        have next : event.eventSeq = nextCursor (increment ea.firstCursor) now.events := by
          rw [more.sequence, increment_lastCursor, grown.firstCursor]
        have again := loadEvents_append safe read ends' valid (more.streamId.trans grown.stream)
          next (more.events ▸ more.history)
        exact ⟨by rw [wire]; exact ends'.append_crlf, _, by rw [more.events]; exact again⟩
      joined := by
        intro cutOff
        right
        have added : (fileLines (wireText event.line)).length = 1 := by
          rw [wire, fileLines_line one.2]
          rfl
        refine ⟨?_, ?_⟩
        · rw [wire, ← List.append_assoc]
          exact terminated_crlf content' event.line
        · rcases grown.joined cutOff with ⟨rfl, rfl⟩ | ⟨ends', lines⟩
          · have merged := length_fileLines_joined cutOff
              (by simp [starts] : wireText event.line ≠ []) (by simp [starts])
            simp only [List.nil_append, List.length_singleton]
            omega
          · rw [fileLines_append ends', List.length_append, List.length_append, added]
            simp only [List.length_singleton]
            omega }

/-- Whatever the start loaded as ready, the appends after it load again as its events and theirs
exactly when the loaded file was not cut off before its last line's end. -/
theorem append_law {journalNamespace : Text} {enabled : Bool} {identity content : Text}
    {ea ea' : Ea} {calls : List AppendCall} {disk' : Disk}
    (loads : Loads journalNamespace enabled ⟨some identity, some content⟩ ea)
    (run : AppendRun ea ⟨some identity, some content⟩ calls ea' disk') (some : calls ≠ []) :
    (∃ events, List.Forall₂ AppendCall.Records calls events ∧ ea'.events = ea.events ++ events) ∧
      ((∃ again, Loads journalNamespace enabled disk' again ∧ again.events = ea'.events) ↔
        Terminated content) := by
  obtain ⟨content', rfl, grown⟩ := run.grown loads
  obtain ⟨identity', content'', recovery, same, named, known, read⟩ := loads.spec
  cases same
  refine ⟨grown.recorded, ?_, ?_⟩
  · rintro ⟨again, loaded, same⟩
    by_contra cutOff
    rcases grown.joined cutOff with ⟨none, -⟩ | ⟨-, lines⟩
    · exact some none
    · obtain ⟨identity', content'', recovery', same', -, -, read'⟩ := loaded.spec
      cases same'
      obtain ⟨events, recorded, added⟩ := grown.recorded
      have before := loadEvents_length read
      have after := loadEvents_length read'
      have count := List.Forall₂.length_eq recorded
      rw [same, added, List.length_append] at after
      omega
  · intro ends
    obtain ⟨-, recovery', read'⟩ := grown.whole ends
    exact ⟨_, .of_loadEvents named known read', rfl⟩

/-- A journal of one boot, cut off or not before its last line's end. -/
def bootNamespace : Text := "PY000_MT5_V1_demo".toList

def bootIdentity : Text := wireText (sealLine (identityFields bootNamespace "stream-1".toList))

def bootEvent : JournalEvent :=
  ⟨"1".toList, "1000".toList, "stream-1".toList, "boot-1".toList,
    .streamStarted "ea-1".toList true⟩

def bootContent (cut : ℕ) : Text :=
  wireText (sealLine (headerFields bootNamespace "stream-1".toList "0".toList)) ++
    (wireText bootEvent.line).take ((wireText bootEvent.line).length - cut)

def bootEa : Ea :=
  ⟨bootNamespace, "stream-1".toList, "0".toList, [bootEvent], true, true, true, []⟩

def restart : AppendCall :=
  .streamStarted "boot-2".toList "2000".toList "ea-1".toList true

theorem bootContent_loads (cut : ℕ)
    (read : loadEvents bootNamespace "stream-1".toList (bootContent cut) =
      some ("0".toList, [bootEvent], true)) :
    Loads bootNamespace true ⟨some bootIdentity, some (bootContent cut)⟩ bootEa :=
  .of_loadEvents (by decide +kernel) (by decide +kernel) read

theorem restart_done : (restart.run bootEa (.wrote 500 true) true).value = true := by
  decide +kernel

theorem append_law_restart :
    (∃ events, List.Forall₂ AppendCall.Records [restart] events ∧
      (restart.run bootEa (.wrote 500 true) true).ea.events = [bootEvent] ++ events) ∧
      ((∃ again, Loads bootNamespace true
          ((restart.run bootEa (.wrote 500 true) true).effects.foldl Disk.after
            ⟨some bootIdentity, some (bootContent 0)⟩) again ∧
          again.events = (restart.run bootEa (.wrote 500 true) true).ea.events) ↔
        Terminated (bootContent 0)) :=
  append_law (bootContent_loads 0 (by decide +kernel))
    (.call (.start _ _) restart (.wrote 500 true) true restart_done) (by simp)

/-- The previous append was cut off between its line and the line's end. -/
theorem unterminated_append_lost : ∃ content ea ea' disk',
    Loads bootNamespace true ⟨some bootIdentity, some content⟩ ea ∧
      AppendRun ea ⟨some bootIdentity, some content⟩ [restart] ea' disk' ∧
      ¬∃ again, Loads bootNamespace true disk' again := by
  refine ⟨bootContent 2, bootEa, _, _, bootContent_loads 2 (by decide +kernel),
    .call (.start _ _) restart (.wrote 500 true) true restart_done, ?_⟩
  rintro ⟨again, loads⟩
  have reads := loads.reads
  revert reads
  decide +kernel

end ArbNautilus.Journal
