import ArbNautilus.Journal.Append
import ArbNautilus.Journal.Execution

namespace ArbNautilus.Journal

open Base

/-- Neither a broker call nor a whole line about an order. -/
def Effect.quiet : Effect → Bool
  | .create .. => true
  | .append event _ confirmed => !(confirmed && event.body.eventType.isOrderEvent)
  | .orderSend .. => false

/-- An order event whose line was written and flushed. -/
def Recorded (log : List Effect) (event : JournalEvent) : Prop :=
  event.body.eventType.isOrderEvent = true ∧ ∃ kept, Effect.append event kept true ∈ log

/-- The requests the broker was called with, in order. -/
def sends (log : List Effect) : List SubmitRequest :=
  log.filterMap fun
    | .orderSend request _ => some request
    | _ => none

/-- A whole line of the events file, starting where a line starts. -/
def OnDisk (disk : Disk) (event : JournalEvent) : Prop :=
  ∃ before after, Terminated before ∧
    disk.events = some (before ++ wireText event.line ++ after)

/-- Every other reservation of these events came to a definite end. -/
def OthersSettled (clientRequestId : Text) (loaded : List JournalEvent) : Prop :=
  ∀ event ∈ loaded, ∀ order, event.body = .submissionReserved order →
    order.clientRequestId ≠ clientRequestId →
    ∃ outcome ∈ loaded, outcome.settles order.clientRequestId = true ∧
      outcome.body.eventType ≠ .orderUnknown

/-- What the log and the files keep through every step and every crash. -/
structure Stored (disk : Disk) (log : List Effect) : Prop where
  valid : ∀ event, Recorded log event → event.valid = true
  onDisk : ∀ event, Recorded log event → OnDisk disk event
  once : ((sends log).map fun request => request.order.clientRequestId).Nodup
  sent : ∀ before after request loaded, log = before ++ .orderSend request loaded :: after →
    (∃ earlier event kept, before = earlier ++ [.append event kept true] ∧
      event.body = .submissionReserved request.order) ∧
    OthersSettled request.order.clientRequestId loaded

/-- What a running expert with a ready journal knows. -/
structure Live (disk : Disk) (log : List Effect) (ea : Ea) : Prop where
  sound : ea.Sound
  holds : ∀ event, Recorded log event → event ∈ ea.events
  ends : ea.recoveryReady = true → ∃ content, disk.events = some content ∧ Terminated content
  settled : ea.recoveryReady = true → recovered ea.events = true

theorem OnDisk.after {disk : Disk} {event : JournalEvent} (onDisk : OnDisk disk event)
    (effect : Effect) : OnDisk (disk.after effect) event := by
  obtain ⟨before, rest, ends, content⟩ := onDisk
  cases effect with
  | create file contents kept confirmed =>
    cases file with
    | identity => exact ⟨before, rest, ends, content⟩
    | events =>
      exact ⟨before, rest ++ (wireText contents).take kept, ends, by simp [Disk.after, content]⟩
  | append next kept confirmed =>
    exact ⟨before, rest ++ (wireText next.line).take kept, ends, by simp [Disk.after, content]⟩
  | orderSend request loaded => exact ⟨before, rest, ends, content⟩

theorem recorded_concat {log : List Effect} {effect : Effect} {event : JournalEvent}
    (recorded : Recorded (log ++ [effect]) event) : Recorded log event ∨
      event.body.eventType.isOrderEvent = true ∧ ∃ kept, effect = .append event kept true := by
  obtain ⟨kind, kept, member⟩ := recorded
  rcases List.mem_append.1 member with old | new
  · exact .inl ⟨kind, kept, old⟩
  · exact .inr ⟨kind, kept, (List.mem_singleton.1 new).symm⟩

theorem Recorded.append {log more : List Effect} {event : JournalEvent}
    (recorded : Recorded log event) : Recorded (log ++ more) event :=
  ⟨recorded.1, recorded.2.imp fun _ member => List.mem_append_left _ member⟩

theorem sends_concat (log : List Effect) (effect : Effect) :
    sends (log ++ [effect]) = sends log ++ sends [effect] :=
  List.filterMap_append

/-- A send of the longer log is one of the shorter, or its last effect. -/
theorem split_concat {log before after : List Effect} {last effect : Effect}
    (split : log ++ [last] = before ++ effect :: after) :
    (∃ rest, after = rest ++ [last] ∧ log = before ++ effect :: rest) ∨
      (after = [] ∧ log = before ∧ last = effect) := by
  rcases List.eq_nil_or_concat after with rfl | ⟨rest, final, rfl⟩
  · right
    obtain ⟨same, one⟩ := List.append_inj' split rfl
    exact ⟨rfl, same, by simpa using one⟩
  · left
    have split : log ++ [last] = (before ++ effect :: rest) ++ [final] := by
      rw [split]
      simp
    obtain ⟨same, one⟩ := List.append_inj' split rfl
    exact ⟨rest, by simpa using one.symm, same⟩

theorem Stored.empty : Stored ⟨none, none⟩ [] where
  valid event recorded := by
    obtain ⟨-, kept, member⟩ := recorded
    cases member
  onDisk event recorded := by
    obtain ⟨-, kept, member⟩ := recorded
    cases member
  once := .nil
  sent before after request loaded split := by simp at split

theorem Stored.quiet {disk : Disk} {log : List Effect} (stored : Stored disk log) {effect : Effect}
    (quiet : effect.quiet = true) : Stored (disk.after effect) (log ++ [effect]) := by
  have same : ∀ event, Recorded (log ++ [effect]) event → Recorded log event := by
    intro event recorded
    rcases recorded_concat recorded with old | ⟨kind, kept, rfl⟩
    · exact old
    · simp [Effect.quiet, kind] at quiet
  have none : sends [effect] = [] := by
    cases effect <;> first | rfl | cases quiet
  exact {
    valid := fun event recorded => stored.valid event (same event recorded)
    onDisk := fun event recorded => (stored.onDisk event (same event recorded)).after effect
    once := by
      rw [sends_concat, none, List.append_nil]
      exact stored.once
    sent := by
      intro before after request loaded split
      rcases split_concat split with ⟨rest, -, split⟩ | ⟨-, -, rfl⟩
      · exact stored.sent before rest request loaded split
      · cases quiet }

/-- A whole line at the end of a terminated file. -/
theorem Stored.append {disk : Disk} {log : List Effect} (stored : Stored disk log)
    {event : JournalEvent} {kept : ℕ} (valid : event.valid = true)
    (whole : (wireText event.line).take kept = wireText event.line) {content : Text}
    (file : disk.events = some content) (ends : Terminated content) :
    Stored (disk.after (.append event kept true)) (log ++ [.append event kept true]) where
  valid other recorded := by
    rcases recorded_concat recorded with old | ⟨-, kept', same⟩
    · exact stored.valid other old
    · cases same
      exact valid
  onDisk other recorded := by
    rcases recorded_concat recorded with old | ⟨-, kept', same⟩
    · exact (stored.onDisk other old).after _
    · cases same
      exact ⟨content, [], ends, by simp [Disk.after, file, whole]⟩
  once := by
    rw [sends_concat]
    simpa [sends] using stored.once
  sent before after request loaded split := by
    rcases split_concat split with ⟨rest, -, split⟩ | ⟨-, -, same⟩
    · exact stored.sent before rest request loaded split
    · cases same

theorem Stored.send {disk : Disk} {log earlier : List Effect} (stored : Stored disk log)
    {request : SubmitRequest} {loaded : List JournalEvent} {event : JournalEvent} {kept : ℕ}
    (last : log = earlier ++ [.append event kept true])
    (reserved : event.body = .submissionReserved request.order)
    (settled : OthersSettled request.order.clientRequestId loaded)
    (fresh : request.order.clientRequestId ∉
      (sends log).map fun request => request.order.clientRequestId) :
    Stored (disk.after (.orderSend request loaded)) (log ++ [.orderSend request loaded]) where
  valid other recorded := by
    rcases recorded_concat recorded with old | ⟨-, kept', same⟩
    · exact stored.valid other old
    · cases same
  onDisk other recorded := by
    rcases recorded_concat recorded with old | ⟨-, kept', same⟩
    · exact stored.onDisk other old
    · cases same
  once := by
    rw [sends_concat, List.map_append]
    refine List.nodup_append.2 ⟨stored.once, by simp [sends], ?_⟩
    rintro a member b single rfl
    obtain rfl : a = request.order.clientRequestId := by simpa [sends] using single
    exact fresh member
  sent before after request' loaded' split := by
    rcases split_concat split with ⟨rest, -, split⟩ | ⟨-, rfl, same⟩
    · exact stored.sent before rest request' loaded' split
    · cases same
      exact ⟨⟨earlier, event, kept, last, reserved⟩, settled⟩

/-- What may be left of a write that the terminal died in. -/
inductive Torn : Effect → Effect → Prop
  | create (file : JournalFile) (contents : Text) (kept part : ℕ) (confirmed : Bool)
      (less : part ≤ kept) :
      Torn (.create file contents kept confirmed) (.create file contents part false)
  | append (event : JournalEvent) (kept part : ℕ) (confirmed : Bool) (less : part ≤ kept) :
      Torn (.append event kept confirmed) (.append event part false)

theorem Torn.quiet {effect torn : Effect} (tear : Torn effect torn) : torn.quiet = true := by
  cases tear <;> rfl

/-- A call that is cut off did nothing yet, tore its first effect, or got past it. -/
theorem Cut.cons_cases {effect : Effect} {rest effects : List Effect}
    (cut : Cut (effect :: rest) effects) : effects = [] ∨
      (∃ torn, effects = [torn] ∧ Torn effect torn) ∨
      ∃ later, effects = effect :: later ∧ Cut rest later := by
  generalize whole : effect :: rest = all at cut
  cases cut with
  | between done rest' =>
    cases effects with
    | nil => exact .inl rfl
    | cons first later =>
      cases whole
      exact .inr (.inr ⟨later, rfl, .between later rest'⟩)
  | creating done rest' file contents kept part confirmed less =>
    cases done with
    | nil =>
      cases whole
      exact .inr (.inl ⟨_, rfl, .create file contents kept part confirmed less⟩)
    | cons first later =>
      cases whole
      exact .inr (.inr ⟨_, rfl, .creating later rest' file contents kept part confirmed less⟩)
  | appending done rest' event kept part confirmed less =>
    cases done with
    | nil =>
      cases whole
      exact .inr (.inl ⟨_, rfl, .append event kept part confirmed less⟩)
    | cons first later =>
      cases whole
      exact .inr (.inr ⟨_, rfl, .appending later rest' event kept part confirmed less⟩)

theorem Cut.refl (effects : List Effect) : Cut effects effects := by
  simpa using Cut.between effects []

theorem Cut.of_torn {effect torn : Effect} (tear : Torn effect torn) (rest : List Effect) :
    Cut (effect :: rest) [torn] := by
  cases tear with
  | create file contents kept part confirmed less =>
    exact .creating [] rest file contents kept part confirmed less
  | append event kept part confirmed less =>
    exact .appending [] rest event kept part confirmed less

theorem Cut.cons {rest later : List Effect} (effect : Effect) (cut : Cut rest later) :
    Cut (effect :: rest) (effect :: later) := by
  cases cut with
  | between _ rest => exact .between (effect :: later) rest
  | creating done rest file contents kept part confirmed less =>
    exact .creating (effect :: done) rest file contents kept part confirmed less
  | appending done rest event kept part confirmed less =>
    exact .appending (effect :: done) rest event kept part confirmed less

/-- Of two calls in a row the first is cut off, or the second. -/
theorem Cut.append_cases {first second effects : List Effect}
    (cut : Cut (first ++ second) effects) :
    Cut first effects ∨ ∃ later, effects = first ++ later ∧ Cut second later := by
  induction first generalizing effects with
  | nil => exact .inr ⟨effects, rfl, cut⟩
  | cons effect first ih =>
    rcases Cut.cons_cases cut with rfl | ⟨torn, rfl, tear⟩ | ⟨later, rfl, inner⟩
    · exact .inl (.between [] _)
    · exact .inl (.of_torn tear first)
    · rcases ih inner with early | ⟨last, rfl, final⟩
      · exact .inl (early.cons effect)
      · exact .inr ⟨last, rfl, final⟩

theorem Cut.nil {effects : List Effect} (cut : Cut [] effects) : effects = [] := by
  have none : ∀ all, Cut all effects → all = [] → effects = [] := by
    intro all cut whole
    cases cut with
    | between done rest => exact (List.append_eq_nil_iff.1 whole).1
    | creating => simp at whole
    | appending => simp at whole
  exact none [] cut rfl

/-- Every point at which the terminal may die in these effects keeps what is stored. -/
def KeepsStored (disk : Disk) (log effects : List Effect) : Prop :=
  ∀ done, Cut effects done → Stored (done.foldl Disk.after disk) (log ++ done)

theorem KeepsStored.nil {disk : Disk} {log : List Effect} (stored : Stored disk log) :
    KeepsStored disk log [] := by
  intro done cut
  rw [cut.nil, List.append_nil]
  exact stored

theorem KeepsStored.cons {disk : Disk} {log rest : List Effect} {effect : Effect}
    (stored : Stored disk log)
    (keeps : KeepsStored (disk.after effect) (log ++ [effect]) rest) :
    KeepsStored disk log (effect :: rest) := by
  intro done cut
  rcases cut.cons_cases with rfl | ⟨torn, rfl, tear⟩ | ⟨later, rfl, inner⟩
  · rw [List.append_nil]
    exact stored
  · exact stored.quiet tear.quiet
  · simpa using keeps later inner

theorem KeepsStored.quiet {disk : Disk} {log effects : List Effect} (stored : Stored disk log)
    (quiet : ∀ effect ∈ effects, effect.quiet = true) : KeepsStored disk log effects := by
  induction effects generalizing disk log with
  | nil => exact .nil stored
  | cons effect rest ih =>
    refine .cons stored (ih (stored.quiet (quiet effect List.mem_cons_self)) ?_)
    exact fun other member => quiet other (List.mem_cons_of_mem effect member)

theorem KeepsStored.whole {disk : Disk} {log effects : List Effect}
    (keeps : KeepsStored disk log effects) :
    Stored (effects.foldl Disk.after disk) (log ++ effects) :=
  keeps effects (.refl effects)

theorem readEvents_mem {streamId : Text} {lines : List Text} {expected : Text}
    {events : List JournalEvent} (read : readEvents streamId expected lines = some events)
    {line : Text} (member : line ∈ lines) :
    ∃ event ∈ events, ∃ sequence, parseEvent streamId line sequence = some event := by
  induction lines generalizing expected events with
  | nil => cases member
  | cons first rest ih =>
    unfold readEvents at read
    split at read
    · cases read
    · split at read
      · cases read
      · rename_i event parsed
        simp only [Option.ite_none_left_eq_some, Option.map_eq_some_iff] at read
        obtain ⟨-, later, read, rfl⟩ := read
        rcases List.mem_cons.1 member with rfl | member
        · exact ⟨event, List.mem_cons_self, expected, parsed⟩
        · obtain ⟨found, inside, sequence, parsed⟩ := ih read member
          exact ⟨found, List.mem_cons_of_mem event inside, sequence, parsed⟩

/-- An event line is no header. -/
theorem header_parts {event : JournalEvent} (valid : event.valid = true) {parts : List Text}
    (verified : verifiedParts event.line 6 = some parts) : parts.getD 0 [] = "E".toList := by
  have split : event.line.splitOn '|' = event.fields ++ [checksum (joinFields event.fields)] :=
    splitOn_sealLine event.fields_ne_nil (event.clean_fields valid)
  simp only [verifiedParts, split, Option.ite_none_left_eq_some, Option.ite_none_right_eq_some,
    Option.some.injEq] at verified
  obtain ⟨-, -, rfl⟩ := verified
  rfl

/-- A whole line on the disk is among the events a start loads. -/
theorem OnDisk.loaded {disk : Disk} {event : JournalEvent} (onDisk : OnDisk disk event)
    (valid : event.valid = true) {content : Text} (file : disk.events = some content)
    {journalNamespace streamId first : Text} {events : List JournalEvent} {recovery : Bool}
    (loaded : loadEvents journalNamespace streamId content = some (first, events, recovery)) :
    event ∈ events := by
  obtain ⟨before, after, ends, same⟩ := onDisk
  rw [file] at same
  cases same
  have one := event.oneLine valid
  have lines : fileLines (before ++ wireText event.line ++ after) =
      fileLines before ++ event.line :: fileLines after := by
    rw [List.append_assoc, fileLines_append ends, wireText_oneLine one, List.append_assoc]
    exact congrArg _ (fileLines_line one.2 after)
  unfold loadEvents at loaded
  rw [lines] at loaded
  split at loaded
  · cases loaded
  · rename_i header rest split
    split at loaded
    · cases loaded
    · rename_i parts verified
      simp only [Option.ite_none_left_eq_some] at loaded
      obtain ⟨checks, loaded⟩ := loaded
      split at loaded
      · cases loaded
      · rename_i read
        simp only [Option.ite_none_right_eq_some, Option.some.injEq, Prod.mk.injEq] at loaded
        obtain ⟨-, -, rfl, -⟩ := loaded
        have inside : event.line ∈ rest := by
          cases leading : fileLines before with
          | nil =>
            rw [leading] at split
            cases split
            have mark := header_parts valid verified
            simp only [not_or, not_not] at checks
            rw [checks.1] at mark
            exact absurd mark (by decide)
          | cons first lines =>
            rw [leading] at split
            cases split
            simp
        obtain ⟨found, member, sequence, parsed⟩ := readEvents_mem read inside
        rw [parseEvent_line valid] at parsed
        obtain ⟨-, same⟩ := Option.ite_none_right_eq_some.1 parsed
        cases same
        exact member

/-- The event comes next in the journal, in the running boot, and is about this id. -/
structure Next (ea : Ea) (clientRequestId : Text) (event : JournalEvent) : Prop where
  valid : event.valid = true
  sequence : event.eventSeq = increment (lastCursor ea)
  streamId : event.streamId = ea.streamId
  bootId : event.bootId = ea.bootId
  about : event.isFor clientRequestId = true

/-- What is left of a line that is not known to be whole. -/
inductive Unsure (ea : Ea) (clientRequestId : Text) : List Effect → Prop
  | none : Unsure ea clientRequestId []
  | part {event : JournalEvent} (next : Next ea clientRequestId event) (kept : ℕ) :
      Unsure ea clientRequestId [.append event kept false]

theorem Unsure.quiet {ea : Ea} {clientRequestId : Text} {effects : List Effect}
    (unsure : Unsure ea clientRequestId effects) : ∀ effect ∈ effects, effect.quiet = true := by
  cases unsure <;> simp [Effect.quiet]

theorem appendLine_unconfirmed {ea : Ea} {clientRequestId : Text} {event : JournalEvent}
    {write : WriteAnswer} (next : Next ea clientRequestId event)
    (unconfirmed : ¬(appendLine event write).any Effect.confirmed = true) :
    Unsure ea clientRequestId (appendLine event write).toList := by
  cases write with
  | refused => exact .none
  | wrote kept flushed =>
    simp only [appendLine, writeLine, Option.map_some, Option.any_some, Effect.confirmed,
      Bool.not_eq_true] at unconfirmed
    simp only [appendLine, writeLine, Option.map_some, unconfirmed]
    exact .part next kept

theorem createLine_quiet {file : JournalFile} {contents : Text} {write : WriteAnswer} :
    ∀ effect ∈ (createLine file contents write).toList, effect.quiet = true := by
  cases write <;> simp [createLine, writeLine, Effect.quiet]

/-- How the end of a submission leaves the globals, and with which effects. -/
inductive Finished (ea : Ea) (clientRequestId : Text) : List Effect → Ea → Prop
  /-- No whole terminal line: later reservations are blocked. -/
  | blocked {tail : List Effect} (unsure : Unsure ea clientRequestId tail) :
      Finished ea clientRequestId tail { ea with recoveryReady := false }
  /-- A whole line that memory does not hold: the journal is disabled. -/
  | disabled {event : JournalEvent} {kept : ℕ} {ea' : Ea} (next : Next ea clientRequestId event)
      (whole : (wireText event.line).take kept = wireText event.line)
      (down : ea'.journalReady = false) :
      Finished ea clientRequestId [.append event kept true] ea'
  | settled {event : JournalEvent} {kept : ℕ} {ea' : Ea} (next : Next ea clientRequestId event)
      (whole : (wireText event.line).take kept = wireText event.line)
      (more : Extends ea event ea') (boot : ea'.bootId = ea.bootId)
      (recovery : ea'.recoveryReady = recovered ea'.events) :
      Finished ea clientRequestId [.append event kept true] ea'

theorem validateExecutionHistory_recovery {events : List JournalEvent}
    (valid : (validateExecutionHistory events).1 = true) :
    (validateExecutionHistory events).2 = recovered events := by
  unfold validateExecutionHistory at valid ⊢
  split at valid
  · rename_i history
    rw [if_pos history]
  · cases valid

/-- A terminal append whose failure, if it fails, blocks the recovery. -/
def Ended (ea : Ea) (clientRequestId : Text) (ran : Ran (Option JournalEvent)) : Prop :=
  (ran.value = none ∧
    Finished ea clientRequestId ran.effects { ran.ea with recoveryReady := false }) ∨
    (ran.value.isSome = true ∧ Finished ea clientRequestId ran.effects ran.ea)

theorem appendTerminal_ended {ea : Ea} {clientRequestId : Text} {event : JournalEvent}
    (next : Next ea clientRequestId event) (write : WriteAnswer) (stored : Bool) :
    Ended ea clientRequestId (appendTerminal ea event write stored) := by
  by_cases done : (appendTerminal ea event write stored).value.isSome = true
  · right
    obtain ⟨kept, effects, whole, more⟩ :=
      appendTerminal_extends next.valid next.sequence next.streamId done
    refine ⟨done, ?_⟩
    rw [effects]
    have kept' : (appendTerminal ea event write stored).ea.bootId = ea.bootId ∧
        (appendTerminal ea event write stored).ea.recoveryReady =
          recovered (appendTerminal ea event write stored).ea.events := by
      revert done
      unfold appendTerminal
      dsimp only
      split
      · intro done
        cases done
      · split
        · intro done
          cases done
        · rename_i checks
          intro _
          simp only [not_or, not_not] at checks
          refine ⟨?_, validateExecutionHistory_recovery checks.2⟩
          cases stored <;> rfl
    exact .settled next whole more kept'.1 kept'.2
  · left
    revert done
    unfold appendTerminal
    dsimp only
    split
    · rename_i unconfirmed
      intro _
      exact ⟨rfl, .blocked (appendLine_unconfirmed next unconfirmed)⟩
    · rename_i confirmed
      rw [not_not] at confirmed
      obtain ⟨kept, written, whole⟩ := appendLine_confirmed confirmed
      split
      · intro _
        rw [written]
        exact ⟨rfl, .disabled next whole rfl⟩
      · intro done
        exact absurd rfl done

theorem prepared_next {ea : Ea} (sound : ea.Sound)
    {eventTimeMs clientRequestId sequence : Text} {order : Submission}
    (prepared : prepareTerminal ea ea.bootId eventTimeMs clientRequestId = some (sequence, order))
    {body : EventBody} (about : body.order = some order)
    (valid : order.valid = true → body.valid = true) :
    Next ea clientRequestId ⟨sequence, eventTimeMs, ea.streamId, ea.bootId, body⟩ := by
  obtain ⟨-, -, seq, -, id, -⟩ := prepareTerminal_spec prepared
  refine ⟨prepared_valid sound prepared valid, seq, rfl, rfl, ?_⟩
  simp [JournalEvent.isFor, about, id]

theorem appendRejectedOrUnknown_ended {ea : Ea} (sound : ea.Sound) (eventTimeMs : Text)
    (outcome : SimpleOutcome) (clientRequestId reason retcode : Text) (write : WriteAnswer)
    (stored : Bool) :
    Ended ea clientRequestId (appendRejectedOrUnknown ea ea.bootId eventTimeMs outcome
      clientRequestId reason retcode write stored) := by
  unfold appendRejectedOrUnknown
  split
  · exact .inl ⟨rfl, .blocked .none⟩
  · rename_i checks
    simp only [not_or, not_not] at checks
    split
    · exact .inl ⟨rfl, .blocked .none⟩
    · rename_i sequence order prepared
      have about : (outcome.body order reason retcode).order = some order := by
        cases outcome <;> rfl
      have next := prepared_next sound prepared about fun valid =>
        (outcome.valid_body order reason retcode).trans (by simp [valid, checks])
      exact appendTerminal_ended next write stored

theorem appendFilled_ended {ea : Ea} (sound : ea.Sound) (eventTimeMs clientRequestId : Text)
    (fill : Fill) (write : WriteAnswer) (stored : Bool) :
    Ended ea clientRequestId
      (appendFilled ea ea.bootId eventTimeMs clientRequestId fill write stored) := by
  unfold appendFilled
  split
  · exact .inl ⟨rfl, .blocked .none⟩
  · rename_i checks
    rw [not_not] at checks
    split
    · exact .inl ⟨rfl, .blocked .none⟩
    · rename_i sequence order prepared
      have about : (EventBody.orderFilled order fill).order = some order := rfl
      have next := prepared_next sound prepared about fun valid => by
        simp [EventBody.valid, valid, checks]
      exact appendTerminal_ended next write stored

theorem finish_finished {ea : Ea} (sound : ea.Sound) (request : SubmitRequest) (answers : Answers)
    (verdict : Verdict) : Finished ea request.order.clientRequestId
      (finish ea request answers verdict).effects (finish ea request answers verdict).ea := by
  cases verdict with
  | simple outcome reason retcode =>
    have ended := appendRejectedOrUnknown_ended sound answers.terminalMs outcome
      request.order.clientRequestId reason retcode answers.terminalWrite answers.terminalStored
    unfold finish
    rcases ended with ⟨none, finished⟩ | ⟨some, finished⟩
    · simpa [none] using finished
    · obtain ⟨event, same⟩ := Option.isSome_iff_exists.1 some
      simpa [same] using finished
  | filled fill =>
    have ended := appendFilled_ended sound answers.terminalMs
      request.order.clientRequestId fill answers.terminalWrite answers.terminalStored
    unfold finish
    rcases ended with ⟨none, finished⟩ | ⟨some, finished⟩
    · simpa [none] using finished
    · obtain ⟨event, same⟩ := Option.isSome_iff_exists.1 some
      simpa [same] using finished

/-- The answer to a submission that left no reservation. -/
def unreserved : Except SubmitError JournalEvent :=
  .error ⟨.recoveryBlocked, "submission reservation could not be persisted"⟩

/-- What a whole submission answers, and how it leaves the globals, with which effects. -/
inductive Submitted (ea : Ea) (request : SubmitRequest) :
    Except SubmitError JournalEvent → List Effect → Ea → Prop
  | idle (answer : Except SubmitError JournalEvent) : Submitted ea request answer [] ea
  /-- The reservation is not known to be on disk. -/
  | blocked {effects : List Effect} (recovery : ea.recoveryReady = true)
      (fresh : (reservedEvent ea.events request.order.clientRequestId).isSome = false)
      (unsure : Unsure ea request.order.clientRequestId effects) :
      Submitted ea request unreserved effects { ea with recoveryReady := false }
  /-- It is, and memory does not hold it. -/
  | disabled {event : JournalEvent} {kept : ℕ} {ea' : Ea} (recovery : ea.recoveryReady = true)
      (fresh : (reservedEvent ea.events request.order.clientRequestId).isSome = false)
      (next : Next ea request.order.clientRequestId event)
      (whole : (wireText event.line).take kept = wireText event.line)
      (down : ea'.journalReady = false) :
      Submitted ea request unreserved [.append event kept true] ea'
  | reserved {answer : Except SubmitError JournalEvent} {event : JournalEvent} {kept : ℕ}
      {held ea' : Ea} {send tail : List Effect} (recovery : ea.recoveryReady = true)
      (fresh : (reservedEvent ea.events request.order.clientRequestId).isSome = false)
      (next : Next ea request.order.clientRequestId event)
      (whole : (wireText event.line).take kept = wireText event.line)
      (more : Extends ea event held) (boot : held.bootId = ea.bootId)
      (about : event.body = .submissionReserved request.order)
      (sent : send = [] ∨ send = [.orderSend request held.events])
      (finished : Finished held request.order.clientRequestId tail ea') :
      Submitted ea request answer (.append event kept true :: (send ++ tail)) ea'

theorem execute_finished {ea : Ea} (sound : ea.Sound) (request : SubmitRequest)
    (answers : Answers) : ∃ send tail, (execute ea request answers).effects = send ++ tail ∧
      (send = [] ∨ send = [.orderSend request ea.events]) ∧
      Finished ea request.order.clientRequestId tail (execute ea request answers).ea := by
  unfold execute
  split
  · exact ⟨[], _, rfl, .inl rfl, finish_finished sound request answers _⟩
  · exact ⟨[.orderSend request ea.events], _, rfl, .inr rfl,
      finish_finished sound request answers _⟩

theorem appendReserved_cases {ea : Ea} (sound : ea.Sound) (eventTimeMs : Text)
    {request : SubmitRequest} (recovery : ea.recoveryReady = true)
    (fresh : (reservedEvent ea.events request.order.clientRequestId).isSome = false)
    (write : WriteAnswer) (stored : Bool) :
    let ran := appendReserved ea ea.bootId eventTimeMs request.order write stored
    (ran.value = true ∧ ran.ea.bootId = ea.bootId) ∨ (ran.value = false ∧
      Submitted ea request unreserved ran.effects { ran.ea with recoveryReady := false }) := by
  intro ran
  by_cases done : ran.value = true
  · refine .inl ⟨done, ?_⟩
    dsimp only [ran]
    unfold appendReserved
    dsimp only
    split
    · rfl
    · split
      · rfl
      · split
        · rfl
        · cases stored <;> rfl
  · right
    rw [Bool.not_eq_true] at done
    refine ⟨done, ?_⟩
    dsimp only [ran] at done ⊢
    revert done
    unfold appendReserved
    split
    · intro _
      exact .blocked recovery fresh .none
    · rename_i checks
      simp only [not_or, not_not] at checks
      obtain ⟨-, -, boot, time, id, lots, target, -, -⟩ := checks
      dsimp only
      split
      · intro _
        exact .blocked recovery fresh .none
      · rename_i some
        have canonical := canonical_increment some
        have next : Next ea request.order.clientRequestId ⟨increment (lastCursor ea), eventTimeMs,
            ea.streamId, ea.bootId, .submissionReserved request.order⟩ := by
          refine ⟨?_, rfl, rfl, rfl, ?_⟩
          · simp [JournalEvent.valid, canonical, time, sound.safe, boot, EventBody.valid,
              Submission.valid, id, lots, target]
          · simp [JournalEvent.isFor, EventBody.order]
        split
        · rename_i unconfirmed
          intro _
          exact .blocked recovery fresh (appendLine_unconfirmed next unconfirmed)
        · rename_i confirmed
          rw [not_not] at confirmed
          obtain ⟨kept, written, whole⟩ := appendLine_confirmed confirmed
          cases stored with
          | true =>
            intro done
            cases done
          | false =>
            intro _
            rw [written]
            exact .disabled recovery fresh next whole rfl

theorem submit_submitted {ea : Ea} (sound : ea.journalReady = true → ea.Sound)
    (request : SubmitRequest) (answers : Answers) :
    Submitted ea request (submit ea request answers).value (submit ea request answers).effects
      (submit ea request answers).ea := by
  unfold submit
  split
  · exact .idle _
  · rename_i ready
    rw [not_not] at ready
    split
    · exact .idle _
    · rename_i fresh
      split
      · exact .idle _
      · split
        · exact .idle _
        · rename_i running
          simp only [not_or, not_not] at running
          dsimp only
          have sound := sound ready
          have unknown :
              (reservedEvent ea.events request.order.clientRequestId).isSome = false := by
            rw [fresh]
            rfl
          rcases appendReserved_cases sound answers.reservedMs running.2 unknown
            answers.reservedWrite answers.reservedStored with ⟨done, boot⟩ | ⟨failed, submitted⟩
          · rw [if_neg (by simp [done])]
            obtain ⟨event, kept, effects, whole, more, own, -, about⟩ :=
              appendReserved_extends sound done
            obtain ⟨send, tail, same, sent, finished⟩ :=
              execute_finished (more.sound sound) request answers
            have next : Next ea request.order.clientRequestId event :=
              ⟨more.valid, more.sequence, more.streamId, own, by
                simp [JournalEvent.isFor, about, EventBody.order]⟩
            have submitted := fun answer =>
              @Submitted.reserved ea request answer _ _ _ _ _ _ running.2 unknown next whole more
                boot about sent finished
            dsimp only
            rw [effects, same]
            exact submitted _
          · rw [if_pos (by simp [failed])]
            exact submitted

theorem recorded_quiet {log effects : List Effect}
    (quiet : ∀ effect ∈ effects, effect.quiet = true) {event : JournalEvent}
    (recorded : Recorded (log ++ effects) event) : Recorded log event := by
  obtain ⟨kind, kept, member⟩ := recorded
  rcases List.mem_append.1 member with old | new
  · exact ⟨kind, kept, old⟩
  · have calm := quiet _ new
    simp [Effect.quiet, kind] at calm

theorem sends_split {log : List Effect} {request : SubmitRequest} (member : request ∈ sends log) :
    ∃ before after loaded, log = before ++ .orderSend request loaded :: after := by
  obtain ⟨effect, inside, same⟩ := List.mem_filterMap.1 member
  cases effect with
  | create | append => cases same
  | orderSend request' loaded =>
    cases same
    obtain ⟨before, after, split⟩ := List.append_of_mem inside
    exact ⟨before, after, loaded, split⟩

/-- Whatever was sent is reserved in the journal of a running expert. -/
theorem Live.reserved {disk : Disk} {log : List Effect} {ea : Ea} (stored : Stored disk log)
    (live : Live disk log ea) {request : SubmitRequest} (sent : request ∈ sends log) :
    (reservedEvent ea.events request.order.clientRequestId).isSome = true := by
  obtain ⟨before, after, loaded, split⟩ := sends_split sent
  obtain ⟨⟨earlier, event, kept, last, about⟩, -⟩ := stored.sent before after request loaded split
  have recorded : Recorded log event := by
    refine ⟨by rw [about]; rfl, kept, ?_⟩
    rw [split, last]
    simp
  simp only [reservedEvent, List.find?_isSome]
  exact ⟨event, live.holds event recorded, by
    simp [JournalEvent.reserves, JournalEvent.isFor, about, EventBody.eventType, EventBody.order]⟩

theorem recovered_outcome {events : List JournalEvent} (done : recovered events = true)
    {event : JournalEvent} (member : event ∈ events) {order : Submission}
    (about : event.body = .submissionReserved order) :
    ∃ outcome ∈ events, outcome.settles order.clientRequestId = true ∧
      outcome.body.eventType ≠ .orderUnknown := by
  have own := List.all_eq_true.1 done event member
  simp only [about] at own
  obtain ⟨outcome, found, known⟩ := (Option.any_eq_true _ _).1 own
  unfold outcomeEvent at found
  have settles := List.find?_some found
  exact ⟨outcome, List.mem_of_find?_eq_some found, settles, by simpa using known⟩

theorem othersSettled_extends {ea held : Ea} {event : JournalEvent} (more : Extends ea event held)
    (done : recovered ea.events = true) {order : Submission}
    (about : event.body = .submissionReserved order) :
    OthersSettled order.clientRequestId held.events := by
  rw [more.events]
  intro other member order' about' different
  rcases List.mem_append.1 member with old | new
  · obtain ⟨outcome, inside, settles, known⟩ := recovered_outcome done old about'
    exact ⟨outcome, List.mem_append_left _ inside, settles, known⟩
  · rw [List.mem_singleton.1 new, about] at about'
    cases about'
    exact absurd rfl different

/-- A whole line at the end of the file, held in memory too. -/
theorem Live.append {disk : Disk} {log : List Effect} {ea ea' : Ea} {event : JournalEvent}
    {kept : ℕ} (sound : ea.Sound) (holds : ∀ event, Recorded log event → event ∈ ea.events)
    (whole : (wireText event.line).take kept = wireText event.line)
    (more : Extends ea event ea')
    (settled : ea'.recoveryReady = true → recovered ea'.events = true) :
    Live (disk.after (.append event kept true)) (log ++ [.append event kept true]) ea' where
  sound := more.sound sound
  holds other recorded := by
    rw [more.events]
    rcases recorded_concat recorded with old | ⟨-, kept', same⟩
    · exact List.mem_append_left _ (holds other old)
    · cases same
      simp
  ends _ := by
    refine ⟨_, rfl, ?_⟩
    rw [whole, wireText_oneLine (event.oneLine more.valid), ← List.append_assoc]
    exact terminated_crlf _ event.line
  settled := settled

theorem Live.quiet {disk : Disk} {log effects : List Effect} {ea : Ea}
    (sound : ea.Sound) (holds : ∀ event, Recorded log event → event ∈ ea.events)
    (quiet : ∀ effect ∈ effects, effect.quiet = true) :
    Live disk (log ++ effects) { ea with recoveryReady := false } where
  sound := ⟨sound.safe, sound.valid, sound.history⟩
  holds event recorded := holds event (recorded_quiet quiet recorded)
  ends recovery := by cases recovery
  settled recovery := by cases recovery

/-- The end of a submission, after the file's last line was ended. -/
theorem Finished.keeps {disk : Disk} {log tail : List Effect} {held ea' : Ea}
    (stored : Stored disk log) (sound : held.Sound)
    (holds : ∀ event, Recorded log event → event ∈ held.events) {content : Text}
    (file : disk.events = some content) (ends : Terminated content)
    {clientRequestId : Text} (finished : Finished held clientRequestId tail ea') :
    KeepsStored disk log tail ∧
      (ea'.journalReady = true → Live (tail.foldl Disk.after disk) (log ++ tail) ea') := by
  cases finished with
  | blocked unsure =>
    exact ⟨.quiet stored unsure.quiet, fun _ => .quiet sound holds unsure.quiet⟩
  | disabled next whole down =>
    refine ⟨.cons stored (.nil (stored.append next.valid whole file ends)), fun ready => ?_⟩
    rw [down] at ready
    cases ready
  | settled next whole more boot recovery =>
    refine ⟨.cons stored (.nil (stored.append more.valid whole file ends)), fun _ => ?_⟩
    exact .append sound holds whole more fun ready => recovery ▸ ready

theorem Submitted.keeps {disk : Disk} {log effects : List Effect} {ea ea' : Ea}
    (stored : Stored disk log) (live : Live disk log ea) {request : SubmitRequest}
    {answer : Except SubmitError JournalEvent}
    (submitted : Submitted ea request answer effects ea') : KeepsStored disk log effects ∧
      (ea'.journalReady = true → Live (effects.foldl Disk.after disk) (log ++ effects) ea') := by
  cases submitted with
  | idle =>
    refine ⟨.nil stored, fun _ => ?_⟩
    rw [List.append_nil]
    exact live
  | blocked recovery fresh unsure =>
    exact ⟨.quiet stored unsure.quiet, fun _ => .quiet live.sound live.holds unsure.quiet⟩
  | disabled recovery fresh next whole down =>
    obtain ⟨content, file, ends⟩ := live.ends recovery
    refine ⟨.cons stored (.nil (stored.append next.valid whole file ends)), fun ready => ?_⟩
    rw [down] at ready
    cases ready
  | @reserved answer event kept held _ send tail recovery fresh next whole more boot about sent
      finished =>
    obtain ⟨content, file, ends⟩ := live.ends recovery
    have stored' := stored.append more.valid whole file ends
    have live' : Live (disk.after (.append event kept true)) (log ++ [.append event kept true])
        { held with recoveryReady := false } :=
      .append live.sound live.holds whole { more with } fun ready => by cases ready
    have file' : (disk.after (.append event kept true)).events =
        some (content ++ wireText event.line) := by
      simp [Disk.after, file, whole]
    have ends' : Terminated (content ++ wireText event.line) := by
      rw [wireText_oneLine (event.oneLine more.valid)]
      exact ends.append_crlf
    rcases sent with rfl | rfl
    · obtain ⟨keeps, alive⟩ :=
        finished.keeps stored' (more.sound live.sound) live'.holds file' ends'
      refine ⟨.cons stored keeps, fun ready => ?_⟩
      simpa using alive ready
    · have unsent : request.order.clientRequestId ∉
          (sends (log ++ [.append event kept true])).map fun request =>
            request.order.clientRequestId := by
        intro inside
        rw [sends_concat, show sends [.append event kept true] = [] from rfl,
          List.append_nil] at inside
        obtain ⟨other, member, same⟩ := List.mem_map.1 inside
        have reserved := live.reserved stored member
        rw [same, fresh] at reserved
        cases reserved
      have sent := stored'.send rfl about (othersSettled_extends more (live.settled recovery) about)
        unsent
      have holds : ∀ other, Recorded (log ++ [.append event kept true] ++
          [.orderSend request held.events]) other → other ∈ held.events := by
        intro other recorded
        rcases recorded_concat recorded with old | ⟨-, kept', same⟩
        · exact live'.holds other old
        · cases same
      obtain ⟨keeps, alive⟩ := finished.keeps sent (more.sound live.sound) holds file' ends'
      refine ⟨.cons stored (.cons stored' keeps), fun ready => ?_⟩
      simpa using alive ready

/-- Globals that hold all that was recorded before the expert's own first line. -/
structure Opened (log : List Effect) (ea : Ea) : Prop where
  sound : ea.Sound
  holds : ∀ event, Recorded log event → event ∈ ea.events
  settled : ea.recoveryReady = true → recovered ea.events = true

theorem createNew_quiet (ea : Ea) (newStreamId : Text) (identityWrite headerWrite : WriteAnswer) :
    ∀ effect ∈ (createNew ea newStreamId identityWrite headerWrite).effects,
      effect.quiet = true := by
  unfold createNew
  dsimp only
  intro effect member
  split at member
  · cases member
  · split at member
    · exact createLine_quiet effect member
    · split at member <;>
        exact (List.mem_append.1 member).elim (createLine_quiet effect) (createLine_quiet effect)

theorem createNew_ready {ea : Ea} {newStreamId : Text} {identityWrite headerWrite : WriteAnswer}
    (done : (createNew ea newStreamId identityWrite headerWrite).value = true) :
    safeToken (createNew ea newStreamId identityWrite headerWrite).ea.streamId = true ∧
      (createNew ea newStreamId identityWrite headerWrite).ea.events = [] := by
  unfold createNew at done ⊢
  dsimp only at done ⊢
  split at done
  · cases done
  · rename_i safe
    rw [not_not] at safe
    rw [if_neg (by simp [safe])]
    split at done
    · cases done
    · rename_i identity
      rw [if_neg identity]
      split at done
      · cases done
      · rename_i header
        rw [if_neg header]
        exact ⟨safe, rfl⟩

theorem init_quiet (journalNamespace : Text) (enabled : Bool) (disk : Disk) (newStreamId : Text)
    (identityWrite headerWrite : WriteAnswer) :
    ∀ effect ∈ (init journalNamespace enabled disk newStreamId identityWrite headerWrite).effects,
      effect.quiet = true := by
  unfold init
  dsimp only
  intro effect member
  split at member
  · cases member
  · split at member
    · exact createNew_quiet _ _ _ _ effect member
    · cases member
    · split at member
      · cases member
      · split at member <;> cases member

/-- What a start finds is what was recorded. -/
theorem init_opened {disk : Disk} {log : List Effect} (stored : Stored disk log)
    {journalNamespace : Text} {enabled : Bool} {newStreamId : Text}
    {identityWrite headerWrite : WriteAnswer}
    (done : (init journalNamespace enabled disk newStreamId identityWrite headerWrite).value = true)
    (ready : (init journalNamespace enabled disk newStreamId identityWrite
      headerWrite).ea.journalReady = true) :
    Opened log (init journalNamespace enabled disk newStreamId identityWrite headerWrite).ea := by
  revert done ready
  unfold init
  dsimp only
  split
  · intro done
    cases done
  · split
    · rename_i noEvents
      intro done _
      obtain ⟨safe, none⟩ := createNew_ready done
      refine ⟨⟨safe, by rw [none]; simp, by rw [none]; rfl⟩, fun event recorded => ?_,
        fun _ => by rw [none]; rfl⟩
      obtain ⟨before, after, -, file⟩ := stored.onDisk event recorded
      rw [noEvents] at file
      cases file
    · intro done
      cases done
    · split
      · intro done
        cases done
      · rename_i streamId known
        split
        · intro _ ready
          cases ready
        · rename_i first loaded recovery read
          intro _ _
          obtain ⟨content, file, read⟩ := Option.bind_eq_some_iff.1 read
          have safe := loadIdentity_safe known
          obtain ⟨valid, history, rfl⟩ := loadEvents_spec safe read
          exact {
            sound := ⟨safe, fun event member => (valid event member).1, history⟩
            holds := fun event recorded =>
              (stored.onDisk event recorded).loaded (stored.valid event recorded) file read
            settled := fun ready => ready }

theorem recovered_started (events : List JournalEvent) {event : JournalEvent} {eaBuildId : Text}
    {enabled : Bool} (about : event.body = .streamStarted eaBuildId enabled) :
    recovered (events ++ [event]) = recovered events := by
  have outcome (id : Text) : outcomeEvent (events ++ [event]) id = outcomeEvent events id := by
    have other : event.settles id = false := by
      simp [JournalEvent.settles, about, EventBody.eventType, EventType.isTerminal]
    rw [outcomeEvent, List.find?_append, List.find?_singleton, other, outcomeEvent]
    exact Option.or_none
  simp only [recovered, outcome, List.all_append, List.all_cons, List.all_nil, about, Bool.and_true]

theorem appendStreamStarted_recovery (ea : Ea) (bootId eventTimeMs eaBuildId : Text)
    (enabled : Bool) (write : WriteAnswer) :
    (appendStreamStarted ea bootId eventTimeMs eaBuildId enabled write).ea.recoveryReady =
      ea.recoveryReady := by
  unfold appendStreamStarted
  dsimp only
  split
  · rfl
  · split
    · rfl
    · split
      · rfl
      · split <;> rfl

theorem appendStreamStarted_quiet (ea : Ea) (bootId eventTimeMs eaBuildId : Text)
    (enabled : Bool) (write : WriteAnswer) :
    ∀ effect ∈ (appendStreamStarted ea bootId eventTimeMs eaBuildId enabled write).effects,
      effect.quiet = true := by
  unfold appendStreamStarted
  dsimp only
  intro effect member
  split at member
  · cases member
  · split at member
    · cases member
    · split at member
      · cases member
      · split at member <;> cases write <;>
          simp_all [appendLine, writeLine, Effect.quiet, EventBody.eventType,
            EventType.isOrderEvent, EventType.isTerminal]

theorem onInit_quiet (journalNamespace : Text) (disk : Disk) (boot : Boot) :
    ∀ effect ∈ (onInit journalNamespace disk boot).effects, effect.quiet = true := by
  unfold onInit
  dsimp only
  intro effect member
  split at member
  · exact init_quiet _ _ _ _ _ _ effect member
  · split at member
    · exact (List.mem_append.1 member).elim (init_quiet _ _ _ _ _ _ effect)
        (appendStreamStarted_quiet _ _ _ _ _ _ effect)
    · exact init_quiet _ _ _ _ _ _ effect member

theorem onInit_live {disk : Disk} {log : List Effect} (stored : Stored disk log)
    {journalNamespace : Text} {boot : Boot}
    (done : (onInit journalNamespace disk boot).value = true)
    (ready : (onInit journalNamespace disk boot).ea.journalReady = true) :
    Live ((onInit journalNamespace disk boot).effects.foldl Disk.after disk)
      (log ++ (onInit journalNamespace disk boot).effects)
      (onInit journalNamespace disk boot).ea := by
  unfold onInit at done ready ⊢
  dsimp only at done ready ⊢
  split at done
  · cases done
  · rename_i came
    rw [if_neg came] at ready ⊢
    simp only [not_or, not_not] at came
    split at done
    · rename_i loadedReady
      rw [if_pos loadedReady] at ready ⊢
      have opened := init_opened stored came.1 loadedReady
      have quiet := init_quiet journalNamespace boot.executionEnabled disk boot.newStreamId
        boot.identityWrite boot.headerWrite
      generalize init journalNamespace boot.executionEnabled disk boot.newStreamId
        boot.identityWrite boot.headerWrite = loaded at *
      have sound : { loaded.ea with bootId := boot.bootId }.Sound :=
        ⟨opened.sound.safe, opened.sound.valid, opened.sound.history⟩
      have recovery := appendStreamStarted_recovery { loaded.ea with bootId := boot.bootId }
        boot.bootId boot.observedMs boot.eaBuildId boot.executionEnabled boot.startedWrite
      obtain ⟨event, kept, effects, whole, more, -, -, about⟩ :=
        appendStreamStarted_extends sound done
      dsimp only
      rw [effects, List.foldl_append, ← List.append_assoc]
      refine .append sound (fun other recorded => opened.holds other ?_) whole more ?_
      · exact recorded_quiet quiet recorded
      · intro recovers
        rw [more.events, recovered_started _ about]
        exact opened.settled (recovery ▸ recovers)
    · rename_i unready
      rw [if_neg unready] at ready
      exact absurd ready unready

/-- What holds in every world the expert, its broker and its crashes can reach. -/
structure Kept (w : World) : Prop where
  stored : Stored w.disk w.log
  live : ∀ ea, w.process = some ea → ea.journalReady = true → Live w.disk w.log ea

theorem Step.kept {journalNamespace : Text} {w w' : World} (kept : Kept w)
    (step : Step journalNamespace w w') : Kept w' := by
  cases step with
  | start boot stopped =>
    refine ⟨(KeepsStored.quiet kept.stored (onInit_quiet _ _ _)).whole, ?_⟩
    intro ea running ready
    dsimp only [World.started, World.perform] at running ⊢
    split at running
    · rename_i done
      cases running
      exact onInit_live kept.stored done ready
    · cases running
  | startCut boot stopped effects cut =>
    exact ⟨KeepsStored.quiet kept.stored (onInit_quiet _ _ _) effects cut, fun ea running => by
      cases running⟩
  | submit ea running request answers =>
    by_cases ready : ea.journalReady = true
    · have live := kept.live ea running ready
      obtain ⟨keeps, alive⟩ := (submit_submitted (fun _ => live.sound) request answers).keeps
        kept.stored live
      refine ⟨keeps.whole, fun ea' running' => ?_⟩
      cases running'
      exact alive
    · have idle : Journal.submit ea request answers =
          ⟨.error ⟨.recoveryBlocked, "journal recovery is not ready"⟩, ea, []⟩ := by
        rw [Journal.submit, if_pos ready]
      rw [World.submitted, idle]
      refine ⟨by simpa [World.perform] using kept.stored, fun ea' running' ready' => ?_⟩
      cases running'
      exact absurd ready' ready
  | submitCut ea running request answers effects cut =>
    refine ⟨?_, fun ea running => by cases running⟩
    by_cases ready : ea.journalReady = true
    · have live := kept.live ea running ready
      exact ((submit_submitted (fun _ => live.sound) request answers).keeps kept.stored live).1
        effects cut
    · rw [Journal.submit, if_pos ready] at cut
      rw [cut.nil]
      simpa [World.perform] using kept.stored
  | stop => exact ⟨kept.stored, fun ea running => by cases running⟩

theorem Reachable.kept {journalNamespace : Text} {w : World}
    (reached : Reachable journalNamespace w) : Kept w := by
  induction reached with
  | empty => exact ⟨.empty, fun ea running => by cases running⟩
  | step _ step ih => exact step.kept ih

/-- The prior events, when some event passed the check. -/
theorem validHistory_split (before : List JournalEvent) (event : JournalEvent)
    (after : List JournalEvent)
    (history : validHistory [] (before ++ event :: after) = true) :
    validEvent before event = true := by
  rw [validHistory_append] at history
  simp only [validHistory, List.nil_append, Bool.and_eq_true] at history
  exact history.2.1

/-- A journal that passed its check reserves an id once. -/
theorem reservedEvent_unique {events : List JournalEvent} (history : validHistory [] events = true)
    {event : JournalEvent} (member : event ∈ events) {order : Submission}
    (about : event.body = .submissionReserved order) :
    reservedEvent events order.clientRequestId = some event := by
  have reserves : event.reserves order.clientRequestId = true := by
    simp [JournalEvent.reserves, JournalEvent.isFor, about, EventBody.eventType, EventBody.order]
  cases found : reservedEvent events order.clientRequestId with
  | none => exact absurd reserves (by simpa using List.find?_eq_none.1 found event member)
  | some first =>
    obtain ⟨holds, before, after, rfl, fresh⟩ := List.find?_eq_some_iff_append.1 found
    rcases List.mem_append.1 member with early | later
    · have other := fresh event early
      simp [reserves] at other
    · rcases List.mem_cons.1 later with rfl | later
      · rfl
      · obtain ⟨middle, rest, rfl⟩ := List.append_of_mem later
        have own :=
          validHistory_split (before ++ first :: middle) event rest (by simpa using history)
        simp only [validEvent, about, Bool.and_eq_true, List.all_eq_true] at own
        have clash := own.2 first (by simp)
        simp only [JournalEvent.reserves, Bool.and_eq_true, beq_iff_eq] at holds
        simp [EventType.isOrderEvent, holds.1, holds.2] at clash

theorem validEvent_unsettled {prior : List JournalEvent} {event : JournalEvent}
    (valid : validEvent prior event = true) {clientRequestId : Text}
    (settles : event.settles clientRequestId = true) :
    ∀ other ∈ prior, other.settles clientRequestId = false := by
  intro other member
  simp only [JournalEvent.settles, JournalEvent.isFor, Bool.and_eq_true] at settles
  obtain ⟨terminal, about⟩ := settles
  cases body : event.body with
  | streamStarted | submissionReserved =>
    rw [body] at terminal
    cases terminal
  | orderRejected order reason retcode | orderUnknown order reason retcode =>
    simp only [body, EventBody.order, Option.any_some, beq_iff_eq] at about
    simp only [validEvent, body, validEvent.settled, Bool.and_eq_true, List.all_eq_true,
      about] at valid
    simpa using valid.1.2 other member
  | orderFilled order fill =>
    simp only [body, EventBody.order, Option.any_some, beq_iff_eq] at about
    simp only [validEvent, body, validEvent.settled, Bool.and_eq_true, List.all_eq_true,
      about] at valid
    simpa using valid.1.1.2 other member

/-- A journal that passed its check settles an id once. -/
theorem outcomeEvent_unique {events : List JournalEvent} (history : validHistory [] events = true)
    {event : JournalEvent} (member : event ∈ events) {clientRequestId : Text}
    (settles : event.settles clientRequestId = true) :
    outcomeEvent events clientRequestId = some event := by
  cases found : outcomeEvent events clientRequestId with
  | none => exact absurd settles (by simpa using List.find?_eq_none.1 found event member)
  | some first =>
    obtain ⟨holds, before, after, rfl, fresh⟩ := List.find?_eq_some_iff_append.1 found
    rcases List.mem_append.1 member with early | later
    · have other := fresh event early
      simp [settles] at other
    · rcases List.mem_cons.1 later with rfl | later
      · rfl
      · obtain ⟨middle, rest, rfl⟩ := List.append_of_mem later
        have own :=
          validHistory_split (before ++ first :: middle) event rest (by simpa using history)
        have other := validEvent_unsettled own settles first (by simp)
        rw [holds] at other
        cases other

/-- What a running expert with a ready journal answers to an id it has reserved: the stored
terminal event, that there is none, or that the payload differs; nothing else happens. -/
def Replays (log : List Effect) (ea : Ea) (order : Submission) : Prop :=
  ∀ (request : SubmitRequest) (answers : Answers),
    request.order.clientRequestId = order.clientRequestId →
      (submit ea request answers).ea = ea ∧ (submit ea request answers).effects = [] ∧
      (request.order ≠ order → ∃ message,
        (submit ea request answers).value = .error ⟨.idempotencyConflict, message⟩) ∧
      (request.order = order → match outcomeEvent ea.events order.clientRequestId with
        | some outcome => (submit ea request answers).value = .ok outcome
        | none => ∃ message,
          (submit ea request answers).value = .error ⟨.recoveryBlocked, message⟩) ∧
      ∀ outcome, Recorded log outcome → outcome.settles order.clientRequestId = true →
        outcomeEvent ea.events order.clientRequestId = some outcome

theorem Live.replays {disk : Disk} {log : List Effect} {ea : Ea} (live : Live disk log ea)
    (ready : ea.journalReady = true) {event : JournalEvent} (member : event ∈ ea.events)
    {order : Submission} (about : event.body = .submissionReserved order) :
    Replays log ea order := by
  intro request answers same
  have reserved := reservedEvent_unique live.sound.history member about
  have answered : submit ea request answers = ⟨replay ea request event, ea, []⟩ := by
    simp [submit, ready, same, reserved]
  rw [answered]
  refine ⟨rfl, rfl, fun different => ?_, fun payload => ?_, fun outcome recorded settles => ?_⟩
  · refine ⟨"client_request_id payload differs from durable reservation", ?_⟩
    have other : event.body.order ≠ some request.order := by
      rw [about]
      exact fun equal => different (Option.some.inj equal).symm
    simp [replay, other]
  · have own : event.body.order = some request.order := by
      rw [about, payload]
      rfl
    simp only [replay, own, ne_eq, not_true_eq_false, if_false, same]
    cases outcomeEvent ea.events order.clientRequestId with
    | some outcome => rfl
    | none => exact ⟨_, rfl⟩
  · exact outcomeEvent_unique live.sound.history (live.holds outcome recorded) settles

/-- Over the whole life of a journal, whatever fails, is cut off or starts again: the broker is
called at most once for an id, right after that id's reservation was written and flushed, with every
other reservation settled; and while the journal is ready, a reserved id is only ever replayed. -/
theorem submission_at_most_once {journalNamespace : Text} {w : World}
    (reached : Reachable journalNamespace w) :
    ((sends w.log).map fun request => request.order.clientRequestId).Nodup ∧
    (∀ before after request loaded, w.log = before ++ .orderSend request loaded :: after →
      (∃ earlier event kept, before = earlier ++ [.append event kept true] ∧
        event.body = .submissionReserved request.order) ∧
      OthersSettled request.order.clientRequestId loaded) ∧
    ∀ ea, w.process = some ea → ea.journalReady = true →
      ∀ event order, (Recorded w.log event ∨ event ∈ ea.events) →
        event.body = .submissionReserved order → Replays w.log ea order := by
  obtain ⟨stored, alive⟩ := reached.kept
  refine ⟨stored.once, stored.sent, fun ea running ready event order known about => ?_⟩
  have live := alive ea running ready
  rcases known with recorded | member
  · exact live.replays ready (live.holds event recorded) about
  · exact live.replays ready member about

def bootAnswers (bootId : String) : Boot where
  executionEnabled := true
  newStreamId := "stream-1".toList
  bootId := bootId.toList
  observedMs := "1000".toList
  eaBuildId := "ea-1".toList
  identityWrite := .wrote 500 true
  headerWrite := .wrote 500 true
  startedWrite := .wrote 500 true
  services := true

/-- A broker that fills one hundredth of a lot. -/
def fillingBroker : Broker where
  demoHedging := true
  symbolMatches := true
  connected := true
  tradeAllowed := true
  tradeMode := .full
  fillOrKill := true
  lots := some (1 / 100)
  tick := true
  tickFresh := true
  closeTarget := .error []
  capacity := []
  orderCheck := (true, 0)
  refreshedTarget := .error []
  refreshedCapacity := []
  sent := true
  result := ⟨retcodeDone, 7, 8, some (1 / 100), 0⟩
  dealSelected := true
  deal := {
    factsRead := true
    orderRaw := 7
    positionRaw := 9
    magicMatches := true
    symbolMatches := true
    side := some .buy
    entryOut := false
    filled := 1 / 100
    price := 2000
    filledText := some "0.01".toList
    priceText := some "2000".toList
    commissionText := some "0".toList }
  closePostState := true

def fillingAnswers (reservedWrite : WriteAnswer) : Answers where
  reservedMs := "2000".toList
  terminalMs := "3000".toList
  reservedWrite := reservedWrite
  terminalWrite := .wrote 500 true
  reservedStored := true
  terminalStored := true
  broker := fillingBroker

def buyRequest (clientRequestId lots : String) : SubmitRequest :=
  ⟨⟨clientRequestId.toList, .buy, lots.toList, [], []⟩, false⟩

def startedWorld : World := World.empty.started bootNamespace (bootAnswers "boot-1")

def startedEa : Ea := (onInit bootNamespace World.empty.disk (bootAnswers "boot-1")).ea

def filledWorld : World :=
  startedWorld.submitted startedEa (buyRequest "O-1" "0.01") (fillingAnswers (.wrote 500 true))

def filledEa : Ea :=
  (submit startedEa (buyRequest "O-1" "0.01") (fillingAnswers (.wrote 500 true))).ea

theorem started_running {journalNamespace : Text} {w : World} {boot : Boot}
    (done : (onInit journalNamespace w.disk boot).value = true) :
    (w.started journalNamespace boot).process = some (onInit journalNamespace w.disk boot).ea := by
  simp [World.started, World.perform, done]

theorem filledWorld_reachable : Reachable bootNamespace filledWorld :=
  .step (.step .empty (.start _ (bootAnswers "boot-1") rfl))
    (.submit _ startedEa (started_running (by decide +kernel)) _ _)

theorem submission_at_most_once_filled : (sends filledWorld.log).length = 1 ∧
    ((sends filledWorld.log).map fun request => request.order.clientRequestId).Nodup :=
  ⟨by decide +kernel, (submission_at_most_once filledWorld_reachable).1⟩

/-- Another order's reservation, torn after a few bytes. -/
def tornEffects : List Effect :=
  ((submit filledEa (buyRequest "O-2" "0.01") (fillingAnswers (.wrote 30 true))).effects)

def tornWorld : World := filledWorld.perform tornEffects none

def blockedWorld : World := tornWorld.started bootNamespace (bootAnswers "boot-2")

def blockedEa : Ea := (onInit bootNamespace tornWorld.disk (bootAnswers "boot-2")).ea

/-- After a torn line the journal is not ready, and a conflicting payload is not called one. -/
theorem unready_conflict_blocked : ∃ w ea event order request message,
    Reachable bootNamespace w ∧ w.process = some ea ∧ Recorded w.log event ∧
      event.body = .submissionReserved order ∧
      request.order.clientRequestId = order.clientRequestId ∧ request.order ≠ order ∧
      ∀ answers, (submit ea request answers).value = .error ⟨.recoveryBlocked, message⟩ := by
  have torn : Reachable bootNamespace tornWorld :=
    .step filledWorld_reachable (.submitCut _ filledEa rfl (buyRequest "O-2" "0.01")
      (fillingAnswers (.wrote 30 true)) _ (.refl _))
  have blocked : Reachable bootNamespace blockedWorld := torn.step (.start _ _ rfl)
  have unready : blockedEa.journalReady = false := by decide +kernel
  refine ⟨blockedWorld, blockedEa, ⟨"2".toList, "2000".toList, "stream-1".toList, "boot-1".toList,
    .submissionReserved (buyRequest "O-1" "0.01").order⟩, _, buyRequest "O-1" "0.02",
    "journal recovery is not ready", blocked,
    started_running (by decide +kernel), ⟨rfl, 500, by decide +kernel⟩, rfl, rfl, by decide,
    fun answers => ?_⟩
  rw [submit, if_pos (by simp [unready])]

end ArbNautilus.Journal
