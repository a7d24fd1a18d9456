import ArbNautilus.Journal.Torn

/-! A journal over the whole life of its experts: it starts at zero, and every event stands in its
own boot. -/

namespace ArbNautilus.Journal

open Base

section Written

/-- The events file, if there is one, is in order. -/
def OrderlyDisk (journalNamespace : Text) (disk : Disk) : Prop :=
  ∀ content, disk.events = some content → Orderly journalNamespace content

/-- The events file holds these events, or can no longer be loaded. -/
def Filed (journalNamespace streamId : Text) (events : List JournalEvent) (disk : Disk) : Prop :=
  ∃ content, disk.events = some content ∧ Written journalNamespace streamId events content

/-- What a call writes, and the events the file then holds, if every line is whole. -/
inductive Writes (streamId : Text) :
    List JournalEvent → List Effect → Option (List JournalEvent) → Prop
  | done (events : List JournalEvent) : Writes streamId events [] (some events)
  | sent {events : List JournalEvent} {effects : List Effect} {held : Option (List JournalEvent)}
      (request : SubmitRequest) (loaded : List JournalEvent)
      (rest : Writes streamId events effects held) :
      Writes streamId events (.orderSend request loaded :: effects) held
  | part {events : List JournalEvent} {event : JournalEvent} (kept : ℕ) (confirmed : Bool)
      (valid : event.valid = true) (joins : Joins events event) :
      Writes streamId events [.append event kept confirmed] none
  | whole {events : List JournalEvent} {event : JournalEvent} {kept : ℕ} {effects : List Effect}
      {held : Option (List JournalEvent)}
      (whole : (wireText event.line).take kept = wireText event.line)
      (valid : event.valid = true) (stream : event.streamId = streamId)
      (next : event.eventSeq = nextCursor (increment ['0']) events)
      (history : validHistory [] (events ++ [event]) = true) (joins : Joins events event)
      (rest : Writes streamId (events ++ [event]) effects held) :
      Writes streamId events (.append event kept true :: effects) held

variable {journalNamespace streamId : Text}

theorem Filed.orderly {events : List JournalEvent} {disk : Disk}
    (filed : Filed journalNamespace streamId events disk) (boots : InBoots events) :
    OrderlyDisk journalNamespace disk := by
  obtain ⟨content, file, written⟩ := filed
  intro other same
  rw [file] at same
  cases same
  exact written.orderly boots

theorem Filed.part {events : List JournalEvent} {disk : Disk}
    (filed : Filed journalNamespace streamId events disk) (boots : InBoots events)
    {event : JournalEvent} (valid : event.valid = true) (joins : Joins events event) (kept : ℕ)
    (confirmed : Bool) :
    OrderlyDisk journalNamespace (disk.after (.append event kept confirmed)) := by
  obtain ⟨content, file, written⟩ := filed
  intro other same
  simp only [Disk.after, file, Option.getD_some, Option.some.injEq] at same
  rw [← same]
  exact written.part boots valid joins kept

/-- Wherever the terminal dies in these effects, the file is in order; and behind them it holds what
was written. -/
theorem Writes.keeps {events : List JournalEvent} {effects : List Effect}
    {held : Option (List JournalEvent)} (writes : Writes streamId events effects held)
    (safe : safeToken streamId = true) (boots : InBoots events) {disk : Disk}
    (filed : Filed journalNamespace streamId events disk) :
    (∀ done, Cut effects done → OrderlyDisk journalNamespace (done.foldl Disk.after disk)) ∧
      ∀ events', held = some events' → InBoots events' ∧
        Filed journalNamespace streamId events' (effects.foldl Disk.after disk) := by
  induction writes generalizing disk with
  | done events =>
    refine ⟨fun done cut => ?_, fun events' same => ?_⟩
    · rw [cut.nil]
      exact filed.orderly boots
    · cases same
      exact ⟨boots, filed⟩
  | sent request loaded rest ih =>
    obtain ⟨cuts, ends⟩ := ih boots filed
    refine ⟨fun done cut => ?_, ends⟩
    rcases cut.cons_cases with rfl | ⟨torn, rfl, tear⟩ | ⟨later, rfl, inner⟩
    · exact filed.orderly boots
    · cases tear
    · exact cuts later inner
  | part kept confirmed valid joins =>
    refine ⟨fun done cut => ?_, fun events' same => by cases same⟩
    rcases cut.cons_cases with rfl | ⟨torn, rfl, tear⟩ | ⟨later, rfl, inner⟩
    · exact filed.orderly boots
    · cases tear
      exact filed.part boots valid joins _ false
    · rw [inner.nil]
      exact filed.part boots valid joins kept confirmed
  | @whole events event kept effects held whole valid stream next history joins rest ih =>
    have filed' : Filed journalNamespace streamId (events ++ [event])
        (disk.after (.append event kept true)) := by
      obtain ⟨content, file, written⟩ := filed
      refine ⟨content ++ wireText event.line, by simp [Disk.after, file, whole], ?_⟩
      exact written.append safe valid stream next history
    obtain ⟨cuts, ends⟩ := ih (boots.concat joins) filed'
    refine ⟨fun done cut => ?_, ends⟩
    rcases cut.cons_cases with rfl | ⟨torn, rfl, tear⟩ | ⟨later, rfl, inner⟩
    · exact filed.orderly boots
    · cases tear
      exact filed.part boots valid joins _ false
    · exact cuts later inner

end Written

section Memory

/-- What an expert with a ready journal holds of it. -/
structure Ordered (ea : Ea) : Prop where
  sound : ea.Sound
  stream : ∀ event ∈ ea.events, event.streamId = ea.streamId
  zero : ea.firstCursor = ['0']
  chained : Chained ea.firstCursor ea.events
  boots : InBoots ea.events

/-- Behind its own first line the boot that runs is its own. -/
structure Aboard (ea : Ea) : Prop extends Ordered ea where
  current : currentBoot ea.events = some ea.bootId

theorem currentBoot_started {event : JournalEvent} (start : event.body.order = none)
    (events : List JournalEvent) : currentBoot (events ++ [event]) = some event.bootId := by
  simp [currentBoot, startedBoots, EventBody.order_eq_none.1 start]

theorem currentBoot_order {event : JournalEvent} {order : Submission}
    (about : event.body.order = some order) (events : List JournalEvent) :
    currentBoot (events ++ [event]) = currentBoot events := by
  have other : event.body.eventType ≠ .streamStarted := by
    rw [ne_eq, ← EventBody.order_eq_none, about]
    exact Option.some_ne_none order
  simp [currentBoot, startedBoots, other]

theorem Ordered.extends {ea ea' : Ea} {event : JournalEvent} (ordered : Ordered ea)
    (more : Extends ea event ea') (joins : Joins ea.events event) : Ordered ea' where
  sound := more.sound ordered.sound
  stream other member := by
    rw [more.events] at member
    rw [more.stream]
    rcases List.mem_append.1 member with old | new
    · exact ordered.stream other old
    · rw [List.mem_singleton.1 new]
      exact more.streamId
  zero := more.firstCursor.trans ordered.zero
  chained := by
    have some : increment (lastCursor ea) ≠ [] := by
      have valid := more.valid
      simp only [JournalEvent.valid, Bool.and_eq_true] at valid
      rw [← more.sequence]
      exact ne_nil_of_canonicalUint64 valid.1.1.1.1
    rw [more.firstCursor, more.events]
    refine ordered.chained.concat ?_ (more.sequence ▸ some)
    rw [more.sequence, lastCursor_eq, tailCursor]
  boots := by
    rw [more.events]
    exact ordered.boots.concat joins

/-- An event about an order that the running expert writes. -/
theorem Next.joins {ea : Ea} (aboard : Aboard ea) {clientRequestId : Text} {event : JournalEvent}
    (next : Next ea clientRequestId event)
    (own : ∀ other ∈ ea.events, other.reserves clientRequestId = true → other.bootId = ea.bootId) :
    Joins ea.events event := by
  intro order body
  have about := next.about
  simp only [JournalEvent.isFor, body, Option.any_some, beq_iff_eq] at about
  rw [next.bootId, about]
  exact ⟨aboard.current, fun _ => own⟩

theorem Aboard.extends {ea ea' : Ea} (aboard : Aboard ea) {clientRequestId : Text}
    {event : JournalEvent} (next : Next ea clientRequestId event) (more : Extends ea event ea')
    (joins : Joins ea.events event) (boot : ea'.bootId = ea.bootId) : Aboard ea' where
  toOrdered := aboard.toOrdered.extends more joins
  current := by
    obtain ⟨order, body, -⟩ := (Option.any_eq_true _ _).1 next.about
    rw [more.events, currentBoot_order body, boot]
    exact aboard.current

theorem Aboard.blocked {ea : Ea} (aboard : Aboard ea) : Aboard { ea with recoveryReady := false } :=
  ⟨⟨⟨aboard.sound.safe, aboard.sound.valid, aboard.sound.history⟩, aboard.stream, aboard.zero,
    aboard.chained, aboard.boots⟩, aboard.current⟩

/-- A whole line, as a write. -/
theorem Extends.writes {ea ea' : Ea} (ordered : Ordered ea) {event : JournalEvent}
    (more : Extends ea event ea') (joins : Joins ea.events event) {kept : ℕ}
    (whole : (wireText event.line).take kept = wireText event.line) {effects : List Effect}
    {held : Option (List JournalEvent)} (rest : Writes ea.streamId ea'.events effects held) :
    Writes ea.streamId ea.events (.append event kept true :: effects) held := by
  have next := increment_lastCursor ea
  rw [ordered.zero, ← more.sequence] at next
  have history := more.history
  rw [more.events] at history rest
  exact .whole whole more.valid more.streamId next history joins rest

theorem Unsure.writes {ea : Ea} (aboard : Aboard ea) {clientRequestId : Text}
    {effects : List Effect} (unsure : Unsure ea clientRequestId effects)
    (own : ∀ other ∈ ea.events, other.reserves clientRequestId = true → other.bootId = ea.bootId) :
    ∃ held, Writes ea.streamId ea.events effects held := by
  cases unsure with
  | none => exact ⟨_, .done _⟩
  | part next kept => exact ⟨_, .part kept false next.valid (next.joins aboard own)⟩

/-- What a call about an order writes, and what the expert holds behind it. -/
def Keeps (ea : Ea) (effects : List Effect) (ea' : Ea) : Prop :=
  ∃ held, Writes ea.streamId ea.events effects held ∧ (ea'.journalReady = true →
    Aboard ea' ∧ ea'.streamId = ea.streamId ∧
      (ea'.recoveryReady = true → held = some ea'.events))

theorem Finished.writes {ea ea' : Ea} (aboard : Aboard ea) {clientRequestId : Text}
    {effects : List Effect} (finished : Finished ea clientRequestId effects ea')
    (own : ∀ other ∈ ea.events, other.reserves clientRequestId = true → other.bootId = ea.bootId) :
    Keeps ea effects ea' := by
  cases finished with
  | blocked unsure =>
    obtain ⟨held, writes⟩ := unsure.writes aboard own
    exact ⟨held, writes, fun _ => ⟨aboard.blocked, rfl, fun ready => by cases ready⟩⟩
  | disabled next whole down =>
    refine ⟨none, .part _ true next.valid (next.joins aboard own), fun ready => ?_⟩
    rw [down] at ready
    cases ready
  | settled next whole more boot recovery =>
    have joins := next.joins aboard own
    refine ⟨some ea'.events, more.writes aboard.toOrdered joins whole (.done _), fun _ => ?_⟩
    exact ⟨aboard.extends next more joins boot, more.stream, fun _ => rfl⟩

theorem Submitted.writes {ea ea' : Ea} (aboard : Aboard ea) {request : SubmitRequest}
    {answer : Except SubmitError JournalEvent} {effects : List Effect}
    (submitted : Submitted ea request answer effects ea') : Keeps ea effects ea' := by
  have fresh_own (fresh : (reservedEvent ea.events request.order.clientRequestId).isSome = false) :
      ∀ other ∈ ea.events, other.reserves request.order.clientRequestId = true →
        other.bootId = ea.bootId := by
    intro other member reserves
    rw [reservedEvent, Option.isSome_eq_false_iff, Option.isNone_iff_eq_none,
      List.find?_eq_none] at fresh
    exact absurd reserves (fresh other member)
  cases submitted with
  | idle => exact ⟨_, .done _, fun _ => ⟨aboard, rfl, fun _ => rfl⟩⟩
  | blocked recovery fresh unsure =>
    obtain ⟨held, writes⟩ := unsure.writes aboard (fresh_own fresh)
    exact ⟨held, writes, fun _ => ⟨aboard.blocked, rfl, fun ready => by cases ready⟩⟩
  | disabled recovery fresh next whole down =>
    refine ⟨none, .part _ true next.valid (next.joins aboard (fresh_own fresh)), fun ready => ?_⟩
    rw [down] at ready
    cases ready
  | @reserved _ event kept held _ send tail recovery fresh next whole more boot about sent
      finished =>
    have joins := next.joins aboard (fresh_own fresh)
    have aboard' := aboard.extends next more joins boot
    have own : ∀ other ∈ held.events, other.reserves request.order.clientRequestId = true →
        other.bootId = held.bootId := by
      intro other member reserves
      rw [more.events] at member
      rw [boot]
      rcases List.mem_append.1 member with old | new
      · exact fresh_own fresh other old reserves
      · rw [List.mem_singleton.1 new]
        exact next.bootId
    obtain ⟨result, writes, ends⟩ := finished.writes aboard' own
    rw [more.stream] at writes ends
    refine ⟨result, more.writes aboard.toOrdered joins whole ?_, ends⟩
    rcases sent with rfl | rfl
    · exact writes
    · exact .sent request held.events writes

/-- A reservation that was just written has no outcome yet. -/
theorem recovered_reserved {events : List JournalEvent} {event : JournalEvent} {order : Submission}
    (history : validHistory [] (events ++ [event]) = true)
    (about : event.body = .submissionReserved order) : recovered (events ++ [event]) = false := by
  cases done : recovered (events ++ [event]) with
  | false => rfl
  | true =>
    obtain ⟨outcome, inside, settles, -⟩ := recovered_outcome done (by simp) about
    have fresh := validHistory_split events event [] history
    simp only [validEvent, about, Bool.and_eq_true, List.all_eq_true] at fresh
    simp only [JournalEvent.settles, Bool.and_eq_true] at settles
    rcases List.mem_append.1 inside with old | new
    · have clash := fresh.2 outcome old
      simp [EventType.isOrderEvent, settles.1, settles.2] at clash
    · rw [List.mem_singleton.1 new, about] at settles
      cases settles.1

/-- Where submissions are blocked behind a call, the journal shows why, or no reservation was
left. -/
theorem Submitted.stalled {ea ea' : Ea} {request : SubmitRequest}
    {answer : Except SubmitError JournalEvent} {effects : List Effect}
    (submitted : Submitted ea request answer effects ea') (ready : ea'.journalReady = true)
    (stalled : ea'.recoveryReady = false) :
    ea' = ea ∨ answer = unreserved ∨ recovered ea'.events = false := by
  cases submitted with
  | idle => exact .inl rfl
  | blocked | disabled => exact .inr (.inl rfl)
  | reserved recovery fresh next whole more boot about sent finished =>
    right
    right
    cases finished with
    | blocked unsure =>
      have history := more.history
      rw [more.events] at history
      change recovered _ = false
      rw [more.events]
      exact recovered_reserved history about
    | disabled next' whole' down =>
      rw [down] at ready
      cases ready
    | settled next' whole' more' boot' recovery' => exact recovery'.symm.trans stalled

end Memory

section Starts

variable {journalNamespace : Text}

theorem createLine_cases (file : JournalFile) (contents : Text) (write : WriteAnswer) :
    createLine file contents write = none ∨ ∃ kept confirmed,
      createLine file contents write = some (.create file contents kept confirmed) ∧
        (confirmed = true → (wireText contents).take kept = wireText contents) := by
  cases write with
  | refused => exact .inl rfl
  | wrote kept flushed =>
    refine .inr ⟨kept, _, rfl, fun confirmed => List.take_of_length_le ?_⟩
    rw [Bool.and_eq_true, decide_eq_true_eq] at confirmed
    exact confirmed.1

theorem OrderlyDisk.of_none {disk : Disk} (bare : disk.events = none) :
    OrderlyDisk journalNamespace disk := by
  intro content same
  rw [bare] at same
  cases same

/-- A new identity file leaves the events file alone. -/
theorem createIdentity_cut {contents : Text} {write : WriteAnswer} {disk : Disk}
    {done : List Effect} (cut : Cut (createLine .identity contents write).toList done) :
    (done.foldl Disk.after disk).events = disk.events := by
  rcases createLine_cases .identity contents write with none | ⟨kept, confirmed, some, -⟩
  · rw [none] at cut
    rw [cut.nil]
    rfl
  · rw [some] at cut
    rcases Cut.cons_cases cut with rfl | ⟨torn, rfl, tear⟩ | ⟨later, rfl, inner⟩
    · rfl
    · cases tear
      rfl
    · rw [inner.nil]
      rfl

theorem createHeader_cut {streamId : Text} (named : safeToken journalNamespace = true)
    (safe : safeToken streamId = true) {write : WriteAnswer} {disk : Disk}
    (bare : disk.events = none) {done : List Effect}
    (cut : Cut (createLine .events (sealLine (headerFields journalNamespace streamId ['0']))
      write).toList done) : OrderlyDisk journalNamespace (done.foldl Disk.after disk) := by
  have part (kept : ℕ) (confirmed : Bool) : OrderlyDisk journalNamespace (disk.after
      (.create .events (sealLine (headerFields journalNamespace streamId ['0'])) kept
        confirmed)) := by
    intro content same
    simp only [Disk.after, bare, Option.getD_none, List.nil_append, Option.some.injEq] at same
    rw [← same]
    exact orderly_header named safe kept
  rcases createLine_cases .events (sealLine (headerFields journalNamespace streamId ['0'])) write
    with none | ⟨kept, confirmed, some, -⟩
  · rw [none] at cut
    rw [cut.nil]
    exact .of_none bare
  · rw [some] at cut
    rcases Cut.cons_cases cut with rfl | ⟨torn, rfl, tear⟩ | ⟨later, rfl, inner⟩
    · exact .of_none bare
    · cases tear
      exact part _ false
    · rw [inner.nil]
      exact part kept confirmed

theorem createNew_keeps {ea : Ea} (named : safeToken ea.journalNamespace = true)
    (zero : ea.firstCursor = ['0']) (newStreamId : Text) (identityWrite headerWrite : WriteAnswer)
    {disk : Disk} (bare : disk.events = none) :
    let ran := createNew ea newStreamId identityWrite headerWrite
    (∀ done, Cut ran.effects done →
        OrderlyDisk ea.journalNamespace (done.foldl Disk.after disk)) ∧
      (ran.value = true → Ordered ran.ea ∧ ran.ea.recoveryReady = recovered ran.ea.events ∧
        Filed ea.journalNamespace ran.ea.streamId ran.ea.events
          (ran.effects.foldl Disk.after disk)) := by
  intro ran
  unfold ran createNew
  dsimp only
  split
  · refine ⟨fun done cut => ?_, fun done => by cases done⟩
    rw [cut.nil]
    exact .of_none bare
  · rename_i safe
    rw [not_not] at safe
    split
    · refine ⟨fun done cut => ?_, fun done => by cases done⟩
      exact .of_none ((createIdentity_cut cut).trans bare)
    · have cuts : ∀ done, Cut ((createLine .identity (sealLine (identityFields ea.journalNamespace
          newStreamId)) identityWrite).toList ++ (createLine .events (sealLine (headerFields
            ea.journalNamespace newStreamId "0".toList)) headerWrite).toList) done →
          OrderlyDisk ea.journalNamespace (done.foldl Disk.after disk) := by
        intro done cut
        rcases cut.append_cases with early | ⟨later, rfl, late⟩
        · exact .of_none ((createIdentity_cut early).trans bare)
        · rw [List.foldl_append]
          exact createHeader_cut named safe ((createIdentity_cut (.refl _)).trans bare) late
      split
      · exact ⟨cuts, fun done => by cases done⟩
      · rename_i header
        refine ⟨cuts, fun _ => ⟨⟨⟨safe, by simp, rfl⟩, by simp, zero, trivial, .nil⟩, rfl, ?_⟩⟩
        rcases createLine_cases .events (sealLine (headerFields ea.journalNamespace newStreamId
          "0".toList)) headerWrite with none | ⟨kept, confirmed, some, whole⟩
        · rw [none] at header
          cases not_not.1 header
        · rw [some] at header
          have whole := whole (not_not.1 header)
          refine ⟨_, ?_, .inr (loadEvents_header named safe)⟩
          rw [List.foldl_append, some]
          simp only [Option.toList_some, List.foldl_cons, List.foldl_nil, Disk.after,
            (createIdentity_cut (.refl _)).trans bare, Option.getD_none, List.nil_append]
          exact congrArg _ whole

/-- What a start finds or makes before its own first line. -/
theorem init_keeps (enabled : Bool) {disk : Disk} (orderly : OrderlyDisk journalNamespace disk)
    (newStreamId : Text) (identityWrite headerWrite : WriteAnswer) :
    let ran := init journalNamespace enabled disk newStreamId identityWrite headerWrite
    (∀ done, Cut ran.effects done →
        OrderlyDisk journalNamespace (done.foldl Disk.after disk)) ∧
      (ran.value = true → ran.ea.journalReady = true → Ordered ran.ea ∧
        ran.ea.recoveryReady = recovered ran.ea.events ∧
        Filed journalNamespace ran.ea.streamId ran.ea.events
          (ran.effects.foldl Disk.after disk)) := by
  have idle : ∀ done, Cut [] done → OrderlyDisk journalNamespace (done.foldl Disk.after disk) := by
    intro done cut
    rw [cut.nil]
    exact orderly
  intro ran
  unfold ran init
  dsimp only
  split
  · exact ⟨idle, fun done => by cases done⟩
  · rename_i named
    rw [not_not] at named
    split
    · rename_i bare
      let empty : Ea := ⟨journalNamespace, [], "0".toList, [], false, true, enabled, []⟩
      have named : safeToken empty.journalNamespace = true := named.2
      obtain ⟨cuts, made⟩ :=
        createNew_keeps named rfl newStreamId identityWrite headerWrite bare
      exact ⟨cuts, fun done _ => made done⟩
    · exact ⟨idle, fun done => by cases done⟩
    · split
      · exact ⟨idle, fun done => by cases done⟩
      · rename_i streamId known
        split
        · exact ⟨idle, fun _ ready => by cases ready⟩
        · rename_i first loaded recovery read
          refine ⟨idle, fun _ _ => ?_⟩
          obtain ⟨content, file, read⟩ := Option.bind_eq_some_iff.1 read
          have safe := loadIdentity_safe known
          obtain ⟨valid, history, rfl⟩ := loadEvents_spec safe read
          obtain ⟨rfl, boots⟩ := orderly content file streamId first loaded _ read
          obtain ⟨-, chained⟩ := loadEvents_chained safe read
          exact ⟨⟨⟨safe, fun event member => (valid event member).1, history⟩,
            fun event member => (valid event member).2, rfl, chained, boots⟩, rfl,
            content, file, .inr read⟩

/-- The expert's own first line. -/
theorem appendStreamStarted_writes {ea : Ea} (ordered : Ordered ea)
    (eventTimeMs eaBuildId : Text) (enabled : Bool) (write : WriteAnswer) :
    let ran := appendStreamStarted ea ea.bootId eventTimeMs eaBuildId enabled write
    ∃ held, Writes ea.streamId ea.events ran.effects held ∧ (ran.value = true → Aboard ran.ea ∧
      ran.ea.streamId = ea.streamId ∧ recovered ran.ea.events = recovered ea.events ∧
      held = some ran.ea.events) := by
  intro ran
  cases done : ran.value with
  | true =>
    obtain ⟨event, kept, effects, whole, more, own, -, about⟩ :=
      appendStreamStarted_extends ordered.sound done
    have start : event.body.order = none := by
      rw [about]
      rfl
    have boot : ran.ea.bootId = ea.bootId := by
      unfold ran appendStreamStarted
      dsimp only
      split
      · rfl
      · split
        · rfl
        · split
          · rfl
          · split <;> rfl
    have joins : Joins ea.events event := by
      intro order body
      rw [start] at body
      cases body
    refine ⟨some ran.ea.events, ?_, fun _ => ⟨⟨ordered.extends more joins, ?_⟩, more.stream, ?_,
      rfl⟩⟩
    · rw [effects]
      exact more.writes ordered joins whole (.done _)
    · rw [more.events, currentBoot_started start, own, boot]
    · rw [more.events, recovered_started _ about]
  | false =>
    have writes : ∃ held, Writes ea.streamId ea.events ran.effects held := by
      revert done
      unfold ran appendStreamStarted
      split
      · exact fun _ => ⟨_, .done _⟩
      · rename_i checks
        simp only [not_or, not_not] at checks
        obtain ⟨-, boot, time, build⟩ := checks
        split
        · exact fun _ => ⟨_, .done _⟩
        · dsimp only
          split
          · exact fun _ => ⟨_, .done _⟩
          · rename_i some
            split
            · intro _
              cases write with
              | refused => exact ⟨_, .done _⟩
              | wrote kept flushed =>
                refine ⟨_, .part kept _ ?_ fun order body => by cases body⟩
                simp [JournalEvent.valid, canonical_increment some, time, ordered.sound.safe, boot,
                  EventBody.valid, build]
            · intro done
              cases done
    obtain ⟨held, writes⟩ := writes
    exact ⟨held, writes, fun done => by cases done⟩

theorem onInit_keeps {disk : Disk} (orderly : OrderlyDisk journalNamespace disk) (boot : Boot) :
    let ran := onInit journalNamespace disk boot
    (∀ done, Cut ran.effects done →
        OrderlyDisk journalNamespace (done.foldl Disk.after disk)) ∧
      (ran.value = true → ran.ea.journalReady = true → Aboard ran.ea ∧
        ran.ea.recoveryReady = recovered ran.ea.events ∧
        Filed journalNamespace ran.ea.streamId ran.ea.events
          (ran.effects.foldl Disk.after disk)) := by
  obtain ⟨cuts, loads⟩ := init_keeps boot.executionEnabled orderly boot.newStreamId
    boot.identityWrite boot.headerWrite
  intro ran
  unfold ran onInit
  dsimp only
  generalize init journalNamespace boot.executionEnabled disk boot.newStreamId
    boot.identityWrite boot.headerWrite = loaded at cuts loads ⊢
  split
  · exact ⟨cuts, fun done => by cases done⟩
  · rename_i came
    simp only [not_or, not_not] at came
    split
    · rename_i ready
      obtain ⟨ordered, recovery, filed⟩ := loads came.1 ready
      have ordered' : Ordered { loaded.ea with bootId := boot.bootId } :=
        ⟨⟨ordered.sound.safe, ordered.sound.valid, ordered.sound.history⟩, ordered.stream,
          ordered.zero, ordered.chained, ordered.boots⟩
      obtain ⟨held, writes, ends⟩ := appendStreamStarted_writes ordered' boot.observedMs
        boot.eaBuildId boot.executionEnabled boot.startedWrite
      have same := appendStreamStarted_recovery { loaded.ea with bootId := boot.bootId }
        boot.bootId boot.observedMs boot.eaBuildId boot.executionEnabled boot.startedWrite
      obtain ⟨cuts', holds⟩ := writes.keeps ordered.sound.safe ordered.boots filed
      refine ⟨fun done cut => ?_, fun done _ => ?_⟩
      · rcases cut.append_cases with early | ⟨later, rfl, late⟩
        · exact cuts done early
        · rw [List.foldl_append]
          exact cuts' later late
      · obtain ⟨aboard, stream, settled, rfl⟩ := ends done
        refine ⟨aboard, same.trans (recovery.trans settled.symm), ?_⟩
        rw [List.foldl_append, stream]
        exact (holds _ rfl).2
    · rename_i unready
      exact ⟨cuts, fun _ ready => absurd ready unready⟩

end Starts

section Worlds

variable {journalNamespace : Text}

/-- Since the expert came up, a submission was answered that left no reservation. -/
inductive Unreserved (journalNamespace : Text) : World → Prop
  | here {w : World} {ea : Ea} (reached : Reachable journalNamespace w)
      (running : w.process = some ea) {request : SubmitRequest} {answers : Answers}
      (answer : (submit ea request answers).value = unreserved) :
      Unreserved journalNamespace (w.submitted ea request answers)
  | later {w : World} {ea : Ea} (before : Unreserved journalNamespace w)
      (running : w.process = some ea) (request : SubmitRequest) (answers : Answers) :
      Unreserved journalNamespace (w.submitted ea request answers)

/-- What holds of the events file and of the expert in every reachable world. -/
structure Docked (journalNamespace : Text) (w : World) : Prop where
  orderly : OrderlyDisk journalNamespace w.disk
  aboard : ∀ ea, w.process = some ea → ea.journalReady = true → Aboard ea
  filed : ∀ ea, w.process = some ea → ea.journalReady = true → ea.recoveryReady = true →
    Filed journalNamespace ea.streamId ea.events w.disk
  stalled : ∀ ea, w.process = some ea → ea.journalReady = true → ea.recoveryReady = false →
    recovered ea.events = false ∨ Unreserved journalNamespace w

theorem Docked.stopped {w : World} (orderly : OrderlyDisk journalNamespace w.disk)
    (stopped : w.process = none) : Docked journalNamespace w := by
  refine ⟨orderly, ?_, ?_, ?_⟩ <;> intro ea running <;> rw [stopped] at running <;> cases running

theorem Submitted.idle_of_stalled {ea ea' : Ea} {request : SubmitRequest}
    {answer : Except SubmitError JournalEvent} {effects : List Effect}
    (submitted : Submitted ea request answer effects ea') (stalled : ea.recoveryReady = false) :
    effects = [] ∧ ea' = ea := by
  cases submitted with
  | idle => exact ⟨rfl, rfl⟩
  | blocked recovery | disabled recovery | reserved recovery =>
    rw [stalled] at recovery
    cases recovery

/-- A submission keeps the file in order wherever it is cut off, and memory behind it. -/
theorem Docked.submit {w : World} (docked : Docked journalNamespace w) {ea : Ea}
    (running : w.process = some ea) (request : SubmitRequest) (answers : Answers) :
    let ran := Journal.submit ea request answers
    (∀ done, Cut ran.effects done →
        OrderlyDisk journalNamespace (done.foldl Disk.after w.disk)) ∧
      (ran.ea.journalReady = true → Aboard ran.ea ∧ (ran.ea.recoveryReady = true →
        Filed journalNamespace ran.ea.streamId ran.ea.events
          (ran.effects.foldl Disk.after w.disk))) := by
  intro ran
  by_cases ready : ea.journalReady = true
  · have aboard := docked.aboard ea running ready
    have submitted := submit_submitted (fun _ => aboard.sound) request answers
    cases recovery : ea.recoveryReady with
    | true =>
      obtain ⟨held, writes, ends⟩ := submitted.writes aboard
      obtain ⟨cuts, holds⟩ := writes.keeps aboard.sound.safe aboard.boots
        (docked.filed ea running ready recovery)
      refine ⟨cuts, fun ready' => ?_⟩
      obtain ⟨aboard', stream, whole⟩ := ends ready'
      refine ⟨aboard', fun recovery' => ?_⟩
      rw [stream]
      exact (holds _ (whole recovery')).2
    | false =>
      obtain ⟨none, same⟩ := submitted.idle_of_stalled recovery
      refine ⟨fun done cut => ?_, fun _ => ⟨same ▸ aboard, fun recovery' => ?_⟩⟩
      · rw [none] at cut
        rw [cut.nil]
        exact docked.orderly
      · rw [same, recovery] at recovery'
        cases recovery'
  · have idle : ran = ⟨.error ⟨.recoveryBlocked, "journal recovery is not ready"⟩, ea, []⟩ := by
      unfold ran Journal.submit
      rw [if_pos ready]
    rw [idle]
    refine ⟨fun done cut => ?_, fun ready' => absurd ready' ready⟩
    rw [cut.nil]
    exact docked.orderly

theorem Step.docked {w w' : World} (reached : Reachable journalNamespace w)
    (docked : Docked journalNamespace w) (step : Step journalNamespace w w') :
    Docked journalNamespace w' := by
  cases step with
  | start boot stopped =>
    obtain ⟨cuts, loads⟩ := onInit_keeps docked.orderly boot
    have up : ∀ ea, (w.started journalNamespace boot).process = some ea →
        (onInit journalNamespace w.disk boot).value = true ∧
          ea = (onInit journalNamespace w.disk boot).ea := by
      intro ea running
      dsimp only [World.started, World.perform] at running
      split at running
      · rename_i done
        cases running
        exact ⟨done, rfl⟩
      · cases running
    refine ⟨cuts _ (.refl _), ?_, ?_, ?_⟩ <;> intro ea running ready <;>
      obtain ⟨done, rfl⟩ := up ea running <;> obtain ⟨aboard, recovery, filed⟩ := loads done ready
    · exact aboard
    · exact fun _ => filed
    · exact fun stalled => .inl (recovery.symm.trans stalled)
  | startCut boot stopped effects cut =>
    exact .stopped ((onInit_keeps docked.orderly boot).1 effects cut) rfl
  | submit ea running request answers =>
    obtain ⟨cuts, ends⟩ := docked.submit running request answers
    refine ⟨cuts _ (.refl _), ?_, ?_, ?_⟩ <;> intro ea' running' ready' <;> cases running'
    · exact (ends ready').1
    · exact (ends ready').2
    · intro stalled
      by_cases ready : ea.journalReady = true
      · have submitted := submit_submitted
          (fun _ => (docked.aboard ea running ready).sound) request answers
        rcases submitted.stalled ready' stalled with same | answer | pending
        · rw [same] at stalled ⊢
          exact (docked.stalled ea running ready stalled).imp id
            fun before => before.later running request answers
        · exact .inr (.here reached running answer)
        · exact .inl pending
      · rw [Journal.submit, if_pos ready] at ready'
        exact absurd ready' ready
  | submitCut ea running request answers effects cut =>
    exact .stopped ((docked.submit running request answers).1 effects cut) rfl
  | stop => exact .stopped docked.orderly rfl

theorem Reachable.docked {w : World} (reached : Reachable journalNamespace w) :
    Docked journalNamespace w := by
  induction reached with
  | empty => exact .stopped (.of_none rfl) rfl
  | step before step ih => exact step.docked before ih

end Worlds

end ArbNautilus.Journal
