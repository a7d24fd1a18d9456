import ArbNautilus.Mt5.Custody
import ArbNautilus.Mt5.Incremental

namespace ArbNautilus.Mt5

open Base Journal Handler Coroutine

/-- The error comes from the client's own checks, not from a wait. -/
def Raised.isLocal : Raised → Bool
  | .executionError _ | .other .. => true
  | _ => false

section Raises

variable {config : Config} {event : JournalEvent} {order : Submission}

/-- Only the client's own errors. -/
abbrev Local {α : Type} (m : Call α) : Prop := Raises (fun e => e.isLocal = true) m

theorem local_guard {p : Prop} [Decidable p] {message : String} {e : Raised}
    (raised : raiseIf p (.executionError message) = .error e) : e.isLocal = true := by
  rw [raiseIf_eq_error] at raised
  rw [← raised.2]
  rfl

theorem bind_eq_error {ε : Type*} {α β : Type} {x : Except ε α} {f : α → Except ε β} {e : ε} :
    x >>= f = .error e ↔ x = .error e ∨ ∃ a, x = .ok a ∧ f a = .error e := by
  cases x <;> simp [bind, Except.bind]

theorem local_validateCloseFillTarget {reservation : JournalEvent} {body : EventBody} {e : Raised}
    (raised : validateCloseFillTarget reservation body = .error e) : e.isLocal = true := by
  unfold validateCloseFillTarget at raised
  split at raised
  · exact local_guard raised
  · cases raised

theorem local_recordReservation : Local (recordReservation event order) := by
  refine raises_bind (raises_look _) fun p => raises_bind (raises_check fun e raised => ?_) fun _ =>
    raises_change _
  simp only [JournalProjection.recordReservation, bind_eq_error] at raised
  rcases raised with raised | ⟨_, _, raised⟩
  · exact local_guard raised
  · cases raised

theorem local_recordTerminal : Local (recordTerminal event order) := by
  refine raises_bind (raises_look _) fun p => raises_bind (raises_check fun e raised => ?_) fun _ =>
    raises_change _
  unfold JournalProjection.recordTerminal at raised
  split at raised
  · cases raised
    rfl
  · simp only [bind_eq_error] at raised
    rcases raised with raised | ⟨_, _, raised | ⟨_, _, raised | ⟨_, _, raised | ⟨_, _, raised⟩⟩⟩⟩
    · exact local_guard raised
    · exact local_guard raised
    · exact local_guard raised
    · exact local_validateCloseFillTarget raised
    · cases raised

theorem local_matchPending : Local (matchPending order) := by
  refine raises_bind (raises_look _) fun found => ?_
  cases found with
  | none => exact raises_raise rfl
  | some pending =>
    dsimp only
    split
    · exact raises_bind (raises_change _) fun _ => raises_raise rfl
    · exact raises_pure _

theorem local_rejectPending {reason retcode : Text} :
    Local (rejectPending event order reason retcode) :=
  raises_bind local_matchPending fun _ => raises_bind (raises_change _) fun _ => raises_change _

theorem local_converted {value : Option ℚ} : Local (check (converted value)) := by
  refine raises_check fun e raised => ?_
  cases value with
  | none =>
    cases raised
    rfl
  | some => cases raised

theorem local_applyFill {fill : Fill} : Local (applyFill config event order fill) := by
  unfold applyFill
  refine raises_bind local_matchPending fun pending => ?_
  have priced {next : ℚ → ℚ → ℚ → Call Unit} (rest : ∀ q p m, Local (next q p m))
    {a b c : Option ℚ} :
      Local (do
        let quantity ← check (converted a)
        let price ← check (converted b)
        let commission ← check (converted c)
        next quantity price commission) :=
    raises_bind local_converted fun _ => raises_bind local_converted fun _ =>
      raises_bind local_converted fun _ => rest _ _ _
  dsimp only
  split
  · exact raises_refuse rfl
  · split
    · exact raises_refuse rfl
    · refine priced fun _ _ _ => raises_bind (raises_change _) fun _ => ?_
      split
      · exact raises_bind (raises_change _) fun _ => raises_bind (raises_change _) fun _ =>
          raises_bind (raises_change _) fun _ => raises_bind (raises_change _) fun _ =>
          raises_change _
      · exact raises_bind (raises_change _) fun _ => raises_bind (raises_change _) fun _ =>
          raises_change _

theorem local_applyEvent : Local (applyEvent config event) := by
  unfold applyEvent
  split
  · exact raises_bind local_recordReservation fun _ => raises_discard local_matchPending
  · exact raises_bind local_recordTerminal fun _ => raises_bind (raises_discard local_matchPending)
      fun _ => raises_bind (raises_change _) fun _ => raises_change _
  · exact raises_bind local_recordTerminal fun _ => raises_bind local_rejectPending
      fun _ => raises_change _
  · exact raises_bind local_recordTerminal fun _ => local_applyFill
  · exact raises_raise rfl

theorem local_applyEvents {expected : Option JournalEvent} {events : List JournalEvent} :
    Local (applyEvents config expected events) := by
  induction events with
  | nil => exact raises_pure _
  | cons event events ih =>
    refine raises_bind (raises_look _) fun cursor => raises_bind (raises_raiseWhen rfl) fun _ =>
      raises_bind (raises_raiseWhen rfl) fun _ => raises_bind local_applyEvent fun _ =>
      raises_bind (raises_change _) fun _ => ?_
    split
    · exact raises_pure _
    · exact ih

end Raises

/-- What a wait may answer. The journal is what the terminal had written when it
last answered, so a page continues exactly that; nothing else is promised. -/
def answered : (w : Wait) → Client × List JournalEvent → Except Raised (Reply w) → Bool
  | .lock, now, .ok _ => now.1.stateLock.isNone
  | .executionEvents _ afterCursor _, now, .ok page =>
    decide (page.events <+: now.2.drop (intOf afterCursor)) &&
      intOf page.lastCursor == now.2.length
  | _, _, _ => true

/-- The tasks of one execution client, beside a journal that only grows. -/
def team (config : Config) : Team Client (List JournalEvent) Raised Reply where
  inv now := Custody now.1 now.2 ∧ Clean now.1
  admits wait now reply := answered wait now reply = true
  rely task now later := now.2 <+: later.2 ∧ (now.1.stateLock = some task →
    later.1.stateLock = some task ∧ later.1.sent = now.1.sent)
  guarantee task since now := ∀ other, other ≠ task → since.stateLock = some other →
    now.stateLock = some other ∧ now.sent = since.sent
  outside now later := now.2 <+: later.2 ∧ ∃ surroundings, later.1 = { now.1 with surroundings }
  starts task p := p = connect config ∨ p = finishConnect ∨ p = disconnect ∨
    (∃ turns, p = pollEvents config task turns) ∨ ∃ command, p = submitOrder config task command

section Batch

/-- The projection knows the events read, and no others. -/
structure JournalProjection.Reads (p : JournalProjection) (events : List JournalEvent) : Prop where
  reserved : ∀ {k e}, p.reservations.get? k = some e → e ∈ events ∧ e.reserves k = true
  settled : ∀ {k e}, p.terminals.get? k = some e → e ∈ events ∧ e.settles k = true
  known : ∀ {k e}, e ∈ events → e.reserves k = true → k ∈ p.reservations.keys

variable {p : JournalProjection} {s t : Projecting} {event : JournalEvent}
  {events read : List JournalEvent} {order : Submission}

theorem isFor_iff (about : event.body.order = some order) (k : Text) :
    event.isFor k = true ↔ order.clientRequestId = k := by
  simp [JournalEvent.isFor, about]

namespace JournalProjection.Reads

/-- An event that reserves nothing. -/
theorem pass (h : p.Reads read) (other : ∀ k, event.reserves k = false) :
    p.Reads (read ++ [event]) where
  reserved found := ⟨List.mem_append_left _ (h.reserved found).1, (h.reserved found).2⟩
  settled found := ⟨List.mem_append_left _ (h.settled found).1, (h.settled found).2⟩
  known {k e} member reserves := by
    rcases List.mem_append.1 member with old | new
    · exact h.known old reserves
    · rw [List.mem_singleton.1 new, other] at reserves
      cases reserves

theorem reserve (h : p.Reads read) (about : event.body.order = some order)
    (reserving : event.body.eventType = .submissionReserved) :
    (p.reserve order.clientRequestId event).Reads (read ++ [event]) where
  reserved {k e} found := by
    change (p.reservations.set order.clientRequestId event).get? k = some e at found
    rw [Dict.get?_set] at found
    split at found
    · rename_i same
      cases found
      exact ⟨by simp, by simp [JournalEvent.reserves, reserving, (isFor_iff about k).2 same]⟩
    · exact ⟨List.mem_append_left _ (h.reserved found).1, (h.reserved found).2⟩
  settled found := ⟨List.mem_append_left _ (h.settled found).1, (h.settled found).2⟩
  known {k e} member reserves := by
    refine (Dict.mem_keys_iff _ _).2 ?_
    change ∃ v, (p.reservations.set order.clientRequestId event).get? k = some v
    rw [Dict.get?_set]
    split
    · exact ⟨event, rfl⟩
    · rename_i other
      rcases List.mem_append.1 member with old | new
      · exact (Dict.mem_keys_iff _ _).1 (h.known old reserves)
      · rw [List.mem_singleton.1 new, JournalEvent.reserves, Bool.and_eq_true] at reserves
        exact absurd ((isFor_iff about k).1 reserves.2) other

theorem settle (h : p.Reads read) (about : event.body.order = some order)
    (settling : event.body.eventType ≠ .submissionReserved)
    (reserved : order.clientRequestId ∈ p.reservations.keys) :
    (p.settle order.clientRequestId event reserved).Reads (read ++ [event]) := by
  have terminal : event.body.eventType.isTerminal = true := by
    cases body :
      event.body <;> simp_all [EventBody.eventType, EventType.isTerminal, EventBody.order]
  have passed : p.Reads (read ++ [event]) :=
    h.pass fun k => by simp [JournalEvent.reserves, settling]
  refine ⟨passed.reserved, fun {k e} found => ?_, passed.known⟩
  change (p.terminals.set order.clientRequestId event).get? k = some e at found
  rw [Dict.get?_set] at found
  split at found
  · rename_i same
    cases found
    exact ⟨by simp, by simp [JournalEvent.settles, terminal, (isFor_iff about k).2 same]⟩
  · exact passed.settled found

end JournalProjection.Reads

theorem turn_reads (h : s.projection.Reads read) (turned : s.turn event = .ok t) :
    t.projection.Reads (read ++ [event]) := by
  unfold Projecting.turn at turned
  cases about : event.body.order with
  | none =>
    simp only [about, bind_unit_eq_ok, pure_eq_ok] at turned
    obtain ⟨-, rfl⟩ := turned
    exact h.pass fun k => by simp [JournalEvent.reserves, JournalEvent.isFor, about]
  | some order =>
    simp only [about, bind_unit_eq_ok] at turned
    obtain ⟨-, turned⟩ := turned
    split at turned
    · rename_i reserving
      simp only [bind_unit_eq_ok, pure_eq_ok] at turned
      obtain ⟨-, rfl⟩ := turned
      exact h.reserve about reserving
    · rename_i settling
      split at turned
      · cases turned
      · rename_i reservation found
        simp only [bind_unit_eq_ok, pure_eq_ok] at turned
        obtain ⟨-, -, -, -, rfl⟩ := turned
        exact h.settle about settling ((Dict.mem_keys_iff _ _).2 ⟨reservation, found⟩)

theorem turns_read (h : s.projection.Reads read)
    (turned : events.foldlM Projecting.turn s = .ok t) :
    t.projection.Reads (read ++ events) := by
  induction events generalizing s read with
  | nil =>
    simp only [List.foldlM_nil, pure_eq_ok] at turned
    simpa [← turned] using h
  | cons event events ih =>
    simp only [List.foldlM_cons, bind_eq_ok] at turned
    obtain ⟨u, first, rest⟩ := turned
    simpa using ih (turn_reads h first) rest

theorem projectJournal_reads {boot : Text} (projected : projectJournal events boot = .ok p) :
    p.Reads events := by
  simp only [projectJournal, bind_eq_ok, pure_eq_ok] at projected
  obtain ⟨-, -, last, turned, -, -, rfl⟩ := projected
  have start : Projecting.start.projection.Reads [] := by
    constructor
    · intro k e found
      cases found
    · intro k e found
      cases found
    · intro k e member
      cases member
  exact @turns_read .start last events [] start turned

end Batch

section Reading

variable {config : Config} {identity : Identity} {r s : Reading} {page : EventPage}
  {J : List JournalEvent}

/-- What was read so far is the journal's beginning, up to the cursor. -/
structure Reading.Follows (r : Reading) (J : List JournalEvent) : Prop where
  begins : r.events <+: J
  counted : intOf r.cursor = r.events.length

theorem readEvents_counts {events : List JournalEvent} (counted : intOf r.cursor = r.events.length)
    (loop : events.foldlM readEvent r = .ok s) :
    s.events = r.events ++ events ∧ intOf s.cursor = s.events.length := by
  induction events generalizing r with
  | nil =>
    simp only [List.foldlM_nil, pure_eq_ok] at loop
    subst loop
    exact ⟨by simp, counted⟩
  | cons event events ih =>
    simp only [List.foldlM_cons, bind_eq_ok, readEvent, pure_eq_ok, raiseIf_eq_ok, not_not] at loop
    obtain ⟨_, ⟨_, next, rfl⟩, loop⟩ := loop
    have step := ih (by simp [next, counted]) loop
    simpa using step

theorem readPage_follows (h : r.Follows J) (begins : page.events <+: J.drop (intOf r.cursor))
    (turned : readPage identity r page = .ok s) : s.Follows J := by
  simp only [readPage, bind_eq_ok, pure_eq_ok] at turned
  obtain ⟨-, -, -, -, -, -, t, loop, -, -, -, -, rfl⟩ := turned
  obtain ⟨events, counted⟩ := readEvents_counts (r := { r with lastCursor := some page.lastCursor })
    h.counted loop
  obtain ⟨rest, whole⟩ := h.begins
  rw [h.counted, ← whole, List.drop_left] at begins
  refine ⟨?_, counted⟩
  rw [events, ← whole]
  exact (List.prefix_append_right_inj _).2 begins

theorem Reading.Follows.grow {J' : List JournalEvent} (h : r.Follows J) (grown : J <+: J') :
    r.Follows J' :=
  ⟨h.begins.trans grown, h.counted⟩

end Reading

section Connect

variable {config : Config} {identity : Identity} {recovery : RecoveryState} {snapshot : Snapshot}
  {cursor : Text} {task : ℕ} {since c : Client} {now : Client × List JournalEvent}
  {J : List JournalEvent}

theorem install_stays (h : Custody c J) : wp (install config identity recovery snapshot J cursor)
    (fun _ d => Stays J c d ∧ Clean d) (fun d => Stays J c d) c := by
  simp only [install, wp_bind, wp_check, wp_change, refreshExecutionHold, scheduleSnapshotRefresh]
  refine ⟨fun _ _ => .refl h, fun projection projected => ?_⟩
  have reads := projectJournal_reads projected
  have bound : Stays J c { c with
      boundStreamId := some identity.streamId
      identity := some identity
      executionSpec := some (snapshotExecutionSpec snapshot) } :=
    ⟨⟨h.own, h.reserved, h.settled, h.single, h.pendingSent, h.sentOnce, h.sentSeen, h.sentKnown,
      h.outcomeOnce, h.outcomeSent, h.outcomeKnown, fun _ => (by rintro ⟨⟩), h.guarded⟩, rfl, rfl⟩
  refine wp_mono (installSnapshot_stays bound.custody snapshot) ?_ fun _ stays => bound.trans stays
  rintro - d stays
  have kept := bound.trans stays
  have seen : ∀ k ∈ sentIds d, k ∈ projection.seenRequestIds ++ d.pending.keys := by
    intro k sent
    rcases kept.custody.sentKnown k sent with pending | ⟨e, member, reserves⟩
    · exact List.mem_append_right _ pending
    · exact List.mem_append_left _ (reads.known member reserves)
  have replaced : Stays J c { d with
      cursor
      history := J
      projection
      seenRequestIds := projection.seenRequestIds ++ d.pending.keys
      recoveryState := some recovery } :=
    ⟨⟨kept.custody.own, reads.reserved, reads.settled, kept.custody.single,
      kept.custody.pendingSent, kept.custody.sentOnce, seen, kept.custody.sentKnown,
      kept.custody.outcomeOnce, kept.custody.outcomeSent, kept.custody.outcomeKnown,
      kept.custody.admitted, kept.custody.guarded⟩, kept.sent, kept.stateLock⟩
  refine wp_mono (recoverLocalPendingFromJournal_stays replaced.custody) ?_
    fun _ more => replaced.trans more
  rintro - e more
  have whole := replaced.trans more
  have cleared : Custody { e with transientRequestFailure := none } J :=
    whole.custody.unmoved ⟨rfl, rfl, rfl, rfl, rfl, rfl, rfl, rfl, rfl⟩ whole.custody.admitted
  have held := cleared.refreshHold
  exact ⟨⟨held.unmoved ⟨rfl, rfl, rfl, rfl, rfl, rfl, rfl, rfl, rfl⟩ held.admitted, whole.sent,
    whole.stateLock⟩, clean_refreshHold { e with transientRequestFailure := none }⟩

/-- A task that changed nothing since it last went on. -/
def Watching (since : Client) (now : Client × List JournalEvent) : Prop :=
  now.1 = since ∧ Custody now.1 now.2 ∧ Clean now.1

/-- A wait keeps what it finds, and may end in any error. -/
theorem watching_wait {α : Type} {wait : Wait} {k : Reply wait → Task α}
    {post : Except Raised α → Client → Client × List JournalEvent → Prop} (h : Watching since now)
    (failed : ∀ e (later : Client × List JournalEvent), Watching later.1 later →
      post (.error e) later.1 later)
    (goes : ∀ (later : Client × List JournalEvent) (reply : Reply wait), Watching later.1 later →
      now.2 <+: later.2 → answered wait later (.ok reply) = true →
      (k reply).Safe ((team config).discipline task) post later.1 later) :
    (ask wait >>= k).Safe ((team config).discipline task) post since now := by
  obtain ⟨rfl, inv⟩ := h
  refine safe_ask_bind k ⟨inv, fun _ _ held => ⟨held, rfl⟩⟩ fun later relied held => ⟨?_, ?_⟩
  · exact fun e _ => failed e later ⟨rfl, held⟩
  · exact fun reply admitted => goes later reply ⟨rfl, held⟩ relied.1 admitted

theorem readPages_follows {pages : ℕ} {r : Reading} (h : Watching since now)
    (follows : r.Follows now.2) : (readPages config identity pages r).Safe
      ((team config).discipline task) (either
        (fun journal since now => Watching since now ∧
          Reading.Follows ⟨journal.2, journal.1, none⟩ now.2)
        fun _ => Watching) since now := by
  induction pages generalizing r since now with
  | zero => exact h
  | succ pages ih =>
    refine watching_wait h (fun _ _ h => h) ?_
    intro now page h grown answer
    refine (safe_check_bind _ _).2 ⟨fun _ _ => h, fun s turned => ?_⟩
    simp only [answered, Bool.and_eq_true, decide_eq_true_eq] at answer
    have next := readPage_follows (follows.grow grown) answer.1 turned
    refine (safe_ite _ _ _).2 ⟨fun _ => ih h next, fun _ => ?_⟩
    exact ⟨h, next.begins, next.counted⟩

theorem readCompleteJournal_follows (h : Watching since now) :
    (readCompleteJournal config identity).Safe ((team config).discipline task) (either
      (fun journal since now => Watching since now ∧
        Reading.Follows ⟨journal.2, journal.1, none⟩ now.2)
      fun _ => Watching) since now := by
  unfold readCompleteJournal withPaginationTimeout
  rw [safe_tryCatch]
  refine (readPages_follows h ⟨List.nil_prefix, rfl⟩).mono ?_
  rintro (e | journal) since now held
  · cases e <;> exact held
  · exact held

theorem connecting_stays (h : Watching since now) : (connecting config).Safe
    ((team config).discipline task)
    (either (fun _ since now => Stays now.2 since now.1 ∧ Clean now.1)
      fun _ since now => Stays now.2 since now.1) since now := by
  have still {since : Client} {now : Client × List JournalEvent} (h : Watching since now) :
      Stays now.2 since now.1 := by
    obtain ⟨rfl, custody, -⟩ := h
    exact .refl custody
  unfold connecting
  refine watching_wait h (fun _ _ h => still h) fun now _ h _ _ => ?_
  refine watching_wait h (fun _ _ h => still h) fun now hello h _ _ => ?_
  refine (safe_check_bind _ _).2 ⟨fun _ _ => still h, fun _ _ => ?_⟩
  rw [safe_bind, safe_look, either_ok]
  refine (safe_check_bind _ _).2 ⟨fun _ _ => still h, fun _ _ => ?_⟩
  rw [safe_bind]
  refine (readCompleteJournal_follows h).mono ?_
  rintro (e | ⟨events, cursor⟩) since now held
  · exact still held
  obtain ⟨h, follows⟩ := held
  refine watching_wait h (fun _ _ h => still h) fun now snapshot h grown _ => ?_
  have follows := follows.grow grown
  refine (safe_check_bind _ _).2 ⟨fun _ _ => still h, fun _ _ => ?_⟩
  unfold verifyUnchangedJournalTail
  rw [safe_bind]
  refine watching_wait h (fun _ _ h => still h) fun now page h grown answer => ?_
  have follows := follows.grow grown
  rw [safe_check]
  refine either_of (fun _ verified => ?_) fun _ _ => still h
  simp only [bind_unit_eq_ok, raiseIf_eq_ok, not_or, not_not] at verified
  simp only [answered, Bool.and_eq_true, beq_iff_eq] at answer
  -- The journal ends where the reading did.
  obtain rfl : events = now.2 := by
    refine follows.begins.eq_of_length ?_
    have counted : intOf cursor = events.length := follows.counted
    rw [← counted, ← answer.2, verified.2.2.2.1]
  exact safe_perform_of_wp (install_stays h.2.1) (fun _ _ stays => stays) fun _ _ stays => stays

/-- Without a connection nothing is admitted. -/
theorem unbound_stays (h : Custody c J) : Stays J c c.unbound ∧ Clean c.unbound :=
  ⟨⟨⟨h.own, h.reserved, h.settled, h.single, h.pendingSent, h.sentOnce, h.sentSeen, h.sentKnown,
    h.outcomeOnce, h.outcomeSent, h.outcomeKnown, nofun, h.guarded⟩, rfl, rfl⟩, nofun⟩

theorem Stays.guarantee {d : Client} (h : Stays J c d) : (team config).guarantee task c d :=
  fun _ _ lock => ⟨h.stateLock.trans lock, h.sent⟩

theorem connect_keeps (h : Watching since now) : (connect config).Safe
    ((team config).discipline task) (fun _ since now => (Custody now.1 now.2 ∧ Clean now.1) ∧
      (team config).guarantee task since now.1) since now := by
  unfold connect
  rw [safe_tryCatch]
  refine (connecting_stays h).mono ?_
  rintro (e | _) since now held
  · have stays : Stays now.2 since now.1 := held
    have failed : Custody ((fail e).after now.1) now.2 :=
      stays.custody.unmoved (fail_unmoved now.1 e) stays.custody.admitted
    obtain ⟨left, clean⟩ := unbound_stays failed
    exact ⟨⟨left.custody, clean⟩, fun _ _ lock => ⟨stays.stateLock.trans lock, stays.sent⟩⟩
  · exact ⟨⟨held.1.custody, held.2⟩, held.1.guarantee⟩

theorem finishConnect_keeps (h : Watching since now) : finishConnect.Safe
    ((team config).discipline task) (fun _ since now => (Custody now.1 now.2 ∧ Clean now.1) ∧
      (team config).guarantee task since now.1) since now := by
  obtain ⟨rfl, custody, clean⟩ := h
  exact ⟨⟨custody.unmoved ⟨rfl, rfl, rfl, rfl, rfl, rfl, rfl, rfl, rfl⟩ custody.admitted, clean⟩,
    fun _ _ lock => ⟨lock, rfl⟩⟩

theorem disconnect_keeps (h : Watching since now) : disconnect.Safe
    ((team config).discipline task) (fun _ since now => (Custody now.1 now.2 ∧ Clean now.1) ∧
      (team config).guarantee task since now.1) since now := by
  obtain ⟨rfl, custody, clean⟩ := h
  have stopped : Custody { now.1 with running := false } now.2 :=
    custody.unmoved ⟨rfl, rfl, rfl, rfl, rfl, rfl, rfl, rfl, rfl⟩ custody.admitted
  unfold disconnect
  rw [safe_bind, safe_change, either_ok, safe_bind, safe_look, either_ok, safe_ite]
  constructor
  · intro _
    refine safe_ask_bind _ ⟨⟨stopped, clean⟩, fun _ _ lock => ⟨lock, rfl⟩⟩ fun later _ held =>
      ⟨?_, ?_⟩
    · exact fun _ _ => ⟨held, fun _ _ lock => ⟨lock, rfl⟩⟩
    · intro _ _
      have joined : Custody { later.1 with pollTask := false } later.2 :=
        held.1.unmoved ⟨rfl, rfl, rfl, rfl, rfl, rfl, rfl, rfl, rfl⟩ held.1.admitted
      obtain ⟨left, clean⟩ := unbound_stays joined
      exact ⟨⟨left.custody, clean⟩, fun _ _ lock => ⟨lock, rfl⟩⟩
  · intro _
    have joined : Custody { now.1 with running := false, pollTask := false } now.2 :=
      custody.unmoved ⟨rfl, rfl, rfl, rfl, rfl, rfl, rfl, rfl, rfl⟩ custody.admitted
    obtain ⟨left, clean⟩ := unbound_stays joined
    exact ⟨⟨left.custody, clean⟩, fun _ _ lock => ⟨lock, rfl⟩⟩

end Connect

end ArbNautilus.Mt5
