import ArbNautilus.Mt5.Calls
import ArbNautilus.Mt5.Tasks

namespace ArbNautilus.Mt5

open Base Journal Handler Coroutine

/-- What applying one event does to the projection. -/
def JournalProjection.record (p : JournalProjection) (event : JournalEvent) :
    Except Raised JournalProjection :=
  match event.body.order with
  | none => .error (.executionError "MT5 execution stream restarted while connected")
  | some order =>
    if event.body.eventType = .submissionReserved then p.recordReservation event order
    else p.recordTerminal event order

/-- The projection `q` is `p` with the events applied one by one. -/
def Fed (p : JournalProjection) (events : List JournalEvent) (q : JournalProjection) : Prop :=
  events.foldlM JournalProjection.record p = .ok q

/-- Where a journal that starts at `cursor` ends. -/
def cursorAfter (cursor : Text) (events : List JournalEvent) : Text :=
  (events.getLast?.map (·.eventSeq)).getD cursor

theorem fed_nil (p : JournalProjection) : Fed p [] p := rfl

theorem fed_cons {p q : JournalProjection} {event : JournalEvent} {events : List JournalEvent} :
    Fed p (event :: events) q ↔ ∃ r, p.record event = .ok r ∧ Fed r events q := by
  simp [Fed]

theorem Fed.append {p q r : JournalProjection} {events more : List JournalEvent}
    (first : Fed p events q) (rest : Fed q more r) : Fed p (events ++ more) r := by
  unfold Fed at *
  rw [List.foldlM_append, first]
  exact rest

theorem cursorAfter_append (cursor : Text) (events more : List JournalEvent) :
    cursorAfter cursor (events ++ more) = cursorAfter (cursorAfter cursor events) more := by
  unfold cursorAfter
  cases more using List.reverseRecOn with
  | nil => simp
  | append_singleton more event => simp

section Batch

variable {s t : Projecting} {p q : JournalProjection} {event : JournalEvent}
  {events : List JournalEvent} {boot : Text}

/-- The batch turn is the incremental one, with the event's boot checked. -/
theorem turn_of_record (active : s.activeBootId = some boot)
    (recorded : s.projection.record event = .ok p) :
    s.turn event =
      if event.bootId = boot then .ok { s with projection := p }
      else .error (.executionError "execution event belongs to an inactive EA boot") := by
  unfold JournalProjection.record at recorded
  unfold Projecting.turn
  cases about : event.body.order with
  | none =>
    rw [about] at recorded
    cases recorded
  | some order =>
    simp only [about] at recorded
    simp only [active, ne_eq, Option.some.injEq]
    by_cases same : event.bootId = boot
    · simp only [same, not_true_eq_false, if_true]
      split at recorded
      · rename_i reserves
        simp only [JournalProjection.recordReservation, bind_unit_eq_ok, raiseIf_eq_ok,
          pure_eq_ok] at recorded
        obtain ⟨unseen, rfl⟩ := recorded
        simp [reserves, raiseIf, unseen]
      · rename_i settles
        simp only [settles, if_false]
        unfold JournalProjection.recordTerminal at recorded
        split at recorded
        · cases recorded
        · rename_i reservation found
          simp only [bind_unit_eq_ok, raiseIf_eq_ok, pure_eq_ok, not_not] at recorded
          obtain ⟨unsettled, booted, signature, target, rfl⟩ := recorded
          simp only [bind_unit_eq_ok, raiseIf_eq_ok, pure_eq_ok, not_not]
          exact ⟨not_false, unsettled, booted.trans same, signature, target, trivial⟩
    · simp [raiseIf, same]
      rfl

theorem turns_of_fed (active : s.activeBootId = some boot) (fed : Fed s.projection events q) :
    (∃ t, events.foldlM Projecting.turn s = .ok t ∧ t.projection = q ∧ t.activeBootId = some boot) ↔
      ∀ event ∈ events, event.bootId = boot := by
  induction events generalizing s with
  | nil =>
    cases fed
    simp [active]
  | cons event events ih =>
    obtain ⟨p, recorded, fed⟩ := fed_cons.1 fed
    have turned := turn_of_record active recorded
    rw [List.foldlM_cons, turned]
    by_cases same : event.bootId = boot
    · have rest := @ih { s with projection := p } active fed
      simpa [same] using rest
    · simp [same]

/-- A journal that was started stays so. -/
theorem turn_active (turned : s.turn event = .ok t) (active : s.activeBootId ≠ none) :
    t.activeBootId ≠ none := by
  unfold Projecting.turn at turned
  split at turned
  · simp only [bind_unit_eq_ok, pure_eq_ok] at turned
    obtain ⟨-, rfl⟩ := turned
    simp
  · simp only [bind_unit_eq_ok] at turned
    obtain ⟨-, turned⟩ := turned
    split at turned
    · simp only [bind_unit_eq_ok, pure_eq_ok] at turned
      obtain ⟨-, rfl⟩ := turned
      exact active
    · split at turned
      · cases turned
      · simp only [bind_unit_eq_ok, pure_eq_ok] at turned
        obtain ⟨-, -, -, -, rfl⟩ := turned
        exact active

/-- After its first event, an accepted journal has an active boot. -/
theorem projectJournal_eq_ok : projectJournal events boot = .ok p ↔
    events.head?.map (·.body.eventType) = some .streamStarted ∧
      ∃ t, events.foldlM Projecting.turn .start = .ok t ∧ t.projection = p ∧
        t.activeBootId = some boot := by
  unfold projectJournal
  simp only [bind_eq_ok, raiseIf_eq_ok, pure_eq_ok, not_not, exists_const]
  refine and_congr_right fun starts => exists_congr fun t => and_congr_right fun loop => ?_
  have active : t.activeBootId ≠ none := by
    cases events with
    | nil => cases starts
    | cons event events =>
      simp only [List.foldlM_cons, bind_eq_ok] at loop
      obtain ⟨s, first, rest⟩ := loop
      have started : s.activeBootId ≠ none := by
        simp only [List.head?_cons, Option.map_some, Option.some.injEq] at starts
        cases body : event.body <;> simp [body, EventBody.eventType] at starts
        simp only [Projecting.turn, body, EventBody.order, bind_unit_eq_ok, pure_eq_ok] at first
        obtain ⟨-, rfl⟩ := first
        simp
      exact foldlM_invariant (P := fun s => s.activeBootId ≠ none)
        (fun s event t active turned => turn_active turned active) started rest
  constructor
  · rintro ⟨current, rfl⟩
    exact ⟨rfl, by simpa [active] using current⟩
  · rintro ⟨rfl, current⟩
    exact ⟨by simp [current], rfl⟩

/-- Feeding an accepted journal more events is projecting the longer journal,
where and only where every event is of the current boot. -/
theorem projectJournal_append {more : List JournalEvent}
    (accepted : projectJournal events boot = .ok p)
    (fed : Fed p more q) :
    projectJournal (events ++ more) boot = .ok q ↔ ∀ event ∈ more, event.bootId = boot := by
  obtain ⟨starts, t, loop, rfl, active⟩ := projectJournal_eq_ok.1 accepted
  have headed : (events ++ more).head? = events.head? := by
    cases events with
    | nil => cases starts
    | cons => rfl
  rw [projectJournal_eq_ok, headed, List.foldlM_append, loop, ← turns_of_fed active fed]
  simp [starts]

end Batch

/-- The same journal is read: as far, and into the same projection. -/
structure SameJournal (c d : Client) : Prop where
  projection : d.projection = c.projection
  cursor : d.cursor = c.cursor
  history : d.history = c.history

/-- The client `d` has read these events after `c`. -/
structure Read (c : Client) (events : List JournalEvent) (d : Client) : Prop where
  history : d.history = c.history ++ events
  fed : Fed c.projection events d.projection
  cursor : d.cursor = cursorAfter c.cursor events

section Read

variable {c d e : Client} {events more : List JournalEvent}

theorem SameJournal.read (h : SameJournal c d) : Read c [] d :=
  ⟨by rw [h.history, List.append_nil], by rw [h.projection]; exact fed_nil _, h.cursor⟩

theorem Read.trans (first : Read c events d) (rest : Read d more e) : Read c (events ++ more) e :=
  ⟨by rw [rest.history, first.history, List.append_assoc], first.fed.append rest.fed,
    by rw [rest.cursor, first.cursor, cursorAfter_append]⟩

theorem setUnknown_journal (c : Client) (id : Text) : SameJournal c (c.setUnknown id) := by
  rw [Client.setUnknown, c.editPending_frame]
  exact ⟨rfl, rfl, rfl⟩

theorem applyEvent_records (config : Config) (event : JournalEvent) (c : Client) :
    wp (applyEvent config event) (fun _ d => c.projection.record event = .ok d.projection ∧
      d.cursor = c.cursor ∧ d.history = c.history) (fun _ => True) c := by
  have always {α : Type} {m : Call α} {Q : α → Client → Prop} {E : Client → Prop} {d : Client}
      (h : wp m Q E d) : wp m Q (fun _ => True) d :=
        wp_mono h (fun _ _ held => held) fun _ _ => trivial
  unfold applyEvent
  cases body : event.body with
  | streamStarted => trivial
  | submissionReserved order =>
    simp only [wp_bind, wp_discard]
    refine wp_mono (always recordReservation_spec) ?_ fun _ _ => trivial
    rintro - d ⟨p, recorded, rfl⟩
    refine wp_mono (always matchPending_spec) ?_ fun _ _ => trivial
    rintro pending d ⟨rfl, -⟩
    exact ⟨by simpa [JournalProjection.record, body, EventBody.order, EventBody.eventType], rfl,
      rfl⟩
  | orderUnknown order reason retcode =>
    have settles : c.projection.record event = c.projection.recordTerminal event order := by
      simp [JournalProjection.record, body, EventBody.order, EventBody.eventType]
    simp only [wp_bind, wp_discard]
    refine wp_mono (always recordTerminal_spec) ?_ fun _ _ => trivial
    rintro - d ⟨p, recorded, rfl⟩
    refine wp_mono (always matchPending_spec) ?_ fun _ _ => trivial
    rintro pending d ⟨rfl, -⟩
    have kept := setUnknown_journal { c with projection := p } order.clientRequestId
    exact ⟨by rw [settles, recorded]; exact congrArg _ kept.projection.symm, kept.cursor,
      kept.history⟩
  | orderRejected order reason retcode =>
    have settles : c.projection.record event = c.projection.recordTerminal event order := by
      simp [JournalProjection.record, body, EventBody.order, EventBody.eventType]
    simp only [wp_bind]
    refine wp_mono (always recordTerminal_spec) ?_ fun _ _ => trivial
    rintro - d ⟨p, recorded, rfl⟩
    refine wp_mono (always rejectPending_spec) ?_ fun _ _ => trivial
    rintro - d ⟨pending, text, -, rfl⟩
    exact ⟨by rw [settles, recorded]; rfl, rfl, rfl⟩
  | orderFilled order fill =>
    have settles : c.projection.record event = c.projection.recordTerminal event order := by
      simp [JournalProjection.record, body, EventBody.order, EventBody.eventType]
    simp only [wp_bind]
    refine wp_mono (always recordTerminal_spec) ?_ fun _ _ => trivial
    rintro - d ⟨p, recorded, rfl⟩
    refine wp_mono (always applyFill_spec) ?_ fun _ _ => trivial
    rintro - d ⟨pending, held, native, -, -, -, rfl⟩
    exact ⟨by rw [settles, recorded]; rfl, rfl, rfl⟩

theorem applyEvents_reads (config : Config) (expected : Option JournalEvent)
    (events : List JournalEvent) (c : Client) :
    wp (applyEvents config expected events) (fun _ d => ∃ read, Read c read d)
      (fun _ => True) c := by
  induction events generalizing c with
  | nil => exact ⟨[], SameJournal.read ⟨rfl, rfl, rfl⟩⟩
  | cons event events ih =>
    simp only [applyEvents, wp_bind, wp_look, wp_raiseWhen, wp_ite, wp_pure, wp_change]
    refine ⟨fun _ => trivial, fun _ => ⟨fun _ => trivial, fun _ => ?_⟩⟩
    refine wp_mono (applyEvent_records config event c) ?_ fun _ _ => trivial
    rintro - d ⟨recorded, -, kept⟩
    have first : Read c [event]
        { d with cursor := event.eventSeq, history := d.history ++ [event] } :=
      ⟨by rw [kept], fed_cons.2 ⟨_, recorded, fed_nil _⟩, rfl⟩
    refine ⟨fun _ => ⟨_, first⟩, fun _ => wp_mono (ih _) ?_ fun _ _ => trivial⟩
    rintro - e ⟨rest, read⟩
    exact ⟨_, first.trans read⟩

end Read

/-- Between its own steps, others leave the client's journal alone. -/
def undisturbed : Discipline Client Unit Raised Reply where
  inv _ := True
  admits _ _ _ := True
  rely s t := SameJournal s.1 t.1
  guarantee _ _ := True

/-- Whatever others do. -/
def anyhow : Discipline Client Unit Raised Reply where
  inv _ := True
  admits _ _ _ := True
  rely _ _ := True
  guarantee _ _ := True

section Consume

variable {config : Config} {expected : Option JournalEvent} {c : Client} {since : Client}
  {now : Client × Unit}

theorem reachedTarget_reads (read : ∃ events, Read c events now.1) :
    (reachedTarget expected).Safe undisturbed
      (fun result _ last => result = .ok () → ∃ events, Read c events last.1) since now := by
  unfold reachedTarget
  split
  · rintro ⟨⟩
  · exact fun _ => read

theorem consumePages_reads {identity : Identity} {pages : ℕ} {target : Option ℕ}
    (read : ∃ events, Read c events now.1) :
    (consumePages config expected identity pages target).Safe undisturbed
      (fun result _ last => result = .ok () → ∃ events, Read c events last.1) since now := by
  induction pages generalizing target since now with
  | zero => rintro ⟨⟩
  | succ pages ih =>
    unfold consumePages
    simp only [safe_bind, safe_look, either_ok, safe_ite, safe_executionEvents]
    refine ⟨fun _ => reachedTarget_reads read, fun _ => ⟨trivial, trivial, ?_⟩⟩
    rintro later (e | page) kept - -
    · rintro ⟨⟩
    obtain ⟨events, read⟩ := read
    have read := read.trans (SameJournal.read kept)
    simp only [either_ok, safe_bind, safe_check]
    cases validatePageIdentity page identity with
    | error e => rintro ⟨⟩
    | ok =>
      simp only [either_ok, safe_bind, safe_check]
      cases pageTarget expected target page with
      | error e => rintro ⟨⟩
      | ok target =>
        simp only [either_ok, safe_bind]
        refine safe_perform_of_wp (applyEvents_reads config expected page.events later.1) ?_ ?_
        · rintro reached d ⟨more, applied⟩
          have read := read.trans applied
          simp only [either_ok, safe_ite, safe_bind, safe_look, safe_raise, safe_pure]
          exact ⟨fun _ _ => ⟨_, read⟩, fun _ => ⟨fun _ => reachedTarget_reads ⟨_, read⟩,
            fun _ => ⟨fun _ => (by rintro ⟨⟩), fun _ => ih ⟨_, read⟩⟩⟩⟩
        · rintro e d - ⟨⟩

theorem withPaginationTimeout_safe {body : Task Unit} {P : Client × Unit → Prop}
    (h : body.Safe undisturbed (fun result _ last => result = .ok () → P last) since now) :
    (withPaginationTimeout body).Safe undisturbed (fun result _ last => result = .ok () → P last)
      since now := by
  unfold withPaginationTimeout
  rw [safe_tryCatch]
  refine h.mono ?_
  rintro (e | a) since last held
  · cases e <;> rintro ⟨⟩
  · exact fun _ => held rfl

/-- A call that returns has read some events, and only read. -/
theorem consumeEventPages_reads (c : Client) :
    (consumeEventPages config expected).Safe undisturbed
      (fun result _ last => result = .ok () → ∃ events, Read c events last.1) since (c, ()) := by
  unfold consumeEventPages
  simp only [safe_bind, safe_perform, currentIdentity]
  cases c.requireIdentity with
  | error e => rintro ⟨⟩
  | ok identity =>
    exact withPaginationTimeout_safe
      (consumePages_reads ⟨[], SameJournal.read ⟨rfl, rfl, rfl⟩⟩)

/-- The events were read by calls of `_consume_event_pages` that returned, with
anything between them that leaves the journal alone. -/
inductive Consumes (config : Config) : Client → Client → Prop
  | idle {c d : Client} : SameJournal c d → Consumes config c d
  | call {c d : Client} {expected : Option JournalEvent} :
      (consumeEventPages config expected).Ends undisturbed (c, ()) (.ok ()) (d, ()) →
      Consumes config c d
  | next {c d e : Client} : Consumes config c d → Consumes config d e → Consumes config c e

theorem Consumes.reads {d : Client} (h : Consumes config c d) : ∃ events, Read c events d := by
  induction h with
  | idle same => exact ⟨[], same.read⟩
  | @call c d expected ends =>
    obtain ⟨since, read⟩ := (@consumeEventPages_reads config expected c c).ends ends
    exact read rfl
  | next _ _ first rest =>
    obtain ⟨events, read⟩ := first
    obtain ⟨more, rest⟩ := rest
    exact ⟨_, read.trans rest⟩

end Consume

section Connect

variable {config : Config} {since : Client} {now : Client × Unit}

/-- The client has projected the whole of its journal, for its current boot. -/
def Installed (c : Client) (boot : Text) : Prop :=
  projectJournal c.history boot = .ok c.projection ∧ c.cursor = cursorAfter ['0'] c.history

theorem readEvents_cursor {r s : Reading} {events : List JournalEvent}
    (start : r.cursor = cursorAfter ['0'] r.events) (loop : events.foldlM readEvent r = .ok s) :
    s.cursor = cursorAfter ['0'] s.events := by
  refine foldlM_invariant (P := fun r : Reading => r.cursor = cursorAfter ['0'] r.events) ?_ start
    loop
  intro r event s _ turned
  simp only [readEvent, bind_unit_eq_ok, pure_eq_ok] at turned
  obtain ⟨-, rfl⟩ := turned
  simp [cursorAfter]

theorem readPage_cursor {identity : Identity} {r s : Reading} {page : EventPage}
    (start : r.cursor = cursorAfter ['0'] r.events) (turned : readPage identity r page = .ok s) :
    s.cursor = cursorAfter ['0'] s.events := by
  simp only [readPage, bind_eq_ok, pure_eq_ok] at turned
  obtain ⟨_, -, _, -, _, -, s, loop, _, -, _, -, rfl⟩ := turned
  exact readEvents_cursor (r := { r with lastCursor := some page.lastCursor }) start loop

theorem readPages_cursor {identity : Identity} {pages : ℕ} {r : Reading}
    (start : r.cursor = cursorAfter ['0'] r.events) :
    (readPages config identity pages r).Safe anyhow (either
      (fun journal _ _ => journal.2 = cursorAfter ['0'] journal.1) fun _ _ _ => True)
      since now := by
  induction pages generalizing r since now with
  | zero => trivial
  | succ pages ih =>
    simp only [readPages, safe_bind, safe_executionEvents]
    refine ⟨trivial, trivial, ?_⟩
    rintro later (e | page) - - -
    · trivial
    simp only [either_ok, safe_bind, safe_check]
    cases turned : readPage identity r page with
    | error e => trivial
    | ok s =>
      have next := readPage_cursor start turned
      simp only [either_ok, safe_ite, safe_pure]
      exact ⟨fun _ => ih next, fun _ => next⟩

theorem recoverPending_journal (id : Text) (c : Client) : wp (recoverPending config id)
    (fun _ d => SameJournal c d ∧ d.identity = c.identity) (fun _ => True) c := by
  unfold recoverPending
  simp only [wp_bind, wp_look]
  split
  · exact ⟨⟨rfl, rfl, rfl⟩, rfl⟩
  · split
    · rename_i order _ _ _
      simp only [wp_bind, wp_discard, wp_change]
      refine wp_mono matchPending_spec ?_ fun _ _ => trivial
      rintro pending d ⟨rfl, -⟩
      refine ⟨setUnknown_journal d _, ?_⟩
      rw [Client.setUnknown, d.editPending_frame]
    · refine wp_mono rejectPending_spec ?_ fun _ _ => trivial
      rintro - d ⟨pending, text, -, rfl⟩
      exact ⟨⟨rfl, rfl, rfl⟩, rfl⟩
    · refine wp_mono applyFill_spec ?_ fun _ _ => trivial
      rintro - d ⟨pending, held, native, -, -, -, rfl⟩
      exact ⟨⟨rfl, rfl, rfl⟩, rfl⟩
    · exact ⟨⟨rfl, rfl, rfl⟩, rfl⟩

theorem install_installs {identity : Identity} {recovery : RecoveryState} {snapshot : Snapshot}
    {events : List JournalEvent} {cursor : Text} (ends : cursor = cursorAfter ['0'] events)
    (c : Client) : wp (install config identity recovery snapshot events cursor)
      (fun _ d => d.identity = some identity ∧ Installed d identity.bootId) (fun _ => True) c := by
  simp only [install, wp_bind, wp_check, wp_change, recoverLocalPendingFromJournal, wp_look]
  refine ⟨fun _ _ => trivial, fun projection accepted => ?_⟩
  refine wp_mono (installSnapshot_unmoved config _ snapshot) ?_ fun _ _ => trivial
  rintro - d ⟨unmoved, -⟩
  have turn : ∀ id ∈ d.pending.keys, ∀ e : Client,
      (e.identity = some identity ∧ Installed e identity.bootId) →
      wp (recoverPending config id)
        (fun _ f => f.identity = some identity ∧ Installed f identity.bootId) (fun _ => True)
          e := by
    rintro id - e ⟨named, installed⟩
    refine wp_mono (recoverPending_journal id e) ?_ fun _ _ => trivial
    rintro - f ⟨same, kept⟩
    refine ⟨kept.trans named, ?_⟩
    unfold Installed
    rw [same.history, same.projection, same.cursor]
    exact installed
  refine wp_mono (wp_each turn ⟨unmoved.identity, accepted, ends⟩) ?_ fun _ _ => trivial
  rintro - e ⟨named, installed⟩
  exact ⟨named, installed⟩

theorem readCompleteJournal_cursor {identity : Identity} :
    (readCompleteJournal config identity).Safe anyhow (either
      (fun journal _ _ => journal.2 = cursorAfter ['0'] journal.1) fun _ _ _ => True)
      since now := by
  unfold readCompleteJournal withPaginationTimeout
  rw [safe_tryCatch]
  refine (readPages_cursor rfl).mono ?_
  rintro (e | journal) _ _ held
  · cases e <;> trivial
  · exact held

theorem connecting_installs : (connecting config).Safe anyhow (either
    (fun _ _ last => ∃ identity, last.1.identity = some identity ∧ Installed last.1 identity.bootId)
    fun _ _ _ => True) since now := by
  unfold connecting
  simp only [safe_bind, safe_open]
  refine ⟨trivial, trivial, ?_⟩
  rintro now (e | -) - - -
  · trivial
  simp only [either_ok, safe_bind, safe_hello]
  refine ⟨trivial, trivial, ?_⟩
  rintro now (e | ⟨identity, recovery⟩) - - -
  · trivial
  simp only [either_ok, safe_bind, safe_check]
  refine either_of (fun _ _ => ?_) fun _ _ => trivial
  simp only [safe_bind, safe_look, either_ok, safe_check]
  refine either_of (fun _ _ => ?_) fun _ _ => trivial
  rw [safe_bind]
  refine readCompleteJournal_cursor.mono ?_
  rintro (e | ⟨events, cursor⟩) _ now ends
  · trivial
  simp only [either_ok, safe_bind, safe_snapshot]
  refine ⟨trivial, trivial, ?_⟩
  rintro now (e | snapshot) - - -
  · trivial
  simp only [either_ok, safe_bind, safe_check, verifyUnchangedJournalTail]
  refine either_of (fun _ _ => ?_) fun _ _ => trivial
  simp only [safe_bind, safe_executionEvents]
  refine ⟨trivial, trivial, ?_⟩
  rintro now (e | page) - - -
  · trivial
  simp only [either_ok, safe_check]
  refine either_of (fun _ _ => ?_) fun _ _ => trivial
  refine safe_perform_of_wp (install_installs ends now.1) ?_ fun _ _ _ => trivial
  rintro - d ⟨named, installed⟩
  exact ⟨identity, named, installed⟩

/-- A connection that succeeds has installed an accepted journal. -/
theorem connect_installs : (connect config).Safe anyhow (fun result _ last => result = .ok () →
    ∃ identity, last.1.identity = some identity ∧ Installed last.1 identity.bootId) since now := by
  unfold connect
  rw [safe_tryCatch]
  refine connecting_installs.mono ?_
  rintro (e | _) _ _ held
  · rintro ⟨⟩
  · exact fun _ => held

end Connect

/-- Incremental and batch projection of one journal agree, and the batch accepts
it, where and only where every event read since the connection carries the boot
id of that connection. -/
theorem incremental_projection {config : Config} {c₀ c₁ c₂ : Client} {suffix : List JournalEvent}
    (connected : (connect config).Ends anyhow (c₀, ()) (.ok ()) (c₁, ()))
    (consumed : Consumes config c₁ c₂) (read : c₂.history = c₁.history ++ suffix) :
    ∃ identity, c₁.identity = some identity ∧
      projectJournal c₁.history identity.bootId = .ok c₁.projection ∧
      (projectJournal (c₁.history ++ suffix) identity.bootId = .ok c₂.projection ∧
        c₂.cursor = cursorAfter ['0'] (c₁.history ++ suffix) ↔
      ∀ event ∈ suffix, event.bootId = identity.bootId) := by
  obtain ⟨since, installed⟩ := (@connect_installs config c₀ (c₀, ())).ends connected
  obtain ⟨identity, named, accepted, start⟩ := installed rfl
  obtain ⟨events, after⟩ := consumed.reads
  obtain rfl : events = suffix := List.append_cancel_left (after.history.symm.trans read)
  refine ⟨identity, named, accepted, ?_⟩
  rw [← projectJournal_append accepted after.fed, and_iff_left]
  rw [after.cursor, start, cursorAfter_append]

section Demo

/-- Ounces are lots of a hundred, and money is taken as it is. -/
def demoInstrument : Instrument := ⟨100, some, some⟩

/-- Of login 1 at the server `Demo`. -/
def demoAccountId : Text :=
  "mt5-sha256-f45a430e456c604c82d9eaea6f4c87da97e27557ee93390498ad3b25b0550010".toList

def demoConfig : Config where
  instrumentId := "XAUUSD.MT5".toList
  expectedAccountId := demoAccountId
  expectedSymbol := "XAUUSD".toList
  expectedMagic := ['7']
  expectedEaBuildId := "E-1".toList
  expectedSourceSha256 := List.replicate 64 'f'
  expectedMaxOrderLots := 1
  expectedStreamId := "S-1".toList
  expectedServerTimezone := "Europe/Athens".toList
  snapshotRefreshIntervalMs := 1000
  eventPageLimit := 100
  eventPaginationMaxPages := 10
  usd := some
  balances _ _ _ := true

def demoIdentity : Identity where
  accountId := demoAccountId
  brokerServer := "Demo".toList
  brokerLogin := ['1']
  serverTimezone := "Europe/Athens".toList
  symbol := "XAUUSD".toList
  terminalBuild := 4000
  eaBuildId := "E-1".toList
  declaredSourceSha256 := List.replicate 64 'f'
  streamId := "S-1".toList
  bootId := "B-1".toList
  magic := ['7']
  executionEnabled := true

def demoSnapshot : Snapshot where
  identity := demoIdentity
  executionEnabled := true
  recoveryState := .ready
  account := ⟨"USD".toList, "1000".toList, "1000".toList, ['0'], "1000".toList, ['0'], 100⟩
  maxOrderLots := ['1']
  symbolSpec := ⟨"XAUUSD".toList, "100".toList, "XAU".toList, "USD".toList, "USD".toList, 2, 1, 127,
    "0.01".toList, "0.01".toList, 0, 4, "50".toList, "0.01".toList, "0.01".toList⟩
  positions := []
  observedUtcMs := ['1']

def demoStarted : JournalEvent :=
  ⟨['1'], ['1'], "S-1".toList, "B-1".toList, .streamStarted "E-1".toList true⟩

/-- The reservation of one hundredth of a lot, under this boot id. -/
def demoReserved (bootId : Text) : JournalEvent :=
  ⟨['2'], ['2'], "S-1".toList, bootId,
    .submissionReserved ⟨"X-1".toList, .buy, "0.01".toList, [], []⟩⟩

def demoPage (events : List JournalEvent) (last : Text) : EventPage :=
  ⟨demoIdentity, "S-1".toList, ['0'], last, last, false, events⟩

def demoAnswers : List ((w : Wait) × Except Raised (Reply w)) :=
  [⟨.open, .ok ()⟩, ⟨.hello, .ok (demoIdentity, .ready)⟩,
    ⟨.executionEvents demoIdentity.binding ['0'] 100, .ok (demoPage [demoStarted] ['1'])⟩,
    ⟨.snapshot demoIdentity.binding, .ok demoSnapshot⟩,
    ⟨.executionEvents demoIdentity.binding ['1'] 100, .ok (demoPage [] ['1'])⟩]

def demoStart : Client := .initial ⟨0, 0, some demoInstrument⟩

def demoConnected : Client := (connect demoConfig).left demoAnswers demoStart

def demoOrder : Order where
  strategyId := "ARB".toList
  instrumentId := "XAUUSD.MT5".toList
  clientOrderId := "X-1".toList
  orderType := .market
  timeInForce := .fok
  isReduceOnly := false
  isQuoteQuantity := false
  hasExecAlgorithm := false
  side := .buy
  quantity := 1

/-- The connected client waits for the order's outcome. -/
def demoWaiting : Client :=
  { demoConnected with
    pending := Dict.empty.set "X-1".toList ⟨demoOrder, demoInstrument, 1 / 100, none, false, false⟩
      }

def demoPoll (bootId : Text) : List ((w : Wait) × Except Raised (Reply w)) :=
  [⟨.executionEvents demoIdentity.binding ['1'] 100, .ok (demoPage [demoReserved bootId] ['2'])⟩]

def demoRead (bootId : Text) : Client :=
  (consumeEventPages demoConfig none).left (demoPoll bootId) demoWaiting

theorem demo_connects :
    (connect demoConfig).Ends anyhow (demoStart, ()) (.ok ()) (demoConnected, ()) := by
  have returned : (connect demoConfig).returns demoAnswers demoStart = true := by decide +kernel
  exact ends_of_returns (fun _ => trivial) (fun _ => trivial) (fun _ _ _ => trivial) () returned

theorem demo_consumes {bootId : Text}
    (returned : (consumeEventPages demoConfig none).returns (demoPoll bootId) demoWaiting = true) :
    Consumes demoConfig demoConnected (demoRead bootId) := by
  have pending : SameJournal demoConnected demoWaiting := ⟨rfl, rfl, rfl⟩
  refine .next (.idle pending) (@Consumes.call _ _ _ none ?_)
  exact ends_of_returns (D := undisturbed) (fun _ => ⟨rfl, rfl, rfl⟩) (fun _ => trivial)
    (fun _ _ _ => trivial) () returned

/-- A reservation under another boot id is read without an error, and no batch
projection accepts the journal. -/
theorem foreign_boot_read :
    (connect demoConfig).Ends anyhow (demoStart, ()) (.ok ()) (demoConnected, ()) ∧
    Consumes demoConfig demoConnected (demoRead "B-2".toList) ∧
    (demoRead "B-2".toList).history = demoConnected.history ++ [demoReserved "B-2".toList] ∧
    demoConnected.identity = some demoIdentity ∧
    projectJournal demoConnected.history demoIdentity.bootId = .ok demoConnected.projection ∧
    projectJournal (demoRead "B-2".toList).history demoIdentity.bootId =
      .error (.executionError "execution event belongs to an inactive EA boot") := by
  refine ⟨demo_connects, demo_consumes (by decide +kernel), ?_, ?_, ?_, ?_⟩ <;> decide +kernel

/-- Under its own boot id the same reservation is accepted. -/
theorem own_boot_accepted :
    projectJournal (demoConnected.history ++ [demoReserved "B-1".toList]) "B-1".toList =
      .ok (demoRead "B-1".toList).projection := by
  have read : (demoRead "B-1".toList).history =
      demoConnected.history ++ [demoReserved "B-1".toList] := by decide +kernel
  have bound : demoConnected.identity = some demoIdentity := by decide +kernel
  obtain ⟨identity, named, -, agrees⟩ := incremental_projection demo_connects
    (demo_consumes (by decide +kernel)) read
  obtain rfl : identity = demoIdentity := Option.some.inj (named.symm.trans bound)
  exact (agrees.2 (by decide +kernel)).1

end Demo

end ArbNautilus.Mt5
