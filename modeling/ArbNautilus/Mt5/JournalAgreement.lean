import ArbNautilus.Journal.Boots
import ArbNautilus.Mt5.Interleaving
import ArbNautilus.Mt5.JournalRead

/-! The expert's journal as its client projects it. -/

namespace ArbNautilus.Mt5

open Base Journal

section History

variable {events : List JournalEvent} {event : JournalEvent} {order : Submission}

theorem reservedEvent_concat (events : List JournalEvent) (event : JournalEvent) (id : Text) :
    reservedEvent (events ++ [event]) id =
      (reservedEvent events id).or (if event.reserves id then some event else none) := by
  rw [reservedEvent, List.find?_append, List.find?_singleton, reservedEvent]

theorem outcomeEvent_concat (events : List JournalEvent) (event : JournalEvent) (id : Text) :
    outcomeEvent (events ++ [event]) id =
      (outcomeEvent events id).or (if event.settles id then some event else none) := by
  rw [outcomeEvent, List.find?_append, List.find?_singleton, outcomeEvent]

/-- What the expert checks of a terminal event. -/
theorem validEvent_terminal (valid : validEvent events event = true)
    (about : event.body.order = some order) (terminal : event.body.eventType.isTerminal = true) :
    order.closeTargetValid = true ∧
      (∀ other ∈ events, other.settles order.clientRequestId = false) ∧
      ∃ reservation ∈ events, reservation.reserves order.clientRequestId = true ∧
        reservation.body.order = some order := by
  have settled : validEvent.settled events order = true := by
    cases body : event.body with
    | streamStarted | submissionReserved =>
      rw [body] at terminal
      cases terminal
    | orderRejected own | orderUnknown own =>
      rw [body] at about
      cases about
      simpa only [validEvent, body] using valid
    | orderFilled own fill =>
      rw [body] at about
      cases about
      simp only [validEvent, body, Bool.and_eq_true] at valid
      exact valid.1
  simp only [validEvent.settled, Bool.and_eq_true, List.all_eq_true, Bool.not_eq_true'] at settled
  obtain ⟨⟨target, unsettled⟩, reserved⟩ := settled
  refine ⟨target, unsettled, ?_⟩
  split at reserved
  · cases reserved
  · rename_i reservation found
    obtain ⟨member, reserves⟩ := List.mem_filter.1 (List.mem_of_getLast? found)
    exact ⟨reservation, member, reserves, beq_iff_eq.1 reserved⟩

theorem reserves_body {id : Text} (reserves : event.reserves id = true)
    (about : event.body.order = some order) : event.body = .submissionReserved order := by
  simp only [JournalEvent.reserves, Bool.and_eq_true, beq_iff_eq] at reserves
  cases body : event.body <;> rw [body] at reserves about <;> cases reserves.1
  cases about
  rfl

end History

section Project

/-- What the projection has read is what the expert looks up. -/
structure Mirrors (events : List JournalEvent) (s : Projecting) : Prop where
  reservations : ∀ id, s.projection.reservations.get? id = reservedEvent events id
  terminals : ∀ id, s.projection.terminals.get? id = outcomeEvent events id
  bootIds : ∀ boot, boot ∈ s.bootIds ↔ boot ∈ startedBoots events
  active : s.activeBootId = currentBoot events

variable {events : List JournalEvent} {event : JournalEvent} {s : Projecting}

theorem turn_started (mirrors : Mirrors events s) (valid : validEvent events event = true)
    (start : event.body.order = none) :
    ∃ t, s.turn event = .ok t ∧ Mirrors (events ++ [event]) t := by
  have type := EventBody.order_eq_none.1 start
  have new : event.bootId ∉ s.bootIds := by
    rw [mirrors.bootIds]
    intro old
    obtain ⟨other, kept, same⟩ := List.mem_map.1 old
    obtain ⟨member, started⟩ := List.mem_filter.1 kept
    cases body : event.body <;> rw [body] at type <;> cases type
    simp only [validEvent, body] at valid
    have apart := List.all_eq_true.1 valid other member
    simp [same, beq_iff_eq.1 started] at apart
  have reserves (id : Text) : event.reserves id = false := by
    simp [JournalEvent.reserves, JournalEvent.isFor, start]
  have settles (id : Text) : event.settles id = false := by
    simp [JournalEvent.settles, JournalEvent.isFor, start]
  refine ⟨{ s with bootIds := event.bootId :: s.bootIds, activeBootId := some event.bootId },
    ?_, ?_⟩
  · unfold Projecting.turn
    rw [start]
    simp [raiseIf, new]
  · constructor
    · intro id
      rw [reservedEvent_concat, reserves]
      simpa using mirrors.reservations id
    · intro id
      rw [outcomeEvent_concat, settles]
      simpa using mirrors.terminals id
    · intro boot
      simp [startedBoots, type, mirrors.bootIds boot, or_comm]
    · exact (currentBoot_started start events).symm

theorem turn_reserved {order : Submission} (mirrors : Mirrors events s)
    (valid : validEvent events event = true) (joins : Joins events event)
    (about : event.body = .submissionReserved order) :
    ∃ t, s.turn event = .ok t ∧ Mirrors (events ++ [event]) t := by
  have body : event.body.order = some order := by rw [about]; rfl
  have current := (joins order body).1
  have fresh : reservedEvent events order.clientRequestId = none ∧
      outcomeEvent events order.clientRequestId = none := by
    simp only [validEvent, about, Bool.and_eq_true, List.all_eq_true] at valid
    constructor
    · refine List.find?_eq_none.2 fun other member reserves => ?_
      have apart := valid.2 other member
      simp only [JournalEvent.reserves, Bool.and_eq_true, beq_iff_eq] at reserves
      simp [EventType.isOrderEvent, reserves.1, reserves.2] at apart
    · refine List.find?_eq_none.2 fun other member settles => ?_
      have apart := valid.2 other member
      simp only [JournalEvent.settles, Bool.and_eq_true] at settles
      simp [EventType.isOrderEvent, settles.1, settles.2] at apart
  have unseen : order.clientRequestId ∉ s.projection.reservations.keys ∧
      order.clientRequestId ∉ s.projection.terminals.keys := by
    rw [← Dict.get?_eq_none_iff, ← Dict.get?_eq_none_iff, mirrors.reservations, mirrors.terminals]
    exact fresh
  have reserves (id : Text) : event.reserves id = (order.clientRequestId == id) := by
    simp [JournalEvent.reserves, JournalEvent.isFor, about, EventBody.eventType, EventBody.order]
  have settles (id : Text) : event.settles id = false := by
    simp [JournalEvent.settles, about, EventBody.eventType, EventType.isTerminal]
  refine ⟨{ s with projection := s.projection.reserve order.clientRequestId event }, ?_, ?_⟩
  · unfold Projecting.turn
    rw [body]
    simp [raiseIf, mirrors.active, current, unseen, about, EventBody.eventType]
  · constructor
    · intro id
      change (s.projection.reservations.set order.clientRequestId event).get? id = _
      rw [Dict.get?_set, mirrors.reservations, reservedEvent_concat, reserves]
      by_cases same : order.clientRequestId = id
      · simp [← same, fresh.1]
      · simp [same]
    · intro id
      change s.projection.terminals.get? id = _
      rw [outcomeEvent_concat, settles]
      simpa using mirrors.terminals id
    · intro boot
      simpa [startedBoots, about, EventBody.eventType] using mirrors.bootIds boot
    · rw [currentBoot_order body]
      exact mirrors.active

/-- The position a fill closes is the one its reservation names. -/
theorem validateCloseFillTarget_filled {reservation : JournalEvent} {order : Submission}
    {body : EventBody} (same : reservation.body.order = some order)
    (target : order.closeTargetValid = true) (about : body.order = some order)
    (fills : FillsTarget body) : validateCloseFillTarget reservation body = pure () := by
  unfold validateCloseFillTarget
  rw [same, Option.bind_some]
  split
  · rename_i own fill closes
    cases about
    unfold optionalField at closes
    split at closes
    · cases closes
    · rename_i present
      cases closes
      have both : order.hasCloseTarget = true := by
        have identifier := List.length_pos_iff.2 present
        simp only [Submission.closeTargetValid, Bool.and_eq_true, identifier, decide_true,
          beq_true, decide_eq_true_eq] at target
        simp [Submission.hasCloseTarget, identifier, target.1]
      exact if_neg (not_not.2 (fills both))
  · rfl

theorem turn_terminal {order : Submission} (mirrors : Mirrors events s)
    (history : validHistory [] events = true) (valid : validEvent events event = true)
    (fills : FillsTarget event.body) (joins : Joins events event)
    (about : event.body.order = some order) (terminal : event.body.eventType.isTerminal = true) :
    ∃ t, s.turn event = .ok t ∧ Mirrors (events ++ [event]) t := by
  obtain ⟨target, unsettled, reservation, member, reserves, same⟩ :=
    validEvent_terminal valid about terminal
  obtain ⟨current, own⟩ := joins order about
  have booted := own terminal reservation member reserves
  have body := reserves_body reserves same
  have reserved := reservedEvent_unique history member body
  have found : s.projection.reservations.get? order.clientRequestId = some reservation :=
    (mirrors.reservations _).trans reserved
  have fresh : outcomeEvent events order.clientRequestId = none :=
    List.find?_eq_none.2 fun other member settles => by
      rw [unsettled other member] at settles
      cases settles
  have unseen : order.clientRequestId ∉ s.projection.terminals.keys := by
    rw [← Dict.get?_eq_none_iff, mirrors.terminals]
    exact fresh
  have other : event.body.eventType ≠ .submissionReserved := by
    intro type
    rw [type] at terminal
    cases terminal
  have closes : validateCloseFillTarget reservation event.body = pure () :=
    validateCloseFillTarget_filled same target about fills
  have reserves' (id : Text) : event.reserves id = false := by
    simp [JournalEvent.reserves, other]
  have settles (id : Text) : event.settles id = (order.clientRequestId == id) := by
    simp [JournalEvent.settles, JournalEvent.isFor, about, terminal]
  have known := (Dict.mem_keys_iff _ _).2 ⟨reservation, found⟩
  refine ⟨{ s with projection := s.projection.settle order.clientRequestId event known }, ?_, ?_⟩
  · unfold Projecting.turn
    rw [about]
    dsimp only
    rw [if_neg other]
    split
    · rename_i missing
      rw [found] at missing
      cases missing
    · rename_i reservation' found'
      rw [found] at found'
      cases found'
      simp [raiseIf, mirrors.active, current, unseen, booted, same, closes]
  · constructor
    · intro id
      change s.projection.reservations.get? id = _
      rw [reservedEvent_concat, reserves']
      simpa using mirrors.reservations id
    · intro id
      change (s.projection.terminals.set order.clientRequestId event).get? id = _
      rw [Dict.get?_set, mirrors.terminals, outcomeEvent_concat, settles]
      by_cases same : order.clientRequestId = id
      · simp [← same, fresh]
      · simp [same]
    · intro boot
      have start : event.body.eventType ≠ .streamStarted := by
        intro type
        rw [type] at terminal
        cases terminal
      simpa [startedBoots, start] using mirrors.bootIds boot
    · rw [currentBoot_order about]
      exact mirrors.active

theorem turn_mirrors (mirrors : Mirrors events s)
    (history : validHistory [] (events ++ [event]) = true) (joins : Joins events event) :
    ∃ t, s.turn event = .ok t ∧ Mirrors (events ++ [event]) t := by
  have fills := fillsTarget_of_history history event (by simp)
  have valid := validHistory_split events event [] history
  rw [validHistory_append, Bool.and_eq_true] at history
  cases body : event.body with
  | streamStarted => exact turn_started mirrors valid (by rw [body]; rfl)
  | submissionReserved order => exact turn_reserved mirrors valid joins body
  | orderRejected order | orderUnknown order | orderFilled order =>
    have about : event.body.order = some order := by rw [body]; rfl
    exact turn_terminal mirrors history.1 valid fills joins about (by rw [body]; rfl)

theorem mirrors_of_boots (boots : InBoots events) (history : validHistory [] events = true) :
    ∃ s, events.foldlM Projecting.turn .start = .ok s ∧ Mirrors events s := by
  induction boots with
  | nil => exact ⟨.start, rfl, fun _ => rfl, fun _ => rfl, fun _ => Iff.rfl, rfl⟩
  | @concat events event before joins ih =>
    have earlier := history
    rw [validHistory_append, Bool.and_eq_true] at earlier
    obtain ⟨s, loop, mirrors⟩ := ih earlier.1
    obtain ⟨t, turned, mirrors'⟩ := turn_mirrors mirrors history joins
    refine ⟨t, ?_, mirrors'⟩
    simpa [List.foldlM_append, loop] using turned

theorem starts_of_boots (boots : InBoots events) (some : events ≠ []) :
    events.head?.map (·.body.eventType) = .some .streamStarted := by
  induction boots with
  | nil => exact absurd rfl some
  | @concat events event before joins ih =>
    cases events with
    | nil =>
      cases body : event.body.order with
      | none => exact congrArg Option.some (EventBody.order_eq_none.1 body)
      | some order => cases (joins order body).1
    | cons first rest => exact ih (List.cons_ne_nil _ _)

/-- The projection of such a journal holds what the expert looks up. -/
theorem projectJournal_agrees {boot : Text} (boots : InBoots events)
    (history : validHistory [] events = true) (current : currentBoot events = some boot) :
    ∃ p, projectJournal events boot = .ok p ∧
      (∀ id, p.reservations.get? id = reservedEvent events id) ∧
      ∀ id, p.terminals.get? id = outcomeEvent events id := by
  obtain ⟨s, loop, mirrors⟩ := mirrors_of_boots boots history
  have some : events ≠ [] := by
    rintro rfl
    cases current
  exact ⟨s.projection, projectJournal_eq_ok.2 ⟨starts_of_boots boots some, s, loop, rfl,
    mirrors.active.trans current⟩, mirrors.reservations, mirrors.terminals⟩

end Project

section Holds

variable {p : JournalProjection} {events : List JournalEvent}

theorem mem_unknown {id : Text} : id ∈ p.unknown ↔
    ∃ event, p.terminals.get? id = some event ∧ event.body.eventType = .orderUnknown := by
  simp [JournalProjection.unknown, Dict.mem_entries_iff]

theorem mem_dangling {id : Text} : id ∈ p.dangling ↔
    (p.reservations.get? id).isSome = true ∧ p.terminals.get? id = none := by
  simp [JournalProjection.dangling, Dict.mem_keys_iff, Option.isSome_iff_exists,
    Option.eq_none_iff_forall_ne_some]

/-- Nothing is unknown and nothing dangles exactly where the expert's own check passes. -/
theorem recovered_iff (history : validHistory [] events = true)
    (reservations : ∀ id, p.reservations.get? id = reservedEvent events id)
    (terminals : ∀ id, p.terminals.get? id = outcomeEvent events id) :
    recovered events = true ↔ p.unknown = [] ∧ p.dangling = [] := by
  simp only [List.eq_nil_iff_forall_not_mem, mem_unknown, mem_dangling, reservations, terminals]
  constructor
  · intro done
    constructor
    · rintro id ⟨event, found, unknown⟩
      have settles := List.find?_some found
      obtain ⟨before, after, rfl⟩ := List.append_of_mem (List.mem_of_find?_eq_some found)
      have valid := validHistory_split before event after history
      simp only [JournalEvent.settles, Bool.and_eq_true] at settles
      obtain ⟨order, about, same⟩ := (Option.any_eq_true _ _).1 settles.2
      obtain rfl := beq_iff_eq.1 same
      obtain ⟨-, -, reservation, member, reserves, body⟩ :=
        validEvent_terminal valid about settles.1
      have own := List.all_eq_true.1 done reservation (List.mem_append_left _ member)
      simp only [reserves_body reserves body, found, Option.any_some, unknown,
        bne_self_eq_false] at own
      cases own
    · rintro id ⟨reserved, none⟩
      obtain ⟨reservation, found⟩ := Option.isSome_iff_exists.1 reserved
      have reserves := List.find?_some found
      have reserves' := reserves
      simp only [JournalEvent.reserves, Bool.and_eq_true] at reserves
      obtain ⟨order, about, same⟩ := (Option.any_eq_true _ _).1 reserves.2
      obtain rfl := beq_iff_eq.1 same
      obtain ⟨outcome, member, settles, -⟩ := recovered_outcome done
        (List.mem_of_find?_eq_some found) (reserves_body reserves' about)
      exact absurd settles (by simpa using List.find?_eq_none.1 none outcome member)
  · rintro ⟨known, settled⟩
    refine List.all_eq_true.2 fun event member => ?_
    split
    · rename_i order body
      have reserved := reservedEvent_unique history member body
      cases found : outcomeEvent events order.clientRequestId with
      | none => exact absurd ⟨by rw [reserved]; rfl, found⟩ (settled order.clientRequestId)
      | some outcome =>
        have other := fun unknown => known order.clientRequestId ⟨outcome, found, unknown⟩
        simpa using other
    · rfl

theorem holdReason_none (free : p.holdReason = none) : p.unknown = [] ∧ p.dangling = [] := by
  unfold JournalProjection.holdReason at free
  split at free
  · cases free
  · rename_i known
    split at free
    · cases free
    · rename_i settled
      exact ⟨not_not.1 known, not_not.1 settled⟩

end Holds

section Agreement

theorem journalReady_of_aboard {ea : Journal.Ea} (aboard : Aboard ea)
    (ready : ea.journalReady = true) :
    Codec.JournalReady ea where
  ready := ready
  safe := aboard.sound.safe
  first := by
    rw [aboard.zero]
    decide
  chained := aboard.chained
  served event member := ⟨aboard.sound.valid event member, aboard.stream event member,
    fillsTarget_of_history aboard.sound.history event member⟩
  boots := (startedBoots_nodup aboard.sound.history).1

/-- Over the whole life of a journal, whatever fails, is cut off or starts again: the client reads
the running expert's journal as it is, its projection accepts it and holds the expert's reservations
and outcomes, and it is free of holds only where the expert takes submissions or has since its start
answered one that left no reservation. -/
theorem journal_agreement {journalNamespace : Text} {w : World}
    (reached : Reachable journalNamespace w) {link : Link}
    (genuine : Codec.Genuine link.sha256 link.server) (running : w.process = some link.server.ea)
    (ready : link.server.ea.journalReady = true)
    (booted : link.server.identity.bootId = link.server.ea.bootId) {requestId : Text → Text}
    (named : ∀ cursor, visibleIdentifier (requestId cursor) 64 = true) {limit : ℕ}
    (positive : 1 ≤ limit) (small : limit ≤ 500) :
    currentBoot link.server.ea.events = some link.server.identity.bootId ∧
    ∃ needed ≤ max 1 link.server.ea.events.length, ∃ projection,
      (∀ (config : Config) (client : Client), config.eventPageLimit = limit →
        needed ≤ config.eventPaginationMaxPages →
        (readCompleteJournal config link.server.identity).answeredBy (link.answer requestId)
            client = (.ok (link.server.ea.events, lastCursor link.server.ea), client)) ∧
      projectJournal link.server.ea.events link.server.identity.bootId = .ok projection ∧
      (∀ id, projection.reservations.get? id = reservedEvent link.server.ea.events id ∧
        projection.terminals.get? id = outcomeEvent link.server.ea.events id) ∧
      (∀ id, id ∈ projection.unknown ↔ ∃ outcome,
        outcomeEvent link.server.ea.events id = some outcome ∧
          outcome.body.eventType = .orderUnknown) ∧
      (∀ id, id ∈ projection.dangling ↔
        (reservedEvent link.server.ea.events id).isSome = true ∧
          outcomeEvent link.server.ea.events id = none) ∧
      (link.server.ea.recoveryReady = true → projection.unknown = [] ∧ projection.dangling = []) ∧
      (projection.holdReason = none →
        link.server.ea.recoveryReady = true ∨ Unreserved journalNamespace w) := by
  have docked := reached.docked
  have aboard := docked.aboard _ running ready
  have settled := (reached.kept.live _ running ready).settled
  have history := aboard.sound.history
  obtain ⟨needed, bound, reads⟩ := readCompleteJournal_answered genuine
    (journalReady_of_aboard aboard ready) aboard.zero named positive small
  have current := aboard.current
  rw [← booted] at current
  obtain ⟨projection, projected, reservations, terminals⟩ :=
    projectJournal_agrees aboard.boots history current
  have recovers := recovered_iff history reservations terminals
  refine ⟨current, needed, bound, projection, fun config client limited enough => ?_, projected,
    fun id => ⟨reservations id, terminals id⟩, fun id => ?_, fun id => ?_,
    fun recovery => recovers.1 (settled recovery), fun free => ?_⟩
  · rw [reads config client limited, if_pos enough]
  · rw [mem_unknown, terminals]
  · rw [mem_dangling, reservations, terminals]
  · cases recovery : link.server.ea.recoveryReady with
    | true => exact .inl rfl
    | false =>
      rcases docked.stalled _ running ready recovery with pending | unreserved
      · rw [recovers.2 (holdReason_none free)] at pending
        cases pending
      · exact .inr unreserved

theorem journal_agreement_filled : ∃ needed ≤ 3, ∃ projection,
    (∀ (config : Config) (client : Client), config.eventPageLimit = 1 →
      needed ≤ config.eventPaginationMaxPages →
      (readCompleteJournal config demoEaIdentity).answeredBy
        ((demoLink filledEa).answer fun _ => "events-1".toList) client =
          (.ok (filledEa.events, "3".toList), client)) ∧
    projectJournal filledEa.events "boot-1".toList = .ok projection ∧
    "O-1".toList ∉ projection.unknown := by
  have reached := filledWorld_reachable
  have running : filledWorld.process = some filledEa := rfl
  have stream : filledEa.streamId = "stream-1".toList := by decide +kernel
  have ready : filledEa.journalReady = true := by decide +kernel
  have recovery : filledEa.recoveryReady = true := by decide +kernel
  have booted : demoEaIdentity.bootId = filledEa.bootId := by decide +kernel
  have named : visibleIdentifier "events-1".toList 64 = true := by decide +kernel
  have size : filledEa.events.length = 3 := by decide +kernel
  have last : lastCursor filledEa = "3".toList := by decide +kernel
  generalize filledWorld = w at reached running
  generalize filledEa = ea at stream ready recovery booted size last running ⊢
  obtain ⟨-, needed, bound, projection, reads, projected, -, -, -, settled, -⟩ :=
    @journal_agreement bootNamespace w reached (demoLink ea) (demoLink_genuine stream) running ready
      booted (fun _ => "events-1".toList) (fun _ => named) 1 (Nat.le_refl 1) (by decide)
  refine ⟨needed, ?_, projection, fun config client one enough => ?_, projected, ?_⟩
  · exact bound.trans (by change max 1 ea.events.length ≤ 3; omega)
  · exact last ▸ reads config client one enough
  · rw [(settled recovery).1]
    exact List.not_mem_nil

/-- The expert after a submission whose reservation the terminal refused to write. -/
def refusedEa : Journal.Ea :=
  (submit startedEa (buyRequest "O-1" "0.01") (fillingAnswers .refused)).ea

def refusedWorld : World :=
  startedWorld.submitted startedEa (buyRequest "O-1" "0.01") (fillingAnswers .refused)

/-- The refused reservation blocks the expert, and its journal does not show it. -/
theorem unreserved_free : ¬∀ (journalNamespace : Text) (w : World) (ea : Journal.Ea)
    (projection : JournalProjection), Reachable journalNamespace w → w.process = some ea →
      ea.journalReady = true → projectJournal ea.events ea.bootId = .ok projection →
      projection.holdReason = none → ea.recoveryReady = true := by
  intro claim
  have reached : Reachable bootNamespace refusedWorld :=
    .step (.step .empty (.start _ (bootAnswers "boot-1") rfl))
      (.submit _ startedEa (started_running (by decide +kernel)) _ _)
  have ready : refusedEa.journalReady = true := by decide +kernel
  have blocked : refusedEa.recoveryReady = false := by decide +kernel
  have free : (projectJournal refusedEa.events refusedEa.bootId).toOption.map (·.holdReason) =
      some none := by decide +kernel
  cases projected : projectJournal refusedEa.events refusedEa.bootId with
  | error e =>
    rw [projected] at free
    cases free
  | ok projection =>
    rw [projected] at free
    have recovery := claim bootNamespace refusedWorld refusedEa projection reached rfl ready
      projected (Option.some.inj free)
    rw [blocked] at recovery
    cases recovery

end Agreement

end ArbNautilus.Mt5
