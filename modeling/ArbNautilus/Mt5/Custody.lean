import ArbNautilus.Mt5.Calls
import ArbNautilus.Mt5.Tasks

namespace ArbNautilus.Mt5

open Base Journal Handler

/-- The order ids of the mutations sent, in order. -/
def sentIds (c : Client) : List Text := c.sent.map (·.mutation.clientRequestId)

/-- Every request the projection knows has one certain outcome, of its quantity. -/
structure JournalProjection.Settled (p : JournalProjection) : Prop where
  known : p.unknown = []
  complete : p.dangling = []
  whole : p.mismatchedFills = []

theorem JournalProjection.settled_of_holdReason {p : JournalProjection}
    (clear : p.holdReason = none) : p.Settled := by
  unfold holdReason at clear
  split_ifs at clear with unknown dangling mismatched
  exact ⟨not_not.1 unknown, not_not.1 dangling, not_not.1 mismatched⟩

/-- Who answers for the mutations sent, over the journal read from: each is
still pending, or the journal has reserved it. -/
structure Custody (c : Client) (J : List JournalEvent) : Prop where
  own : ∀ {k p}, c.pending.get? k = some p → p.order.clientOrderId = k
  reserved : ∀ {k e}, c.projection.reservations.get? k = some e → e ∈ J ∧ e.reserves k = true
  settled : ∀ {k e}, c.projection.terminals.get? k = some e → e ∈ J ∧ e.settles k = true
  single : c.pending.keys.length ≤ 1
  pendingSent : ∀ k ∈ c.pending.keys, k ∈ sentIds c
  sentOnce : (sentIds c).Nodup
  sentSeen : ∀ k ∈ sentIds c, k ∈ c.seenRequestIds
  sentKnown : ∀ k ∈ sentIds c, k ∈ c.pending.keys ∨ ∃ e ∈ J, e.reserves k = true
  outcomeOnce : (outcomes c.native).Nodup
  outcomeSent : ∀ k ∈ outcomes c.native, k ∈ sentIds c ∧ k ∉ c.pending.keys
  outcomeKnown : ∀ k ∈ outcomes c.native, ∃ e ∈ J, e.settles k = true
  admitted : c.executionHoldReason = none → c.identity ≠ none
  guarded : ∀ s ∈ c.sent, s.pending = [s.mutation.clientRequestId] ∧ s.projection.Settled

/-- Without a hold or a pending submission, the projection holds nothing back. -/
def Clean (c : Client) : Prop :=
  c.executionHoldReason = none → c.pending.keys = [] → c.projection.holdReason = none

section Hold

variable (c : Client)

theorem refreshHold_admits (free : c.refreshHold.executionHoldReason = none) :
    c.identity ≠ none ∧ c.projection.holdReason = none := by
  simp only [Client.refreshHold] at free
  split at free
  · rename_i clear
    simp only [Client.holdReasons, List.append_eq_nil_iff] at clear
    obtain ⟨⟨⟨⟨⟨bound, -⟩, projected⟩, -⟩, -⟩, -⟩ := clear
    refine ⟨fun unbound => ?_, by simpa using projected⟩
    simp [unbound] at bound
  · cases free

theorem clean_refreshHold : Clean c.refreshHold :=
  fun free _ => (refreshHold_admits c free).2

theorem clean_of_held (held : c.executionHoldReason ≠ none) : Clean c :=
  fun free => absurd free held

theorem clean_of_pending {c : Client} {k : Text} {p : Pending} (found : c.pending.get? k = some p) :
    Clean c := by
  intro _ idle
  have member := (Dict.mem_keys_iff _ _).2 ⟨p, found⟩
  rw [idle] at member
  cases member

end Hold

namespace Custody

variable {c d : Client} {J : List JournalEvent}

theorem initial (surroundings : Surroundings) : Custody (.initial surroundings) J where
  own := nofun
  reserved := nofun
  settled := nofun
  single := by simp [Client.initial]
  pendingSent := by simp [Client.initial]
  sentOnce := List.nodup_nil
  sentSeen := nofun
  sentKnown := nofun
  outcomeOnce := List.nodup_nil
  outcomeSent := nofun
  outcomeKnown := nofun
  admitted := nofun
  guarded := nofun

theorem grow {J' : List JournalEvent} (h : Custody c J) (grown : J <+: J') : Custody c J' where
  own := h.own
  reserved found := ⟨grown.subset (h.reserved found).1, (h.reserved found).2⟩
  settled found := ⟨grown.subset (h.settled found).1, (h.settled found).2⟩
  single := h.single
  pendingSent := h.pendingSent
  sentOnce := h.sentOnce
  sentSeen := h.sentSeen
  sentKnown k sent := (h.sentKnown k sent).imp_right fun ⟨e, member, reserves⟩ =>
    ⟨e, grown.subset member, reserves⟩
  outcomeOnce := h.outcomeOnce
  outcomeSent := h.outcomeSent
  outcomeKnown k out := (h.outcomeKnown k out).imp fun _ found => ⟨grown.subset found.1, found.2⟩
  admitted := h.admitted
  guarded := h.guarded

theorem unmoved (h : Custody c J) (same : Unmoved c d)
    (admitted : d.executionHoldReason = none → d.identity ≠ none) : Custody d J := by
  have ids : sentIds d = sentIds c := by rw [sentIds, sentIds, same.sent]
  constructor
  · rw [same.pending]
    exact h.own
  · rw [same.projection]
    exact h.reserved
  · rw [same.projection]
    exact h.settled
  · rw [same.pending]
    exact h.single
  · rw [same.pending, ids]
    exact h.pendingSent
  · rw [ids]
    exact h.sentOnce
  · rw [ids, same.seenRequestIds]
    exact h.sentSeen
  · rw [ids, same.pending]
    exact h.sentKnown
  · rw [same.outcomes]
    exact h.outcomeOnce
  · rw [same.outcomes, ids, same.pending]
    exact h.outcomeSent
  · rw [same.outcomes]
    exact h.outcomeKnown
  · exact admitted
  · rw [same.sent]
    exact h.guarded

theorem refreshHold (h : Custody c J) : Custody c.refreshHold J :=
  h.unmoved (unmoved_refreshHold c) fun free => (refreshHold_admits c free).1

/-- A request with a recorded outcome is reserved and settled in the journal. -/
theorem accounted (h : Custody c J) {k : Text} {e : JournalEvent}
    (found : c.projection.terminals.get? k = some e) :
    (∃ e ∈ J, e.settles k = true) ∧ ∃ e ∈ J, e.reserves k = true := by
  obtain ⟨r, reserved⟩ := (Dict.mem_keys_iff _ _).1
    (c.projection.reserved k ((Dict.mem_keys_iff _ _).2 ⟨e, found⟩))
  exact ⟨⟨e, h.settled found⟩, ⟨r, h.reserved reserved⟩⟩

theorem editPending (h : Custody c J) (id : Text) {f : Pending → Pending}
    (same : ∀ p, (f p).order = p.order) : Custody (c.editPending id f) J := by
  have keys := c.editPending_keys id f
  rw [c.editPending_frame id f]
  refine ⟨?_, h.reserved, h.settled, ?_, ?_, h.sentOnce, h.sentSeen, ?_, h.outcomeOnce, ?_,
    h.outcomeKnown, h.admitted, h.guarded⟩
  · intro k p found
    obtain ⟨old, was, rfl | rfl⟩ := c.editPending_get? id f found
    · exact h.own was
    · rw [same]
      exact h.own was
  · exact keys ▸ h.single
  · exact keys ▸ h.pendingSent
  · exact keys ▸ h.sentKnown
  · exact keys ▸ h.outcomeSent

theorem setUnknown (h : Custody c J) (id : Text) : Custody (c.setUnknown id) J :=
  h.editPending id fun _ => rfl

/-- The one outcome of a pending submission, which is pending no more. -/
theorem settle (h : Custody c J) {k : Text} {p : Pending} (found : c.pending.get? k = some p)
    (accounted : (∃ e ∈ J, e.settles k = true) ∧ ∃ e ∈ J, e.reserves k = true)
    {told : List NativeEvent} (outcome : outcomes told = [k]) {held : Client}
    (keys : held.pending.keys = c.pending.keys)
    (own : ∀ {k p}, held.pending.get? k = some p → p.order.clientOrderId = k) (valid : Bool) :
    Custody { c with
      accountSampleValid := valid
      native := c.native ++ told
      pending := held.pending.erase k } J := by
  have erased : ∀ k', k' ∈ (held.pending.erase k).keys ↔ k' ≠ k ∧ k' ∈ c.pending.keys := by
    intro k'
    rw [← keys, Dict.mem_keys_iff, Dict.mem_keys_iff]
    simp only [Dict.get?_erase]
    split
    · rename_i same
      simp [same]
    · rename_i apart
      simp [Ne.symm apart]
  have pending : k ∈ c.pending.keys := (Dict.mem_keys_iff _ _).2 ⟨p, found⟩
  have out : outcomes (c.native ++ told) = outcomes c.native ++ [k] := by
    rw [outcomes_append, outcome]
  have fresh : k ∉ outcomes c.native := fun old => (h.outcomeSent k old).2 pending
  refine ⟨?_, h.reserved, h.settled, ?_, ?_, h.sentOnce, h.sentSeen, ?_, ?_, ?_, ?_, h.admitted,
    h.guarded⟩
  · intro k' p' found'
    change (held.pending.erase k).get? k' = some p' at found'
    rw [Dict.get?_erase] at found'
    split at found'
    · cases found'
    · exact own found'
  · have sub : ((held.pending.erase k).keys).length ≤ held.pending.keys.length :=
      (List.filter_sublist.map Prod.fst).length_le
    rw [keys] at sub
    exact sub.trans h.single
  · exact fun k' member => h.pendingSent k' ((erased k').1 member).2
  · intro k' sent
    rcases h.sentKnown k' sent with waiting | known
    · by_cases same : k' = k
      · exact .inr (same ▸ accounted.2)
      · exact .inl ((erased k').2 ⟨same, waiting⟩)
    · exact .inr known
  · show (outcomes (c.native ++ told)).Nodup
    rw [out, List.nodup_append]
    refine ⟨h.outcomeOnce, List.nodup_singleton k, ?_⟩
    rintro a old b new rfl
    rw [List.mem_singleton] at new
    exact fresh (new ▸ old)
  · intro k' member
    change k' ∈ outcomes (c.native ++ told) at member
    rw [out, List.mem_append, List.mem_singleton] at member
    rcases member with old | rfl
    · exact ⟨(h.outcomeSent k' old).1, fun waiting =>
        (h.outcomeSent k' old).2 ((erased k').1 waiting).2⟩
    · exact ⟨h.pendingSent k' pending, fun waiting => ((erased k').1 waiting).1 rfl⟩
  · intro k' member
    change k' ∈ outcomes (c.native ++ told) at member
    rw [out, List.mem_append, List.mem_singleton] at member
    rcases member with old | rfl
    · exact h.outcomeKnown k' old
    · exact accounted.1

end Custody

/-- The call kept custody, sent nothing and left the lock alone. -/
structure Stays (J : List JournalEvent) (c d : Client) : Prop where
  custody : Custody d J
  sent : d.sent = c.sent
  stateLock : d.stateLock = c.stateLock

section Calls

variable {config : Config} {event : JournalEvent} {order : Submission} {c d : Client}
  {J : List JournalEvent}

theorem Stays.refl (h : Custody c J) : Stays J c c := ⟨h, rfl, rfl⟩

theorem Stays.trans {e : Client} (h : Stays J c d) (h' : Stays J d e) : Stays J c e :=
  ⟨h'.custody, h'.sent.trans h.sent, h'.stateLock.trans h.stateLock⟩

theorem Stays.unmoved (h : Custody c J) (same : Unmoved c d)
    (admitted : d.executionHoldReason = none → d.identity ≠ none) : Stays J c d :=
  ⟨h.unmoved same admitted, same.sent, same.stateLock⟩

theorem installSnapshot_stays (h : Custody c J) (snapshot : Snapshot) :
    wp (installSnapshot config snapshot) (fun _ d => Stays J c d) (fun d => Stays J c d) c := by
  have stays {d : Client} (same : Unmoved c d ∧ d.executionHoldReason = c.executionHoldReason) :
      Stays J c d :=
    .unmoved h same.1 fun free => same.1.identity ▸ h.admitted (same.2 ▸ free)
  exact wp_mono (installSnapshot_unmoved config c snapshot) (fun _ _ => stays) fun _ => stays

theorem Stays.setUnknown (h : Custody c J) (id : Text) : Stays J c (c.setUnknown id) := by
  refine ⟨h.setUnknown id, ?_, ?_⟩ <;>
  · rw [Client.setUnknown, c.editPending_frame]

theorem recordReservation_stays (h : Custody c J) (member : event ∈ J)
    (body : event.body = .submissionReserved order) :
    wp (recordReservation event order) (fun _ d => Stays J c d ∧ d.pending = c.pending)
      (fun d => d = c) c := by
  refine wp_mono recordReservation_spec ?_ fun _ failed => failed
  rintro - d ⟨p, recorded, rfl⟩
  simp only [JournalProjection.recordReservation, bind_unit_eq_ok, pure_eq_ok] at recorded
  obtain ⟨-, rfl⟩ := recorded
  refine ⟨⟨⟨h.own, ?_, h.settled, h.single, h.pendingSent, h.sentOnce, ?_, h.sentKnown,
    h.outcomeOnce, h.outcomeSent, h.outcomeKnown, h.admitted, h.guarded⟩, rfl, rfl⟩, rfl⟩
  · intro k e found
    change (c.projection.reservations.set order.clientRequestId event).get? k = some e at found
    rw [Dict.get?_set] at found
    split at found
    · rename_i same
      cases found
      exact ⟨member, by simp [JournalEvent.reserves, JournalEvent.isFor, body, EventBody.eventType,
        EventBody.order, same]⟩
    · exact h.reserved found
  · exact fun k sent => List.mem_cons_of_mem _ (h.sentSeen k sent)

theorem recordTerminal_stays (h : Custody c J) (member : event ∈ J)
    (settles : event.settles order.clientRequestId = true) :
    wp (recordTerminal event order) (fun _ d => Stays J c d ∧ d.pending = c.pending ∧
      d.projection.terminals.get? order.clientRequestId = some event) (fun d => d = c) c := by
  refine wp_mono recordTerminal_spec ?_ fun _ failed => failed
  rintro - d ⟨p, recorded, rfl⟩
  unfold JournalProjection.recordTerminal at recorded
  split at recorded
  · cases recorded
  · simp only [bind_unit_eq_ok, pure_eq_ok] at recorded
    obtain ⟨-, -, -, -, rfl⟩ := recorded
    refine ⟨⟨⟨h.own, h.reserved, ?_, h.single, h.pendingSent, h.sentOnce, h.sentSeen, h.sentKnown,
      h.outcomeOnce, h.outcomeSent, h.outcomeKnown, h.admitted, h.guarded⟩, rfl, rfl⟩, rfl,
      Dict.get?_set_self _ _ _⟩
    intro k e found
    change (c.projection.terminals.set order.clientRequestId event).get? k = some e at found
    rw [Dict.get?_set] at found
    split at found
    · rename_i same
      cases found
      exact ⟨member, same ▸ settles⟩
    · exact h.settled found

/-- The outcome of a settled request goes out once, with its submission gone. -/
theorem rejectPending_stays {reason retcode : Text} {e : JournalEvent} (h : Custody c J)
    (recorded : c.projection.terminals.get? order.clientRequestId = some e) :
    wp (rejectPending event order reason retcode) (fun _ d => Stays J c d)
      (fun d => Stays J c d) c := by
  refine wp_mono rejectPending_spec ?_ ?_
  · rintro - d ⟨pending, text, found, rfl⟩
    have same := h.own found
    have out : outcomes [.rejected pending.order text (eventTimeNs event)] =
        [order.clientRequestId] := by
      rw [← same]
      rfl
    rw [same]
    exact ⟨h.settle found (h.accounted recorded) out rfl h.own c.accountSampleValid, rfl, rfl⟩
  · rintro d rfl
    exact Stays.setUnknown h _

theorem applyFill_stays {fill : Fill} {e : JournalEvent} (h : Custody c J)
    (recorded : c.projection.terminals.get? order.clientRequestId = some e) :
    wp (applyFill config event order fill) (fun _ d => Stays J c d ∧ Clean d)
      (fun d => Stays J c d) c := by
  refine wp_mono applyFill_spec ?_ ?_
  · rintro - d ⟨pending, held, told, found, how, out, rfl⟩
    have same := h.own found
    rw [same] at out ⊢
    refine ⟨⟨?_, rfl, rfl⟩, clean_refreshHold _⟩
    refine (h.settle found (h.accounted recorded) out ?_ ?_ false).refreshHold
    · rcases how with rfl | rfl
      · rfl
      · exact c.editPending_keys _ _
    · rcases how with rfl | rfl
      · exact h.own
      · have edited : Custody (c.setAccepted order.clientRequestId) J :=
          h.editPending _ fun _ => rfl
        exact @edited.own
  · rintro d (rfl | rfl)
    · exact .refl h
    · exact Stays.setUnknown h _

theorem applyEvent_stays (h : Custody c J) (clean : Clean c) (member : event ∈ J) :
    wp (applyEvent config event) (fun _ d => Stays J c d ∧ Clean d) (fun d => Stays J c d) c := by
  have settles {order : Submission} (about : event.body.order = some order)
      (terminal : event.body.eventType.isTerminal = true) :
      event.settles order.clientRequestId = true := by
    simp [JournalEvent.settles, JournalEvent.isFor, about, terminal]
  have unchanged {α : Type} {m : Call α} {P : α → Client → Prop}
      (spec : wp m P (fun d => d = c) c) : wp m P (fun d => Stays J c d) c := by
    refine wp_mono spec (fun _ _ held => held) ?_
    rintro d rfl
    exact .refl h
  unfold applyEvent
  cases body : event.body with
  | streamStarted => exact .refl h
  | submissionReserved order =>
    simp only [wp_bind, wp_discard]
    refine wp_mono (unchanged (recordReservation_stays h member body)) ?_ fun _ kept => kept
    rintro - d ⟨kept, -⟩
    refine wp_mono matchPending_spec ?_ ?_
    · rintro pending d ⟨rfl, found⟩
      exact ⟨kept, clean_of_pending found⟩
    · rintro e rfl
      exact kept.trans (.setUnknown kept.custody _)
  | orderUnknown order reason retcode =>
    simp only [wp_bind, wp_discard, wp_change, refreshExecutionHold]
    refine wp_mono (unchanged (recordTerminal_stays h member
      (settles (by rw [body]; rfl) (by rw [body]; rfl)))) ?_ fun _ kept => kept
    rintro - d ⟨kept, -, -⟩
    refine wp_mono matchPending_spec ?_ ?_
    · rintro pending d ⟨rfl, -⟩
      have marked := kept.trans (.setUnknown kept.custody order.clientRequestId)
      exact ⟨⟨marked.custody.refreshHold, marked.sent, marked.stateLock⟩, clean_refreshHold _⟩
    · rintro e rfl
      exact kept.trans (.setUnknown kept.custody _)
  | orderRejected order reason retcode =>
    simp only [wp_bind, wp_change, refreshExecutionHold]
    refine wp_mono (unchanged (recordTerminal_stays h member
      (settles (by rw [body]; rfl) (by rw [body]; rfl)))) ?_ fun _ kept => kept
    rintro - d ⟨kept, -, recorded⟩
    refine wp_mono (rejectPending_stays kept.custody recorded) ?_ fun _ stays => kept.trans stays
    intro _ e stays
    have whole := kept.trans stays
    exact ⟨⟨whole.custody.refreshHold, whole.sent, whole.stateLock⟩, clean_refreshHold _⟩
  | orderFilled order fill =>
    simp only [wp_bind]
    refine wp_mono (unchanged (recordTerminal_stays h member
      (settles (by rw [body]; rfl) (by rw [body]; rfl)))) ?_ fun _ kept => kept
    rintro - d ⟨kept, -, recorded⟩
    exact wp_mono (applyFill_stays kept.custody recorded)
      (fun _ e stays => ⟨kept.trans stays.1, stays.2⟩) fun _ stays => kept.trans stays

theorem recoverPending_stays (h : Custody c J) (id : Text) :
    wp (recoverPending config id) (fun _ d => Stays J c d) (fun d => Stays J c d) c := by
  unfold recoverPending
  simp only [wp_bind, wp_look]
  split
  · exact .refl h
  · rename_i event recorded
    have about : ∀ order, event.body.order = some order → order.clientRequestId = id := by
      intro order body
      have settles := (h.settled recorded).2
      simp only [JournalEvent.settles, JournalEvent.isFor, body, Option.any_some, Bool.and_eq_true,
        beq_iff_eq] at settles
      exact settles.2
    split
    · rename_i order _ _ body
      simp only [wp_bind, wp_discard, wp_change]
      refine wp_mono matchPending_spec ?_ ?_
      · rintro pending d ⟨rfl, -⟩
        exact .setUnknown h _
      · rintro d rfl
        exact .setUnknown h _
    · rename_i order reason retcode body
      have same := about order (by rw [body]; rfl)
      exact rejectPending_stays h (same ▸ recorded)
    · rename_i order fill body
      have same := about order (by rw [body]; rfl)
      exact wp_mono (applyFill_stays h (same ▸ recorded)) (fun _ _ stays => stays.1) fun _ stays =>
        stays
    · exact .refl h

theorem recoverLocalPendingFromJournal_stays (h : Custody c J) :
    wp (recoverLocalPendingFromJournal config) (fun _ d => Stays J c d)
      (fun d => Stays J c d) c := by
  simp only [recoverLocalPendingFromJournal, wp_bind, wp_look]
  refine wp_each (P := Stays J c) (fun id _ d stays => ?_) (.refl h)
  exact wp_mono (recoverPending_stays stays.custody id) (fun _ _ more => stays.trans more)
    fun _ more => stays.trans more

theorem applyEvents_stays {expected : Option JournalEvent} {events : List JournalEvent}
    (h : Custody c J) (clean : Clean c) (members : ∀ event ∈ events, event ∈ J) :
    wp (applyEvents config expected events) (fun _ d => Stays J c d ∧ Clean d)
      (fun d => Stays J c d) c := by
  induction events generalizing c with
  | nil => exact ⟨.refl h, clean⟩
  | cons event events ih =>
    simp only [applyEvents, wp_bind, wp_look, wp_raiseWhen, wp_ite, wp_pure, wp_change]
    refine ⟨fun _ => .refl h, fun _ => ⟨fun _ => .refl h, fun _ => ?_⟩⟩
    refine wp_mono (applyEvent_stays h clean (members event (by simp))) ?_ fun _ stays => stays
    rintro - d ⟨stays, clean⟩
    have moved : Stays J c { d with cursor := event.eventSeq, history := d.history ++ [event] } :=
      ⟨⟨stays.custody.own, stays.custody.reserved, stays.custody.settled, stays.custody.single,
        stays.custody.pendingSent, stays.custody.sentOnce, stays.custody.sentSeen,
        stays.custody.sentKnown, stays.custody.outcomeOnce, stays.custody.outcomeSent,
        stays.custody.outcomeKnown, stays.custody.admitted, stays.custody.guarded⟩,
        stays.sent, stays.stateLock⟩
    refine ⟨fun _ => ⟨moved, clean⟩, fun _ => ?_⟩
    exact wp_mono (ih moved.custody clean fun other later => members other (by simp [later]))
      (fun _ _ more => ⟨moved.trans more.1, more.2⟩) fun _ more => moved.trans more

end Calls

end ArbNautilus.Mt5
