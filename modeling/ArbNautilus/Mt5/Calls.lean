import ArbNautilus.Mt5.Client

namespace ArbNautilus.Mt5

open Base Journal Handler

/-- The order a native event is the outcome of. -/
def NativeEvent.outcome : NativeEvent → Option Text
  | .rejected order .. | .filled order .. => some order.clientOrderId
  | .denied .. | .submitted .. | .accepted .. | .accountState _ => none

/-- The orders with an outcome, in the order of their events. -/
def outcomes (native : List NativeEvent) : List Text := native.filterMap NativeEvent.outcome

theorem outcomes_append (told more : List NativeEvent) :
    outcomes (told ++ more) = outcomes told ++ outcomes more :=
  List.filterMap_append

namespace Client

variable (c : Client) (id : Text) (f : Pending → Pending)

/-- An assignment to a submission touches the pending submissions only. -/
theorem editPending_frame :
    c.editPending id f = { c with pending := (c.editPending id f).pending } := by
  unfold editPending
  split <;> rfl

theorem editPending_keys : (c.editPending id f).pending.keys = c.pending.keys := by
  unfold editPending
  split
  · rfl
  · rename_i found
    exact Dict.keys_set_of_get? found _

theorem editPending_get? {k : Text} {p : Pending}
    (found : (c.editPending id f).pending.get? k = some p) :
    ∃ old, c.pending.get? k = some old ∧ (p = old ∨ p = f old) := by
  unfold editPending at found
  split at found
  · exact ⟨p, found, .inl rfl⟩
  · rename_i old held
    change (c.pending.set id (f old)).get? k = some p at found
    rw [Dict.get?_set] at found
    split at found
    · rename_i same
      exact ⟨old, same ▸ held, .inr (Option.some.inj found).symm⟩
    · exact ⟨p, found, .inl rfl⟩

theorem setUnknown_of_none (absent : c.pending.get? id = none) : c.setUnknown id = c := by
  simp [setUnknown, editPending, absent]

end Client

/-- Nothing moved that a submission or the journal's reading depends on; the
hold, the snapshot and the failures recorded may have. -/
structure Unmoved (c d : Client) : Prop where
  identity : d.identity = c.identity
  cursor : d.cursor = c.cursor
  pending : d.pending = c.pending
  seenRequestIds : d.seenRequestIds = c.seenRequestIds
  projection : d.projection = c.projection
  stateLock : d.stateLock = c.stateLock
  outcomes : outcomes d.native = outcomes c.native
  sent : d.sent = c.sent
  history : d.history = c.history

theorem Unmoved.refl (c : Client) : Unmoved c c := ⟨rfl, rfl, rfl, rfl, rfl, rfl, rfl, rfl, rfl⟩

theorem Unmoved.trans {c d e : Client} (h : Unmoved c d) (h' : Unmoved d e) : Unmoved c e :=
  ⟨h'.identity.trans h.identity, h'.cursor.trans h.cursor, h'.pending.trans h.pending,
    h'.seenRequestIds.trans h.seenRequestIds, h'.projection.trans h.projection,
    h'.stateLock.trans h.stateLock, h'.outcomes.trans h.outcomes, h'.sent.trans h.sent,
    h'.history.trans h.history⟩

theorem unmoved_refreshHold (c : Client) : Unmoved c c.refreshHold :=
  ⟨rfl, rfl, rfl, rfl, rfl, rfl, rfl, rfl, rfl⟩

theorem unmoved_note (c : Client) {event : NativeEvent} (quiet : event.outcome = none) :
    Unmoved c { c with native := c.native ++ [event] } :=
  ⟨rfl, rfl, rfl, rfl, rfl, rfl, by simp [outcomes, quiet], rfl, rfl⟩

section Quiet

variable (config : Config) (c : Client)

theorem deny_unmoved (order : Order) (reason : String) :
    Unmoved c ((deny order reason).after c) := unmoved_note c rfl

theorem fail_unmoved (e : Raised) : Unmoved c ((fail e).after c) :=
  ⟨rfl, rfl, rfl, rfl, rfl, rfl, rfl, rfl, rfl⟩

theorem installSnapshot_unmoved (snapshot : Snapshot) :
    wp (installSnapshot config snapshot)
      (fun _ d => Unmoved c d ∧ d.executionHoldReason = c.executionHoldReason)
      (fun d => Unmoved c d ∧ d.executionHoldReason = c.executionHoldReason) c := by
  simp only [installSnapshot, wp_bind, wp_raiseWhen, wp_look, wp_change]
  refine ⟨fun _ => ⟨.refl c, trivial⟩, fun _ => ⟨fun _ => ⟨.refl c, trivial⟩, fun _ => ?_⟩⟩
  cases bound : c.identity with
  | none =>
    simp only [currentIdentity, Client.requireIdentity, wp]
    exact ⟨⟨bound.symm, rfl, rfl, rfl, rfl, rfl, rfl, rfl, rfl⟩, trivial⟩
  | some identity =>
    simp only [currentIdentity, Client.requireIdentity, wp, publish, change]
    exact ⟨⟨bound.symm, rfl, rfl, rfl, rfl, rfl, by simp [outcomes, NativeEvent.outcome], rfl, rfl⟩,
      trivial⟩

end Quiet

section Calls

variable {config : Config} {event : JournalEvent} {order : Submission} {c : Client}

theorem recordReservation_spec : wp (recordReservation event order)
    (fun _ d => ∃ projection, c.projection.recordReservation event order = .ok projection ∧
      d = { c with projection, seenRequestIds := order.clientRequestId :: c.seenRequestIds })
    (fun d => d = c) c := by
  simp only [recordReservation, wp_bind, wp_look, wp_check, wp_change]
  exact ⟨fun _ _ => trivial, fun projection recorded => ⟨projection, recorded, rfl⟩⟩

theorem recordTerminal_spec : wp (recordTerminal event order)
    (fun _ d => ∃ projection, c.projection.recordTerminal event order = .ok projection ∧
      d = { c with projection })
    (fun d => d = c) c := by
  simp only [recordTerminal, wp_bind, wp_look, wp_check, wp_change]
  exact ⟨fun _ _ => trivial, fun projection recorded => ⟨projection, recorded, rfl⟩⟩

/-- No match leaves at most the submission marked. -/
theorem matchPending_spec : wp (matchPending order)
    (fun pending d => d = c ∧ c.pending.get? order.clientRequestId = some pending)
    (fun d => d = c.setUnknown order.clientRequestId) c := by
  unfold matchPending
  simp only [wp_bind, wp_look]
  cases found : c.pending.get? order.clientRequestId with
  | none => exact (c.setUnknown_of_none _ found).symm
  | some pending =>
    simp only [wp_ite, wp_bind, wp_change, wp_raise, wp_pure]
    exact ⟨fun _ => trivial, fun _ => by simp⟩

theorem rejectPending_spec {reason retcode : Text} : wp (rejectPending event order reason retcode)
    (fun _ d => ∃ pending text, c.pending.get? order.clientRequestId = some pending ∧
      d = { c with
        native := c.native ++ [.rejected pending.order text (eventTimeNs event)]
        pending := c.pending.erase pending.order.clientOrderId })
    (fun d => d = c.setUnknown order.clientRequestId) c := by
  unfold rejectPending
  simp only [wp_bind]
  refine wp_mono matchPending_spec ?_ fun _ failed => failed
  rintro pending d ⟨rfl, found⟩
  exact ⟨pending, _, found, rfl⟩

/-- What a fill leaves: its events, and the submission gone. -/
theorem applyFill_spec {fill : Fill} : wp (applyFill config event order fill)
    (fun _ d => ∃ pending held told, c.pending.get? order.clientRequestId = some pending ∧
      (held = c ∨ held = c.setAccepted order.clientRequestId) ∧
      outcomes told = [pending.order.clientOrderId] ∧
      d = { c with
        accountSampleValid := false
        native := c.native ++ told
        pending := held.pending.erase pending.order.clientOrderId }.refreshHold)
    (fun d => d = c ∨ d = c.setUnknown order.clientRequestId) c := by
  unfold applyFill
  simp only [wp_bind]
  refine wp_mono matchPending_spec ?_ fun _ failed => .inr failed
  rintro pending d ⟨rfl, found⟩
  simp only [wp_ite, wp_bind, wp_change, wp_raise, wp_check]
  refine ⟨fun _ => .inr trivial, fun _ => ⟨fun _ => .inr trivial, fun _ => ⟨fun _ _ => .inl trivial,
    fun quantity _ => ⟨fun _ _ => .inl trivial, fun price _ => ⟨fun _ _ => .inl trivial,
    fun commission _ => ⟨fun _ => ?_, fun _ => ?_⟩⟩⟩⟩⟩⟩
  · refine ⟨pending, d.setAccepted order.clientRequestId,
      [.accepted pending.order fill.venueOrderId (eventTimeNs event),
        .filled pending.order fill.venueOrderId fill.venuePositionId fill.venueDealId quantity price
          commission (eventTimeNs event)], found, .inr rfl, rfl, ?_⟩
    simp only [Client.setAccepted, Client.editPending, found, Client.refreshHold,
      Client.holdReasons, List.append_assoc, List.singleton_append]
  · exact ⟨pending, d, [_], found, .inl rfl, rfl, rfl⟩

end Calls

end ArbNautilus.Mt5
