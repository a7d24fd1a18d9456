import ArbNautilus.Store.Hedge
import ArbNautilus.Store.LateFill

namespace ArbNautilus.Store

open Base

/-- The shape of an intent whose orders were all bound by a dispatch. -/
structure Regular (intent : HedgeIntent) : Prop where
  archived : intent.rejectedAttempt = none
  planned : intent.hedgeOrderIds ≠ [] → intent.hedgePlan ≠ []
  recorded : ∀ order, intent.hedgeClientOrderId = some order → order ∈ intent.hedgeOrderIds
  finished : intent.hedgePlan ≠ [] → intent.hedgeLegIndex = intent.hedgePlan.length →
    intent.status = .completed
  free : intent.status = .completed → intent.hedgeClientOrderId = none

/-- What any call but a binding makes of an intent. Completion is final. -/
structure Moved (intent moved : HedgeIntent) : Prop where
  id : moved.intentId = intent.intentId
  key : moved.fillKey = intent.fillKey
  orders : moved.hedgeOrderIds = intent.hedgeOrderIds
  plan : intent.hedgePlan ≠ [] → moved.hedgePlan ≠ []
  final : intent.status = .completed → moved.status = .completed
  regular : Regular moved

theorem Regular.moved {intent : HedgeIntent} (h : Regular intent) : Moved intent intent :=
  ⟨rfl, rfl, rfl, id, id, h⟩

theorem Moved.trans {i j k : HedgeIntent} (first : Moved i j) (second : Moved j k) : Moved i k :=
  ⟨second.id.trans first.id, second.key.trans first.key, second.orders.trans first.orders,
    fun planned => second.plan (first.plan planned), fun done => second.final (first.final done),
    second.regular⟩

theorem Regular.not_archived {intent : HedgeIntent} (h : Regular intent) (order : String) :
    ¬isRejectedAttempt intent order := by
  simp [isRejectedAttempt, h.archived]

theorem Regular.bound_open {intent : HedgeIntent} (h : Regular intent) {order : String}
    (bound : intent.hedgeClientOrderId = some order) : intent.status ≠ .completed := by
  intro done
  rw [h.free done] at bound
  cases bound

theorem Regular.bound_planned {intent : HedgeIntent} (h : Regular intent) {order : String}
    (bound : intent.hedgeClientOrderId = some order) : intent.hedgePlan ≠ [] :=
  h.planned (List.ne_nil_of_mem (h.recorded order bound))

/-- Only a finished plan completes, so no status alone completes an open intent. -/
theorem Regular.status {intent moved : HedgeIntent} (h : Regular intent)
    (unfinished : intent.status ≠ .completed) {status : ObligationStatus}
    (fields : moved.toIntentFields = { intent.toIntentFields with status }) :
    Moved intent moved := by
  have orders : moved.hedgeOrderIds = intent.hedgeOrderIds := by rw [fields]
  have plan : moved.hedgePlan = intent.hedgePlan := by rw [fields]
  have index : moved.hedgeLegIndex = intent.hedgeLegIndex := by rw [fields]
  have current : moved.hedgeClientOrderId = intent.hedgeClientOrderId := by rw [fields]
  have incomplete : moved.hedgePlan ≠ [] → moved.hedgeLegIndex ≠ moved.hedgePlan.length := by
    intro planned last
    rw [index, plan] at last
    exact unfinished (h.finished (plan ▸ planned) last)
  refine ⟨by rw [fields], by rw [fields], orders, fun planned => plan ▸ planned,
    fun done => absurd done unfinished, ?_, ?_, ?_, ?_, ?_⟩
  · rw [fields]; exact h.archived
  · rw [orders, plan]; exact h.planned
  · rw [current, orders]; exact h.recorded
  · exact fun planned last => absurd last (incomplete planned)
  · intro done
    by_cases planned : moved.hedgePlan = []
    · rw [current]
      cases bound : intent.hedgeClientOrderId with
      | none => rfl
      | some order => exact absurd (plan ▸ planned) (h.bound_planned bound)
    · exact absurd ((moved.sound.planned planned).completed done).1 (incomplete planned)

theorem Regular.advance {intent moved : HedgeIntent} (h : Regular intent) {fill : HedgeFill}
    (bound : intent.hedgeClientOrderId = some fill.clientOrderId)
    (advance : StoreState.Advance intent fill moved.toIntentFields) : Moved intent moved := by
  have unfinished := h.bound_open bound
  have planned := h.bound_planned bound
  obtain ⟨id, key, -, -, orders, attempt, -⟩ := advance.frame
  have archived : moved.rejectedAttempt = none := attempt.trans h.archived
  generalize fields : moved.toIntentFields = after at advance
  cases advance with
  | held legFilled grows last =>
    have plan : moved.hedgePlan = intent.hedgePlan := by rw [fields]; rfl
    have index : moved.hedgeLegIndex = intent.hedgeLegIndex := by rw [fields]; rfl
    have current : moved.hedgeClientOrderId = intent.hedgeClientOrderId := by rw [fields]; rfl
    have blocked : moved.status = .blocked := by rw [fields]; rfl
    refine ⟨id, key, orders, fun _ => plan ▸ planned, fun done => absurd done unfinished,
      archived, fun _ => plan ▸ planned, ?_, ?_, ?_⟩
    · rw [current, orders]; exact h.recorded
    · intro _ finished
      rw [index, plan] at finished
      exact absurd (h.finished planned finished) unfinished
    · intro done
      rw [blocked] at done
      cases done
  | legDone _ resolved leg current whole =>
    have plan : moved.hedgePlan = intent.hedgePlan := by rw [fields]; rfl
    have index : moved.hedgeLegIndex = intent.hedgeLegIndex + 1 := by rw [fields]; rfl
    have released : moved.hedgeClientOrderId = none := by rw [fields]; rfl
    have status : moved.status = if intent.hedgeLegIndex + 1 = intent.hedgePlan.length then
        .completed else .pending := by rw [fields]; rfl
    refine ⟨id, key, orders, fun _ => plan ▸ planned, fun done => absurd done unfinished,
      archived, fun _ => plan ▸ planned, ?_, ?_, fun _ => released⟩
    · intro order bound
      rw [released] at bound
      cases bound
    · intro _ finished
      rw [index, plan] at finished
      rw [status, if_pos finished]
  | single unplanned _ => exact absurd unplanned planned

/-- A plan is bound once, before any order. -/
theorem Regular.plan {intent moved : HedgeIntent} (h : Regular intent) {plan : List HedgeLeg}
    (pending : intent.status = .pending) (nonempty : plan ≠ [])
    (fields : moved.toIntentFields = { intent.toIntentFields with
      hedgePlan := plan
      hedgeLegIndex := 0
      hedgeLegFilledOunces := 0 }) : Moved intent moved := by
  have bound : moved.hedgePlan = plan := by rw [fields]
  have status : moved.status = .pending := by rw [fields]; exact pending
  refine ⟨by rw [fields], by rw [fields], by rw [fields], fun _ => bound ▸ nonempty, ?_, ?_, ?_,
    ?_, ?_, ?_⟩
  · intro done
    rw [pending] at done
    cases done
  · rw [fields]; exact h.archived
  · exact fun _ => bound ▸ nonempty
  · rw [fields]; exact h.recorded
  · intro _ finished
    rw [bound, show moved.hedgeLegIndex = 0 by rw [fields]] at finished
    exact absurd (List.eq_nil_of_length_eq_zero finished.symm) nonempty
  · intro done
    rw [status] at done
    cases done

/-- Binding an order leaves every other part of a planned intent as it was. -/
theorem Regular.bind {intent bound : HedgeIntent} (h : Regular intent) {order : String}
    (planned : intent.hedgePlan ≠ []) (pending : intent.status = .pending)
    (fields : bound.toIntentFields = { intent.toIntentFields with
      hedgeClientOrderId := some order
      hedgeOrderIds := intent.hedgeOrderIds ++ [order]
      status := .submitting }) : Regular bound := by
  have plan : bound.hedgePlan = intent.hedgePlan := by rw [fields]
  refine ⟨?_, fun _ => plan ▸ planned, ?_, ?_, ?_⟩
  · rw [fields]; exact h.archived
  · intro other current
    rw [fields] at current ⊢
    simp only [Option.some.injEq] at current
    simp [current]
  · intro _ finished
    rw [plan, show bound.hedgeLegIndex = intent.hedgeLegIndex by rw [fields]] at finished
    rw [h.finished planned finished] at pending
    cases pending
  · intro done
    rw [show bound.status = .submitting by rw [fields]] at done
    cases done

/-- The intents of one state moved into those of another. -/
def Moves (s t : StoreState) : Prop :=
  ∀ k, Option.Rel Moved (s.hedgeIntents.get? k) (t.hedgeIntents.get? k)

def AllRegular (s : StoreState) : Prop :=
  ∀ k intent, s.hedgeIntents.get? k = some intent → Regular intent

theorem Moves.of_eq {s t : StoreState} (regular : AllRegular s)
    (same : t.hedgeIntents = s.hedgeIntents) : Moves s t := by
  intro k
  rw [same]
  cases found : s.hedgeIntents.get? k with
  | none => exact .none
  | some intent => exact .some (regular k intent found).moved

theorem Moves.back {s t : StoreState} (h : Moves s t) {k : String} {moved : HedgeIntent}
    (found : t.hedgeIntents.get? k = some moved) :
    ∃ intent, s.hedgeIntents.get? k = some intent ∧ Moved intent moved := by
  have related := h k
  rw [found] at related
  cases before : s.hedgeIntents.get? k with
  | none => rw [before] at related; cases related
  | some intent =>
    rw [before] at related
    cases related with
    | some moved => exact ⟨intent, rfl, moved⟩

theorem Moves.forth {s t : StoreState} (h : Moves s t) {k : String} {intent : HedgeIntent}
    (found : s.hedgeIntents.get? k = some intent) :
    ∃ moved, t.hedgeIntents.get? k = some moved ∧ Moved intent moved := by
  have related := h k
  rw [found] at related
  cases after : t.hedgeIntents.get? k with
  | none => rw [after] at related; cases related
  | some moved =>
    rw [after] at related
    cases related with
    | some step => exact ⟨moved, rfl, step⟩

theorem Moves.regular {s t : StoreState} (h : Moves s t) : AllRegular t := by
  intro k moved found
  obtain ⟨_, -, step⟩ := h.back found
  exact step.regular

theorem Moves.trans {s t u : StoreState} (first : Moves s t) (second : Moves t u) : Moves s u := by
  intro k
  cases found : s.hedgeIntents.get? k with
  | some intent =>
    obtain ⟨moved, after, step⟩ := first.forth found
    obtain ⟨last, reached, next⟩ := second.forth after
    rw [reached]
    exact .some (step.trans next)
  | none =>
    cases last : u.hedgeIntents.get? k with
    | none => exact .none
    | some intent =>
      obtain ⟨_, between, -⟩ := second.back last
      obtain ⟨_, before, -⟩ := first.back between
      rw [found] at before
      cases before

theorem Moves.set {s u t : StoreState} (h : Moves s u) {k : String} {intent moved : HedgeIntent}
    (found : u.hedgeIntents.get? k = some intent) (step : Moved intent moved)
    (same : t.hedgeIntents = u.hedgeIntents.set k moved) : Moves s t := by
  apply h.trans
  intro k'
  rw [same, Dict.get?_set]
  split
  · rename_i here
    subst here
    rw [found]
    exact .some step
  · cases there : u.hedgeIntents.get? k' with
    | none => exact .none
    | some other => exact .some (h.regular k' other there).moved

section Calls

variable {s t : StoreState} (keyed : ∀ k intent, s.hedgeIntents.get? k = some intent →
  intent.intentId = k) (regular : AllRegular s)

include keyed regular

theorem recoverForStart_moves (h : s.recoverForStart.Yields t) : Moves s t := by
  obtain ⟨orders, v, halt, -, mapped, rfl⟩ := StoreState.recoverForStart_yields h
  have moved : Moves s v := by
    refine mapIntents_of_keyed (s := { s with sourceOrders := orders }) ?_ keyed
      (Moves.of_eq regular rfl) (List.filter_sublist.trans List.filter_sublist) mapped
    intro u intent replaced member moves found made
    have unfinished : intent.status ≠ .completed := by
      have kept := (List.mem_filter.1 (List.mem_filter.1 member).1).2
      simpa using kept
    exact moves.set found
      ((moves.regular _ intent found).status unfinished (IntentFields.make_eq_ok made)) rfl
  exact moved

omit keyed in
theorem bindHedgePlan_moves {intentId : String} {plan : List HedgeLeg}
    (h : (s.bindHedgePlan intentId plan).Yields t) : Moves s t := by
  obtain ⟨intent, planned, found, -, pending, -, -, nonempty, fields, rfl⟩ :=
    StoreState.bindHedgePlan_yields h
  exact (Moves.of_eq regular rfl).set found
    ((regular _ intent found).plan pending nonempty fields) rfl

omit keyed in
theorem blockHedgeIntent_moves {intentId reason : String}
    (h : (s.blockHedgeIntent intentId reason).Yields t) : Moves s t := by
  obtain ⟨intent, blocked, found, unfinished, fields, rfl⟩ := StoreState.blockHedgeIntent_yields h
  exact (Moves.of_eq regular rfl).set found
    ((regular _ intent found).status unfinished fields) rfl

/-- A regular intent is found by its current order alone. -/
theorem found_bound {order : String} {intent : HedgeIntent}
    (h : s.intentForHedgeOrder order = some intent) :
    intent.hedgeClientOrderId = some order ∧ s.hedgeIntents.get? intent.intentId = some intent := by
  obtain ⟨current, k, found⟩ := StoreState.intentForHedgeOrder_eq_some h
  refine ⟨current.resolve_right ((regular k intent found).not_archived order), ?_⟩
  rwa [keyed k intent found]

theorem updateHedgeStatus_moves {order : String} {status : ObligationStatus}
    {nativeStatus : Option String} (h : (s.updateHedgeStatus order status nativeStatus).Yields t) :
    Moves s t := by
  obtain ⟨intent, updated, lookup, same, -, -, -, -, either⟩ :=
    StoreState.updateHedgeStatus_yields h
  obtain ⟨bound, found⟩ := found_bound keyed regular lookup
  have unfinished := (regular _ intent found).bound_open bound
  refine (Moves.of_eq regular rfl).set found ?_ same
  rcases either with ⟨archived, -⟩ | ⟨-, -, -, fields⟩
  · exact absurd archived ((regular _ intent found).not_archived order)
  · exact (regular _ intent found).status unfinished fields

theorem applyHedgeFill_moves {fill : HedgeFill} (h : (s.applyHedgeFill fill).Yields t) :
    Moves s t := by
  obtain ⟨-, applied⟩ := StoreState.applyHedgeFill_yields h
  rcases StoreState.applyFill_eq_ok applied with ⟨-, changed, -⟩ | archived | advanced
  · cases changed
  · obtain ⟨intent, -, -, lookup, archived, -⟩ := archived
    obtain ⟨-, found⟩ := found_bound keyed regular lookup
    exact absurd archived ((regular _ intent found).not_archived _)
  · obtain ⟨intent, moved, -, lookup, -, positive, fields, -, rfl⟩ := advanced
    obtain ⟨bound, found⟩ := found_bound keyed regular lookup
    have advance := StoreState.advanceFields_advance intent positive s.haltReason none
    rw [← fields] at advance
    exact (Moves.of_eq regular rfl).set found ((regular _ intent found).advance bound advance) rfl

omit keyed in
theorem beginSource_moves {admissible : Bool} {request : SourceRequest}
    (h : (s.beginSource admissible request).Yields t) : Moves s t := by
  apply Moves.of_eq regular
  unfold StoreState.beginSource at h
  split at h <;> simp at h
  rw [← h]

omit keyed in
theorem updateSourceStatus_moves {order status : String}
    (h : (s.updateSourceStatus order status).Yields t) : Moves s t := by
  apply Moves.of_eq regular
  unfold StoreState.updateSourceStatus at h
  split at h <;> simp at h
  rw [← h]

omit keyed in
theorem confirmSourceReconciled_moves {order : String}
    (h : (s.confirmSourceReconciled order).Yields t) : Moves s t := by
  apply Moves.of_eq regular
  unfold StoreState.confirmSourceReconciled at h
  split at h
  · simp at h
  · split_ifs at h <;> simp at h
    rw [← h]
    rfl

omit keyed in
theorem markSourceUnknown_moves {order reason : String}
    (h : (s.markSourceUnknown order reason).Yields t) : Moves s t := by
  apply Moves.of_eq regular
  simp only [StoreState.markSourceUnknown, Change.yields_publishes] at h
  rw [← h]

end Calls

end ArbNautilus.Store
