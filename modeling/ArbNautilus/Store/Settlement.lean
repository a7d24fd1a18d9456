import ArbNautilus.Store.Custody
import ArbNautilus.Store.HedgeCaught
import ArbNautilus.Store.Payload
import ArbNautilus.Store.RestartRecovery

namespace ArbNautilus.Store.RestartRecovery

open Base Native

section Intent

variable {receipt later : StartupReceipt} {hedges : Dict String Order}
  {resumeUnbound rejectedRetryReady : Bool} {now : ℚ} {i j : HedgeIntent}

/-- What an intent keeps while startup settles it. -/
structure Keeps (i j : IntentFields) : Prop where
  intentId : j.intentId = i.intentId
  hedgeSide : j.hedgeSide = i.hedgeSide
  quantity : j.hedgeQuantityOunces = i.hedgeQuantityOunces
  filled : j.hedgeFilledOunces = i.hedgeFilledOunces
  plan : j.hedgePlan = i.hedgePlan
  orders : j.hedgeOrderIds = i.hedgeOrderIds
  attempt : ∀ attempt ∈ i.rejectedAttempt, attempt ∈ j.rejectedAttempt

theorem Keeps.refl (i : IntentFields) : Keeps i i :=
  ⟨rfl, rfl, rfl, rfl, rfl, rfl, fun _ held => held⟩

theorem Keeps.trans {i j k : IntentFields} (h : Keeps i j) (h' : Keeps j k) : Keeps i k :=
  ⟨h'.intentId.trans h.intentId, h'.hedgeSide.trans h.hedgeSide, h'.quantity.trans h.quantity,
    h'.filled.trans h.filled, h'.plan.trans h.plan, h'.orders.trans h.orders,
    fun attempt held => h'.attempt attempt (h.attempt attempt held)⟩

/-- A reviewed order that the intent names is its archived rejection. -/
def Reviewed (target : Option String) (i : IntentFields) : Prop :=
  ∀ cid ∈ target, cid ∈ i.hedgeOrderIds → ∃ attempt ∈ i.rejectedAttempt, attempt.clientOrderId = cid

theorem archive_reviewed
    (review : checkReview receipt hedges resumeUnbound rejectedRetryReady now i = .ok ())
    (h : StoreState.archiveRejected receipt.rejectedHedgeOrderId i = .ok j) :
    Keeps i.toIntentFields j.toIntentFields ∧
      Reviewed receipt.rejectedHedgeOrderId j.toIntentFields ∧
      (j.hedgeClientOrderId = i.hedgeClientOrderId ∨ j.hedgeClientOrderId = none) := by
  simp only [checkReview, bind_unit_eq_ok, raiseIf_eq_ok] at review
  obtain ⟨-, consumed⟩ := review
  unfold StoreState.archiveRejected at h
  cases target : receipt.rejectedHedgeOrderId with
  | none =>
    rw [target] at h
    cases h
    exact ⟨.refl _, fun cid named => (by cases named), .inl rfl⟩
  | some cid =>
    rw [target] at h consumed
    simp only at h
    split at h
    · rename_i archives
      rw [bind_unit_eq_ok] at h
      obtain ⟨-, h⟩ := h
      split at h
      · rename_i valid
        have fields := IntentFields.make_eq_ok h
        refine ⟨?_, ?_, .inr (by rw [fields])⟩
        · rw [fields]
          refine ⟨rfl, rfl, rfl, rfl, rfl, rfl, fun attempt held => ?_⟩
          rw [archives.2] at held
          cases held
        · rintro _ ⟨⟩ -
          rw [fields]
          exact ⟨_, rfl, rfl⟩
      · cases h
    · rename_i kept
      cases h
      refine ⟨.refl _, ?_, .inl rfl⟩
      rintro _ ⟨⟩ named
      obtain ⟨attempt, held⟩ := Option.ne_none_iff_exists'.1 fun none' => kept ⟨named, none'⟩
      refine ⟨attempt, held, ?_⟩
      by_contra other
      exact consumed ⟨cid, rfl, named, attempt, held, other⟩

/-- A reviewed intent has nothing left to archive. -/
theorem archiveRejected_reviewed {target : Option String}
    (reviewed : Reviewed target j.toIntentFields) :
    StoreState.archiveRejected target j = .ok j := by
  unfold StoreState.archiveRejected
  cases target with
  | none => rfl
  | some cid =>
    dsimp only
    rw [if_neg]
    rintro ⟨named, none'⟩
    obtain ⟨attempt, held, -⟩ := reviewed cid rfl named
    rw [none'] at held
    cases held

theorem checkReview_reviewed (reviewed : Reviewed receipt.rejectedHedgeOrderId j.toIntentFields) :
    checkReview receipt hedges resumeUnbound rejectedRetryReady now j = .ok () := by
  simp only [checkReview, bind_unit_eq_ok, raiseIf_eq_ok]
  constructor
  · rintro ⟨cid, target, named, none', -⟩
    obtain ⟨attempt, held, -⟩ := reviewed cid target named
    rw [none'] at held
    cases held
  · rintro ⟨cid, target, named, attempt, held, other⟩
    obtain ⟨attempt', held', same⟩ := reviewed cid target named
    obtain rfl := Option.mem_unique held held'
    exact other same

def settledStatus (i : IntentFields) : ObligationStatus :=
  if i.hedgeFilledOunces = i.hedgeQuantityOunces then .completed else .pending

/-- What settlement makes of an intent, and what it finds again. -/
structure Finalized (hedges : Dict String Order) (resumeUnbound : Bool) (target : Option String)
    (i j : HedgeIntent) : Prop where
  keeps : Keeps i.toIntentFields j.toIntentFields
  status : j.status = settledStatus j.toIntentFields
  pending : j.status = .pending → j.hedgeClientOrderId = none ∧
    j.hedgeFilledOunces = planQuantity (j.hedgePlan.take j.hedgeLegIndex) ∧
    j.hedgeFilledOunces = filledBy hedges j.hedgeLegOrderIds
  reviewed : Reviewed target j.toIntentFields
  history : checkHistory hedges resumeUnbound j = .ok ()
  final : StoreState.settleIntent none j = .ok j

theorem Finalized.again (f : Finalized hedges resumeUnbound receipt.rejectedHedgeOrderId i j) :
    settledIntent receipt hedges resumeUnbound rejectedRetryReady now j = .ok j := by
  unfold settledIntent
  rw [checkReview_reviewed f.reviewed, archiveRejected_reviewed f.reviewed]
  simp only [bind, Except.bind, f.history, f.final]

/-- The fields of a settled intent. -/
def settledFields (i : IntentFields) : IntentFields :=
  if i.hedgePlan ≠ [] then
    { i with
      status := settledStatus i
      hedgeClientOrderId := none
      hedgeLegIndex := i.hedgeLegOrderIds.length
      hedgeLegFilledOunces := 0 }
  else { i with status := settledStatus i }

theorem settleIntent_none (i : HedgeIntent) :
    StoreState.settleIntent none i = (settledFields i.toIntentFields).make := by
  unfold StoreState.settleIntent settledFields StoreState.archiveRejected
  simp only [bind, Except.bind]
  split <;> rfl

/-- What a settled intent shares with the intent it came from. -/
structure SettledFields (i j : IntentFields) : Prop where
  keeps : Keeps i j
  status : j.status = settledStatus j
  attempt : j.rejectedAttempt = i.rejectedAttempt
  legOrders : j.hedgeLegOrderIds = i.hedgeLegOrderIds
  planned : i.hedgePlan ≠ [] →
    j.hedgeClientOrderId = none ∧ j.hedgeLegIndex = i.hedgeLegOrderIds.length
  unplanned : i.hedgePlan = [] → j.hedgeClientOrderId = i.hedgeClientOrderId
  final : settledFields j = j

theorem settledFields_settled (i : IntentFields) : SettledFields i (settledFields i) := by
  unfold settledFields
  split
  · rename_i planned
    have unplanned (none' : i.hedgePlan = []) : none = i.hedgeClientOrderId := absurd none' planned
    exact ⟨⟨rfl, rfl, rfl, rfl, rfl, rfl, fun _ held => held⟩, rfl, rfl, rfl, fun _ => ⟨rfl, rfl⟩,
      unplanned, if_pos planned⟩
  · rename_i unplanned
    exact ⟨⟨rfl, rfl, rfl, rfl, rfl, rfl, fun _ held => held⟩, rfl, rfl, rfl,
      fun planned => absurd planned unplanned, fun _ => rfl, if_neg unplanned⟩

theorem checkHistory_eq_ok : checkHistory hedges resumeUnbound i = .ok () ↔
    (∀ attempt ∈ i.rejectedAttempt, ZeroFill hedges attempt.clientOrderId) ∧
    (∀ cid ∈ legOrders i, (hedges.get? cid).map (·.status) = some .filled) ∧
    (resumeUnbound = true ∧ i.hedgePlan ≠ [] → (legOrders i).length ≤ i.hedgePlan.length ∧
      (legOrders i).length = i.hedgeLegIndex + i.hedgeClientOrderId.toList.length ∧
      (i.hedgeClientOrderId ≠ none → i.hedgeClientOrderId = (legOrders i).getLast?) ∧
      i.hedgeFilledOunces = planQuantity (i.hedgePlan.take (legOrders i).length) ∧
      i.hedgeFilledOunces = filledBy hedges (legOrders i)) ∧
    (¬(resumeUnbound = true ∧ i.hedgePlan ≠ []) →
      (resumeUnbound = true ∧ legOrders i = [] ∧ i.hedgeFilledOunces = 0) ∨
      (i.hedgeFilledOunces = i.hedgeQuantityOunces ∧
        (legOrders i).length = if i.hedgePlan ≠ [] then i.hedgePlan.length else 1)) := by
  unfold checkHistory
  simp only [bind_unit_eq_ok, raiseIf_eq_ok, not_exists, not_and, not_not]
  split
  · rename_i resumes
    simp only [raiseIf_eq_ok, resumes, not_or, not_lt, not_and, not_not, true_implies,
      false_implies, and_true, ne_eq, not_false_eq_true]
  · rename_i whole
    rw [raiseIf_eq_ok]
    tauto

/-- The native history of an intent stands once it is settled, and says what is left of it. -/
theorem checkHistory_settled (after : SettledFields i.toIntentFields j.toIntentFields)
    (named : ∀ cid ∈ i.hedgeClientOrderId, cid ≠ "")
    (history : checkHistory hedges resumeUnbound i = .ok ()) :
    checkHistory hedges resumeUnbound j = .ok () ∧
      (j.status = .pending → j.hedgeClientOrderId = none ∧
        j.hedgeFilledOunces = planQuantity (j.hedgePlan.take j.hedgeLegIndex) ∧
        j.hedgeFilledOunces = filledBy hedges j.hedgeLegOrderIds) := by
  have unfinished (pending : j.status = .pending) :
      i.hedgeFilledOunces ≠ i.hedgeQuantityOunces := by
    intro done
    rw [after.status, settledStatus, after.keeps.filled, after.keeps.quantity,
      if_pos done] at pending
    cases pending
  rw [checkHistory_eq_ok] at history ⊢
  obtain ⟨zero, filled, resumes, whole⟩ := history
  rw [after.keeps.plan, after.attempt, after.keeps.filled, after.keeps.quantity, after.legOrders]
  by_cases planned : i.hedgePlan ≠ []
  · obtain ⟨unbound, index⟩ := after.planned planned
    have ids : legOrders i = i.hedgeLegOrderIds := if_neg fun unplanned => planned unplanned.1
    have ids' : legOrders j = i.hedgeLegOrderIds := by
      rw [← after.legOrders]
      exact if_neg fun unplanned => planned (after.keeps.plan ▸ unplanned.1)
    rw [ids] at filled resumes whole
    rw [ids', index, unbound]
    refine ⟨⟨zero, filled, fun resume => ?_, whole⟩, fun pending => ⟨rfl, ?_⟩⟩
    · obtain ⟨le, -, -, counts⟩ := resumes resume
      exact ⟨le, rfl, fun bound => absurd rfl bound, counts⟩
    · by_cases resume : resumeUnbound = true
      · exact (resumes ⟨resume, planned⟩).2.2.2
      · rcases whole fun both => resume both.1 with ⟨resumed, -⟩ | ⟨done, -⟩
        · exact absurd resumed resume
        · exact absurd done (unfinished pending)
  · rw [not_not] at planned
    have current := after.unplanned planned
    have ids : legOrders j = legOrders i := by
      unfold legOrders
      rw [after.keeps.plan, after.legOrders, current]
    rw [ids]
    refine ⟨⟨zero, filled, fun resume => absurd planned resume.2, whole⟩, fun pending => ?_⟩
    rcases whole fun both => both.2 planned with ⟨-, none', empty⟩ | ⟨done, -⟩
    · have legs : i.hedgeLegOrderIds = [] := by
        by_contra some'
        rw [legOrders, if_neg fun both => some' both.2] at none'
        exact some' none'
      rw [legOrders, if_pos ⟨planned, legs⟩, Option.toList_eq_nil_iff, Option.filter_eq_none_iff]
        at none'
      have unbound : i.hedgeClientOrderId = none := by
        rw [Option.eq_none_iff_forall_not_mem]
        intro cid bound
        have blank := none' cid bound
        rw [decide_eq_true_eq, not_not] at blank
        exact named cid bound blank
      rw [current, planned, empty, legs, List.take_nil]
      exact ⟨unbound, rfl, rfl⟩
    · exact absurd done (unfinished pending)

theorem settledIntent_eq_ok (named : ∀ cid ∈ i.hedgeClientOrderId, cid ≠ "")
    (h : settledIntent receipt hedges resumeUnbound rejectedRetryReady now i = .ok j) :
    Finalized hedges resumeUnbound receipt.rejectedHedgeOrderId i j := by
  simp only [settledIntent, bind_eq_ok] at h
  obtain ⟨⟨⟩, review, k, archived, ⟨⟩, history, settles⟩ := h
  obtain ⟨keeps, reviewed, current⟩ := archive_reviewed review archived
  rw [settleIntent_none] at settles
  have after := settledFields_settled k.toIntentFields
  rw [← IntentFields.make_eq_ok settles] at after
  have named' : ∀ cid ∈ k.hedgeClientOrderId, cid ≠ "" := by
    rcases current with same | none'
    · rw [same]
      exact named
    · rw [none']
      intro cid bound
      cases bound
  obtain ⟨history', pending⟩ := checkHistory_settled after named' history
  have final : StoreState.settleIntent none j = .ok j := by
    rw [settleIntent_none, after.final, HedgeIntent.make_toFields]
  refine ⟨keeps.trans after.keeps, after.status, pending, fun cid target listed => ?_, history',
    final⟩
  rw [after.keeps.orders] at listed
  rw [after.attempt]
  exact reviewed cid target listed

end Intent

section Views

open HedgeProjection (intentsOf)

variable {receipt : StartupReceipt} {sources hedges : Dict String Order}
  {resumeUnbound rejectedRetryReady : Bool} {now : ℚ} {store : BusinessStore}
  {candidates c c' : Dict String HedgeIntent} {freeze : Option Reason} {s t : StoreState}

/-- The candidates, intent after intent, where every view's source orders pass. -/
theorem viewCandidates_eq_ok {keys : List ViewKey} :
    keys.foldlM
        (viewCandidates receipt sources hedges resumeUnbound rejectedRetryReady now store) c =
        .ok c' ↔
      (∀ v ∈ keys, ∀ record ∈ (store.view v).sourceOrders.values,
        checkSource sources record = .ok ()) ∧
      (intentsOf store.view keys).foldlM (fun candidates held => candidates.set held.2.intentId <$>
        settledIntent receipt hedges resumeUnbound rejectedRetryReady now held.2) c = .ok c' := by
  induction keys generalizing c with
  | nil => simp [intentsOf]
  | cons v keys ih =>
    simp only [List.foldlM_cons, viewCandidates, intentsOf, List.flatMap_cons, List.foldlM_append,
      List.foldlM_map, List.forall_mem_cons, bind_eq_ok]
    constructor
    · rintro ⟨d, ⟨⟨⟩, checks, inner⟩, loop⟩
      obtain ⟨others, rest⟩ := ih.1 loop
      exact ⟨⟨forM_eq_ok.1 checks, others⟩, d, inner, rest⟩
    · rintro ⟨⟨checks, others⟩, d, inner, rest⟩
      exact ⟨d, ⟨(), forM_eq_ok.2 checks, inner⟩, ih.2 ⟨others, rest⟩⟩

/-- An intent and its settled self, each under the same key. -/
def Turn (receipt : StartupReceipt) (hedges : Dict String Order)
    (resumeUnbound rejectedRetryReady : Bool) (now : ℚ) (e e' : String × HedgeIntent) : Prop :=
  e'.1 = e.1 ∧ settledIntent receipt hedges resumeUnbound rejectedRetryReady now e.2 = .ok e'.2

theorem settledView_eq_ok
    (named : ∀ e ∈ s.hedgeIntents.entries, e.1 = e.2.intentId)
    (found : ∀ i ∈ s.hedgeIntents.values, ∃ j,
      settledIntent receipt hedges resumeUnbound rejectedRetryReady now i = .ok j ∧
        candidates.get? i.intentId = some j)
    (h : settledView sources candidates freeze s = .ok t) :
    List.Forall₂ (Turn receipt hedges resumeUnbound rejectedRetryReady now)
      s.hedgeIntents.entries t.hedgeIntents.entries := by
  simp only [settledView, bind_eq_ok, pure_eq_ok] at h
  obtain ⟨orders, -, intents, made, rfl⟩ := h
  have rows := Dict.traverse_eq_ok.1 made
  refine ((List.forall₂_and_left _ _).2 ⟨fun e member => member, rows⟩).imp ?_
  rintro e e' ⟨member, same, candidate⟩
  obtain ⟨j, settles, held⟩ := found e.2 (List.mem_map_of_mem member)
  simp only [candidateOf, named e member, held] at candidate
  exact ⟨same, settles.trans candidate⟩

/-- The identities under which a validated store holds its intents. -/
structure Identified (store : BusinessStore) : Prop where
  keyed : ∀ v ∈ store.viewKeys, ∀ e ∈ (store.view v).hedgeIntents.entries, e.1 = e.2.intentId
  distinct : ((intentsOf store.view store.viewKeys).map fun held => held.2.intentId).Nodup
  bound : ∀ held ∈ intentsOf store.view store.viewKeys, ∀ cid ∈ held.2.hedgeClientOrderId, cid ≠ ""

theorem identified {orders : List Order} {route : NativeRoute} {reason : String}
    {missing : List (ViewKey × HedgeFill)}
    (validates : HedgeProjection.missingFills store orders route reason = .ok missing) :
    Identified store := by
  obtain ⟨-, -, w, walked, -⟩ := HedgeProjection.missingFills_eq_ok.1 validates
  have walk := HedgeProjection.walkFacts walked
  refine ⟨fun v known e member => (walk.walked v known e member).named, walk.identities, ?_⟩
  rintro ⟨v, i⟩ held cid bound
  obtain ⟨record, -, -, orders'⟩ := (walk.named held).2.source
  obtain ⟨-, -, texts, current⟩ := HedgeProjection.orderIds_eq_ok orders'
  exact (texts cid (current cid bound)).1

/-- Where every view's source orders pass, each intent's candidate is what it is settled as. -/
theorem candidate_found (identities : Identified store)
    (loop : store.viewKeys.foldlM
      (viewCandidates receipt sources hedges resumeUnbound rejectedRetryReady now store) .empty =
        .ok candidates) :
    (∀ held ∈ intentsOf store.view store.viewKeys, ∃ j,
      settledIntent receipt hedges resumeUnbound rejectedRetryReady now held.2 = .ok j ∧
        candidates.get? held.2.intentId = some j) ∧
      ∀ k, k ∉ (intentsOf store.view store.viewKeys).map (fun held => held.2.intentId) →
        candidates.get? k = none :=
  Dict.get?_foldlM_set identities.distinct (viewCandidates_eq_ok.1 loop).2

/-- A book whose views are set one by one. -/
theorem setViews_eq_ok {f : ViewKey → Except Raised StoreState} {keys : List ViewKey}
    (nodup : keys.Nodup) {b b' : Book}
    (loop : keys.foldlM (fun b v => b.setView v <$> f v) b = .ok b') :
    (∀ v ∈ keys, f v = .ok (b'.views v)) ∧ (∀ v, v ∉ keys → b'.views v = b.views v) ∧
      b'.allocations = b.allocations := by
  induction keys generalizing b with
  | nil =>
    rw [List.foldlM_nil, pure_eq_ok] at loop
    subst loop
    exact ⟨fun v member => (by cases member), fun _ _ => rfl, rfl⟩
  | cons v keys ih =>
    rw [List.nodup_cons] at nodup
    simp only [List.foldlM_cons, bind_eq_ok, map_eq_ok] at loop
    obtain ⟨_, ⟨t, made, rfl⟩, loop⟩ := loop
    obtain ⟨set', others, allocations⟩ := ih nodup.2 loop
    refine ⟨?_, fun v' fresh => ?_, allocations⟩
    · rintro v' (_ | ⟨_, later⟩)
      · simp only [others v nodup.1, made, Book.setView, Function.update_self]
      · exact set' v' later
    · rw [List.mem_cons, not_or] at fresh
      simp only [others v' fresh.2, Book.setView, Function.update_of_ne fresh.1]

theorem setViews_same {f : ViewKey → Except Raised StoreState} {keys : List ViewKey} {b : Book}
    (fixed : ∀ v ∈ keys, f v = .ok (b.views v)) :
    keys.foldlM (fun b v => b.setView v <$> f v) b = .ok b := by
  induction keys with
  | nil => rfl
  | cons v keys ih =>
    rw [List.forall_mem_cons] at fixed
    have same : b.setView v (b.views v) = b := by
      rw [Book.setView, Function.update_eq_self]
    rw [List.foldlM_cons, fixed.1]
    show keys.foldlM _ (b.setView v (b.views v)) = _
    rw [same, ih fixed.2]

/-- A settled view is what settling it again gives. -/
def Stays (sources : Dict String Order) (candidates : Dict String HedgeIntent)
    (freeze : Option Reason) (t : StoreState) : Prop :=
  settledView sources candidates freeze t = .ok t

theorem settledState_eq_ok {pending : Bool}
    (h : settledState sources candidates pending freeze s = .ok t) :
    settledView sources candidates freeze s = .ok t ∧
      (Stays sources candidates freeze t →
        settledState sources candidates pending freeze t = .ok t) := by
  simp only [settledState, bind_eq_ok, raiseIf_eq_ok, pure_eq_ok] at h
  obtain ⟨_, view, ⟨⟩, residuals, rfl⟩ := h
  refine ⟨view, fun stays => ?_⟩
  simp only [settledState, bind_eq_ok, raiseIf_eq_ok, pure_eq_ok]
  exact ⟨_, stays, (), residuals, rfl⟩

theorem settledBook_eq_ok {o : MakerStateStore} {b : Book} {pending : Bool}
    (h : settledBook sources candidates pending freeze o = .ok b) :
    (∀ v ∈ o.cfg.viewKeys, settledView sources candidates freeze (o.view v) = .ok (b.views v)) ∧
      (∀ v, v ∉ o.cfg.viewKeys → b.views v = o.view v) ∧
      b.allocations = o.book.allocations ∧ b.cycleFreezeOnly = pending ∧
      ∀ o' : MakerStateStore, o'.cfg = o.cfg → o'.book = b →
        (∀ v ∈ o.cfg.viewKeys, Stays sources candidates freeze (b.views v)) →
        settledBook sources candidates pending freeze o' = .ok b := by
  have nodup : o.cfg.viewKeys.Nodup := (BusinessStore.owner o ⟨"", ""⟩).viewKeys_nodup
  simp only [settledBook, bind_eq_ok, raiseIf_eq_ok, pure_eq_ok] at h
  obtain ⟨views, loop, ⟨⟩, valid, ⟨⟩, residuals, rfl⟩ := h
  obtain ⟨set', others, allocations⟩ := setViews_eq_ok nodup loop
  refine ⟨set', others, allocations, rfl, ?_⟩
  rintro ⟨cfg, book, committed, failed⟩ rfl rfl stays
  have again := setViews_same (f := fun v => settledView sources candidates freeze
    ({ views with cycleFreezeOnly := pending }.views v)) stays
  simp only [settledBook, bind_eq_ok, raiseIf_eq_ok, pure_eq_ok]
  exact ⟨_, again, (), valid, (), residuals, rfl⟩

/-- What a settlement that returned left of the store. -/
structure Released (receipt : StartupReceipt) (sources : Dict String Order)
    (candidates : Dict String HedgeIntent) (store store' : BusinessStore) : Prop where
  keys : store'.viewKeys = store.viewKeys
  views : ∀ v ∈ store.viewKeys, settledView sources candidates
    (receipt.cycleReason store (hasPending candidates)) (store.view v) = .ok (store'.view v)
  kind : ∀ later : StartupReceipt, later.cycleReason store' = later.cycleReason store
  owner : ∀ later : StartupReceipt, later.makerCycleFreeze =
    (receipt.cycleReason store (hasPending candidates)).isSome → later.checkOwner store' = .ok ()
  again : (∀ v ∈ store.viewKeys, Stays sources candidates
      (receipt.cycleReason store (hasPending candidates)) (store'.view v)) → ∀ pub,
    publish sources candidates (hasPending candidates)
      (receipt.cycleReason store (hasPending candidates)) pub store' = (.ok (), store')

/-- An owner whose freezes are its own publishes what it holds. -/
theorem transact_published {o changed o' : MakerStateStore} {pub : Publication}
    (own : changed.freezePublicationFailed = false)
    (h : o.transact pub (.ok changed) = (.ok (), o')) :
    o' = { changed with committed := changed.book } := by
  have same : changed.candidate = changed := by
    rw [MakerStateStore.candidate, if_neg (by rw [own]; exact Bool.false_ne_true)]
  unfold MakerStateStore.transact at h
  dsimp only at h
  split at h
  · rename_i persisted
    cases h
    unfold MakerStateStore.persist at persisted
    rw [same] at persisted
    dsimp only at persisted
    split at persisted
    · cases persisted
    · cases pub with
      | published =>
        cases persisted
        rfl
      | failed => cases persisted
      | parentSyncFailed => cases persisted
  · cases h

/-- A published candidate is the owner's book, with the freezes the receipt owns. -/
theorem publish_owner {o : MakerStateStore} {instruments : Instruments} {store' : BusinessStore}
    {pending : Bool} {pub : Publication} (own : o.freezePublicationFailed = false)
    (h : publish sources candidates pending freeze pub (.owner o instruments) = (.ok (), store')) :
    ∃ o', store' = .owner o' instruments ∧ o'.cfg = o.cfg ∧ o'.freezePublicationFailed = false ∧
      settledBook sources candidates pending freeze o = .ok o'.book := by
  unfold publish at h
  dsimp only at h
  split at h
  · cases h
  · rename_i b settles
    split at h
    · rename_i unchanged
      cases h
      obtain ⟨-, others, allocations, -⟩ := settledBook_eq_ok settles
      have views : b.views = o.book.views := by
        funext v
        by_cases known : v ∈ o.cfg.viewKeys
        · exact unchanged.1 v known
        · exact others v known
      have same : b = o.book := calc
        b = ⟨b.views, b.allocations, b.cycleFreezeOnly⟩ := rfl
        _ = o.book := by rw [views, allocations, unchanged.2]
      exact ⟨o, rfl, rfl, own, settles.trans (congrArg _ same)⟩
    · cases outcome : o.transact pub (.ok (o.setBook b)) with
      | mk result o' =>
        rw [outcome] at h
        cases h
        have own' : (o.setBook b).freezePublicationFailed = false := own
        obtain rfl := transact_published own' outcome
        exact ⟨_, rfl, rfl, own, settles⟩

theorem isSome_cycleReason (receipt : StartupReceipt) (o : MakerStateStore)
    (instruments : Instruments) (pending : Bool) :
    (receipt.cycleReason (.owner o instruments) pending).isSome = pending := by
  cases pending <;> rfl

theorem released {store' : BusinessStore} {pub : Publication}
    (stands : receipt.checkOwner store = .ok ())
    (h : publish sources candidates (hasPending candidates)
      (receipt.cycleReason store (hasPending candidates)) pub store = (.ok (), store')) :
    Released receipt sources candidates store store' := by
  cases store with
  | standalone store =>
    unfold publish at h
    dsimp only at h
    split at h
    · cases h
    · rename_i t settles
      obtain ⟨view, again⟩ := settledState_eq_ok settles
      obtain ⟨file, rfl⟩ : ∃ file, store' = .standalone ⟨t, file⟩ := by
        split at h
        · rename_i same
          cases h
          exact ⟨store.file, by rw [same]⟩
        · cases pub with
          | published =>
            cases h
            exact ⟨t, rfl⟩
          | failed => cases h
          | parentSyncFailed => cases h
      refine ⟨rfl, ?_, fun _ => rfl, fun _ _ => rfl, fun stays pub => ?_⟩
      · rintro v -
        exact view
      · unfold publish
        dsimp only
        rw [again (stays .taker (List.mem_singleton_self _))]
        exact if_pos rfl
  | owner o instruments =>
    simp only [StartupReceipt.checkOwner, bind_unit_eq_ok, raiseIf_eq_ok,
      Bool.not_eq_true] at stands
    obtain ⟨own, -⟩ := stands
    obtain ⟨o', rfl, cfg, own', settles⟩ := publish_owner own h
    obtain ⟨views, -, -, only, again⟩ := settledBook_eq_ok settles
    refine ⟨congrArg OwnerConfig.viewKeys cfg, views, fun _ => rfl, ?_, ?_⟩
    · intro later freeze
      simp only [StartupReceipt.checkOwner, bind_unit_eq_ok, raiseIf_eq_ok, own', only, freeze]
      refine ⟨Bool.false_ne_true, ?_⟩
      rintro ⟨-, apart⟩
      exact apart (isSome_cycleReason receipt o instruments _).symm
    · intro stays pub
      unfold publish
      dsimp only
      rw [again o' cfg rfl stays]
      exact if_pos ⟨fun _ _ => rfl, rfl⟩

theorem stays_settled (h : settledView sources candidates freeze s = .ok t) :
    Stays sources candidates freeze t := by
  simp only [settledView, bind_eq_ok, pure_eq_ok] at h
  obtain ⟨orders, statuses, intents, found, rfl⟩ := h
  have orders' : orders.traverse (nativeStatus sources) = .ok orders := by
    refine Dict.traverse_same fun cid record listed => ?_
    obtain ⟨old, -, made⟩ := Dict.traverse_back statuses listed
    unfold nativeStatus at made ⊢
    split at made
    · cases made
    · cases made
      rfl
  have intents' : intents.traverse (fun identity _ => candidateOf candidates identity) =
      .ok intents := by
    refine Dict.traverse_same fun identity intent listed => ?_
    obtain ⟨old, -, made⟩ := Dict.traverse_back found listed
    exact made
  simp only [Stays, settledView, bind_eq_ok, pure_eq_ok]
  exact ⟨orders, orders', intents, intents', rfl⟩

/-- Settled, a view keeps what its source orders were checked for. -/
theorem checkSource_settled (h : settledView sources candidates freeze s = .ok t)
    (checks : ∀ record ∈ s.sourceOrders.values, checkSource sources record = .ok ()) :
    ∀ record ∈ t.sourceOrders.values, checkSource sources record = .ok () := by
  simp only [settledView, bind_eq_ok, pure_eq_ok] at h
  obtain ⟨orders, statuses, intents, -, rfl⟩ := h
  intro record member
  obtain ⟨cid, listed⟩ := (Dict.mem_values_iff _ _).1 member
  obtain ⟨old, held, made⟩ := Dict.traverse_back statuses listed
  have checked := checks old ((Dict.mem_values_iff _ _).2 ⟨cid, held⟩)
  unfold nativeStatus at made
  split at made
  · cases made
  · cases made
    exact checked

theorem sourceOrders_settled (h : settledView sources candidates freeze s = .ok t) :
    t.sourceOrders.total Ledger.signedFilled = s.sourceOrders.total Ledger.signedFilled := by
  simp only [settledView, bind_eq_ok, pure_eq_ok] at h
  obtain ⟨orders, statuses, intents, -, rfl⟩ := h
  refine Dict.total_traverse statuses fun cid record record' made => ?_
  unfold nativeStatus at made
  split at made
  · cases made
  · cases made
    rfl

theorem intentsOf_forall₂ {R : HedgeIntent → HedgeIntent → Prop} {view view' : ViewKey → StoreState}
    {keys : List ViewKey} (views : ∀ v ∈ keys,
      List.Forall₂ R (view v).hedgeIntents.values (view' v).hedgeIntents.values) :
    List.Forall₂ (fun held held' => held'.1 = held.1 ∧ R held.2 held'.2) (intentsOf view keys)
      (intentsOf view' keys) := by
  induction keys with
  | nil => exact .nil
  | cons v keys ih =>
    rw [List.forall_mem_cons] at views
    unfold intentsOf at ih ⊢
    rw [List.flatMap_cons, List.flatMap_cons]
    refine List.rel_append ?_ (ih views.2)
    rw [List.forall₂_map_left_iff, List.forall₂_map_right_iff]
    exact views.1.imp fun i j related => ⟨rfl, related⟩

/-- A store and its settled self, obligation by obligation. -/
structure Settles (receipt : StartupReceipt) (sources hedges : Dict String Order)
    (resumeUnbound : Bool) (candidates : Dict String HedgeIntent) (store store' : BusinessStore) :
    Prop where
  released : Released receipt sources candidates store store'
  intents : List.Forall₂ (fun held held' => held'.1 = held.1 ∧
      Finalized hedges resumeUnbound receipt.rejectedHedgeOrderId held.2 held'.2)
    (intentsOf store.view store.viewKeys) (intentsOf store'.view store.viewKeys)
  listed : ∀ held ∈ intentsOf store'.view store.viewKeys, held.2 ∈ candidates.values
  again : ∀ rejectedRetryReady now, (intentsOf store'.view store.viewKeys).foldlM
    (fun (found : Dict String HedgeIntent) held => found.set held.2.intentId <$>
      settledIntent receipt hedges resumeUnbound rejectedRetryReady now held.2) .empty =
    .ok candidates

theorem settles {store' : BusinessStore} (identities : Identified store)
    (loop : store.viewKeys.foldlM
      (viewCandidates receipt sources hedges resumeUnbound rejectedRetryReady now store) .empty =
        .ok candidates)
    (released : Released receipt sources candidates store store') :
    Settles receipt sources hedges resumeUnbound candidates store store' := by
  obtain ⟨found, -⟩ := candidate_found identities loop
  have views : ∀ v ∈ store.viewKeys, List.Forall₂
      (fun i j => settledIntent receipt hedges resumeUnbound rejectedRetryReady now i = .ok j)
      (store.view v).hedgeIntents.values (store'.view v).hedgeIntents.values := by
    intro v known
    have turns := settledView_eq_ok (identities.keyed v known) (fun i member =>
      found (v, i) (HedgeProjection.mem_intentsOf.2 ⟨known, member⟩)) (released.views v known)
    unfold Dict.values
    rw [List.forall₂_map_left_iff, List.forall₂_map_right_iff]
    exact turns.imp fun e e' turn => turn.2
  have turns : List.Forall₂ (fun held held' => held'.1 = held.1 ∧
      settledIntent receipt hedges resumeUnbound rejectedRetryReady now held.2 = .ok held'.2 ∧
      Finalized hedges resumeUnbound receipt.rejectedHedgeOrderId held.2 held'.2)
      (intentsOf store.view store.viewKeys) (intentsOf store'.view store.viewKeys) := by
    refine ((List.forall₂_and_left _ _).2
      ⟨fun held member => member, intentsOf_forall₂ views⟩).imp ?_
    rintro held held' ⟨member, same, made⟩
    exact ⟨same, made, settledIntent_eq_ok (identities.bound held member) made⟩
  refine ⟨released, turns.imp fun _ _ turn => ⟨turn.1, turn.2.2⟩, ?_, ?_⟩
  · intro held' member
    obtain ⟨held, listed, -, made, -⟩ := forall₂_right turns member
    obtain ⟨j, made', candidate⟩ := found held listed
    obtain rfl : j = held'.2 := Except.ok.inj (made'.symm.trans made)
    exact (Dict.mem_values_iff _ _).2 ⟨_, candidate⟩
  · intro ready' now'
    have turn : ∀ (d d' : Dict String HedgeIntent) (held held' : ViewKey × HedgeIntent) next,
        d = d' → settledIntent receipt hedges resumeUnbound rejectedRetryReady now held.2 =
            .ok held'.2 ∧
          Finalized hedges resumeUnbound receipt.rejectedHedgeOrderId held.2 held'.2 →
        d.set held.2.intentId <$> settledIntent receipt hedges resumeUnbound rejectedRetryReady now
          held.2 = .ok next →
        ∃ next', d'.set held'.2.intentId <$> settledIntent receipt hedges resumeUnbound ready' now'
          held'.2 = .ok next' ∧ next = next' := by
      rintro d _ held held' next rfl ⟨made, finalized⟩ step
      rw [made] at step
      refine ⟨next, ?_, rfl⟩
      rw [finalized.again, finalized.keeps.intentId]
      exact step
    obtain ⟨_, loop', rfl⟩ := foldlM_simulates turn (turns.imp fun _ _ turn => turn.2) rfl
      (viewCandidates_eq_ok.1 loop).2
    exact loop'

/-- The signed source fills that the hedge fills of a store leave. -/
def unhedgedFills (store : BusinessStore) : ℚ :=
  (store.viewKeys.map fun v => (store.view v).sourceOrders.total Ledger.signedFilled).sum -
    (store.viewKeys.map fun v => (store.view v).hedgeIntents.total Ledger.signedHedged).sum

/-- What startup leaves of a store it settles: the same obligations, each completed or released. -/
structure Settlement (hedges : Dict String Order) (store store' : BusinessStore) : Prop where
  keys : store'.viewKeys = store.viewKeys
  obligations : List.Forall₂ (fun held held' => held'.1 = held.1 ∧
      Keeps held.2.toIntentFields held'.2.toIntentFields)
    (intentsOf store.view store.viewKeys) (intentsOf store'.view store.viewKeys)
  status : ∀ held ∈ intentsOf store'.view store.viewKeys,
    held.2.status = .completed ∨ held.2.status = .pending
  completed : ∀ held ∈ intentsOf store'.view store.viewKeys,
    held.2.status = .completed ↔ held.2.hedgeFilledOunces = held.2.hedgeQuantityOunces
  pending : ∀ held ∈ intentsOf store'.view store.viewKeys, held.2.status = .pending →
    held.2.hedgeClientOrderId = none ∧
    held.2.hedgeFilledOunces = planQuantity (held.2.hedgePlan.take held.2.hedgeLegIndex) ∧
    held.2.hedgeFilledOunces = filledBy hedges held.2.hedgeLegOrderIds
  halts : ∀ v ∈ store.viewKeys, (store'.view v).haltReason = none
  held : (∃ held ∈ intentsOf store'.view store.viewKeys, held.2.status = .pending) →
    ∀ v ∈ store.viewKeys, store'.canSubmitSource v = false
  fills : unhedgedFills store' = unhedgedFills store

theorem sum_intentsOf (m : HedgeIntent → ℚ) (view : ViewKey → StoreState) (keys : List ViewKey) :
    (keys.map fun v => (view v).hedgeIntents.total m).sum =
      ((intentsOf view keys).map fun held => m held.2).sum := by
  induction keys with
  | nil => rfl
  | cons v keys ih =>
    unfold intentsOf at ih ⊢
    rw [List.map_cons, List.sum_cons, ih, List.flatMap_cons, List.map_append, List.sum_append,
      List.map_map]
    rfl

theorem Settles.fills {store' : BusinessStore}
    (h : Settles receipt sources hedges resumeUnbound candidates store store') :
    unhedgedFills store' = unhedgedFills store := by
  have hedged : ((intentsOf store'.view store.viewKeys).map fun held =>
        Ledger.signedHedged held.2) =
      (intentsOf store.view store.viewKeys).map fun held => Ledger.signedHedged held.2 := by
    refine map_eq_of_forall₂ (h.intents.imp fun held held' turn => ?_)
    rw [Ledger.signedHedged, Ledger.signedHedged, turn.2.keeps.hedgeSide, turn.2.keeps.filled]
  have sourced : (store.viewKeys.map fun v =>
        (store'.view v).sourceOrders.total Ledger.signedFilled) =
      store.viewKeys.map fun v => (store.view v).sourceOrders.total Ledger.signedFilled :=
    List.map_congr_left fun v known => sourceOrders_settled (h.released.views v known)
  rw [unhedgedFills, unhedgedFills, h.released.keys, sourced, sum_intentsOf, sum_intentsOf, hedged]

theorem settledView_flags (h : settledView sources candidates freeze s = .ok t) :
    t.haltReason = none ∧ t.sourceFreezeReason = freeze.map Subtype.val := by
  simp only [settledView, bind_eq_ok, pure_eq_ok] at h
  obtain ⟨orders, -, intents, -, rfl⟩ := h
  exact ⟨rfl, rfl⟩

/-- While an obligation is pending, no view takes a source order: a standalone store has it before
its eyes, an owner's views are frozen. -/
theorem Settles.held {store' : BusinessStore}
    (h : Settles receipt sources hedges resumeUnbound candidates store store')
    (pending : ∃ held ∈ intentsOf store'.view store.viewKeys, held.2.status = .pending) :
    ∀ v ∈ store.viewKeys, store'.canSubmitSource v = false := by
  obtain ⟨⟨v₀, i⟩, member, status⟩ := pending
  have some' : hasPending candidates = true :=
    List.any_eq_true.2 ⟨i, h.listed _ member, by simpa using status⟩
  intro v known
  have kind := h.released.kind receipt
  cases store' with
  | standalone store' =>
    have unfinished : store'.memory.allCompleted = false := by
      rw [StoreState.allCompleted, List.all_eq_false]
      refine ⟨i, (HedgeProjection.mem_intentsOf.1 member).2, ?_⟩
      rw [status]
      decide
    simp [BusinessStore.canSubmitSource, StoreState.canSubmitSource, unfinished]
  | owner o instruments =>
    obtain ⟨-, frozen⟩ := settledView_flags (h.released.views v known)
    have frozen' : ((BusinessStore.owner o instruments).view v).sourceFreezeReason.isSome := by
      rw [frozen, some', ← kind, Option.isSome_map, isSome_cycleReason]
    have blocked : (o.view v).sourceFreezeReason ≠ none := Option.isSome_iff_ne_none.1 frozen'
    simp [BusinessStore.canSubmitSource, StoreState.canSubmitSource, blocked]

theorem Settles.settlement {store' : BusinessStore}
    (h : Settles receipt sources hedges resumeUnbound candidates store store') :
    Settlement hedges store store' := by
  have finalized {held : ViewKey × HedgeIntent}
      (member : held ∈ intentsOf store'.view store.viewKeys) : ∃ i,
        Finalized hedges resumeUnbound receipt.rejectedHedgeOrderId i held.2 := by
    obtain ⟨old, -, -, made⟩ := forall₂_right h.intents member
    exact ⟨old.2, made⟩
  refine ⟨h.released.keys, h.intents.imp fun _ _ turn => ⟨turn.1, turn.2.keeps⟩, ?_, ?_, ?_,
    fun v known => (settledView_flags (h.released.views v known)).1, h.held, h.fills⟩
  · intro held member
    obtain ⟨i, made⟩ := finalized member
    rw [made.status, settledStatus]
    split
    · exact .inl rfl
    · exact .inr rfl
  · intro held member
    obtain ⟨i, made⟩ := finalized member
    rw [made.status, settledStatus]
    split
    · rename_i done
      exact iff_of_true rfl done
    · rename_i left
      exact iff_of_false nofun left
  · intro held member
    obtain ⟨i, made⟩ := finalized member
    exact made.pending

theorem candidatesOf_eq_ok :
    candidatesOf receipt sources hedges resumeUnbound rejectedRetryReady now store =
        .ok candidates ↔
      receipt.check store = .ok () ∧ receipt.eligible = true ∧
      checkTarget receipt store = .ok () ∧
      store.viewKeys.foldlM
        (viewCandidates receipt sources hedges resumeUnbound rejectedRetryReady now store) .empty =
          .ok candidates := by
  unfold candidatesOf
  simp only [bind_unit_eq_ok, raiseIf_eq_ok, Bool.not_eq_false]

theorem checkTarget_eq_ok : checkTarget receipt store = .ok () ↔
    ∀ target ∈ receipt.rejectedHedgeOrderId,
      ((intentsOf store.view store.viewKeys).map fun held => held.2.hedgeOrderIds).countP
        (fun ids => target ∈ ids) = 1 := by
  have flat : (store.viewKeys.flatMap fun v => (store.view v).hedgeIntents.values) =
      (intentsOf store.view store.viewKeys).map Prod.snd := by
    simp [intentsOf, List.map_flatMap, Function.comp_def]
  simp only [checkTarget, raiseIf_eq_ok, not_exists, not_and, not_not, flat,
    ← List.countP_eq_length_filter, List.countP_map]
  rfl

/-- A settled receipt names the freeze it left on each view. -/
theorem settledReceipt_freezes (reason : Reason) :
    (settledReceipt receipt store (some reason)).freezes.entries =
      store.viewKeys.map fun v => (v, reason) := by
  apply Dict.entries_ofList_of_nodup
  rw [List.map_map]
  simpa [Function.comp_def] using store.viewKeys_nodup

theorem settledReceipt_freeze {v : ViewKey} (known : v ∈ store.viewKeys) :
    (settledReceipt receipt store freeze).freeze v = freeze.map Subtype.val := by
  cases freeze with
  | none => rfl
  | some reason =>
    have found : (settledReceipt receipt store (some reason)).freezes.get? v = some reason := by
      rw [← Dict.mem_entries_iff, settledReceipt_freezes]
      exact List.mem_map_of_mem known
    rw [StartupReceipt.freeze, found]

theorem cycleReason_again (pending : Bool) :
    (settledReceipt receipt store (receipt.cycleReason store pending)).cycleReason store pending =
      receipt.cycleReason store pending := by
  cases store with
  | standalone => rfl
  | owner o instruments =>
    cases pending with
    | false => rfl
    | true =>
      have first (reason : Reason) :
          (settledReceipt receipt (.owner o instruments) (some reason)).freezes.values.head? =
            some reason := by
        rw [Dict.values, settledReceipt_freezes, BusinessStore.viewKeys, OwnerConfig.viewKeys]
        split <;> rfl
      simp only [StartupReceipt.cycleReason, if_true, first, Option.getD_some]

/-- The receipt of a settled store stands for it. -/
theorem Settles.check {store' : BusinessStore}
    (h : Settles receipt sources hedges resumeUnbound candidates store store')
    (stands : receipt.check store = .ok ()) :
    (settledReceipt receipt store
        (receipt.cycleReason store (hasPending candidates))).check store' = .ok () := by
  unfold StartupReceipt.check at stands ⊢
  simp only [bind_unit_eq_ok, raiseIf_eq_ok] at stands ⊢
  obtain ⟨published, reviewed, -, -⟩ := stands
  refine ⟨published, reviewed, h.released.owner _ rfl, ?_⟩
  rintro ⟨-, v, known, apart⟩
  rw [h.released.keys] at known
  obtain ⟨halt, freeze⟩ := settledView_flags (h.released.views v known)
  rw [settledReceipt_freeze known, halt, freeze] at apart
  rcases apart with halted | frozen
  · exact halted rfl
  · exact frozen rfl

theorem Settles.candidatesAgain {store' : BusinessStore}
    (h : Settles receipt sources hedges resumeUnbound candidates store store')
    (first : candidatesOf receipt sources hedges resumeUnbound rejectedRetryReady now store =
      .ok candidates) (ready' : Bool) (now' : ℚ) :
    candidatesOf (settledReceipt receipt store (receipt.cycleReason store (hasPending candidates)))
      sources hedges resumeUnbound ready' now' store' = .ok candidates := by
  obtain ⟨stands, eligible, target, loop⟩ := candidatesOf_eq_ok.1 first
  have checks := (viewCandidates_eq_ok.1 loop).1
  refine candidatesOf_eq_ok.2 ⟨h.check stands, eligible, ?_, ?_⟩
  · rw [checkTarget_eq_ok] at target ⊢
    have orders : (intentsOf store'.view store.viewKeys).map (fun held => held.2.hedgeOrderIds) =
        (intentsOf store.view store.viewKeys).map fun held => held.2.hedgeOrderIds :=
      map_eq_of_forall₂ (h.intents.imp fun _ _ turn => turn.2.keeps.orders)
    rw [h.released.keys, orders]
    exact target
  · rw [viewCandidates_eq_ok, h.released.keys]
    refine ⟨fun v known => checkSource_settled (h.released.views v known) (checks v known), ?_⟩
    exact h.again ready' now'

/-- Where settlement returns, its candidate stands in the store, and the receipt says so. -/
theorem settleCompleted_eq_ok {store' : BusinessStore} {receipt' : StartupReceipt}
    {sourceOrders hedgeOrders : List Order} {pub : Publication} :
    settleCompleted receipt resumeUnbound rejectedRetryReady now store sourceOrders hedgeOrders
        pub = (.ok (), store', receipt') ↔
      ∃ candidates, candidatesOf receipt (byId sourceOrders) (byId hedgeOrders) resumeUnbound
          rejectedRetryReady now store = .ok candidates ∧
        publish (byId sourceOrders) candidates (hasPending candidates)
          (receipt.cycleReason store (hasPending candidates)) pub store = (.ok (), store') ∧
        settledReceipt receipt store (receipt.cycleReason store (hasPending candidates)) =
          receipt' := by
  constructor
  · intro h
    unfold settleCompleted at h
    dsimp only at h
    split at h
    · cases h
    · rename_i candidates made
      split at h
      · rename_i published
        cases h
        exact ⟨candidates, made, published, rfl⟩
      · cases h
  · rintro ⟨candidates, made, published, rfl⟩
    simp only [settleCompleted, made, published]

theorem publish_eq_error {store' : BusinessStore} {pending : Bool} {pub : Publication} {e : Raised}
    (h : publish sources candidates pending freeze pub store = (.error e, store'))
    (other : e ≠ .parentDirectorySyncError) : store' = store := by
  cases store with
  | standalone store =>
    unfold publish at h
    dsimp only at h
    split at h
    · cases h
      rfl
    · split at h
      · cases h
      · cases pub with
        | published => cases h
        | failed =>
          cases h
          rfl
        | parentSyncFailed =>
          cases h
          exact absurd rfl other
  | owner o instruments =>
    unfold publish at h
    dsimp only at h
    split at h
    · cases h
      rfl
    · rename_i b settles
      split at h
      · cases h
      · cases outcome : o.transact pub (.ok (o.setBook b)) with
        | mk result o' =>
          rw [outcome] at h
          cases h
          have rest : ∀ changed, Except.ok (o.setBook b) = (.ok changed : Except Raised _) →
              changed.cfg = o.cfg ∧ changed.committed = o.committed ∧
                changed.freezePublicationFailed = o.freezePublicationFailed := by
            rintro _ ⟨⟩
            exact ⟨rfl, rfl, rfl⟩
          rw [HedgeProjection.transact_error rest outcome other]

/-- A settlement that raises before it is published leaves the store as it was. -/
theorem settleCompleted_eq_error {store' : BusinessStore} {receipt' : StartupReceipt}
    {sourceOrders hedgeOrders : List Order} {pub : Publication} {e : Raised}
    (h : settleCompleted receipt resumeUnbound rejectedRetryReady now store sourceOrders hedgeOrders
      pub = (.error e, store', receipt')) (other : e ≠ .parentDirectorySyncError) :
    store' = store := by
  unfold settleCompleted at h
  dsimp only at h
  split at h
  · cases h
    rfl
  · split at h
    · cases h
    · rename_i failed
      cases h
      exact publish_eq_error failed other

theorem Settles.rerun {store' : BusinessStore} {sourceOrders hedgeOrders : List Order}
    (h : Settles receipt (byId sourceOrders) (byId hedgeOrders) resumeUnbound candidates store
      store')
    (first : candidatesOf receipt (byId sourceOrders) (byId hedgeOrders) resumeUnbound
      rejectedRetryReady now store = .ok candidates) (ready' : Bool) (now' : ℚ)
    (pub : Publication) :
    settleCompleted (settledReceipt receipt store
        (receipt.cycleReason store (hasPending candidates))) resumeUnbound ready' now' store'
        sourceOrders hedgeOrders pub =
      (.ok (), store', settledReceipt receipt store
        (receipt.cycleReason store (hasPending candidates))) := by
  refine settleCompleted_eq_ok.2 ⟨candidates, h.candidatesAgain first ready' now', ?_, ?_⟩
  · rw [h.released.kind, cycleReason_again]
    exact h.released.again (fun v known => stays_settled (h.released.views v known)) pub
  · rw [h.released.kind, cycleReason_again]
    simp only [settledReceipt, h.released.keys]

/-- The hedge fills of a store that was just projected are all seen. -/
theorem identified_projected {before : BusinessStore} {orders : List Order} {route : NativeRoute}
    {reason : String} {n : ℕ} {pub : Publication}
    (h : HedgeProjection.projectHedgeFills before orders route reason pub = (.ok n, store)) :
    Identified store := by
  unfold HedgeProjection.projectHedgeFills at h
  split at h
  · cases h
  · rename_i missing validates
    split at h
    · cases h
      exact identified validates
    · cases outcome : HedgeProjection.publish before reason missing pub with
      | mk result after =>
        rw [outcome] at h
        cases result with
        | error e => cases h
        | ok u =>
          cases h
          exact identified (HedgeProjection.missingFills_again validates outcome)

/-- Startup settles every store whose hedge fills have just been projected: each obligation is
completed or released, its fills stay, and a second run changes nothing; where it raises before it
has published, the store is as it was. -/
theorem settleCompleted_settles (before store : BusinessStore) (receipt : StartupReceipt)
    (sourceOrders hedgeOrders : List Order) (route : NativeRoute) (reason : String) (n : ℕ)
    (projected pub : Publication) (resumeUnbound rejectedRetryReady : Bool) (now : ℚ)
    (projects : HedgeProjection.projectHedgeFills before hedgeOrders route reason projected =
      (.ok n, store)) :
    (∀ store' receipt', settleCompleted receipt resumeUnbound rejectedRetryReady now store
        sourceOrders hedgeOrders pub = (.ok (), store', receipt') →
      Settlement (byId hedgeOrders) store store' ∧ ∀ ready' now' again,
        settleCompleted receipt' resumeUnbound ready' now' store' sourceOrders hedgeOrders again =
          (.ok (), store', receipt')) ∧
    ∀ e store' receipt', settleCompleted receipt resumeUnbound rejectedRetryReady now store
        sourceOrders hedgeOrders pub = (.error e, store', receipt') →
      e ≠ .parentDirectorySyncError → store' = store := by
  refine ⟨fun store' receipt' h => ?_, fun e store' receipt' h other =>
    settleCompleted_eq_error h other⟩
  obtain ⟨candidates, first, published, rfl⟩ := settleCompleted_eq_ok.1 h
  obtain ⟨stands, -, -, loop⟩ := candidatesOf_eq_ok.1 first
  have owns : receipt.checkOwner store = .ok () := by
    simp only [StartupReceipt.check, bind_unit_eq_ok] at stands
    exact stands.2.2.1
  have settled := settles (identified_projected projects) loop (released owns published)
  exact ⟨settled.settlement, settled.rerun first⟩

end Views

section Witness

open HedgeProjection (filledOrder secondLeg projectHedgeFills intentsOf)

/-- The second of two legs of one ounce is rejected. -/
def rejectedLeg : List StoreOp :=
  secondLeg ++ [.updateHedgeStatus "H-2" .rejected (some "REJECTED")]

def rejectedOrder (cid : String) : Order :=
  let owner : EventOwner := ⟨"TRADER", "HEDGE", "XAUUSD", cid⟩
  { filledOrder cid "" "" with
    venueOrderId := none
    positionId := none
    filledQty := 0
    status := .rejected
    tradeIds := []
    events := [.initialized ⟨owner, .sell, .market, .fok, 1, false, false⟩, .other owner none] }

/-- The receipt of a start-up that reviewed the rejection of `H-2`. -/
def reviewedReceipt : StartupReceipt :=
  { eligible := true
    halts := Dict.ofList [(.taker, "hedge H-2 has unresolved status REJECTED")]
    freezes := .empty
    publicationFailed := false
    makerCycleFreeze := false
    rejectedHedgeOrderId := some "H-2"
    reviewRevoked := false
    retryDeadline := some 30 }

theorem settleCompleted_settles_rejectedLeg : ∃ before store store' hedgeOrders,
    ∃ route : NativeRoute, ∃ sourceOrders receipt',
      projectHedgeFills before hedgeOrders route "RECOVERY" .published = (.ok 0, store) ∧
      settleCompleted reviewedReceipt true true 0 store sourceOrders hedgeOrders .published =
        (.ok (), store', receipt') ∧
      Settlement (byId hedgeOrders) store store' ∧
      ∃ held ∈ intentsOf store'.view store.viewKeys, held.2.status = .pending := by
  let before : BusinessStore :=
    .standalone (JsonStateStore.empty.run (fun _ => "d31eeeaaf150156a8ad133b4") rejectedLeg)
  let hedgeOrders := [filledOrder "H-1" "V-1" "D-1", rejectedOrder "H-2"]
  let sourceOrders := [{ filledOrder "O-1" "V-1" "T-1" with
    side := .buy, quantity := 2, filledQty := 2 }]
  let route : NativeRoute := ⟨"XAUUSD", "TRADER", "HEDGE"⟩
  let projected := projectHedgeFills before hedgeOrders route "RECOVERY" .published
  let settled := settleCompleted reviewedReceipt true true 0 projected.2 sourceOrders hedgeOrders
    .published
  have caught : projected = (.ok 0, projected.2) := Prod.ext (by decide +kernel) rfl
  have done : settled = (.ok (), settled.2.1, settled.2.2) := Prod.ext (by decide +kernel) rfl
  have pending : ∃ held ∈ intentsOf settled.2.1.view projected.2.viewKeys,
      held.2.status = .pending := by
    decide +kernel
  have all := settleCompleted_settles before projected.2 reviewedReceipt sourceOrders hedgeOrders
    route "RECOVERY" 0 .published .published true true 0 caught
  exact ⟨before, projected.2, settled.2.1, hedgeOrders, route, sourceOrders, settled.2.2, caught,
    done, (all.1 _ _ done).1, pending⟩

end Witness

end ArbNautilus.Store.RestartRecovery
